import IraOS.Lib.Act
import Mathlib.Data.Finset.Lattice.Basic

/-!
# Pipelines of stages

A pipeline hands a context from stage to stage. Some parts of the context are there from the
beginning, others are what earlier stages put in it, and a stage that looks for one that is not
there raises. Which stages look for what and put what in is `Flow`; `StagesReady` checks a list of
stages against it without running anything.

Where every stage keeps to its flow (`Flows`) the check is exact: **a pipeline that was ever run to
its end is ready**, and every stage of a ready one finds what it looks for.

## What the check does not say

A flow says that a part is there, and not what it is. That is for the stages themselves: a part that
one kind of stage alone writes is what the last stage of that kind has made it, whatever comes after
(`runStages_last`). So what a pipeline answers is read off its last writer, and that it answers at
all is read off the check.

Nor does readiness say that a run comes to its end: a stage that finds everything may still raise,
for reasons of its own. A ready pipeline is one that never raises for want of a part.

Stages are named by kinds and not by objects. A list may have any number of each kind, in any order,
and both results are about all of these lists.
-/

set_option autoImplicit false

namespace Lib

/-- What a stage looks for in the context, and what it puts in. -/
structure Flow (φ : Type) where
  needs : Finset φ
  gives : Finset φ

/-- Every stage has what it looks for, where `parts` is there to begin with, and `goal` is there at
the end. -/
def StagesReady {ι φ : Type} [DecidableEq φ] (flow : ι → Flow φ) (goal : Finset φ) :
    Finset φ → List ι → Prop
  | parts, [] => goal ⊆ parts
  | parts, i :: rest => (flow i).needs ⊆ parts ∧ StagesReady flow goal (parts ∪ (flow i).gives) rest

instance decidableReady {ι φ : Type} [DecidableEq φ] {flow : ι → Flow φ} {goal : Finset φ} :
    (parts : Finset φ) → (stages : List ι) → Decidable (StagesReady flow goal parts stages)
  | parts, [] => inferInstanceAs (Decidable (goal ⊆ parts))
  | parts, i :: rest =>
    have : Decidable (StagesReady flow goal (parts ∪ (flow i).gives) rest) := decidableReady _ rest
    inferInstanceAs (Decidable ((flow i).needs ⊆ parts ∧ _))

/-! ## Running -/

def runStages {ι κ σ ε τ : Type} (run : ι → κ → Act σ ε τ κ) : List ι → κ → Act σ ε τ κ
  | [], c => pure c
  | i :: rest, c => do
    let c ← run i c
    runStages run rest c

theorem runStages_append {ι κ σ ε τ : Type} (run : ι → κ → Act σ ε τ κ) (pre post : List ι)
    (c : κ) : runStages run (pre ++ post) c =
      runStages run pre c >>= fun c => runStages run post c := by
  induction pre generalizing c with
  | nil =>
    funext s
    rfl
  | cons i rest ih =>
    rw [List.cons_append, runStages, runStages, Act.bind_assoc]
    congr 1
    funext c'
    exact ih c'

section Writing

variable {ι κ σ ε τ α : Type} {run : ι → κ → Act σ ε τ κ} {view : κ → α} {writer : ι}
  (hkeeps : ∀ {i c c' s s' t}, i ≠ writer → run i c s = ⟨.ok c', s', t⟩ → view c' = view c)

include hkeeps

theorem runStages_view {stages : List ι} (hno : writer ∉ stages) {c c' : κ} {s s' : σ} {t : List τ}
    (hr : runStages run stages c s = ⟨.ok c', s', t⟩) : view c' = view c := by
  induction stages generalizing c s t with
  | nil =>
    obtain ⟨rfl, -, -⟩ := Act.pure_ok hr
    rfl
  | cons i rest ih =>
    rw [List.mem_cons, not_or] at hno
    obtain ⟨c₁, s₁, t₁, t₂, hi, hrest, -⟩ := Act.bind_ok hr
    exact (ih hno.2 hrest).trans (hkeeps (Ne.symm hno.1) hi)

/-- What a part is at the end is what the last stage that writes it has written. -/
theorem runStages_last {stages : List ι} (hmem : writer ∈ stages) {c c' : κ} {s s' : σ}
    {t : List τ} (hr : runStages run stages c s = ⟨.ok c', s', t⟩) :
    ∃ pre post c₁ s₁ t₁ c₂ s₂ t₂, stages = pre ++ writer :: post ∧ writer ∉ post ∧
      runStages run pre c s = ⟨.ok c₁, s₁, t₁⟩ ∧ run writer c₁ s₁ = ⟨.ok c₂, s₂, t₂⟩ ∧
      view c' = view c₂ := by
  -- the last one is the first one from behind
  obtain ⟨later, earlier, hsplit, hlater⟩ :=
    List.eq_append_cons_of_mem (List.mem_reverse.mpr hmem)
  have hstages : stages = earlier.reverse ++ writer :: later.reverse := by
    rw [← List.reverse_reverse stages, hsplit]
    simp
  have hno : writer ∉ later.reverse := fun h => hlater (List.mem_reverse.mp h)
  rw [hstages, runStages_append] at hr
  obtain ⟨c₁, s₁, t₁, t', hpre, hr, -⟩ := Act.bind_ok hr
  obtain ⟨c₂, s₂, t₂, t'', hwriter, hpost, -⟩ := Act.bind_ok hr
  exact ⟨_, _, c₁, s₁, t₁, c₂, s₂, t₂, hstages, hno, hpre, hwriter,
    runStages_view hkeeps hno hpost⟩

end Writing

section

variable {ι κ σ ε τ φ : Type} [DecidableEq φ] {run : ι → κ → Act σ ε τ κ} {flow : ι → Flow φ}
  {defined : κ → Finset φ}

/-- A stage that returns had what it looks for, has put in what it is to, and has taken nothing
out. -/
structure Flows (run : ι → κ → Act σ ε τ κ) (flow : ι → Flow φ) (defined : κ → Finset φ) :
    Prop where
  returns : ∀ {i c c' s s' t}, run i c s = ⟨.ok c', s', t⟩ →
    (flow i).needs ⊆ defined c ∧ defined c' = defined c ∪ (flow i).gives

namespace Flows

variable (h : Flows run flow defined) {goal : Finset φ} {stages : List ι} {c c' : κ} {s s' : σ}
  {t : List τ}

include h

/-- A run that came to its end, with the goal there, was one of a ready pipeline. -/
theorem ready (hr : runStages run stages c s = ⟨.ok c', s', t⟩) (hgoal : goal ⊆ defined c') :
    StagesReady flow goal (defined c) stages := by
  induction stages generalizing c s t with
  | nil =>
    obtain ⟨rfl, -, -⟩ := Act.pure_ok hr
    exact hgoal
  | cons i rest ih =>
    obtain ⟨c₁, s₁, t₁, t₂, hi, hrest, -⟩ := Act.bind_ok hr
    obtain ⟨hneeds, hdefined⟩ := h.returns hi
    exact ⟨hneeds, hdefined ▸ ih hrest⟩

theorem ready_rest {pre post : List ι} (hready : StagesReady flow goal (defined c) (pre ++ post))
    (hr : runStages run pre c s = ⟨.ok c', s', t⟩) : StagesReady flow goal (defined c') post := by
  induction pre generalizing c s t with
  | nil =>
    obtain ⟨rfl, -, -⟩ := Act.pure_ok hr
    exact hready
  | cons i rest ih =>
    obtain ⟨c₁, s₁, t₁, t₂, hi, hrest, -⟩ := Act.bind_ok hr
    exact ih ((h.returns hi).2 ▸ hready.2) hrest

/-- Whenever a stage of a ready pipeline is reached, it finds what it looks for. -/
theorem supplied {pre post : List ι} {i : ι}
    (hready : StagesReady flow goal (defined c) (pre ++ i :: post))
    (hr : runStages run pre c s = ⟨.ok c', s', t⟩) : (flow i).needs ⊆ defined c' :=
  (h.ready_rest hready hr).1

/-- A ready pipeline that comes to its end has the goal there. -/
theorem reaches (hready : StagesReady flow goal (defined c) stages)
    (hr : runStages run stages c s = ⟨.ok c', s', t⟩) : goal ⊆ defined c' := by
  rw [← List.append_nil stages] at hready
  exact h.ready_rest hready hr

end Flows

end

end Lib
