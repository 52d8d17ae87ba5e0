import IraOS.Lib.Greedy
import Mathlib.Data.List.Perm.Subperm
import Mathlib.Logic.Function.Basic

/-!
# Kahn's worklist

Elements with what they need listed, possibly more than once; a degree for each that counts its
listings not met yet; and a worklist of those whose degree has come down to zero. Taking the least
of the worklist by a key, round after round, makes a greedy order (`Sound.take`), and a worklist
that runs dry has taken everything or leaves a cycle (`Sound.perm_or_cycle`).

## Two bookkeeping choices that do not matter

How the worklist is kept does not matter: `Sound` only says what is in it. A program may sort it
before each round, or keep it sorted by putting each newcomer in its place; the second is `release`
up to the order of what is ready (`Reordered`), and what is sound stays sound (`Sound.reordered`).

Nor does it matter whether a need that is listed twice counts twice, as long as it is counted and
released alike: the degree of an element is the number of listings that are not met, and it is zero
just where the element is ready, duplicates or not (`Sound.ready_iff`).

## How it is used

A program's loop is an instance once its state is read as a `Worklist` and one round of it is shown
to be `take`, up to `Reordered`. Then `Sound` is its invariant, `Sound.take` its step lemma, and
what the loop has put together when the worklist is empty is the one greedy order of all elements,
or there is a cycle among those that are left. Nothing about orders or cycles has to be proved again
for the program.
-/

set_option autoImplicit false

namespace Lib

/-- The state of the loop: what has been taken, the degree of every element, and those that are
ready. -/
structure Worklist (α : Type) where
  degree : α → Int
  ready : List α
  order : List α

namespace Worklist

variable {α κ : Type} [DecidableEq α] [LinearOrder κ]

/-- One listing of `x` is met: its degree goes down, and it joins the worklist when nothing is
left. -/
def release (w : Worklist α) (x : α) : Worklist α where
  degree := Function.update w.degree x (w.degree x - 1)
  ready := if w.degree x - 1 = 0 then w.ready ++ [x] else w.ready
  order := w.order

/-- One round: `x` is taken, with `rest` left of the worklist, and each of its dependents is
released, as often as it is listed. -/
def take (w : Worklist α) (dependents : List α) (x : α) (rest : List α) : Worklist α :=
  dependents.foldl release { w with ready := rest, order := w.order ++ [x] }

/-- The worklist has the elements that are not taken and whose degree is zero, each of them once,
and no others. -/
structure Listed (all : List α) (w : Worklist α) : Prop where
  nodup : w.ready.Nodup
  mem : ∀ c, c ∈ w.ready ↔ c ∈ all ∧ c ∉ w.order ∧ w.degree c = 0

structure Sound (needs : α → List α) (key : α → κ) (all : List α) (w : Worklist α) : Prop where
  listed : w.Listed all
  degree : ∀ c ∈ all, w.degree c = (needs c).countP fun d => decide (d ∉ w.order)
  greedy : Greedy (fun c d => d ∈ needs c) key all w.order

/-! ## Releasing -/

@[simp] theorem release_order (w : Worklist α) (x : α) : (w.release x).order = w.order := rfl

theorem release_degree (w : Worklist α) (x c : α) :
    (w.release x).degree c = w.degree c - if c = x then 1 else 0 := by
  by_cases hc : c = x
  · subst hc
    simp [release]
  · simp [release, hc]

theorem releaseAll_order (ns : List α) (w : Worklist α) :
    (ns.foldl release w).order = w.order := by
  induction ns generalizing w with
  | nil => rfl
  | cons n ns ih => rw [List.foldl_cons, ih, release_order]

theorem releaseAll_degree (ns : List α) (w : Worklist α) (c : α) :
    (ns.foldl release w).degree c = w.degree c - ns.count c := by
  induction ns generalizing w with
  | nil => simp
  | cons n ns ih =>
    rw [List.foldl_cons, ih, release_degree, List.count_cons]
    by_cases hc : c = n
    · simp [hc]
      omega
    · have hn : ¬ n = c := fun h => hc h.symm
      simp [hc, hn]

variable {all : List α} {w : Worklist α}

theorem Listed.release (h : w.Listed all) {x : α} (hx : x ∈ all) (hnot : x ∉ w.order)
    (hdeg : 1 ≤ w.degree x) : (w.release x).Listed all := by
  have hnew : x ∉ w.ready := by
    intro hmem
    have h0 := ((h.mem x).mp hmem).2.2
    omega
  refine ⟨?_, ?_⟩
  · simp only [Worklist.release]
    split
    · exact List.nodup_append.mpr ⟨h.nodup, List.nodup_singleton x, by
        intro a ha b hb hab
        exact hnew (List.mem_singleton.mp hb ▸ hab ▸ ha)⟩
    · exact h.nodup
  · intro c
    rw [release_order, release_degree]
    by_cases hc : c = x
    · subst hc
      simp only [Worklist.release]
      split
      · next h0 => simpa [hx, hnot] using h0
      · next h0 => simpa [hx, hnot, hnew] using h0
    · simp only [Worklist.release]
      have hmem := h.mem c
      split
      · simpa [hc] using hmem
      · simpa [hc] using hmem

theorem Listed.releaseAll {ns : List α} (h : w.Listed all)
    (hin : ∀ c ∈ ns, c ∈ all ∧ c ∉ w.order) (hdeg : ∀ c ∈ ns, (ns.count c : Int) ≤ w.degree c) :
    (ns.foldl Worklist.release w).Listed all := by
  induction ns generalizing w with
  | nil => exact h
  | cons n ns ih =>
    have hn := hin n List.mem_cons_self
    have hndeg := hdeg n List.mem_cons_self
    rw [List.count_cons_self] at hndeg
    refine ih (h.release hn.1 hn.2 (by omega)) (fun c hc => hin c (List.mem_cons_of_mem _ hc)) ?_
    intro c hc
    have hle := hdeg c (List.mem_cons_of_mem _ hc)
    rw [List.count_cons] at hle
    rw [release_degree]
    by_cases hq : c = n
    · simp only [hq, beq_self_eq_true, if_true] at hle ⊢
      omega
    · have hq' : (n == c) = false := beq_eq_false_iff_ne.mpr fun h => hq h.symm
      simp only [hq', if_neg hq] at hle ⊢
      simpa using hle

/-! ## Taking the least -/

variable {needs : α → List α} {key : α → κ}

theorem Sound.ready_iff (h : w.Sound needs key all) {c : α} (hc : c ∈ all) :
    Ready (fun c d => d ∈ needs c) w.order c ↔ w.degree c = 0 := by
  rw [h.degree c hc, Int.natCast_eq_zero, List.countP_eq_zero, Ready]
  simp

theorem Sound.ready_of_taken (h : w.Sound needs key all) {c : α} (hc : c ∈ w.order) :
    Ready (fun c d => d ∈ needs c) w.order c := by
  obtain ⟨pre, post, hq⟩ := List.append_of_mem hc
  intro d hd
  rw [hq]
  exact List.mem_append_left _ ((h.greedy pre c post hq).ready d hd)

theorem countP_untaken {taken : List α} {x : α} (hx : x ∉ taken) (l : List α) :
    l.countP (fun d => decide (d ∉ taken))
      = l.countP (fun d => decide (d ∉ taken ++ [x])) + l.count x := by
  induction l with
  | nil => rfl
  | cons d l ih =>
    rw [List.countP_cons, List.countP_cons, List.count_cons, ih]
    by_cases hd : d = x
    · simp [hd, hx]
      omega
    · simp [hd]
      omega

variable {x : α} {rest dependents : List α}

theorem Sound.leastReady (h : w.Sound needs key all) (hready : w.ready.Perm (x :: rest))
    (hleast : ∀ y ∈ rest, key x ≤ key y) :
    LeastReady (fun c d => d ∈ needs c) key all w.order x := by
  have hx : x ∈ w.ready := hready.mem_iff.mpr List.mem_cons_self
  obtain ⟨hmem, hnot, h0⟩ := (h.listed.mem x).mp hx
  refine ⟨hmem, hnot, (h.ready_iff hmem).mpr h0, ?_⟩
  intro y hy hyn hyready
  have hmem' := (h.listed.mem y).mpr ⟨hy, hyn, (h.ready_iff hy).mp hyready⟩
  rcases List.mem_cons.mp (hready.mem_iff.mp hmem') with rfl | hin
  · exact le_refl _
  · exact hleast y hin

/-- **A round keeps the loop sound**: the least of the worklist is taken, and everything that lists
it is released as often as it does. -/
theorem Sound.take (h : w.Sound needs key all) (hready : w.ready.Perm (x :: rest))
    (hleast : ∀ y ∈ rest, key x ≤ key y) (hin : ∀ c ∈ dependents, c ∈ all)
    (hcount : ∀ c ∈ all, dependents.count c = (needs c).count x) :
    (w.take dependents x rest).Sound needs key all := by
  have htaken := h.leastReady hready hleast
  have hnodup : (x :: rest).Nodup := hready.nodup_iff.mp h.listed.nodup
  have hsplit : ∀ c ∈ all, w.degree c
      = (needs c).countP (fun d => decide (d ∉ w.order ++ [x])) + (needs c).count x := by
    intro c hc
    rw [h.degree c hc, countP_untaken htaken.notTaken, Int.natCast_add]
  have hlisted : Listed all { w with ready := rest, order := w.order ++ [x] } := by
    refine ⟨(List.nodup_cons.mp hnodup).2, ?_⟩
    intro c
    have hmem := h.listed.mem c
    rw [hready.mem_iff, List.mem_cons] at hmem
    show c ∈ rest ↔ c ∈ all ∧ c ∉ w.order ++ [x] ∧ _
    rw [List.mem_append, List.mem_singleton, not_or]
    constructor
    · intro hc
      obtain ⟨h1, h2, h3⟩ := hmem.mp (Or.inr hc)
      exact ⟨h1, ⟨h2, fun he => (List.nodup_cons.mp hnodup).1 (he ▸ hc)⟩, h3⟩
    · rintro ⟨h1, ⟨h2, hne⟩, h3⟩
      exact (hmem.mpr ⟨h1, h2, h3⟩).resolve_left hne
  -- a dependent still waits for what is taken now, so it is not taken itself
  have hwaits : ∀ c ∈ dependents, c ∉ w.order ++ [x] := by
    intro c hc hplaced
    have hpos : 0 < (needs c).count x := by
      rw [← hcount c (hin c hc)]
      exact List.count_pos_iff.mpr hc
    have hready' : Ready (fun c d => d ∈ needs c) w.order c := by
      rcases List.mem_append.mp hplaced with hplaced | hplaced
      · exact h.ready_of_taken hplaced
      · rw [List.mem_singleton.mp hplaced]
        exact htaken.ready
    have h0 := (h.ready_iff (hin c hc)).mp hready'
    have h1 := hsplit c (hin c hc)
    omega
  refine ⟨?_, ?_, ?_⟩
  · refine hlisted.releaseAll (fun c hc => ⟨hin c hc, hwaits c hc⟩) ?_
    intro c hc
    rw [hcount c (hin c hc)]
    have h1 := hsplit c (hin c hc)
    show _ ≤ w.degree c
    omega
  · intro c hc
    rw [Worklist.take, releaseAll_degree, releaseAll_order, hcount c hc]
    have h1 := hsplit c hc
    dsimp only
    omega
  · rw [Worklist.take, releaseAll_order]
    exact h.greedy.snoc htaken

/-! ## A worklist in another order -/

/-- Two states of the loop that differ at most in the order of what is ready. The loop takes the
least of what is ready, so a round keeps them so. -/
structure Reordered (w w' : Worklist α) : Prop where
  degree : w'.degree = w.degree
  ready : w'.ready.Perm w.ready
  order : w'.order = w.order

omit [DecidableEq α] in
theorem Reordered.trans {w₁ w₂ w₃ : Worklist α} (h : w₁.Reordered w₂) (h' : w₂.Reordered w₃) :
    w₁.Reordered w₃ where
  degree := h'.degree.trans h.degree
  ready := h'.ready.trans h.ready
  order := h'.order.trans h.order

theorem Reordered.release {w w' : Worklist α} (h : w.Reordered w') (x : α) :
    (w.release x).Reordered (w'.release x) where
  degree := by
    show Function.update w'.degree x (w'.degree x - 1) = _
    rw [h.degree]
    rfl
  ready := by
    simp only [Worklist.release, h.degree]
    split
    · exact h.ready.append_right [x]
    · exact h.ready
  order := h.order

theorem Sound.reordered (h : w.Sound needs key all) {w' : Worklist α} (hw : w.Reordered w') :
    w'.Sound needs key all where
  listed :=
    { nodup := hw.ready.nodup_iff.mpr h.listed.nodup
      mem := by
        intro c
        rw [hw.ready.mem_iff, hw.order, hw.degree]
        exact h.listed.mem c }
  degree := by
    intro c hc
    rw [hw.degree, hw.order]
    exact h.degree c hc
  greedy := hw.order ▸ h.greedy

theorem Sound.subperm (h : w.Sound needs key all) : w.order.Subperm all :=
  List.subperm_of_subset h.greedy.nodup h.greedy.subset

/-! ## When the worklist is empty -/

/-- **A worklist that has run dry has taken everything**, or something needs itself. -/
theorem Sound.perm_or_cycle (h : w.Sound needs key all) (hnodup : all.Nodup)
    (hin : ∀ c d, d ∈ needs c → d ∈ all) (hempty : w.ready = []) :
    w.order.Perm all ∨
      w.order.length ≠ all.length ∧ ∃ c, Relation.TransGen (fun c d => d ∈ needs c) c c := by
  by_cases hall : ∀ c ∈ all, c ∈ w.order
  · exact Or.inl (h.subperm.antisymm (List.subperm_of_subset hnodup hall))
  · refine Or.inr ⟨?_, ?_⟩
    · intro hlen
      have hperm := h.subperm.perm_of_length_le hlen.ge
      exact hall fun c hc => hperm.mem_iff.mpr hc
    · push Not at hall
      have hstuck : ∀ c ∈ all, c ∉ w.order → ¬ Ready (fun c d => d ∈ needs c) w.order c := by
        intro c hc hnot hready
        have hmem := (h.listed.mem c).mpr ⟨hc, hnot, (h.ready_iff hc).mp hready⟩
        rw [hempty] at hmem
        cases hmem
      obtain ⟨c, _, hcycle⟩ := exists_cycle_of_stuck hin hall hstuck
      exact ⟨c, hcycle⟩

/-- A worklist that has made as many rounds as there are elements has nothing ready left. -/
theorem Sound.ready_of_full (h : w.Sound needs key all) (hlen : all.length ≤ w.order.length) :
    w.ready = [] := by
  have hperm := h.subperm.perm_of_length_le hlen
  rw [List.eq_nil_iff_forall_not_mem]
  intro c hc
  obtain ⟨hmem, hnot, _⟩ := (h.listed.mem c).mp hc
  exact hnot (hperm.mem_iff.mpr hmem)

end Worklist

end Lib
