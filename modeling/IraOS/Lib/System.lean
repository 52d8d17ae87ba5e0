import Mathlib.Data.List.Basic

/-!
# Transition systems and guarded runs

A `System S L` is what one labelled step does, or that the step is not enabled. The label is the
whole choice an outside scheduler has: which of several coroutines moves, and with what answer from
its surroundings, so a list of labels is one interleaving and a quantifier over lists of labels is a
quantifier over interleavings.

## Guards

The one induction of the library is `exec_induct`, under a **guard**: a condition every step of the
run has to meet in the state it is taken from. The ordinary invariant rule is its case where the
guard is `True`; a property that holds of some schedules only is proved under the guard that says
which. A guard looks at a state and at the step about to be taken there, never at what the step
leads to, so "this run meets the guard" is a statement about inputs and not about results.

`exec_history` is the rule with the labels so far in hand. It is for what a state owes to its past:
that a record is the newest written, or that an answer is the one a history of calls determines.

## Exact guards

A guard that is merely sufficient says little about the runs that do not meet it. Where a step from
a good state leads to a good one **if and only if** it meets the guard, the runs that meet the guard
are those that pass through good states only (`meets_iff_throughout`). That is how a condition on
single steps becomes an exact condition on whole runs: the lemma about one step is all that has to
be proved of the program.
-/

set_option autoImplicit false

namespace Lib

/-- What one labelled step does; `none` where it is not enabled. The step is a function: whatever is
not determined by the state is in the label. -/
structure System (S L : Type) where
  step : S → L → Option S

namespace System

variable {S L : Type} (T : System S L)

/-- Run a list of labels from a state. There is no run where one of the steps is not enabled. -/
def exec : S → List L → Option S
  | s, [] => some s
  | s, l :: ls => (T.step s l).bind fun s' => exec s' ls

/-- Every step of the run from `s` meets `C` in the state it is taken from. -/
def Meets (C : S → L → Prop) : S → List L → Prop
  | _, [] => True
  | s, l :: ls => C s l ∧ ∀ s', T.step s l = some s' → Meets C s' ls

variable {T}

@[simp] theorem exec_nil (s : S) : T.exec s [] = some s := rfl

theorem exec_cons (s : S) (l : L) (ls : List L) :
    T.exec s (l :: ls) = (T.step s l).bind fun s' => T.exec s' ls := rfl

theorem exec_cons_of {s s' : S} {l : L} (h : T.step s l = some s') (ls : List L) :
    T.exec s (l :: ls) = T.exec s' ls := by
  rw [exec_cons, h]
  rfl

theorem exec_cons_some {s t : S} {l : L} {ls : List L} (h : T.exec s (l :: ls) = some t) :
    ∃ s', T.step s l = some s' ∧ T.exec s' ls = some t := by
  rw [exec_cons] at h
  exact Option.bind_eq_some_iff.mp h

theorem exec_append (s : S) (ls ms : List L) :
    T.exec s (ls ++ ms) = (T.exec s ls).bind fun s' => T.exec s' ms := by
  induction ls generalizing s with
  | nil => rfl
  | cons l ls ih =>
    rw [List.cons_append, exec_cons, exec_cons, Option.bind_assoc]
    congr
    funext s'
    exact ih s'

/-- **The run rule.** What holds at the start and survives every step that meets the guard holds
wherever a guarded run ends — and, since a prefix of a guarded run is one, wherever it passes. -/
theorem exec_induct {C : S → L → Prop} {P : S → Prop}
    (hstep : ∀ s l s', P s → C s l → T.step s l = some s' → P s') :
    ∀ {ls : List L} {s t : S}, P s → T.Meets C s ls → T.exec s ls = some t → P t := by
  intro ls
  induction ls with
  | nil =>
    intro s t hs _ he
    rw [exec_nil, Option.some.injEq] at he
    exact he ▸ hs
  | cons l ls ih =>
    intro s t hs hm he
    obtain ⟨s', h1, h2⟩ := exec_cons_some he
    exact ih (hstep s l s' hs hm.1 h1) (hm.2 s' h1) h2

theorem meets_cons {C : S → L → Prop} {s s' : S} {l : L} {ls : List L} (hC : C s l)
    (hs : T.step s l = some s') (h : T.Meets C s' ls) : T.Meets C s (l :: ls) := by
  refine ⟨hC, ?_⟩
  intro t ht
  rw [hs, Option.some.injEq] at ht
  exact ht ▸ h

/-- **Two guards that say the same of every step from a good state, say the same of every run**,
where either of them keeps the states good. -/
theorem meets_congr {C D : S → L → Prop} {P : S → Prop} (hCD : ∀ s l, P s → (C s l ↔ D s l))
    (hstep : ∀ s l s', P s → C s l → T.step s l = some s' → P s') {ls : List L} {s : S} (hs : P s) :
    T.Meets C s ls ↔ T.Meets D s ls := by
  induction ls generalizing s with
  | nil => exact Iff.rfl
  | cons l ls ih =>
    constructor
    · rintro ⟨hl, hrest⟩
      refine ⟨(hCD s l hs).mp hl, ?_⟩
      intro s' h1
      exact (ih (hstep s l s' hs hl h1)).mp (hrest s' h1)
    · rintro ⟨hl, hrest⟩
      have hl' := (hCD s l hs).mpr hl
      refine ⟨hl', ?_⟩
      intro s' h1
      exact (ih (hstep s l s' hs hl' h1)).mpr (hrest s' h1)

theorem meets_mono {C D : S → L → Prop} (hCD : ∀ s l, C s l → D s l) {ls : List L} {s : S}
    (h : T.Meets C s ls) : T.Meets D s ls := by
  induction ls generalizing s with
  | nil => trivial
  | cons l ls ih => exact ⟨hCD s l h.1, fun s' hs => ih (h.2 s' hs)⟩

theorem meets_of_labels {p : L → Prop} {ls : List L} (h : ∀ l ∈ ls, p l) (s : S) :
    T.Meets (fun _ l => p l) s ls := by
  induction ls generalizing s with
  | nil => trivial
  | cons l ls ih =>
    refine ⟨h l List.mem_cons_self, ?_⟩
    intro s' _
    exact ih (fun l' hl' => h l' (List.mem_cons_of_mem _ hl')) s'

theorem throughout_tail {P : S → Prop} {s s' : S} {l : L} {ls : List L}
    (h : ∀ pre t, pre <+: l :: ls → T.exec s pre = some t → P t) (hs : T.step s l = some s') :
    ∀ pre t, pre <+: ls → T.exec s' pre = some t → P t := by
  intro pre t hpre he
  apply h (l :: pre) t
  · exact List.cons_prefix_cons.mpr ⟨rfl, hpre⟩
  · rw [exec_cons_of hs, he]

/-- A guard that holds in every good state holds of every step of a run through good states. -/
theorem meets_of_throughout {C : S → L → Prop} {P : S → Prop} (hC : ∀ s l, P s → C s l)
    {ls : List L} {s : S} (h : ∀ pre t, pre <+: ls → T.exec s pre = some t → P t) :
    T.Meets C s ls := by
  induction ls generalizing s with
  | nil => trivial
  | cons l ls ih =>
    constructor
    · exact hC s l (h [] s List.nil_prefix rfl)
    · intro s' h1
      exact ih (throughout_tail h h1)

theorem exec_invariant {P : S → Prop} (hstep : ∀ s l s', P s → T.step s l = some s' → P s')
    {ls : List L} {s t : S} (hs : P s) (he : T.exec s ls = some t) : P t := by
  have hmeets : T.Meets (fun _ _ => True) s ls :=
    meets_of_labels (p := fun _ => True) (fun _ _ => trivial) s
  exact exec_induct (fun s l s' h _ hst => hstep s l s' h hst) hs hmeets he

/-- The run rule with the past in hand: what every step that meets the guard keeps of the labels so
far and the state it leads to, every guarded run keeps. -/
theorem exec_history_guarded {C : S → L → Prop} {P : List L → S → Prop}
    (hstep : ∀ past s l s', P past s → C s l → T.step s l = some s' → P (past ++ [l]) s')
    {past ls : List L} {s t : S} (hs : P past s) (hm : T.Meets C s ls)
    (he : T.exec s ls = some t) : P (past ++ ls) t := by
  induction ls generalizing past s with
  | nil =>
    rw [exec_nil, Option.some.injEq] at he
    rw [List.append_nil, ← he]
    exact hs
  | cons l ls ih =>
    obtain ⟨s', h1, h2⟩ := exec_cons_some he
    have hnext := ih (hstep past s l s' hs hm.1 h1) (hm.2 s' h1) h2
    rw [List.append_assoc] at hnext
    exact hnext

/-- The rule with the past in hand, for every run. -/
theorem exec_history {P : List L → S → Prop}
    (hstep : ∀ past s l s', P past s → T.step s l = some s' → P (past ++ [l]) s')
    {past ls : List L} {s t : S} (hs : P past s) (he : T.exec s ls = some t) :
    P (past ++ ls) t := by
  have hmeets : T.Meets (fun _ _ => True) s ls :=
    meets_of_labels (p := fun _ => True) (fun _ _ => trivial) s
  exact exec_history_guarded (fun past s l s' h _ hst => hstep past s l s' h hst) hs hmeets he

theorem meets_append {C : S → L → Prop} {s t : S} {ls ms : List L}
    (h : T.Meets C s (ls ++ ms)) (he : T.exec s ls = some t) :
    T.Meets C s ls ∧ T.Meets C t ms := by
  induction ls generalizing s with
  | nil =>
    rw [exec_nil, Option.some.injEq] at he
    exact ⟨trivial, he ▸ h⟩
  | cons l ls ih =>
    obtain ⟨s', h1, h2⟩ := exec_cons_some he
    obtain ⟨hl, hr⟩ := ih (h.2 s' h1) h2
    refine ⟨⟨h.1, ?_⟩, hr⟩
    intro u hu
    rw [h1, Option.some.injEq] at hu
    exact hu ▸ hl

/-- **An exact guard.** Where a step that is enabled leads from a good state to a good one just if
it meets the guard, the runs that meet it are those that pass through good states only. What a step
from a good state leaves behind, good itself or not, is `R`. -/
theorem meets_iff_throughout {C : S → L → Prop} {P R : S → Prop}
    (hstuck : ∀ s l, T.step s l = none → C s l)
    (hkeep : ∀ s l s', P s → R s → T.step s l = some s' → R s')
    (hstep : ∀ s l s', P s → R s → T.step s l = some s' → (P s' ↔ C s l)) {ls : List L} {s : S}
    (hs : P s) (hr : R s) :
    T.Meets C s ls ↔ ∀ pre t, pre <+: ls → T.exec s pre = some t → P t := by
  constructor
  · rintro hmeets pre t ⟨post, rfl⟩ he
    have hboth : ∀ s l s', P s ∧ R s → C s l → T.step s l = some s' → P s' ∧ R s' := by
      rintro s l s' ⟨hs, hr⟩ hl h1
      exact ⟨(hstep s l s' hs hr h1).mpr hl, hkeep s l s' hs hr h1⟩
    exact (exec_induct hboth ⟨hs, hr⟩ (meets_append hmeets he).1 he).1
  · intro h
    induction ls generalizing s with
    | nil => trivial
    | cons l ls ih =>
      cases h1 : T.step s l with
      | none =>
        refine ⟨hstuck s l h1, ?_⟩
        intro s' hs'
        rw [h1] at hs'
        cases hs'
      | some s' =>
        have hs' : P s' := throughout_tail h h1 [] s' List.nil_prefix rfl
        refine meets_cons ((hstep s l s' hs hr h1).mp hs') h1 ?_
        exact ih hs' (hkeep s l s' hs hr h1) (throughout_tail h h1)

end System

end Lib
