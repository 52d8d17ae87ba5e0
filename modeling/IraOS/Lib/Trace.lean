import Mathlib.Data.List.Basic

/-!
# Traces: what comes before what

`Guarded P t` is a safety property of a finished trace: every entry, with what came before it,
satisfies `P`. "`x` only after `y`", "`x` at most once" and "nothing after `x`" are all of that
form, and `Guarded.append` is how they go through a sequence of two programs: the second half is
guarded in the light of the first.

Two further ways to look at a trace are for what has to be read off its end:

* `Since x y t` is what stands at the end of a trace: an `x`, and no `y` after it. A grant stands
  while it has not been revoked; a cancellation stands while its task has not been submitted again.
  The last entry decides, or what was before it (`Since.append_iff`), so a property that is kept up
  to date step by step can be told from the whole past.
* `Leads a t b` is about a trace of changes, each with the value before and the value after: they
  join up, from `a` to `b`, and every one of them changes something. Two of them in the same
  direction, one after the other, are ruled out by that alone.

All three are about lists and nothing else. Which entries a program's trace has is said by
`Lib.Act`, and which of them are of the kind that is looked at by whoever states the property.
-/

set_option autoImplicit false

namespace Lib

variable {τ : Type}

/-- Every entry of `t` satisfies `P` together with the entries that came before it. -/
def Guarded (P : List τ → τ → Prop) (t : List τ) : Prop :=
  ∀ pre x post, t = pre ++ x :: post → P pre x

namespace Guarded

variable {P Q : List τ → τ → Prop} {t u : List τ}

theorem of_mem (h : ∀ x ∈ t, ∀ pre, P pre x) : Guarded P t := by
  rintro pre x post rfl
  exact h x (by simp) pre

theorem append (ht : Guarded P t) (hu : Guarded (fun pre x => P (t ++ pre) x) u) :
    Guarded P (t ++ u) := by
  intro pre x post h
  rcases List.append_eq_append_iff.mp h with ⟨a, rfl, hu'⟩ | ⟨c, ht', hc⟩
  · exact hu a x post hu'
  · cases c with
    | nil =>
      rw [List.append_nil] at ht'
      rw [List.nil_append] at hc
      have hx : P (t ++ []) x := hu [] x post hc.symm
      rwa [List.append_nil, ht'] at hx
    | cons y c =>
      rw [List.cons_append, List.cons.injEq] at hc
      exact ht pre x c (hc.1 ▸ ht')

/-- Where only one entry of a trace is of the kind that is guarded, only that one has to be looked
at. -/
theorem single {q : τ → Prop} {pre post : List τ} {x : τ} (hpre : ∀ y ∈ pre, ¬ q y)
    (hpost : ∀ y ∈ post, ¬ q y) (h : q x → P pre x) :
    Guarded (fun p y => q y → P p y) (pre ++ x :: post) := by
  refine append (of_mem fun y hy p hq => absurd hq (hpre y hy)) ?_
  have hx : Guarded (fun p y => q y → P (pre ++ p) y) [x] := by
    intro p y s hs hq
    cases p with
    | nil =>
      rw [List.nil_append, List.cons.injEq] at hs
      rw [List.append_nil, ← hs.1]
      exact h (hs.1 ▸ hq)
    | cons z p => exact absurd hs (by simp)
  exact hx.append (of_mem fun y hy p hq => absurd hq (hpost y hy))

theorem mono (h : Guarded P t) (hpq : ∀ pre x, P pre x → Q pre x) : Guarded Q t :=
  fun pre x post ht => hpq pre x (h pre x post ht)

end Guarded

/-! ## Standing -/

/-- There is an `x` in the trace and no `y` after the last one. -/
def Since (x y : τ) (t : List τ) : Prop := ∃ pre post, t = pre ++ x :: post ∧ y ∉ post

namespace Since

variable {x y z : τ} {t : List τ}

theorem not_nil : ¬ Since x y [] := by
  rintro ⟨pre, post, heq, -⟩
  simp at heq

theorem append_iff : Since x y (t ++ [z]) ↔ z = x ∨ (Since x y t ∧ z ≠ y) := by
  constructor
  · rintro ⟨pre, post, heq, hnot⟩
    rcases List.eq_nil_or_concat post with rfl | ⟨post, last, rfl⟩
    · obtain ⟨-, hlast⟩ := List.append_inj' heq rfl
      injection hlast with hlast
      exact Or.inl hlast
    · rw [List.concat_eq_append] at heq hnot
      rw [← List.cons_append, ← List.append_assoc] at heq
      obtain ⟨ht, hlast⟩ := List.append_inj' heq rfl
      injection hlast with hlast
      rw [List.mem_append, not_or] at hnot
      refine Or.inr ⟨⟨pre, post, ht, hnot.1⟩, ?_⟩
      intro heq'
      exact hnot.2 (by simp [← hlast, heq'])
  · rintro (rfl | ⟨⟨pre, post, rfl, hnot⟩, hne⟩)
    · exact ⟨t, [], rfl, List.not_mem_nil⟩
    · refine ⟨pre, post ++ [z], by simp, ?_⟩
      rw [List.mem_append, List.mem_singleton, not_or]
      exact ⟨hnot, Ne.symm hne⟩

end Since

/-! ## Joining up -/

/-- The changes in `t` lead from `a` to `b`: each begins with the value the one before it ended
with, and none of them is from a value to itself. -/
def Leads {α : Type} : α → List (α × α) → α → Prop
  | a, [], b => a = b
  | a, x :: t, b => x.1 = a ∧ x.2 ≠ a ∧ Leads x.2 t b

namespace Leads

variable {α : Type} {a b c : α} {t u : List (α × α)}

@[simp] theorem nil_iff : Leads a [] b ↔ a = b := Iff.rfl

theorem append (h : Leads a t b) (h' : Leads b u c) : Leads a (t ++ u) c := by
  induction t generalizing a with
  | nil => exact nil_iff.mp h ▸ h'
  | cons x t ih => exact ⟨h.1, h.2.1, ih h.2.2⟩

theorem single (h : b ≠ a) : Leads a [(a, b)] b := ⟨rfl, h, rfl⟩

end Leads

end Lib
