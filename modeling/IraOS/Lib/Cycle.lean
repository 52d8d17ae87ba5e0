import Mathlib.Data.Set.Finite.List
import Mathlib.Logic.Relation
import Mathlib.Order.WellFounded

/-!
# Cycles

A finite set in which every element has a successor has a cycle, and the cycle stays in the set.
That is what a stuck worklist, and a stuck set of tasks each waiting for another, comes down to:
nobody can go on because everybody waits for somebody who cannot either.

The cycle is given as an element that is related to itself by the transitive closure, with every
step of the way `Within` the set. So what is known of the elements of the set (they are components
that are enabled, or tasks that hold a lock) is known of every element on the cycle, and whoever
uses the lemma can read a path in the original graph off it.
-/

set_option autoImplicit false

namespace Lib

variable {α : Type}

/-- A relation cut down to the elements of a set: both ends are in it. -/
def Within (s : Set α) (r : α → α → Prop) (a b : α) : Prop := a ∈ s ∧ b ∈ s ∧ r a b

theorem Within.mono {s : Set α} {r q : α → α → Prop} (h : ∀ a ∈ s, ∀ b ∈ s, r a b → q a b)
    {a b : α} (hr : Relation.TransGen (Within s r) a b) : Relation.TransGen q a b := by
  have hle : Within s r ≤ q := fun a b hab => h a hab.1 b hab.2.1 hab.2.2
  exact Relation.TransGen.mono hle a b hr

/-- **Where every element of a finite set has a successor in it, one comes back to itself.** -/
theorem exists_cycle {s : Set α} (hfin : s.Finite) (hne : s.Nonempty) {r : α → α → Prop}
    (h : ∀ x ∈ s, ∃ y ∈ s, r x y) : ∃ x ∈ s, Relation.TransGen (Within s r) x x := by
  by_contra hacyclic
  push Not at hacyclic
  -- with no cycle, "comes after" is well founded on the set, and its least element is stuck
  have : Finite s := hfin
  let after : s → s → Prop := fun a b => Relation.TransGen (Within s r) b a
  have : IsTrans s after := ⟨fun _ _ _ hab hbc => hbc.trans hab⟩
  have : Std.Irrefl after := ⟨fun a => hacyclic a a.2⟩
  have hwf : WellFounded after := Finite.wellFounded_of_trans_of_irrefl after
  obtain ⟨x, hx⟩ := hne
  obtain ⟨m, _, hmin⟩ := hwf.has_min Set.univ ⟨⟨x, hx⟩, trivial⟩
  obtain ⟨y, hy, hmy⟩ := h m m.2
  exact hmin ⟨y, hy⟩ trivial (.single ⟨m.2, hy, hmy⟩)

end Lib
