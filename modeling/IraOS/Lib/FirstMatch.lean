import Mathlib.Data.List.Perm.Basic

/-!
# First matches

A scan takes what `f` gives for the first item it gives anything for. In another order of the items
another one may come first, and anyone that matches can be made to: so what is made of the match is
the same in every order just if it is the same for all the items that match.

This is the condition under which a program that looks for the first of several candidates does not
depend on the order in which they were registered or loaded. It asks for less than that there be one
match: several are harmless as long as `g`, which is whatever the caller does with the match, does
not tell them apart. Where nothing matches there is nothing to agree on, and a default `d` is used
in every order alike.
-/

set_option autoImplicit false

namespace Lib

variable {α β γ : Type}

/-- Whether anything matches at all is not a matter of the order. -/
theorem findSome?_eq_none_of_perm {f : α → Option β} {xs ys : List α} (h : ys.Perm xs)
    (hnone : xs.findSome? f = none) : ys.findSome? f = none := by
  apply List.findSome?_eq_none_iff.mpr
  intro y hy
  exact List.findSome?_eq_none_iff.mp hnone y (h.mem_iff.mp hy)

theorem exists_perm_findSome? {f : α → Option β} {xs : List α} {x : α} {b : β} (hx : x ∈ xs)
    (hb : f x = some b) : ∃ ys : List α, ys.Perm xs ∧ ys.findSome? f = some b := by
  obtain ⟨l, r, rfl⟩ := List.append_of_mem hx
  refine ⟨x :: (l ++ r), List.perm_middle.symm, ?_⟩
  simp [hb]

/-- **The order of the scan makes no difference just if the matches agree.** -/
theorem findSome?_perm_iff {f : α → Option β} {g : β → γ} {d : γ} {xs : List α} :
    (∀ ys zs : List α, ys.Perm xs → zs.Perm xs →
        (ys.findSome? f).elim d g = (zs.findSome? f).elim d g) ↔
      ∀ x ∈ xs, ∀ y ∈ xs, ∀ a b, f x = some a → f y = some b → g a = g b := by
  constructor
  · intro h x hx y hy a b ha hb
    obtain ⟨ys, hys, hfirst⟩ := exists_perm_findSome? hx ha
    obtain ⟨zs, hzs, hsecond⟩ := exists_perm_findSome? hy hb
    have hsame := h ys zs hys hzs
    rw [hfirst, hsecond] at hsame
    exact hsame
  · intro h ys zs hys hzs
    cases hfirst : ys.findSome? f with
    | none =>
      have hperm : zs.Perm ys := hzs.trans hys.symm
      rw [findSome?_eq_none_of_perm hperm hfirst]
    | some a =>
      cases hsecond : zs.findSome? f with
      | none =>
        have hperm : ys.Perm zs := hys.trans hzs.symm
        rw [findSome?_eq_none_of_perm hperm hsecond] at hfirst
        cases hfirst
      | some b =>
        obtain ⟨x, hx, ha⟩ := List.exists_of_findSome?_eq_some hfirst
        obtain ⟨y, hy, hb⟩ := List.exists_of_findSome?_eq_some hsecond
        exact h x (hys.mem_iff.mp hx) y (hzs.mem_iff.mp hy) a b ha hb

end Lib
