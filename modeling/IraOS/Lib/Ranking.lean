import Mathlib.Data.List.Nodup
import Mathlib.Data.List.Pairwise
import Mathlib.Order.Lattice

/-!
# Sorting by a key, and the first few

`sortBy key` sorts as a stable sort does: items with the same key keep the order they came in. So
the first `n` of a sorted list depend on the order the items came in, if a tie begins among them,
and on nothing else: an item's place is at least the number of items whose key is less (`before`),
and at most that if it came first among its ties.

## What decides the first `n`

Two things can make the first `n` of two sorted lists differ: a tie that begins among them, which
either order of its items can break; and an item that is in one collection only and comes that far
forward. `take_sortBy_eq` says that nothing else can, and `take_sortBy_iff` that each of the two
does where it is given the chance, so that together they are the exact condition for the first `n`
not to depend on how the collections were listed. The tie need not lie within the first `n`: it is
enough that it begins there, since then one of its items is seen and another one might have been.

Everything is about `before`, the number of items with a lesser key. It does not depend on the order
of the list (`before_perm`), and an item's place in the sorted list is read off it up to ties. Keys
are in any linear order; a descending sort is one by a key in the dual order.
-/

set_option autoImplicit false

namespace Lib

variable {α κ : Type} [LinearOrder κ] (key : α → κ)

/-- `sorted(xs, key=key)`. -/
def sortBy (xs : List α) : List α := xs.mergeSort fun a b => decide (key a ≤ key b)

/-- How many items have a lesser key than `a`: the least place `a` can have when they are sorted. -/
def before (xs : List α) (a : α) : Nat := xs.countP fun x => decide (key x < key a)

theorem decide_key_trans (a b c : α) (hab : decide (key a ≤ key b) = true)
    (hbc : decide (key b ≤ key c) = true) : decide (key a ≤ key c) = true := by
  simp only [decide_eq_true_eq] at hab hbc ⊢
  exact le_trans hab hbc

theorem decide_key_total (a b : α) :
    (decide (key a ≤ key b) || decide (key b ≤ key a)) = true := by
  simpa using le_total (key a) (key b)

variable {key}

theorem sortBy_perm (key : α → κ) (xs : List α) : (sortBy key xs).Perm xs := List.mergeSort_perm ..

@[simp] theorem mem_sortBy {xs : List α} {a : α} : a ∈ sortBy key xs ↔ a ∈ xs :=
  (sortBy_perm key xs).mem_iff

theorem sortBy_sorted (key : α → κ) (xs : List α) :
    (sortBy key xs).Pairwise fun a b => key a ≤ key b := by
  have hsorted := List.pairwise_mergeSort (decide_key_trans key) (decide_key_total key) xs
  exact hsorted.imp (by simp)

theorem sortBy_eq_of_lt {xs ys : List α} (h : xs.Perm ys)
    (hys : ys.Pairwise fun a b => key a < key b) : sortBy key xs = ys := by
  have : Std.Symm fun a b => key a ≠ key b := ⟨fun _ _ hne => hne.symm⟩
  have hkeys : ys.Pairwise fun a b => key a ≠ key b := hys.imp ne_of_lt
  refine List.Perm.eq_of_pairwise (fun a b ha hb hab hba => ?_) (sortBy_sorted key xs)
    (hys.imp le_of_lt) ((sortBy_perm key xs).trans h)
  by_contra hne
  exact hkeys.forall (h.mem_iff.mp (mem_sortBy.mp ha)) hb hne (le_antisymm hab hba)

theorem before_perm {xs ys : List α} (h : xs.Perm ys) (a : α) :
    before key xs a = before key ys a := h.countP_eq _

/-! ## Places -/

section Sorted

variable {l : List α} (hsorted : l.Pairwise fun a b => key a ≤ key b)

include hsorted

theorem key_le_of_le {i j : Nat} {a b : α} (hij : i ≤ j) (hi : l[i]? = some a)
    (hj : l[j]? = some b) : key a ≤ key b := by
  rcases Nat.eq_or_lt_of_le hij with rfl | hlt
  · rw [hi] at hj
    rw [Option.some.inj hj]
  · obtain ⟨hi', rfl⟩ := List.getElem?_eq_some_iff.mp hi
    obtain ⟨hj', rfl⟩ := List.getElem?_eq_some_iff.mp hj
    exact List.pairwise_iff_getElem.mp hsorted i j hi' hj' hlt

theorem before_le {i : Nat} {a : α} (hi : l[i]? = some a) : before key l a ≤ i := by
  unfold before
  have hrest : (l.drop i).countP (fun x => decide (key x < key a)) = 0 := by
    apply List.countP_eq_zero.mpr
    intro x hx
    obtain ⟨j, hj⟩ := List.getElem?_of_mem hx
    rw [List.getElem?_drop] at hj
    have hle := key_le_of_le hsorted (Nat.le_add_right i j) hi hj
    simpa using hle
  calc l.countP (fun x => decide (key x < key a))
      = (l.take i ++ l.drop i).countP (fun x => decide (key x < key a)) := by
        rw [List.take_append_drop]
    _ = (l.take i).countP (fun x => decide (key x < key a)) := by
        rw [List.countP_append, hrest, Nat.add_zero]
    _ ≤ (l.take i).length := List.countP_le_length
    _ ≤ i := List.length_take_le ..

theorem exists_of_not_mem_take {i : Nat} {b : α} (hb : b ∈ l) (hnot : b ∉ l.take i) :
    ∃ a, l[i]? = some a ∧ key a ≤ key b := by
  obtain ⟨j, hj⟩ := List.getElem?_of_mem hb
  have hij : i ≤ j := by
    by_contra hlt
    apply hnot
    apply List.mem_of_getElem? (i := j)
    rw [List.getElem?_take_of_lt (by omega), hj]
  obtain ⟨hlength, -⟩ := List.getElem?_eq_some_iff.mp hj
  have hi : i < l.length := by omega
  exact ⟨l[i], List.getElem?_eq_getElem hi,
    key_le_of_le hsorted hij (List.getElem?_eq_getElem hi) hj⟩

end Sorted

theorem getElem?_sortBy_cons (key : α → κ) (a : α) (xs : List α) :
    (sortBy key (a :: xs))[before key (a :: xs) a]? = some a := by
  obtain ⟨l₁, l₂, hall, -, hless⟩ :=
    List.mergeSort_cons (decide_key_trans key) (decide_key_total key) a xs
  have hsplit : sortBy key (a :: xs) = l₁ ++ a :: l₂ := hall
  have hsorted := sortBy_sorted key (a :: xs)
  rw [hsplit, List.pairwise_append, List.pairwise_cons] at hsorted
  have hplace : before key (a :: xs) a = l₁.length := by
    rw [← before_perm (sortBy_perm key (a :: xs)), hsplit]
    unfold before
    rw [List.countP_append, List.countP_cons]
    have hfirst : l₁.countP (fun x => decide (key x < key a)) = l₁.length := by
      apply List.countP_eq_length.mpr
      intro x hx
      simpa using hless x hx
    have hsecond : l₂.countP (fun x => decide (key x < key a)) = 0 := by
      apply List.countP_eq_zero.mpr
      intro x hx
      simpa using hsorted.2.1.1 x hx
    simp [hfirst, hsecond]
  rw [hsplit, hplace]
  simp

/-! ## The first few -/

/-- An item with fewer than `n` before it is among the first `n`, provided that it came first. -/
theorem mem_take_sortBy {n : Nat} {a : α} {xs : List α} (h : before key (a :: xs) a < n) :
    a ∈ (sortBy key (a :: xs)).take n := by
  apply List.mem_of_getElem? (i := before key (a :: xs) a)
  rw [List.getElem?_take_of_lt h]
  exact getElem?_sortBy_cons key a xs

/-- Of two items that tie within the first `n` either can be made the first of its ties; so the same
items, listed in two orders, have different first `n`. -/
theorem take_sortBy_ne {n : Nat} {a b : α} {xs ys : List α} (hperm : (a :: xs).Perm (b :: ys))
    (hne : a ≠ b) (htie : key a = key b) (h : before key (a :: xs) a < n) :
    (sortBy key (a :: xs)).take n ≠ (sortBy key (b :: ys)).take n := by
  intro heq
  have hsame : before key (b :: ys) b = before key (a :: xs) a := by
    rw [before_perm hperm]
    simp [before, htie]
  have ha := getElem?_sortBy_cons key a xs
  have hb := getElem?_sortBy_cons key b ys
  rw [hsame] at hb
  rw [← List.getElem?_take_of_lt h] at ha hb
  rw [heq, hb] at ha
  exact hne (Option.some.inj ha).symm

/-- One place further, as long as two lists agree: what is next in the second, if it is in the first
at all, is not before what is next in the first. -/
theorem next_of_agree {l m : List α} (hl : l.Pairwise fun a b => key a ≤ key b) (hm : m.Nodup)
    {i : Nat} (hagree : l.take i = m.take i) {b : α} (hb : m[i]? = some b) (hmem : b ∈ l) :
    ∃ a, l[i]? = some a ∧ key a ≤ key b := by
  apply exists_of_not_mem_take hl hmem
  rw [hagree]
  intro htake
  obtain ⟨j, hj⟩ := List.getElem?_of_mem htake
  rw [List.getElem?_take] at hj
  split at hj
  · next hlt =>
    obtain ⟨hi', hbi⟩ := List.getElem?_eq_some_iff.mp hb
    obtain ⟨hj', hbj⟩ := List.getElem?_eq_some_iff.mp hj
    have hij : i = j := (hm.getElem_inj_iff).mp (hbi.trans hbj.symm)
    omega
  · cases hj

theorem before_le_of_place {xs : List α} {i : Nat} {a : α} (hi : (sortBy key xs)[i]? = some a) :
    before key xs a ≤ i := by
  rw [← before_perm (sortBy_perm key xs)]
  exact before_le (sortBy_sorted key xs) hi

/-- If what only one collection has comes behind the first `n`, what stands among these is in the
other too. -/
theorem mem_of_place {n i : Nat} {a : α} {xs ys : List α}
    (hxs : ∀ a ∈ xs, a ∉ ys → n ≤ before key xs a) (hlt : i < n)
    (hi : (sortBy key xs)[i]? = some a) : a ∈ sortBy key ys := by
  have hle := before_le_of_place hi
  by_contra hnot
  have hbehind := hxs a (mem_sortBy.mp (List.mem_of_getElem? hi)) (mt mem_sortBy.mpr hnot)
  omega

section Agree

variable {n : Nat} {xs ys : List α} (hx : xs.Nodup) (hy : ys.Nodup)
  (hties : ∀ a ∈ xs, ∀ b ∈ xs, a ≠ b → key a = key b → n ≤ before key xs a)
  (hxs : ∀ a ∈ xs, a ∉ ys → n ≤ before key xs a) (hys : ∀ b ∈ ys, b ∉ xs → n ≤ before key ys b)

include hx hy hties hxs hys

theorem place_eq_of_agree {i : Nat} (hlt : i < n)
    (hagree : (sortBy key xs).take i = (sortBy key ys).take i) :
    (sortBy key xs)[i]? = (sortBy key ys)[i]? := by
  have hnodup : (sortBy key xs).Nodup := (sortBy_perm key xs).nodup_iff.mpr hx
  have hnodup' : (sortBy key ys).Nodup := (sortBy_perm key ys).nodup_iff.mpr hy
  cases hi : (sortBy key xs)[i]? with
  | none =>
    cases hi' : (sortBy key ys)[i]? with
    | none => rfl
    | some b =>
      obtain ⟨a, ha, -⟩ :=
        next_of_agree (sortBy_sorted key xs) hnodup' hagree hi' (mem_of_place hys hlt hi')
      rw [hi] at ha
      cases ha
  | some a =>
    obtain ⟨b, hi', hle⟩ :=
      next_of_agree (sortBy_sorted key ys) hnodup hagree.symm hi (mem_of_place hxs hlt hi)
    have hb := mem_of_place hys hlt hi'
    obtain ⟨a', ha', hle'⟩ := next_of_agree (sortBy_sorted key xs) hnodup' hagree hi' hb
    obtain rfl : a = a' := Option.some.inj (hi.symm.trans ha')
    rw [hi']
    -- two that are not the same are a tie, and none begins here
    by_contra hne
    have htie := hties a (mem_sortBy.mp (List.mem_of_getElem? hi)) b (mem_sortBy.mp hb)
      (fun heq => hne (by rw [heq])) (le_antisymm hle' hle)
    have hplace := before_le_of_place hi
    omega

/-- **The first `n` are the same**, in whatever order the items came in, and for two collections:
if no tie begins among them, and what is in one collection only comes behind them. -/
theorem take_sortBy_eq : (sortBy key xs).take n = (sortBy key ys).take n := by
  suffices h : ∀ i, i ≤ n → (sortBy key xs).take i = (sortBy key ys).take i from h n (Nat.le_refl n)
  intro i
  induction i with
  | zero => simp
  | succ i ih =>
    intro hlt
    have hagree := ih (by omega)
    rw [List.take_add_one, List.take_add_one, hagree,
      place_eq_of_agree hx hy hties hxs hys hlt hagree]

end Agree

theorem exists_perm_cons {a : α} {xs : List α} (h : a ∈ xs) :
    ∃ rest : List α, (a :: rest).Perm xs := by
  obtain ⟨s, t, rfl⟩ := List.append_of_mem h
  exact ⟨s ++ t, List.perm_middle.symm⟩

theorem le_before_of_not_mem {n : Nat} {a : α} {xs l : List α}
    (hsame : ∀ xs' : List α, xs'.Perm xs → (sortBy key xs').take n = l) (ha : a ∈ xs)
    (hnot : a ∉ l) : n ≤ before key xs a := by
  by_contra hlt
  obtain ⟨rest, hrest⟩ := exists_perm_cons ha
  apply hnot
  rw [← hsame _ hrest]
  apply mem_take_sortBy
  rw [before_perm hrest]
  omega

/-- **Exactly then are they**: for all the orders two collections can come in, the first `n` are the
same just if no tie begins among them, and neither collection has one there that is not in the
other. -/
theorem take_sortBy_iff {n : Nat} {xs ys : List α} (hx : xs.Nodup) (hy : ys.Nodup) :
    (∀ xs' ys' : List α, xs'.Perm xs → ys'.Perm ys →
        (sortBy key xs').take n = (sortBy key ys').take n) ↔
      (∀ a ∈ xs, ∀ b ∈ xs, a ≠ b → key a = key b → n ≤ before key xs a) ∧
        (∀ a ∈ xs, a ∉ ys → n ≤ before key xs a) ∧
          (∀ b ∈ ys, b ∉ xs → n ≤ before key ys b) := by
  constructor
  · intro hsame
    refine ⟨?_, ?_, ?_⟩
    · intro a ha b hb hne htie
      by_contra hlt
      obtain ⟨rest, hrest⟩ := exists_perm_cons ha
      obtain ⟨rest', hrest'⟩ := exists_perm_cons hb
      apply take_sortBy_ne (n := n) (hrest.trans hrest'.symm) hne htie
      · rw [before_perm hrest]
        omega
      · exact (hsame _ ys hrest (.refl _)).trans (hsame _ ys hrest' (.refl _)).symm
    · intro a ha hnot
      apply le_before_of_not_mem (l := (sortBy key ys).take n) _ ha
      · exact fun hmem => hnot (mem_sortBy.mp (List.mem_of_mem_take hmem))
      · exact fun xs' hperm => hsame xs' ys hperm (.refl _)
    · intro b hb hnot
      apply le_before_of_not_mem (l := (sortBy key xs).take n) _ hb
      · exact fun hmem => hnot (mem_sortBy.mp (List.mem_of_mem_take hmem))
      · exact fun ys' hperm => (hsame xs ys' (.refl _) hperm).symm
  · rintro ⟨hties, hxs, hys⟩ xs' ys' hperm hperm'
    apply take_sortBy_eq (hperm.nodup_iff.mpr hx) (hperm'.nodup_iff.mpr hy)
    · intro a ha b hb hne htie
      rw [before_perm hperm]
      exact hties a (hperm.mem_iff.mp ha) b (hperm.mem_iff.mp hb) hne htie
    · intro a ha hnot
      rw [before_perm hperm]
      exact hxs a (hperm.mem_iff.mp ha) (mt hperm'.mem_iff.mpr hnot)
    · intro b hb hnot
      rw [before_perm hperm']
      exact hys b (hperm'.mem_iff.mp hb) (mt hperm.mem_iff.mpr hnot)

/-- Where those that `p` holds of come first, and there are `n` of them, the first `n` are the first
`n` of them. -/
theorem take_sortBy_filter {n : Nat} {p : α → Bool} {xs : List α}
    (hfirst : ∀ a b, key a ≤ key b → p b = true → p a = true) (hn : n ≤ xs.countP p) :
    (sortBy key xs).take n = ((sortBy key xs).filter p).take n := by
  have hcount : n ≤ (sortBy key xs).countP p := by
    rwa [(sortBy_perm key xs).countP_eq]
  have hsorted := sortBy_sorted key xs
  clear hn
  generalize sortBy key xs = l at hcount hsorted
  induction l generalizing n with
  | nil => simp
  | cons a rest ih =>
    cases n with
    | zero => simp
    | succ n =>
      rw [List.pairwise_cons] at hsorted
      have ha : p a = true := by
        -- somebody has `p`, and `a` comes before them all
        have hpos : 0 < (a :: rest).countP p := by omega
        obtain ⟨b, hb, hpb⟩ := List.countP_pos_iff.mp hpos
        rcases List.mem_cons.mp hb with rfl | hb
        · exact hpb
        · exact hfirst a b (hsorted.1 b hb) hpb
      rw [List.countP_cons_of_pos ha] at hcount
      rw [List.filter_cons_of_pos ha, List.take_succ_cons, List.take_succ_cons,
        ih (by omega) hsorted.2]

end Lib
