import IraOS.Lib.Cycle

/-!
# Greedy orders

Elements that need others before them, and a key to choose by: a `Greedy` list takes, at every
position, the least of the elements not taken yet whose needs are all taken.

> **There is at most one greedy order of each length** (`Greedy.unique`), where no two elements
> share a key.

So an algorithm that produces one does not depend on the order it got its input in. This is the
specification of an order of dependencies that is also deterministic: that every element comes after
what it needs (`Greedy.needs_before`) leaves many orders open, and the least-first choice leaves
one. Whether an algorithm produces it is looked at in `Lib.Kahn`.

It can only fail to take everything where something needs itself, through however many others:
nothing in a greedy order does (`Greedy.acyclic`), and where elements are left and none of them is
ready there is a cycle (`exists_cycle_of_stuck`, by `Lib.Cycle`). Between them the two say that an
order of all elements exists exactly where there is no cycle.

Needs are a relation, and an element may need something that is not among the elements at all; then
it never becomes ready, and the caller has to rule that out or to report it.
-/

set_option autoImplicit false

namespace Lib

variable {α κ : Type} [LinearOrder κ] (needs : α → α → Prop) (key : α → κ)

/-- All that `x` needs has been taken. -/
def Ready (taken : List α) (x : α) : Prop := ∀ d, needs x d → d ∈ taken

/-- Of the elements of `all` that are not taken and have everything they need, `x` is the least by
key. -/
structure LeastReady (all taken : List α) (x : α) : Prop where
  mem : x ∈ all
  notTaken : x ∉ taken
  ready : Ready needs taken x
  least : ∀ y ∈ all, y ∉ taken → Ready needs taken y → key x ≤ key y

/-- At every position of the order, the element there is the least one that was ready when those
before it had been taken. -/
def Greedy (all order : List α) : Prop :=
  ∀ pre x post, order = pre ++ x :: post → LeastReady needs key all pre x

namespace Greedy

variable {needs key} {all : List α}

theorem nil : Greedy needs key all [] := by
  intro pre x post h
  exact absurd h.symm (by simp)

theorem snoc {order : List α} {x : α} (h : Greedy needs key all order)
    (hx : LeastReady needs key all order x) : Greedy needs key all (order ++ [x]) := by
  intro pre y post hq
  rcases List.eq_nil_or_concat post with rfl | ⟨post', z, rfl⟩
  · obtain ⟨rfl, hy⟩ := List.append_inj' hq rfl
    rw [List.cons.injEq] at hy
    exact hy.1 ▸ hx
  · have hq' : order ++ [x] = (pre ++ y :: post') ++ [z] := by simpa using hq
    exact h pre y post' (List.append_inj' hq' rfl).1

theorem subset {order : List α} (h : Greedy needs key all order) : ∀ x ∈ order, x ∈ all := by
  intro x hx
  obtain ⟨pre, post, rfl⟩ := List.append_of_mem hx
  exact (h pre x post rfl).mem

theorem nodup {order : List α} (h : Greedy needs key all order) : order.Nodup := by
  rw [List.nodup_iff_forall_not_duplicate]
  intro x hx
  obtain ⟨pre, mid, post, rfl⟩ : ∃ pre mid post, order = pre ++ x :: (mid ++ x :: post) := by
    have hsub := List.duplicate_iff_sublist.mp hx
    obtain ⟨r₁, r₂, rfl, h₁, h₂⟩ := List.cons_sublist_iff.mp hsub
    obtain ⟨pre, post₁, rfl⟩ := List.append_of_mem h₁
    obtain ⟨mid₂, post, rfl⟩ := List.append_of_mem (List.singleton_sublist.mp h₂)
    exact ⟨pre, post₁ ++ mid₂, post, by simp⟩
  have hlater := (h (pre ++ x :: mid) x post (by simp)).notTaken
  exact hlater (by simp)

theorem unique_from (hkey : ∀ x ∈ all, ∀ y ∈ all, key x = key y → x = y) (pre : List α)
    {rest rest' : List α} (h : Greedy needs key all (pre ++ rest))
    (h' : Greedy needs key all (pre ++ rest')) (hlen : rest.length = rest'.length) :
    rest = rest' := by
  induction rest generalizing pre rest' with
  | nil => exact (List.length_eq_zero_iff.mp hlen.symm).symm
  | cons x rest ih =>
    cases rest' with
    | nil => exact absurd hlen (by simp)
    | cons x' rest' =>
      have hx := h pre x rest rfl
      have hx' := h' pre x' rest' rfl
      have hle := hx.least x' hx'.mem hx'.notTaken hx'.ready
      have hge := hx'.least x hx.mem hx.notTaken hx.ready
      have heq : x = x' := hkey x hx.mem x' hx'.mem (le_antisymm hle hge)
      subst heq
      have hrest := ih (pre ++ [x]) (by simpa using h) (by simpa using h')
        (by simpa using hlen)
      rw [hrest]

/-- **Greedy orders of one length are the same**, where no two elements share a key. -/
theorem unique (hkey : ∀ x ∈ all, ∀ y ∈ all, key x = key y → x = y) {order order' : List α}
    (h : Greedy needs key all order) (h' : Greedy needs key all order')
    (hlen : order.length = order'.length) : order = order' :=
  unique_from hkey [] h h' hlen

/-- Which list the elements come in does not matter, only which elements there are. -/
theorem of_perm {all' order : List α} (hp : all.Perm all') (h : Greedy needs key all order) :
    Greedy needs key all' order := by
  intro pre x post hq
  have hx := h pre x post hq
  exact ⟨hp.mem_iff.mp hx.mem, hx.notTaken, hx.ready,
    fun y hy => hx.least y (hp.mem_iff.mpr hy)⟩

theorem needs_before {order pre post : List α} {x d : α} (h : Greedy needs key all order)
    (hq : order = pre ++ x :: post) (hd : Relation.TransGen needs x d) : d ∈ pre := by
  induction hd with
  | single hd => exact (h pre x post hq).ready _ hd
  | @tail b c _ hbc ih =>
    obtain ⟨pre₁, pre₂, rfl⟩ := List.append_of_mem ih
    have hb := (h pre₁ b (pre₂ ++ x :: post) (by rw [hq]; simp)).ready c hbc
    exact List.mem_append_left _ hb

/-- Nothing in a greedy order needs itself, directly or through others. -/
theorem acyclic {order : List α} (h : Greedy needs key all order) {x : α} (hx : x ∈ order) :
    ¬ Relation.TransGen needs x x := by
  intro hcycle
  obtain ⟨pre, post, rfl⟩ := List.append_of_mem hx
  exact (h pre x post rfl).notTaken (h.needs_before rfl hcycle)

end Greedy

/-- **Where elements are left and none is ready, some element needs itself.** -/
theorem exists_cycle_of_stuck {needs : α → α → Prop} {all taken : List α}
    (hin : ∀ x d, needs x d → d ∈ all) (hleft : ∃ x ∈ all, x ∉ taken)
    (hstuck : ∀ x ∈ all, x ∉ taken → ¬ Ready needs taken x) :
    ∃ x ∈ all, Relation.TransGen needs x x := by
  have hfin : {x | x ∈ all ∧ x ∉ taken}.Finite := (List.finite_toSet all).subset fun x hx => hx.1
  obtain ⟨x, hx, hcycle⟩ := exists_cycle (r := needs) hfin hleft fun x hx => by
    have hnot := hstuck x hx.1 hx.2
    unfold Ready at hnot
    push Not at hnot
    obtain ⟨d, hd, hdt⟩ := hnot
    exact ⟨d, ⟨hin x d hd, hdt⟩, hd⟩
  exact ⟨x, hx.1, Within.mono (fun _ _ _ _ h => h) hcycle⟩

end Lib
