import Mathlib.Data.List.Basic

/-!
# A hierarchy entered in any order

Names, each with the names above it, the nearest first. The names are entered one after another, and
a name that is entered is tied to the nearest name above it **that is there already**; nothing is
tied again later. Which names above a name it ends up tied to, through the ones in between, is then
a matter of the order of the entries (`Wired.enter`): the ones that were there before every entered
name in between was.

Had everything been entered from the top down, a name would be tied to all the entered names above
it. In any other order a name may be passed over for good: entered too late to be found by the names
below it, it is on nobody's chain of ties but its own. `InOrder` is the exact condition, on the list
of entries alone. It says nothing about ties, and `Wired` is the invariant that connects the two.

How the names above a name are found is the hierarchy's own affair; all that is asked for is that
what is above a name above is what comes after it in the list. Dotted names are such a hierarchy,
and so are the paths of a file system.
-/

set_option autoImplicit false

namespace Lib

/-- Names and what is above each of them, the nearest first. What is above one of those is the rest
of the list after it. -/
structure Hierarchy (N : Type) where
  above : N → List N
  rest : ∀ {n k : N} {l₁ l₂ : List N}, above n = l₁ ++ k :: l₂ → above k = l₂
  irrefl : ∀ n, n ∉ above n

variable {N : Type}

namespace Hierarchy

variable (H : Hierarchy N) {n m k p q : N} {names : List N}

theorem exists_split (h : k ∈ H.above n) : ∃ l, H.above n = l ++ k :: H.above k := by
  obtain ⟨l₁, l₂, heq⟩ := List.append_of_mem h
  exact ⟨l₁, by rw [H.rest heq, heq]⟩

theorem above_trans (hm : m ∈ H.above k) (hk : k ∈ H.above n) : m ∈ H.above n := by
  obtain ⟨l, heq⟩ := H.exists_split hk
  rw [heq]
  simp [hm]

theorem above_asymm (hk : k ∈ H.above p) : p ∉ H.above k :=
  fun hp => H.irrefl p (H.above_trans hp hk)

theorem mem_of_mem_append (hm : m ∈ H.above q) (h : m ∈ names ++ [q]) : m ∈ names := by
  rcases List.mem_append.mp h with h | h
  · exact h
  · rw [List.mem_singleton.mp h] at hm
    exact absurd hm (H.irrefl q)

end Hierarchy

variable [DecidableEq N]

def Before (names : List N) (m k : N) : Prop := m ∈ names.takeWhile (· ≠ k)

instance (names : List N) (m k : N) : Decidable (Before names m k) :=
  inferInstanceAs (Decidable (_ ∈ _))

theorem Before.mem {names : List N} {m k : N} (h : Before names m k) : m ∈ names :=
  (List.takeWhile_sublist _).subset h

theorem takeWhile_ne_of_split {l₁ : List N} {k : N} (hk : k ∉ l₁) (l₂ : List N) :
    (l₁ ++ k :: l₂).takeWhile (· ≠ k) = l₁ := by
  have hall : ∀ a ∈ l₁, (decide (a ≠ k)) = true := by
    intro a ha
    exact decide_eq_true fun heq => hk (heq ▸ ha)
  rw [List.takeWhile_append_of_pos hall]
  simp

theorem before_append_of_mem {names : List N} {k : N} (hk : k ∈ names) (q m : N) :
    Before (names ++ [q]) m k ↔ Before names m k := by
  obtain ⟨l₁, l₂, rfl, hfirst⟩ := List.eq_append_cons_of_mem hk
  rw [Before, Before, List.append_assoc, List.cons_append, takeWhile_ne_of_split hfirst,
    takeWhile_ne_of_split hfirst]

theorem before_append_self {names : List N} {q : N} (hq : q ∉ names) (m : N) :
    Before (names ++ [q]) m q ↔ m ∈ names := by
  rw [Before, takeWhile_ne_of_split hq]

namespace Hierarchy

variable (H : Hierarchy N) {n m k p q : N} {names : List N}

/-- `m` was entered before `n`, and before every entered name that is between the two. -/
def InOrder (names : List N) (n m : N) : Prop :=
  m ∈ names ∧ ∀ k ∈ n :: H.above n, k ∈ names → m ∈ H.above k → Before names m k

instance (names : List N) (n m : N) : Decidable (H.InOrder names n m) :=
  inferInstanceAs (Decidable (_ ∧ _))

/-- Each entered name has for ties exactly the names above it that were entered in order, the
nearest first. -/
def Wired (names : List N) (ties : N → List N) : Prop :=
  ∀ n ∈ names, ties n = (H.above n).filter fun m => H.InOrder names n m

def through (ties : N → List N) : Option N → List N
  | none => []
  | some p => p :: ties p

theorem inOrder_append_of_mem (hn : n ∈ names) (hq : q ∉ names) (hm : m ∈ H.above n) :
    H.InOrder (names ++ [q]) n m ↔ H.InOrder names n m := by
  constructor
  · rintro ⟨-, h⟩
    have hbefore : Before names m n :=
      (before_append_of_mem hn q m).mp (h n (by simp) (by simp [hn]) hm)
    refine ⟨hbefore.mem, fun k hk hmem habove => ?_⟩
    exact (before_append_of_mem hmem q m).mp (h k hk (by simp [hmem]) habove)
  · rintro ⟨hmem, h⟩
    refine ⟨by simp [hmem], fun k hk hkmem habove => ?_⟩
    rcases List.mem_append.mp hkmem with hkmem | hkq
    · exact (before_append_of_mem hkmem q m).mpr (h k hk hkmem habove)
    · rw [List.mem_singleton.mp hkq]
      exact (before_append_self hq m).mpr hmem

theorem inOrder_append_self (hq : q ∉ names) {l : List N} (habove : H.above q = l ++ p :: H.above p)
    (hl : ∀ k ∈ l, k ∉ names) (hm : m ∈ H.above p) :
    H.InOrder (names ++ [q]) q m ↔ H.InOrder names p m := by
  have hp : p ∈ H.above q := by simp [habove]
  constructor
  · rintro ⟨hmem, h⟩
    refine ⟨H.mem_of_mem_append (H.above_trans hm hp) hmem, fun k hk hkmem hmk => ?_⟩
    have hkq : k ∈ H.above q := by
      rw [habove]
      exact List.mem_append_right _ hk
    exact (before_append_of_mem hkmem q m).mp
      (h k (List.mem_cons_of_mem _ hkq) (by simp [hkmem]) hmk)
  · rintro ⟨hmem, h⟩
    refine ⟨by simp [hmem], fun k hk hkmem hmk => ?_⟩
    rcases List.mem_cons.mp hk with rfl | hk
    · exact (before_append_self hq m).mpr hmem
    · have hkmem := H.mem_of_mem_append hk hkmem
      rw [habove] at hk
      rcases List.mem_append.mp hk with hk | hk
      · exact absurd hkmem (hl k hk)
      · exact (before_append_of_mem hkmem q m).mpr (h k hk hkmem hmk)

theorem inOrder_append_nearest (hq : q ∉ names) {l : List N}
    (habove : H.above q = l ++ p :: H.above p) (hl : ∀ k ∈ l, k ∉ names) (hp : p ∈ names) :
    H.InOrder (names ++ [q]) q p := by
  refine ⟨by simp [hp], fun k hk hkmem hpk => ?_⟩
  rcases List.mem_cons.mp hk with rfl | hk
  · exact (before_append_self hq p).mpr hp
  · have hkmem := H.mem_of_mem_append hk hkmem
    rw [habove] at hk
    rcases List.mem_append.mp hk with hk | hk
    · exact absurd hkmem (hl k hk)
    · rcases List.mem_cons.mp hk with rfl | hk
      · exact absurd hpk (H.irrefl k)
      · exact absurd hpk (H.above_asymm hk)

theorem filter_inOrder_eq_nil {l : List N} (hsub : ∀ m ∈ l, m ∈ H.above q)
    (hl : ∀ m ∈ l, m ∉ names) :
    (l.filter fun m => H.InOrder (names ++ [q]) q m) = [] := by
  rw [List.filter_eq_nil_iff]
  intro m hm h
  have hmem := (of_decide_eq_true h).1
  exact hl m hm (H.mem_of_mem_append (hsub m hm) hmem)

/-- **Entering a name**: it is tied to the nearest name above it that is there, and so to what that
one is tied to. -/
theorem Wired.enter {H : Hierarchy N} {ties ties' : N → List N} (h : H.Wired names ties)
    (hq : q ∉ names)
    (hnew : ties' q = through ties ((H.above q).find? (· ∈ names)))
    (hold : ∀ n ∈ names, ties' n = ties n) : H.Wired (names ++ [q]) ties' := by
  intro n hn
  rcases List.mem_append.mp hn with hn | hn
  · rw [hold n hn, h n hn]
    refine List.filter_congr fun m hm => decide_eq_decide.mpr ?_
    exact (H.inOrder_append_of_mem hn hq hm).symm
  · rw [List.mem_singleton.mp hn, hnew]
    cases hfind : (H.above q).find? (· ∈ names) with
    | none =>
      have hnone := List.find?_eq_none.mp hfind
      exact (H.filter_inOrder_eq_nil (fun _ hm => hm) fun m hm => by simpa using hnone m hm).symm
    | some p =>
      obtain ⟨hp, l₁, l₂, heq, hl⟩ := List.find?_eq_some_iff_append.mp hfind
      have hp : p ∈ names := of_decide_eq_true hp
      have hl : ∀ m ∈ l₁, m ∉ names := fun m hm => by simpa using hl m hm
      have habove : H.above q = l₁ ++ p :: H.above p := by rw [H.rest heq, heq]
      have hfirst : (l₁.filter fun m => H.InOrder (names ++ [q]) q m) = [] :=
        H.filter_inOrder_eq_nil (fun m hm => by simp [habove, hm]) hl
      have hrest : ((H.above p).filter fun m => H.InOrder (names ++ [q]) q m) = ties p := by
        rw [h p hp]
        refine List.filter_congr fun m hm => decide_eq_decide.mpr ?_
        exact H.inOrder_append_self hq habove hl hm
      show p :: ties p = _
      rw [habove, List.filter_append, hfirst, List.nil_append,
        List.filter_cons_of_pos (by simpa using H.inOrder_append_nearest hq habove hl hp), hrest]

end Hierarchy

end Lib
