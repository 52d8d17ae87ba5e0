import IraOS.Lib.Dict
import Mathlib.Data.List.Infix

/-!
# Nested tables, one laid over another

A table whose values are leaves or tables again, read along paths of keys. A path can lead to
nothing in two ways: some key on it is missing, or a leaf is reached with keys left over. The
difference does not show in the table itself, and it decides what shows through when the table is
laid over another one: under a missing key the table below is seen, under a leaf it is not.

## Reading along a path

`Found` tells the two apart, and a leaf from a table: it is what a path leads to, and two tables
with the same `Found` at every path are the same to whoever reads them by paths. `Distinct` rules
out tables that list a key twice, whose second entry no path leads to.

## Layers

The second half is about anything that is laid over anything that way, whatever it is: all it uses
is that laying `o` over `t` acts on what each path leads to by `overlaid`. The last layer that has
something at a path decides what is there (`plain_foldl_of_last`).

There is one way in which laying layers on one after the other differs from merging the layers first
and laying the result on: a leaf that cuts a path off in an early layer hides what the base has
there, and a table in its place in a later one opens the path again, with nothing in it. `Reopens`
is that, and the two agree just where it does not happen (`plain_of_reopens`,
`plain_of_not_reopens`).
-/

set_option autoImplicit false

namespace Lib

variable {κ α : Type}

/-! ## Paths -/

inductive Nested (κ α : Type) where
  | leaf (a : α)
  | table (entries : List (κ × Nested κ α))

/-- What a path leads to: nothing, for want of a key; nothing, because a leaf is reached after its
first `n` keys with keys left over (`cut n`); a leaf; or a table. -/
inductive Found (α : Type) where
  | absent
  | cut (n : Nat)
  | leaf (a : α)
  | table
  deriving DecidableEq, Repr

namespace Found

def under : Found α → Found α
  | .cut n => .cut (n + 1)
  | f => f

def isTable : Found α → Bool
  | .table => true
  | _ => false

/-- What there is to be read of it: a path that is cut off leads to nothing. -/
def plain : Found α → Found α
  | .cut _ => .absent
  | f => f

@[simp] theorem isTable_iff {f : Found α} : f.isTable = true ↔ f = .table := by
  cases f <;> simp [isTable]

@[simp] theorem under_eq_absent {f : Found α} : f.under = .absent ↔ f = .absent := by
  cases f <;> simp [under]

@[simp] theorem under_eq_table {f : Found α} : f.under = .table ↔ f = .table := by
  cases f <;> simp [under]

@[simp] theorem isTable_under (f : Found α) : f.under.isTable = f.isTable := by
  cases f <;> rfl

end Found

namespace Nested

inductive Distinct : Nested κ α → Prop
  | leaf (a : α) : Distinct (.leaf a)
  | table (entries : List (κ × Nested κ α)) (nodup : (entries.map Prod.fst).Nodup)
      (below : ∀ e ∈ entries, Distinct e.2) : Distinct (.table entries)

theorem Distinct.nodup {entries : List (κ × Nested κ α)} (h : (Nested.table entries).Distinct) :
    (entries.map Prod.fst).Nodup := by
  cases h with
  | table _ nodup _ => exact nodup

theorem Distinct.of_lookup [DecidableEq κ] {entries : List (κ × Nested κ α)}
    (h : (Nested.table entries).Distinct) {k : κ} {v : Nested κ α}
    (hv : entries.lookup k = some v) : v.Distinct := by
  cases h with
  | table _ _ below =>
    obtain ⟨l₁, l₂, rfl, -⟩ := List.lookup_eq_some_iff.mp hv
    exact below (k, v) (by simp)

theorem Distinct.of_forall_lookup [DecidableEq κ] {entries : List (κ × Nested κ α)}
    (nodup : (entries.map Prod.fst).Nodup)
    (h : ∀ k v, entries.lookup k = some v → v.Distinct) : (Nested.table entries).Distinct := by
  refine .table entries nodup ?_
  rintro ⟨k, v⟩ he
  have hget : (Dict.mk entries nodup).get? k = some v := Dict.get?_of_mem_entries he
  exact h k v hget

variable [DecidableEq κ]

def look : Nested κ α → List κ → Found α
  | .leaf a, [] => .leaf a
  | .leaf _, _ :: _ => .cut 0
  | .table _, [] => .table
  | .table entries, k :: p =>
    match entries.lookup k with
    | none => .absent
    | some v => (v.look p).under

def reached : Option (Nested κ α) → List κ → Found α
  | none, _ => .absent
  | some v, p => v.look p

@[simp] theorem look_nil_ne_absent (v : Nested κ α) : v.look [] ≠ .absent := by
  cases v <;> simp [look]

@[simp] theorem look_leaf_ne_absent (a : α) (p : List κ) : (leaf a).look p ≠ .absent := by
  cases p <;> simp [look]

theorem look_table_cons (entries : List (κ × Nested κ α)) (k : κ) (p : List κ) :
    (table entries).look (k :: p) = (reached (entries.lookup k) p).under := by
  cases h : entries.lookup k <;> simp [look, reached, h, Found.under]

/-- A path is cut off by a leaf at a proper prefix of it. -/
theorem look_eq_cut_iff {v : Nested κ α} {p : List κ} {n : Nat} :
    v.look p = .cut n ↔ n < p.length ∧ ∃ a, v.look (p.take n) = .leaf a := by
  induction p generalizing v n with
  | nil => cases v <;> simp [look]
  | cons k p ih =>
    cases v with
    | leaf a => cases n <;> simp [look]
    | table entries =>
      cases n with
      | zero =>
        rw [look_table_cons]
        cases reached (entries.lookup k) p <;> simp [Found.under, look]
      | succ n =>
        rw [look_table_cons, List.take_succ_cons, look_table_cons, List.length_cons,
          Nat.add_lt_add_iff_right]
        cases entries.lookup k with
        | none => simp [reached, Found.under]
        | some w =>
          have hcut : (w.look p).under = .cut (n + 1) ↔ w.look p = .cut n := by
            cases w.look p <;> simp [Found.under]
          have hleaf : ∀ a, (w.look (p.take n)).under = .leaf a ↔ w.look (p.take n) = .leaf a := by
            intro a
            cases w.look (p.take n) <;> simp [Found.under]
          simp only [reached, hcut, hleaf]
          exact ih

end Nested

/-! ## Laying one over another -/

/-- What a path leads to when `upper` is laid over something: what `upper` has there, and what is
below where `upper` has nothing — unless a leaf below cuts the path off and `upper` has a table
where that leaf was. -/
def overlaid (upper : List κ → Found α) (p : List κ) (below : Found α) : Found α :=
  match upper p, below with
  | .absent, .cut n => if (upper (p.take n)).isTable then .absent else .cut n
  | .absent, f => f
  | f, _ => f

theorem overlaid_of_ne {upper : List κ → Found α} {p : List κ} (h : upper p ≠ .absent)
    (below : Found α) : overlaid upper p below = upper p := by
  cases ho : upper p with
  | absent => exact absurd ho h
  | cut n | leaf a | table => simp [overlaid, ho]

theorem overlaid_cut {upper : List κ → Found α} {p : List κ} (h : upper p = .absent) (n : Nat) :
    overlaid upper p (.cut n) = if (upper (p.take n)).isTable then .absent else .cut n := by
  simp [overlaid, h]

theorem plain_overlaid {upper : List κ → Found α} {p : List κ} (h : upper p = .absent)
    (below : Found α) : (overlaid upper p below).plain = below.plain := by
  cases below with
  | absent | leaf a | table => simp [overlaid, h]
  | cut n =>
    rw [overlaid_cut h]
    split <;> rfl

@[simp] theorem overlaid_absent (upper : List κ → Found α) (p : List κ) :
    overlaid upper p .absent = upper p := by
  cases h : upper p <;> simp [overlaid, h]

namespace Nested

variable [DecidableEq κ]

theorem overlaid_look_leaf (v : Nested κ α) (a : α) (p : List κ) :
    overlaid v.look p ((leaf a).look p) = v.look p := by
  cases p with
  | nil => exact overlaid_of_ne (look_nil_ne_absent v) _
  | cons k p =>
    cases v with
    | leaf b => exact overlaid_of_ne (look_leaf_ne_absent b _) _
    | table entries =>
      by_cases h : (table entries).look (k :: p) = .absent
      · rw [h]
        exact overlaid_cut h 0
      · exact overlaid_of_ne h _

theorem overlaid_cons_none {upper : List (κ × Nested κ α)} {k : κ} (h : upper.lookup k = none)
    (p : List κ) (below : Found α) :
    overlaid (table upper).look (k :: p) below.under = below.under := by
  have habsent : ∀ p, (table upper).look (k :: p) = .absent := fun p => by
    rw [look_table_cons, h]
    rfl
  cases below with
  | absent | leaf a | table => simp [overlaid, habsent, Found.under]
  | cut n => simp [overlaid, habsent, Found.under]

theorem overlaid_cons_some {upper : List (κ × Nested κ α)} {k : κ} {v : Nested κ α}
    (h : upper.lookup k = some v) (p : List κ) (below : Found α) :
    overlaid (table upper).look (k :: p) below.under = (overlaid v.look p below).under := by
  have hlook : ∀ p, (table upper).look (k :: p) = (v.look p).under := fun p => by
    rw [look_table_cons, h]
    rfl
  cases hv : v.look p with
  | cut n | leaf a | table => simp [overlaid, hlook, hv, Found.under]
  | absent =>
    cases below with
    | absent | leaf a | table => simp [overlaid, hlook, hv, Found.under]
    | cut n =>
      have habsent : (table upper).look (k :: p) = .absent := by
        rw [hlook, hv]
        rfl
      rw [overlaid_cut hv, Found.under, overlaid_cut habsent, List.take_succ_cons, hlook,
        Found.isTable_under]
      split <;> rfl

end Nested

section Layers

variable {T : Type} (look : T → List κ → Found α) (merge : T → T → T)

/-- A layer cut the path `p` off, no later layer had anything at it, and one of them had a table
in the place of the leaf that cut it off. -/
def Reopens (layers : List T) (p : List κ) : Prop :=
  ∃ o post, o :: post <:+ layers ∧ (∀ o' ∈ post, look o' p = .absent) ∧
    ∃ n, look o p = .cut n ∧ ∃ o' ∈ post, look o' (p.take n) = .table

def reopened (layers : List T) (p : List κ) : Found α → Found α
  | .cut n => if layers.any fun o => (look o (p.take n)).isTable then .absent else .cut n
  | f => f

theorem plain_reopened (layers : List T) (p : List κ) (f : Found α) :
    (reopened look layers p f).plain = f.plain := by
  cases f with
  | absent | leaf a | table => rfl
  | cut n =>
    simp only [reopened]
    split <;> rfl

theorem reopened_eq_absent {layers : List T} {p : List κ} {f : Found α} :
    reopened look layers p f = .absent ↔
      f = .absent ∨ ∃ n, f = .cut n ∧ ∃ o ∈ layers, look o (p.take n) = .table := by
  cases f with
  | absent | leaf a | table => simp [reopened]
  | cut n => simp [reopened]

theorem reopens_cons {o : T} {post : List T} {p : List κ} :
    Reopens look (o :: post) p ↔
      ((∀ o' ∈ post, look o' p = .absent) ∧
        ∃ n, look o p = .cut n ∧ ∃ o' ∈ post, look o' (p.take n) = .table) ∨
      Reopens look post p := by
  constructor
  · rintro ⟨o₁, post₁, hsuffix, habsent, hcut⟩
    rcases List.suffix_cons_iff.mp hsuffix with heq | hsuffix
    · injection heq with ho hpost
      subst ho hpost
      exact Or.inl ⟨habsent, hcut⟩
    · exact Or.inr ⟨o₁, post₁, hsuffix, habsent, hcut⟩
  · rintro (⟨habsent, hcut⟩ | ⟨o₁, post₁, hsuffix, habsent, hcut⟩)
    · exact ⟨o, post, List.suffix_rfl, habsent, hcut⟩
    · exact ⟨o₁, post₁, hsuffix.trans (List.suffix_cons o post), habsent, hcut⟩

theorem Reopens.exists_ne {layers : List T} {p : List κ} (h : Reopens look layers p) :
    ∃ o ∈ layers, look o p ≠ .absent := by
  obtain ⟨o, post, hsuffix, -, n, hcut, -⟩ := h
  exact ⟨o, hsuffix.mem (by simp), by simp [hcut]⟩

variable (law : ∀ (base upper : T) (p : List κ),
  look (merge base upper) p = overlaid (look upper) p (look base p))

include law

/-- Layers with nothing at a path leave there what `reopened` says. -/
theorem look_foldl_of_absent {layers : List T} {p : List κ} (base : T)
    (h : ∀ o ∈ layers, look o p = .absent) :
    look (layers.foldl merge base) p = reopened look layers p (look base p) := by
  induction layers generalizing base with
  | nil => cases hb : look base p <;> simp [reopened, hb]
  | cons o rest ih =>
    have ho : look o p = .absent := h o (by simp)
    rw [List.foldl_cons, ih (merge base o) fun o' ho' => h o' (List.mem_cons_of_mem _ ho'), law]
    cases hb : look base p with
    | absent | leaf a | table => simp [overlaid, ho, reopened]
    | cut n =>
      cases htable : (look o (p.take n)).isTable <;>
        simp only [overlaid, ho, reopened, htable, List.any_cons, Bool.true_or, Bool.false_or,
          if_true, Bool.false_eq_true, if_false]

/-- Once a layer has something at a path, what was there before any of them does not matter. -/
theorem look_foldl_congr {layers : List T} {p : List κ} (base base' : T)
    (h : ∃ o ∈ layers, look o p ≠ .absent) :
    look (layers.foldl merge base) p = look (layers.foldl merge base') p := by
  induction layers generalizing base base' with
  | nil => simp at h
  | cons o rest ih =>
    rw [List.foldl_cons, List.foldl_cons]
    by_cases hrest : ∃ o' ∈ rest, look o' p ≠ .absent
    · exact ih _ _ hrest
    · push Not at hrest
      have ho : look o p ≠ .absent := by
        obtain ⟨o', ho', hne⟩ := h
        rcases List.mem_cons.mp ho' with rfl | ho'
        · exact hne
        · exact absurd (hrest o' ho') hne
      rw [look_foldl_of_absent look merge law _ hrest, look_foldl_of_absent look merge law _ hrest,
        law, law, overlaid_of_ne ho, overlaid_of_ne ho]

/-- **The last layer that has something at a path decides what is there.** -/
theorem plain_foldl_of_last {pre post : List T} {o : T} {p : List κ} (base : T)
    (ho : look o p ≠ .absent) (hpost : ∀ o' ∈ post, look o' p = .absent) :
    (look ((pre ++ o :: post).foldl merge base) p).plain = (look o p).plain := by
  rw [List.foldl_append, List.foldl_cons, look_foldl_of_absent look merge law _ hpost,
    plain_reopened, law, overlaid_of_ne ho]

/-- Layers that have something at a path and leave nothing to be read there have reopened it. -/
theorem reopens_iff {layers : List T} {p : List κ} {empty : T} (hempty : look empty p = .absent) :
    Reopens look layers p ↔
      (∃ o ∈ layers, look o p ≠ .absent) ∧ look (layers.foldl merge empty) p = .absent := by
  induction layers with
  | nil => simp [Reopens]
  | cons o rest ih =>
    rw [reopens_cons, List.foldl_cons]
    by_cases hrest : ∃ o' ∈ rest, look o' p ≠ .absent
    -- a later layer has something there, so what this one had is forgotten
    · have hnot : ¬ ∀ o' ∈ rest, look o' p = .absent := by
        push Not
        exact hrest
      rw [look_foldl_congr look merge law (merge empty o) empty hrest, ih]
      simp [hnot, hrest]
    -- this is the last that can have: it cuts the path off and is reopened, or it stays
    · have hno : ¬ Reopens look rest p := fun h => hrest (h.exists_ne look)
      push Not at hrest
      rw [look_foldl_of_absent look merge law _ hrest, reopened_eq_absent, law, hempty]
      have hrel : (∃ o' ∈ o :: rest, look o' p ≠ .absent) ↔ look o p ≠ .absent := by
        simp only [List.mem_cons, exists_eq_or_imp]
        exact or_iff_left fun ⟨o', ho', hne⟩ => hne (hrest o' ho')
      rw [hrel]
      by_cases ho : look o p = .absent
      · simp [hno, ho]
      · rw [overlaid_of_ne ho]
        simp only [ho, hno, or_false, false_or, not_false_iff, true_and, ne_eq]
        exact and_iff_right hrest

/-- Where the layers reopened a path, laying them on one after another leaves nothing there, and
laying them on as one leaves what was there. -/
theorem plain_of_reopens {layers : List T} {p : List κ} {empty : T} (base : T)
    (hempty : look empty p = .absent) (h : Reopens look layers p) :
    (look (layers.foldl merge base) p).plain = .absent ∧
      (look (merge base (layers.foldl merge empty)) p).plain = (look base p).plain := by
  obtain ⟨hany, habsent⟩ := (reopens_iff look merge law hempty).mp h
  constructor
  · rw [look_foldl_congr look merge law base empty hany, habsent]
    rfl
  · rw [law, plain_overlaid habsent]

/-- Where the layers did not reopen the path, the two ways of laying them on agree. -/
theorem plain_of_not_reopens {layers : List T} {p : List κ} {empty : T} (base : T)
    (hempty : look empty p = .absent) (h : ¬ Reopens look layers p) :
    (look (merge base (layers.foldl merge empty)) p).plain =
      (look (layers.foldl merge base) p).plain := by
  by_cases hany : ∃ o ∈ layers, look o p ≠ .absent
  · have hne : look (layers.foldl merge empty) p ≠ .absent :=
      fun habsent => h ((reopens_iff look merge law hempty).mpr ⟨hany, habsent⟩)
    rw [law, overlaid_of_ne hne, look_foldl_congr look merge law base empty hany]
  · push Not at hany
    have habsent : look (layers.foldl merge empty) p = .absent := by
      rw [look_foldl_of_absent look merge law empty hany, hempty]
      rfl
    rw [law, plain_overlaid habsent, look_foldl_of_absent look merge law base hany, plain_reopened]

end Layers

end Lib
