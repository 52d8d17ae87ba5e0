import IraOS.Lib.Tables
import Mathlib.Data.List.Infix
import Mathlib.Data.List.Perm.Basic

/-!
# Leaves written along paths

A leaf is written at a path: tables are made where there is nothing on the way, and a leaf on the
way is in the way, so that nothing is written. What is written at a path that ends in the middle of
another one takes the place of the table there. So between two paths of which one goes on where the
other ends the shorter one always wins, whichever is written first, and writes at different paths
commute (`assign_comm`).

That is not obvious from the two rules, which look as if they depended on the order: if the shorter
path is written first, it is in the way of the longer one and stays; if it is written second, it
takes the place of the table that the longer one has made, with everything in it. Both ways the
shorter path's leaf is there in the end. What may differ is the order in which a table lists its
keys, and so the two results are compared path by path (`LookSame`) and not as lists of entries.

The proof does not look at tables either. `Found.written` is what a write does to what a path leads
to, and `look_assign` says so once; after that, two writes are two functions on `Found`, and that
they commute is a matter of how the two paths and the path that is read lie to one another.

A path that is written twice does not commute with itself: the second leaf wins. So a whole list of
writes may be put in any order where no path occurs twice in it (`assignAll_perm`).
-/

set_option autoImplicit false

namespace Lib

namespace Nested

variable {κ α : Type} [DecidableEq κ]

/-- Write a leaf at a path, making tables where there is nothing on the way; a leaf on the way
stays, and then nothing is written. -/
def assign (a : α) : List κ → List (κ × Nested κ α) → List (κ × Nested κ α)
  | [], current => current
  | [k], current => Dict.put k (.leaf a) current
  | k :: rest, current =>
    match current.lookup k with
    | none => Dict.put k (.table (assign a rest [])) current
    | some (.table below) => Dict.put k (.table (assign a rest below)) current
    | some (.leaf _) => current

theorem assign_cons_none {a : α} {k j : κ} {rest : List κ} {current : List (κ × Nested κ α)}
    (h : current.lookup k = none) :
    assign a (k :: j :: rest) current = Dict.put k (.table (assign a (j :: rest) [])) current := by
  simp only [assign, h]

theorem assign_cons_table {a : α} {k j : κ} {rest : List κ} {current below : List (κ × Nested κ α)}
    (h : current.lookup k = some (.table below)) :
    assign a (k :: j :: rest) current =
      Dict.put k (.table (assign a (j :: rest) below)) current := by
  simp only [assign, h]

theorem assign_cons_leaf {a b : α} {k j : κ} {rest : List κ} {current : List (κ × Nested κ α)}
    (h : current.lookup k = some (.leaf b)) : assign a (k :: j :: rest) current = current := by
  simp only [assign, h]

/-! ## Tables stay tables -/

theorem distinct_put {k : κ} {v : Nested κ α} {current : List (κ × Nested κ α)}
    (hv : v.Distinct) (h : (table current).Distinct) :
    (table (Dict.put k v current)).Distinct := by
  apply Distinct.of_forall_lookup (Dict.put_nodup h.nodup)
  intro j w hw
  rw [Dict.lookup_put] at hw
  split at hw
  · rw [← Option.some.inj hw]
    exact hv
  · exact h.of_lookup hw

theorem assign_distinct {a : α} {p : List κ} {current : List (κ × Nested κ α)}
    (h : (table current).Distinct) : (table (assign a p current)).Distinct := by
  induction p generalizing current with
  | nil => exact h
  | cons k rest ih =>
    cases rest with
    | nil => exact distinct_put (.leaf a) h
    | cons j rest =>
      cases hlookup : current.lookup k with
      | none =>
        rw [assign_cons_none hlookup]
        exact distinct_put (ih (.table [] (by simp) (by simp))) h
      | some v =>
        cases v with
        | leaf b =>
          rw [assign_cons_leaf hlookup]
          exact h
        | table below =>
          rw [assign_cons_table hlookup]
          exact distinct_put (ih (h.of_lookup hlookup)) h

/-! ## What a path leads to after a write -/

end Nested

/-- What `q` leads to once `a` is written at `p`, by what it led to before. -/
def Found.written {κ α : Type} [DecidableEq κ] (p : List κ) (a : α) (q : List κ) (f : Found α) :
    Found α :=
  if p <+: q then if q = p then .leaf a else .cut p.length
  else if q <+: p then .table
  else f

namespace Found

variable {κ α : Type} [DecidableEq κ] {a : α} {p q : List κ} {f : Found α}

theorem written_nil (hp : p ≠ []) : written p a [] f = .table := by
  simp [written, hp]

theorem written_cons_ne {k j : κ} (hne : j ≠ k) : written (k :: p) a (j :: q) f = f := by
  simp [written, hne, Ne.symm hne]

theorem written_cons_self {k : κ} :
    written (k :: p) a (k :: q) f.under = (written p a q f).under := by
  unfold written
  simp only [List.prefix_cons_inj, List.cons.injEq, true_and, List.length_cons]
  split
  · split <;> rfl
  · split <;> rfl

theorem written_absorb {p' : List κ} {a' : α} (h : p <+: p') :
    written p a q (written p' a' q f) = written p a q f := by
  by_cases hpq : p <+: q
  · simp [written, hpq]
  · by_cases hqp : q <+: p
    · simp [written, hpq, hqp]
    · have hp'q : ¬ p' <+: q := fun hle => hpq (h.trans hle)
      have hqp' : ¬ q <+: p' := by
        intro hle
        rcases List.prefix_or_prefix_of_prefix h hle with hle' | hle'
        · exact hpq hle'
        · exact hqp hle'
      simp [written, hpq, hqp, hp'q, hqp']

theorem written_comm {p' : List κ} {a' : α} (h : ¬ p <+: p') (h' : ¬ p' <+: p) :
    written p a q (written p' a' q f) = written p' a' q (written p a q f) := by
  have happart : p <+: q → ¬ p' <+: q ∧ ¬ q <+: p' := by
    intro hpq
    refine ⟨fun hle => ?_, fun hle => h (hpq.trans hle)⟩
    rcases List.prefix_or_prefix_of_prefix hpq hle with hle' | hle'
    · exact h hle'
    · exact h' hle'
  by_cases hpq : p <+: q
  · obtain ⟨hp'q, hqp'⟩ := happart hpq
    simp [written, hpq, hp'q, hqp']
  · by_cases hp'q : p' <+: q
    · have hqp : ¬ q <+: p := fun hle => h' (hp'q.trans hle)
      simp [written, hpq, hp'q, hqp]
    · simp only [written, hpq, hp'q, if_false]
      split <;> split <;> rfl

theorem written_root : written [] a q f = (Nested.leaf a : Nested κ α).look q := by
  cases q <;> simp [written, Nested.look]

end Found

namespace Nested

variable {κ α : Type} [DecidableEq κ] {a : α}

theorem put_of_lookup {k : κ} {v : Nested κ α} {l : List (κ × Nested κ α)}
    (h : l.lookup k = some v) : Dict.put k v l = l := by
  induction l with
  | nil => cases h
  | cons e rest ih =>
    obtain ⟨j, w⟩ := e
    rw [Dict.lookup_cons_ite] at h
    split at h
    · next heq =>
      rw [Dict.put, if_pos heq.symm, heq, Option.some.inj h]
    · next hne =>
      rw [Dict.put, if_neg (Ne.symm hne), ih h]

theorem assign_of_cut {p : List κ} {current : List (κ × Nested κ α)} {n : Nat}
    (h : (table current).look p = .cut n) : assign a p current = current := by
  induction p generalizing current n with
  | nil => rfl
  | cons k rest ih =>
    rw [look_table_cons] at h
    cases rest with
    | nil =>
      cases hlookup : current.lookup k with
      | none => simp [hlookup, reached, Found.under] at h
      | some v => cases v <;> simp [hlookup, reached, Found.under, look] at h
    | cons j rest =>
      cases hlookup : current.lookup k with
      | none => simp [hlookup, reached, Found.under] at h
      | some v =>
        cases v with
        | leaf b => exact assign_cons_leaf hlookup
        | table below =>
          rw [hlookup, reached] at h
          cases hbelow : (table below).look (j :: rest) with
          | absent | leaf b | table => simp [hbelow, Found.under] at h
          | cut m => rw [assign_cons_table hlookup, ih hbelow, put_of_lookup hlookup]

theorem look_put {k : κ} {v : Nested κ α} {current : List (κ × Nested κ α)} {p : List κ}
    (hv : ∀ q, v.look q = Found.written p a q (reached (current.lookup k) q)) (q : List κ) :
    (table (Dict.put k v current)).look q =
      Found.written (k :: p) a q ((table current).look q) := by
  cases q with
  | nil => exact (Found.written_nil (List.cons_ne_nil k p)).symm
  | cons j q =>
    rw [look_table_cons, look_table_cons, Dict.lookup_put]
    by_cases hj : j = k
    · subst hj
      rw [if_pos rfl, reached, hv, Found.written_cons_self]
    · rw [if_neg hj, Found.written_cons_ne hj]

/-- Where no leaf is in the way, what is found is what was written. -/
theorem look_assign {p : List κ} (hp : p ≠ []) {current : List (κ × Nested κ α)}
    (hfree : ∀ n, (table current).look p ≠ .cut n) (q : List κ) :
    (table (assign a p current)).look q = Found.written p a q ((table current).look q) := by
  induction p generalizing current q with
  | nil => exact absurd rfl hp
  | cons k rest ih =>
    cases rest with
    | nil => exact look_put (fun q => Found.written_root.symm) q
    | cons j rest =>
      rw [look_table_cons] at hfree
      have hrest : j :: rest ≠ [] := List.cons_ne_nil j rest
      cases hlookup : current.lookup k with
      | none =>
        rw [assign_cons_none hlookup]
        apply look_put
        intro q
        rw [ih hrest (by simp [look]), hlookup, reached]
        cases q with
        | nil => rw [Found.written_nil hrest, Found.written_nil hrest]
        | cons i q => rfl
      | some v =>
        rw [hlookup, reached] at hfree
        cases v with
        | leaf b => exact absurd rfl (hfree 1)
        | table below =>
          rw [assign_cons_table hlookup]
          apply look_put
          intro q
          rw [ih hrest, hlookup, reached]
          intro n hcut
          exact hfree (n + 1) (by rw [hcut]; rfl)

/-! ## The order of the writes -/

/-- The two tables have the same at every path. They may list their keys in different orders. -/
def LookSame (t u : List (κ × Nested κ α)) : Prop := ∀ q, (table t).look q = (table u).look q

theorem LookSame.assign {t u : List (κ × Nested κ α)} (h : LookSame t u) (a : α) (p : List κ) :
    LookSame (assign a p t) (assign a p u) := by
  intro q
  by_cases hp : p = []
  · subst hp
    exact h q
  · by_cases hcut : ∃ n, (table t).look p = .cut n
    · obtain ⟨n, hn⟩ := hcut
      rw [assign_of_cut hn, assign_of_cut ((h p).symm.trans hn)]
      exact h q
    · push Not at hcut
      rw [look_assign hp hcut, look_assign hp (h p ▸ hcut), h q]

theorem cut_assign (a' : α) {p p' : List κ} (hp' : p' ≠ []) (hne : p ≠ p')
    {t : List (κ × Nested κ α)} {n : Nat} (hcut : (table t).look p = .cut n) :
    ∃ m, (table (assign a' p' t)).look p = .cut m := by
  by_cases hcut' : ∃ m, (table t).look p' = .cut m
  · obtain ⟨m, hm⟩ := hcut'
    rw [assign_of_cut hm]
    exact ⟨n, hcut⟩
  · push Not at hcut'
    rw [look_assign hp' hcut', hcut, Found.written, if_neg hne]
    split
    · exact ⟨_, rfl⟩
    · split
      · next hle =>
        -- the leaf that is in the way of `p` is in the way of what goes on from it
        obtain ⟨hlt, b, hb⟩ := look_eq_cut_iff.mp hcut
        obtain ⟨rest, rfl⟩ := hle
        refine absurd (look_eq_cut_iff.mpr ⟨?_, b, ?_⟩) (hcut' n)
        · rw [List.length_append]
          omega
        · rw [List.take_append_of_le_length (Nat.le_of_lt hlt)]
          exact hb
      · exact ⟨n, rfl⟩

theorem assign_comm_of_shorter {a a' : α} {p p' : List κ} (hp : p ≠ []) (hp' : p' ≠ [])
    (hne : p ≠ p') (hle : p <+: p') {t : List (κ × Nested κ α)}
    (hfree : ∀ n, (table t).look p ≠ .cut n) (hfree' : ∀ n, (table t).look p' ≠ .cut n) :
    LookSame (assign a p (assign a' p' t)) (assign a' p' (assign a p t)) := by
  have hcut : (table (assign a p t)).look p' = .cut p.length := by
    rw [look_assign hp hfree, Found.written, if_pos hle, if_neg (Ne.symm hne)]
  have htable : (table (assign a' p' t)).look p = .table := by
    have hnot : ¬ p' <+: p := fun hle' => hne (hle.eq_of_length_le hle'.length_le)
    rw [look_assign hp' hfree', Found.written, if_neg hnot, if_pos hle]
  intro q
  rw [assign_of_cut hcut, look_assign hp (by simp [htable]), look_assign hp' hfree',
    look_assign hp hfree, Found.written_absorb hle]

/-- **Writes at different paths commute.** -/
theorem assign_comm {a a' : α} {p p' : List κ} (hp : p ≠ []) (hp' : p' ≠ []) (hne : p ≠ p')
    (t : List (κ × Nested κ α)) :
    LookSame (assign a p (assign a' p' t)) (assign a' p' (assign a p t)) := by
  by_cases hcut : ∃ n, (table t).look p = .cut n
  · obtain ⟨n, hn⟩ := hcut
    obtain ⟨m, hm⟩ := cut_assign a' hp' hne hn
    rw [assign_of_cut hn, assign_of_cut hm]
    exact fun _ => rfl
  by_cases hcut' : ∃ n, (table t).look p' = .cut n
  · obtain ⟨n, hn⟩ := hcut'
    obtain ⟨m, hm⟩ := cut_assign a hp (Ne.symm hne) hn
    rw [assign_of_cut hn, assign_of_cut hm]
    exact fun _ => rfl
  push Not at hcut hcut'
  by_cases hle : p <+: p'
  · exact assign_comm_of_shorter hp hp' hne hle hcut hcut'
  by_cases hle' : p' <+: p
  · exact fun q => (assign_comm_of_shorter hp' hp (Ne.symm hne) hle' hcut' hcut q).symm
  -- the paths part: neither write is in the way of the other
  have hfree : ∀ n, (table (assign a' p' t)).look p ≠ .cut n := by
    rw [look_assign hp' hcut', Found.written, if_neg hle', if_neg hle]
    exact hcut
  have hfree' : ∀ n, (table (assign a p t)).look p' ≠ .cut n := by
    rw [look_assign hp hcut, Found.written, if_neg hle, if_neg hle']
    exact hcut'
  intro q
  rw [look_assign hp hfree, look_assign hp' hcut', look_assign hp' hfree', look_assign hp hcut,
    Found.written_comm hle hle']

def assignAll (items : List (List κ × α)) (t : List (κ × Nested κ α)) : List (κ × Nested κ α) :=
  items.foldl (fun t e => assign e.2 e.1 t) t

theorem LookSame.assignAll {t u : List (κ × Nested κ α)} (h : LookSame t u)
    (items : List (List κ × α)) : LookSame (assignAll items t) (assignAll items u) := by
  induction items generalizing t u with
  | nil => exact h
  | cons e rest ih => exact ih (h.assign e.2 e.1)

/-- **The order does not matter**, as long as no path is written twice. -/
theorem assignAll_perm {items items' : List (List κ × α)} (h : items.Perm items')
    (hne : ∀ e ∈ items, e.1 ≠ []) (hnodup : (items.map Prod.fst).Nodup)
    (t : List (κ × Nested κ α)) : LookSame (assignAll items t) (assignAll items' t) := by
  induction h generalizing t with
  | nil => exact fun _ => rfl
  | cons e _ ih =>
    rw [List.map_cons, List.nodup_cons] at hnodup
    exact ih (fun e he => hne e (List.mem_cons_of_mem _ he)) hnodup.2 _
  | swap e e' rest =>
    rw [List.map_cons, List.map_cons, List.nodup_cons] at hnodup
    have hdiffer : e.1 ≠ e'.1 := fun heq => hnodup.1 (heq ▸ List.mem_cons_self)
    exact (assign_comm (hne e (by simp)) (hne e' (by simp)) hdiffer t).assignAll rest
  | trans h _ ih ih' =>
    intro q
    rw [ih hne hnodup t q, ih' (fun e he => hne e (h.mem_iff.mpr he))
      ((h.map _).nodup_iff.mp hnodup) t q]

end Nested

end Lib
