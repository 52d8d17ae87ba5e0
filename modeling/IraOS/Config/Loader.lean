import IraOS.Lib.Tables

/-!
# The configuration loader

`ConfigLoader` (`core/config/loader.py`): the tables of the providers, each laid over what the ones
before it gave. A leaf is whatever the providers put where no table is — a list, a `SecretValue`,
`None` — and is never looked into, so its type is a parameter.

`_deep_merge` on one path is `overlaid`, and that is all the later results use of it.

A table is taken apart by its paths here: what is read at a path is a leaf, a table or nothing, and
two tables are the same if they read the same at every path. The order in which a dictionary has its
entries is not compared, as `==` does not compare it either, and every key is there once, which is a
field of the type.

That the loader may share objects with its providers cannot be seen on tables. It is looked at in
`Config.Objects`, with the same result.
-/

set_option autoImplicit false

namespace IraOS

open Lib

/-! ## Configuration tables -/

/-- `Dict[str, Any]`, as nested as it comes. That no key is there twice, on any level, is a field,
and every operation of the loader keeps it. -/
structure ConfigTable (α : Type) where
  entries : List (String × Nested String α)
  distinct : (Nested.table entries).Distinct

namespace ConfigTable

variable {α : Type}

def empty : ConfigTable α := ⟨[], .table [] (by simp) (by simp)⟩

def look (t : ConfigTable α) (p : List String) : Found α := (Nested.table t.entries).look p

/-- What is read at a path: a leaf, a table, or nothing. -/
def at? (t : ConfigTable α) (p : List String) : Found α := (t.look p).plain

/-- `t == u`: the order of the entries is nobody's business, on any level. -/
def Same (t u : ConfigTable α) : Prop := ∀ p, t.at? p = u.at? p

@[simp] theorem look_nil (t : ConfigTable α) : t.look [] = .table := rfl

@[simp] theorem look_empty (k : String) (p : List String) :
    (empty : ConfigTable α).look (k :: p) = .absent := rfl

end ConfigTable

/-! ## core/config/loader.py -/

/-- A loader, its providers from the lowest priority to the highest. A provider is what its `load`
answers. -/
structure ConfigLoader (α : Type) where
  providers : List (ConfigTable α) := []

namespace ConfigLoader

variable {α : Type}

mutual

def mergeItems (merged : List (String × Nested String α)) :
    List (String × Nested String α) → List (String × Nested String α)
  | [] => merged
  | (key, value) :: rest =>
    mergeItems (Dict.put key (mergedValue (merged.lookup key) value) merged) rest

def mergedValue : Option (Nested String α) → Nested String α → Nested String α
  | some (.table base), .table override => .table (mergeItems base override)
  | _, value => value

end

@[simp] theorem mergedValue_none (value : Nested String α) : mergedValue none value = value := by
  cases value <;> rfl

@[simp] theorem mergedValue_leaf (a : α) (value : Nested String α) :
    mergedValue (some (.leaf a)) value = value := by
  cases value <;> rfl

theorem mergeItems_nodup {merged upper : List (String × Nested String α)}
    (h : (merged.map Prod.fst).Nodup) : ((mergeItems merged upper).map Prod.fst).Nodup := by
  induction upper generalizing merged with
  | nil => simpa [mergeItems] using h
  | cons e rest ih =>
    rw [mergeItems]
    exact ih (Dict.put_nodup h)

theorem lookup_mergeItems {merged upper : List (String × Nested String α)}
    (nodup : (upper.map Prod.fst).Nodup) (k : String) :
    (mergeItems merged upper).lookup k =
      match upper.lookup k with
      | none => merged.lookup k
      | some value => some (mergedValue (merged.lookup k) value) := by
  induction upper generalizing merged with
  | nil => rfl
  | cons e rest ih =>
    obtain ⟨key, value⟩ := e
    rw [List.map_cons, List.nodup_cons] at nodup
    rw [mergeItems, ih nodup.2, Dict.lookup_put, Dict.lookup_cons_ite]
    by_cases hk : k = key
    -- it is written now, and never again
    · subst hk
      have hrest : rest.lookup k = none := by
        refine List.lookup_eq_none_iff.mpr fun e he => ?_
        have hmem : e.1 ∈ rest.map Prod.fst := List.mem_map_of_mem he
        have hne : k ≠ e.1 := fun heq => nodup.1 (heq ▸ hmem)
        simpa using hne
      simp [hrest]
    · simp [hk]

theorem mergedValue_distinct {value : Nested String α} (h : value.Distinct)
    (current : Option (Nested String α)) (hcurrent : ∀ v, current = some v → v.Distinct) :
    (mergedValue current value).Distinct := by
  induction h generalizing current with
  | leaf a =>
    cases current with
    | none => exact .leaf a
    | some v => cases v <;> exact .leaf a
  | table entries nodup below ih =>
    cases current with
    | none => exact .table entries nodup below
    | some v =>
      cases v with
      | leaf a => exact .table entries nodup below
      | table base =>
        have hbase : (Nested.table base).Distinct := hcurrent _ rfl
        refine .of_forall_lookup (mergeItems_nodup hbase.nodup) fun k w hw => ?_
        rw [lookup_mergeItems nodup] at hw
        cases hupper : entries.lookup k with
        | none =>
          rw [hupper] at hw
          exact hbase.of_lookup hw
        | some value =>
          rw [hupper] at hw
          obtain ⟨l₁, l₂, heq, -⟩ := List.lookup_eq_some_iff.mp hupper
          injection hw with hw
          subst hw
          exact ih (k, value) (by simp [heq]) _ fun v hv => hbase.of_lookup hv

theorem mergeItems_distinct {base upper : List (String × Nested String α)}
    (hbase : (Nested.table base).Distinct) (hupper : (Nested.table upper).Distinct) :
    (Nested.table (mergeItems base upper)).Distinct :=
  mergedValue_distinct hupper (some (.table base)) fun v hv => by
    injection hv with hv
    exact hv ▸ hbase

def deepMerge (base override : ConfigTable α) : ConfigTable α :=
  ⟨mergeItems base.entries override.entries,
    mergeItems_distinct base.distinct override.distinct⟩

def addProvider (self : ConfigLoader α) (provider : ConfigTable α) : ConfigLoader α :=
  { self with providers := self.providers ++ [provider] }

def loadRaw (self : ConfigLoader α) : ConfigTable α :=
  self.providers.foldl deepMerge .empty

/-! ## What a path leads to in the merged table -/

theorem look_mergedValue {value : Nested String α} (h : value.Distinct)
    (current : Option (Nested String α)) (p : List String) :
    (mergedValue current value).look p = overlaid value.look p (Nested.reached current p) := by
  induction p generalizing value current with
  | nil =>
    rw [overlaid_of_ne (Nested.look_nil_ne_absent value)]
    match current, value with
    | none, _ => simp
    | some (.leaf _), _ => simp
    | some (.table _), .leaf _ => rfl
    | some (.table _), .table _ => rfl
  | cons k p ih =>
    match current, value with
    | none, value => simp [Nested.reached]
    | some (.leaf a), value =>
      rw [mergedValue_leaf, Nested.reached, Nested.overlaid_look_leaf]
    | some (.table base), .leaf a => exact (overlaid_of_ne (Nested.look_leaf_ne_absent a _) _).symm
    -- a table over a table is the loop, and the loop is key by key
    | some (.table base), .table upper =>
      rw [mergedValue, Nested.reached, Nested.look_table_cons, Nested.look_table_cons,
        lookup_mergeItems h.nodup]
      cases hupper : upper.lookup k with
      | none => exact (Nested.overlaid_cons_none hupper p _).symm
      | some value =>
        rw [Nested.overlaid_cons_some hupper]
        exact congrArg Found.under (ih (h.of_lookup hupper) (base.lookup k))

theorem look_deepMerge (base override : ConfigTable α) (p : List String) :
    (deepMerge base override).look p = overlaid override.look p (base.look p) :=
  look_mergedValue override.distinct (some (.table base.entries)) p

end ConfigLoader

end IraOS
