import Mathlib.Data.List.Nodup
import Mathlib.Data.List.Basic

/-!
# Insertion-ordered dictionaries

A dictionary that iterates in insertion order: writing a key that is present keeps its place,
writing one that is not puts it last, and a key removed and written again is last. The list of
entries is the dictionary; that no key is listed twice is a field, so `get?` never has to say which
of two entries it means and the number of entries is the number of keys.

## Why not a library map

The order of iteration is observable in the programs this is used for: it decides in which order
providers are asked, components are started and events are published. A finite map or a hash map has
none, and a bare association list has duplicates, so "the last write wins" would have to be said
again in every lemma. Equality of two dictionaries is equality of their entries in order, which is
finer than what `==` compares; nothing below relies on the finer one being observed.

## What is proved of it

The two halves of the interface are `get?` after a write (`get?_set`, `get?_erase`, each with its
`_self` and `_ne` case in the simp set) and what is listed (`keys`, `values`, `size`). Every
operation is total and none of them can build an invalid dictionary, as the writes re-establish the
field (`put_nodup`, `drop_nodup`).

The last section reads a dictionary as one with other keys and values (`embed`). The new keys come
from an injective function, so reading and writing go through it unchanged. That is how a model with
a type of its own for each store is compared with one where every store is keyed by text.
-/

set_option autoImplicit false

namespace Lib

/-- A dictionary from `κ` to `ν`: its entries in insertion order, and that no key has two of
them. -/
structure Dict (κ ν : Type) where
  entries : List (κ × ν)
  nodup : (entries.map Prod.fst).Nodup

namespace Dict

variable {κ ν : Type} [DecidableEq κ]

/-! ## The operations on the entries -/

/-- Write `k`, in place when it is there and at the end when it is not. This is where the order of
insertion is kept. -/
def put (k : κ) (v : ν) : List (κ × ν) → List (κ × ν)
  | [] => [(k, v)]
  | (k', v') :: rest => if k' = k then (k, v) :: rest else (k', v') :: put k v rest

def drop (k : κ) (l : List (κ × ν)) : List (κ × ν) := l.filter fun e => decide (e.1 ≠ k)

theorem mem_put_keys {k k' : κ} {v : ν} {l : List (κ × ν)} :
    k' ∈ (put k v l).map Prod.fst ↔ k' = k ∨ k' ∈ l.map Prod.fst := by
  induction l with
  | nil => simp [put]
  | cons e rest ih =>
    by_cases hj : e.1 = k
    · simp [put, hj]
    · simp only [put, if_neg hj, List.map_cons, List.mem_cons, ih]
      tauto

theorem put_nodup {k : κ} {v : ν} {l : List (κ × ν)} (h : (l.map Prod.fst).Nodup) :
    ((put k v l).map Prod.fst).Nodup := by
  induction l with
  | nil => simp [put]
  | cons e rest ih =>
    rw [List.map_cons, List.nodup_cons] at h
    by_cases hj : e.1 = k
    · simpa [put, hj] using h
    · simp only [put, if_neg hj, List.map_cons, List.nodup_cons]
      constructor
      · intro hmem
        rcases mem_put_keys.mp hmem with hq | hq
        · exact hj hq
        · exact h.1 hq
      · exact ih h.2

theorem drop_nodup {k : κ} {l : List (κ × ν)} (h : (l.map Prod.fst).Nodup) :
    ((drop k l).map Prod.fst).Nodup :=
  h.sublist ((List.filter_sublist (l := l)).map Prod.fst)

/-! ## The dictionary -/

def empty : Dict κ ν := ⟨[], by simp⟩

def get? (d : Dict κ ν) (k : κ) : Option ν := d.entries.lookup k

def contains (d : Dict κ ν) (k : κ) : Bool := (d.get? k).isSome

def set (d : Dict κ ν) (k : κ) (v : ν) : Dict κ ν := ⟨put k v d.entries, put_nodup d.nodup⟩

def erase (d : Dict κ ν) (k : κ) : Dict κ ν := ⟨drop k d.entries, drop_nodup d.nodup⟩

def getD (d : Dict κ ν) (k : κ) (v : ν) : ν := (d.get? k).getD v

def keys (d : Dict κ ν) : List κ := d.entries.map Prod.fst

def values (d : Dict κ ν) : List ν := d.entries.map Prod.snd

def size (d : Dict κ ν) : Nat := d.entries.length

/-! ## Reading after writing -/

@[simp] theorem get?_empty (k : κ) : (empty : Dict κ ν).get? k = none := rfl

theorem lookup_cons_ite (j i : κ) (w : ν) (l : List (κ × ν)) :
    ((i, w) :: l).lookup j = if j = i then some w else l.lookup j := by
  by_cases h : j = i
  · simp [h]
  · rw [List.lookup_cons, beq_false_of_ne h, if_neg h]

theorem lookup_put (k j : κ) (v : ν) (l : List (κ × ν)) :
    (put k v l).lookup j = if j = k then some v else l.lookup j := by
  induction l with
  | nil => exact lookup_cons_ite j k v []
  | cons e rest ih =>
    obtain ⟨i, w⟩ := e
    by_cases hi : i = k
    · subst hi
      by_cases hj : j = i <;> simp [put, lookup_cons_ite, hj]
    · by_cases hj : j = i
      · subst hj
        simp [put, hi]
      · simp [put, hi, lookup_cons_ite, hj, ih]

theorem lookup_drop (k j : κ) (l : List (κ × ν)) :
    (drop k l).lookup j = if j = k then none else l.lookup j := by
  induction l with
  | nil => simp [drop]
  | cons e rest ih =>
    obtain ⟨i, w⟩ := e
    by_cases hi : i = k
    · subst hi
      by_cases hj : j = i
      · simpa [drop, hj] using ih
      · simpa [drop, hj, lookup_cons_ite] using ih
    · by_cases hj : j = i
      · subst hj
        simp [drop, hi]
      · simpa [drop, hi, hj, lookup_cons_ite] using ih

theorem get?_set (d : Dict κ ν) (k j : κ) (v : ν) :
    (d.set k v).get? j = if j = k then some v else d.get? j := lookup_put k j v d.entries

@[simp] theorem get?_set_self (d : Dict κ ν) (k : κ) (v : ν) :
    (d.set k v).get? k = some v := by rw [get?_set, if_pos rfl]

theorem get?_set_ne {d : Dict κ ν} {k j : κ} {v : ν} (h : j ≠ k) :
    (d.set k v).get? j = d.get? j := by rw [get?_set, if_neg h]

/-- A key that is not there yet goes last. -/
theorem put_of_absent {k : κ} {l : List (κ × ν)} (h : l.lookup k = none) (v : ν) :
    put k v l = l ++ [(k, v)] := by
  induction l with
  | nil => rfl
  | cons e rest ih =>
    obtain ⟨i, w⟩ := e
    rw [lookup_cons_ite] at h
    split at h
    · cases h
    · rename_i hne
      rw [put, if_neg (Ne.symm hne), ih h, List.cons_append]

theorem get?_erase (d : Dict κ ν) (k j : κ) :
    (d.erase k).get? j = if j = k then none else d.get? j := lookup_drop k j d.entries

@[simp] theorem get?_erase_self (d : Dict κ ν) (k : κ) : (d.erase k).get? k = none := by
  rw [get?_erase, if_pos rfl]

theorem get?_erase_ne {d : Dict κ ν} {k j : κ} (h : j ≠ k) :
    (d.erase k).get? j = d.get? j := by rw [get?_erase, if_neg h]

theorem contains_set_self (d : Dict κ ν) (k : κ) (v : ν) : (d.set k v).contains k = true := by
  rw [contains, get?_set_self]
  rfl

theorem contains_set_ne {d : Dict κ ν} {k j : κ} {v : ν} (h : j ≠ k) :
    (d.set k v).contains j = d.contains j := by
  rw [contains, get?_set_ne h]
  rfl

theorem contains_erase_self (d : Dict κ ν) (k : κ) : (d.erase k).contains k = false := by
  rw [contains, get?_erase_self]
  rfl

theorem contains_erase_ne {d : Dict κ ν} {k j : κ} (h : j ≠ k) :
    (d.erase k).contains j = d.contains j := by
  rw [contains, get?_erase_ne h]
  rfl

theorem getD_set (d : Dict κ ν) (k j : κ) (v w : ν) :
    (d.set k v).getD j w = if j = k then v else d.getD j w := by
  unfold getD
  rw [get?_set]
  split <;> rfl

@[simp] theorem contains_iff {d : Dict κ ν} {k : κ} :
    d.contains k = true ↔ ∃ v, d.get? k = some v := Option.isSome_iff_exists

/-! ## Keys -/

theorem mem_keys_iff {d : Dict κ ν} {k : κ} : k ∈ d.keys ↔ ∃ v, d.get? k = some v := by
  unfold keys get?
  induction d.entries with
  | nil => simp
  | cons e rest ih =>
    obtain ⟨i, w⟩ := e
    by_cases hk : k = i
    · simp [hk]
    · simp only [List.map_cons, List.mem_cons, hk, false_or, ih, lookup_cons_ite, if_false]

omit [DecidableEq κ] in
theorem keys_nodup (d : Dict κ ν) : d.keys.Nodup := d.nodup

omit [DecidableEq κ] in
@[simp] theorem length_keys (d : Dict κ ν) : d.keys.length = d.size := List.length_map ..

theorem get?_of_mem_entries {d : Dict κ ν} {k : κ} {v : ν} (h : (k, v) ∈ d.entries) :
    d.get? k = some v := by
  obtain ⟨l, hl⟩ := d
  unfold get?
  dsimp only at h ⊢
  induction l with
  | nil => exact absurd h (by simp)
  | cons e rest ih =>
    rw [List.map_cons, List.nodup_cons] at hl
    rcases List.mem_cons.mp h with rfl | hmem
    · simp
    · have hne : k ≠ e.1 := fun hq => hl.1 (hq ▸ List.mem_map_of_mem hmem)
      rw [List.lookup_cons, beq_false_of_ne hne]
      exact ih hl.2 hmem

theorem erase_of_absent {d : Dict κ ν} {k : κ} (h : d.get? k = none) : d.erase k = d := by
  obtain ⟨l, hl⟩ := d
  have hdrop : drop k l = l := by
    refine List.filter_eq_self.mpr fun e he => decide_eq_true ?_
    rintro rfl
    rw [get?_of_mem_entries he] at h
    cases h
  simp only [erase, hdrop]

theorem mem_of_lookup {k : κ} {v : ν} {l : List (κ × ν)} (h : l.lookup k = some v) :
    (k, v) ∈ l := by
  obtain ⟨l₁, l₂, rfl, -⟩ := List.lookup_eq_some_iff.mp h
  simp

theorem mem_values_iff {d : Dict κ ν} {v : ν} : v ∈ d.values ↔ ∃ k, d.get? k = some v := by
  unfold values
  rw [List.mem_map]
  constructor
  · rintro ⟨⟨k, w⟩, hmem, rfl⟩
    exact ⟨k, get?_of_mem_entries hmem⟩
  · rintro ⟨k, hk⟩
    exact ⟨(k, v), mem_of_lookup hk, rfl⟩

/-- A dictionary whose keys are read off a list of items, no two of them alike, is as long as the
list. -/
theorem size_eq_length {ι : Type} {d : Dict κ ν} {key : ι → κ} {items : List ι}
    (hkeys : ∀ k, (∃ v, d.get? k = some v) ↔ ∃ item ∈ items, key item = k)
    (hnodup : (items.map key).Nodup) : d.size = items.length := by
  have hperm : d.keys.Perm (items.map key) := by
    rw [List.perm_ext_iff_of_nodup d.keys_nodup hnodup]
    intro k
    rw [mem_keys_iff, hkeys, List.mem_map]
  rw [← length_keys, hperm.length_eq, List.length_map]

theorem filterMap_keys (d : Dict κ ν) : d.keys.filterMap d.get? = d.values := by
  rw [keys, List.filterMap_map, values, ← List.filterMap_eq_map]
  refine List.filterMap_congr fun e he => ?_
  exact get?_of_mem_entries he

theorem values_set_of_absent {d : Dict κ ν} {k : κ} (h : d.get? k = none) (v : ν) :
    (d.set k v).values = d.values ++ [v] := by
  show (put k v d.entries).map Prod.snd = _
  rw [put_of_absent h, List.map_append]
  rfl

/-- A key that is written again keeps its place. So for an `f` that does not tell the old value from
the new one, the values read through `f` stay the same list. -/
theorem map_values_set {β : Type} {f : ν → β} {d : Dict κ ν} {k : κ} {old v : ν}
    (h : d.get? k = some old) (hf : f v = f old) :
    (d.set k v).values.map f = d.values.map f := by
  have hput : ∀ l : List (κ × ν), l.lookup k = some old →
      ((put k v l).map Prod.snd).map f = (l.map Prod.snd).map f := by
    intro l hl
    induction l with
    | nil => cases hl
    | cons e rest ih =>
      obtain ⟨k', w⟩ := e
      rw [lookup_cons_ite] at hl
      by_cases hk : k' = k
      · rw [if_pos hk.symm, Option.some.injEq] at hl
        simp [put, hk, hf, hl]
      · rw [if_neg (Ne.symm hk)] at hl
        simpa [put, hk] using ih hl
  exact hput d.entries h

/-! ## Keys and values read as others -/

section Embed

variable {κ' ν' : Type} [DecidableEq κ'] {f : κ → κ'} {hf : Function.Injective f} {g : ν → ν'}

omit [DecidableEq κ] [DecidableEq κ'] in
/-- The dictionary with `f` of each key and `g` of each value, in the same order. As `f` is
injective, no two keys become one. -/
def embed (f : κ → κ') (hf : Function.Injective f) (g : ν → ν') (d : Dict κ ν) : Dict κ' ν' where
  entries := d.entries.map fun e => (f e.1, g e.2)
  nodup := by
    have hkeys : (d.entries.map fun e => (f e.1, g e.2)).map Prod.fst
        = (d.entries.map Prod.fst).map f := by
      simp
    rw [hkeys]
    exact d.nodup.map hf

theorem embed_get? (d : Dict κ ν) (k : κ) : (d.embed f hf g).get? (f k) = (d.get? k).map g := by
  show (d.entries.map fun e => (f e.1, g e.2)).lookup (f k) = (d.entries.lookup k).map g
  induction d.entries with
  | nil => rfl
  | cons e rest ih =>
    rw [List.map_cons, lookup_cons_ite, lookup_cons_ite, ih]
    by_cases hk : k = e.1
    · rw [if_pos hk, if_pos (congrArg f hk)]
      rfl
    · rw [if_neg hk, if_neg fun h => hk (hf h)]

omit [DecidableEq κ] in
/-- A key that is not `f` of anything is not there. -/
theorem embed_get?_none (d : Dict κ ν) {k' : κ'} (h : ∀ k, f k ≠ k') :
    (d.embed f hf g).get? k' = none := by
  show (d.entries.map fun e => (f e.1, g e.2)).lookup k' = none
  induction d.entries with
  | nil => rfl
  | cons e rest ih => rw [List.map_cons, lookup_cons_ite, if_neg (Ne.symm (h e.1)), ih]

theorem embed_set (d : Dict κ ν) (k : κ) (v : ν) :
    (d.set k v).embed f hf g = (d.embed f hf g).set (f k) (g v) := by
  have hput : ∀ l : List (κ × ν), (put k v l).map (fun e => (f e.1, g e.2))
      = put (f k) (g v) (l.map fun e => (f e.1, g e.2)) := by
    intro l
    induction l with
    | nil => rfl
    | cons e rest ih =>
      by_cases hk : e.1 = k
      · simp [put, hk]
      · have hne : ¬ f e.1 = f k := fun h => hk (hf h)
        simp [put, hk, hne, ih]
  simp only [embed, set, hput]

theorem embed_erase (d : Dict κ ν) (k : κ) :
    (d.erase k).embed f hf g = (d.embed f hf g).erase (f k) := by
  have hdrop : ∀ l : List (κ × ν), (drop k l).map (fun e => (f e.1, g e.2))
      = drop (f k) (l.map fun e => (f e.1, g e.2)) := by
    intro l
    induction l with
    | nil => rfl
    | cons e rest ih =>
      by_cases hk : e.1 = k
      · simpa [drop, hk] using ih
      · have hne : ¬ f e.1 = f k := fun h => hk (hf h)
        simpa [drop, hk, hne] using ih
  simp only [embed, erase, hdrop]

omit [DecidableEq κ] [DecidableEq κ'] in
@[simp] theorem embed_size (d : Dict κ ν) : (d.embed f hf g).size = d.size := List.length_map ..

omit [DecidableEq κ] [DecidableEq κ'] in
theorem embed_values (d : Dict κ ν) : (d.embed f hf g).values = d.values.map g := by
  simp [embed, values]

end Embed

end Dict

end Lib
