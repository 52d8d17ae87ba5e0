import IraOS.Lib.Dict
import Mathlib.Data.Finset.Basic
import Mathlib.Data.Finset.Card

/-!
# Dictionaries of buckets

A `defaultdict(set)`: a key that is not there stands for the empty bucket, and a bucket that becomes
empty is dropped. What such an index is for is to invert a relation: `Inverts d R` says that `x` is
in the bucket of `k` just where `R x k`, and the two updates do to the index what they do to the
relation.

Two facts are kept apart here, since the code that maintains an index needs both and they break for
different reasons:

* `Inverts` is about **membership**: a lookup by key finds what it is to find, and no more.
* `Pruned` is about **the keys that are there**: no bucket is empty. A pruned index has no more
  keys than the relation has values, so counting one counts the other (`Pruned.size_eq`). An index
  that keeps empty buckets answers every lookup right, and every count wrong.

The relation is a parameter, and a write to the index is matched by a write to the relation; which
records there are and how their keys are read off them is left to the store that has the index.
Buckets are finite sets, so adding what is there and removing what is not are harmless, as they are
in the original.
-/

set_option autoImplicit false

namespace Lib

namespace Dict

variable {κ ι : Type} [DecidableEq κ]

/-! ## Reading -/

/-- `d[k]` of a `defaultdict(set)`: a key that is not there has the empty bucket. -/
def bucket (d : Dict κ (Finset ι)) (k : κ) : Finset ι := (d.get? k).getD ∅

theorem mem_bucket {d : Dict κ (Finset ι)} {k : κ} {x : ι} :
    x ∈ d.bucket k ↔ ∃ b, d.get? k = some b ∧ x ∈ b := by
  unfold bucket
  cases d.get? k <;> simp

/-- The buckets are the inverse images of the relation: `x` is in the bucket of `k` just where `x`
has `k` among its values. -/
def Inverts (d : Dict κ (Finset ι)) (R : ι → κ → Prop) : Prop := ∀ k x, x ∈ d.bucket k ↔ R x k

theorem Inverts.congr {d : Dict κ (Finset ι)} {R R' : ι → κ → Prop} (h : Inverts d R)
    (hr : ∀ x k, R x k ↔ R' x k) : Inverts d R' := fun k x => (h k x).trans (hr x k)

def Pruned (d : Dict κ (Finset ι)) : Prop := ∀ k b, d.get? k = some b → b.Nonempty

theorem pruned_empty : (empty : Dict κ (Finset ι)).Pruned := fun _ _ h => absurd h (by simp)

theorem Pruned.mem_keys_iff {d : Dict κ (Finset ι)} (h : d.Pruned) {R : ι → κ → Prop}
    (hr : Inverts d R) {k : κ} : k ∈ d.keys ↔ ∃ x, R x k := by
  rw [Dict.mem_keys_iff]
  constructor
  · rintro ⟨b, hb⟩
    obtain ⟨x, hx⟩ := h k b hb
    exact ⟨x, (hr k x).mp (mem_bucket.mpr ⟨b, hb, hx⟩)⟩
  · rintro ⟨x, hx⟩
    obtain ⟨b, hb, _⟩ := mem_bucket.mp ((hr k x).mpr hx)
    exact ⟨b, hb⟩

/-- The index has as many keys as the relation has values, so the size of the one may be read off
the other. -/
theorem Pruned.size_eq {d : Dict κ (Finset ι)} (h : d.Pruned) {R : ι → κ → Prop}
    (hr : Inverts d R) {s : Finset κ} (hs : ∀ k, k ∈ s ↔ ∃ x, R x k) : d.size = s.card := by
  have hkeys : d.keys.toFinset = s := by
    ext k
    rw [List.mem_toFinset, h.mem_keys_iff hr, hs]
  rw [← length_keys, ← hkeys, List.toFinset_card_of_nodup d.keys_nodup]

/-! ## Writing -/

variable [DecidableEq ι]

def addTo (d : Dict κ (Finset ι)) (k : κ) (x : ι) : Dict κ (Finset ι) :=
  d.set k (insert x (d.bucket k))

/-- `d[k].discard(x)`, and the key is dropped if that leaves its bucket empty. Without the second
half the index would still invert its relation, but would no longer be pruned. -/
def discardFrom (d : Dict κ (Finset ι)) (k : κ) (x : ι) : Dict κ (Finset ι) :=
  let discarded := d.set k ((d.bucket k).erase x)
  if (d.bucket k).erase x = ∅ then discarded.erase k else discarded

/-- `x` into the bucket of every key in the list, one after the other. A key that is listed twice is
written twice, and the second time changes nothing. -/
def addToAll (d : Dict κ (Finset ι)) (ks : List κ) (x : ι) : Dict κ (Finset ι) :=
  ks.foldl (fun d k => d.addTo k x) d

/-- `x` out of the bucket of every key in the list. -/
def discardFromAll (d : Dict κ (Finset ι)) (ks : List κ) (x : ι) : Dict κ (Finset ι) :=
  ks.foldl (fun d k => d.discardFrom k x) d

theorem bucket_addTo (d : Dict κ (Finset ι)) (k j : κ) (x : ι) :
    (d.addTo k x).bucket j = if j = k then insert x (d.bucket k) else d.bucket j := by
  unfold addTo bucket
  rw [get?_set]
  split <;> rfl

theorem bucket_discardFrom (d : Dict κ (Finset ι)) (k j : κ) (x : ι) :
    (d.discardFrom k x).bucket j = if j = k then (d.bucket k).erase x else d.bucket j := by
  unfold discardFrom
  dsimp only
  by_cases hj : j = k
  · subst hj
    rw [if_pos rfl]
    split
    · next he => rw [he, bucket, get?_erase_self]; rfl
    · rw [bucket, get?_set_self]; rfl
  · rw [if_neg hj]
    split
    · rw [bucket, get?_erase_ne hj, get?_set_ne hj]; rfl
    · rw [bucket, get?_set_ne hj]; rfl

/-! ## Writing to an index -/

theorem Inverts.addTo {d : Dict κ (Finset ι)} {R : ι → κ → Prop} (h : Inverts d R) (k : κ)
    (x : ι) : Inverts (d.addTo k x) fun y j => R y j ∨ (y = x ∧ j = k) := by
  intro j y
  rw [bucket_addTo]
  by_cases hj : j = k
  · subst hj; simp [h j y, or_comm]
  · simp [hj, h j y]

theorem Inverts.discardFrom {d : Dict κ (Finset ι)} {R : ι → κ → Prop} (h : Inverts d R) (k : κ)
    (x : ι) : Inverts (d.discardFrom k x) fun y j => R y j ∧ ¬ (y = x ∧ j = k) := by
  intro j y
  rw [bucket_discardFrom]
  by_cases hj : j = k
  · subst hj; simp [h j y, and_comm]
  · simp [hj, h j y]

theorem Pruned.addTo {d : Dict κ (Finset ι)} (h : d.Pruned) (k : κ) (x : ι) :
    (d.addTo k x).Pruned := by
  intro j b hb
  unfold Dict.addTo at hb
  rw [get?_set] at hb
  split at hb
  · rw [← Option.some.inj hb]; exact Finset.insert_nonempty ..
  · exact h j b hb

theorem Pruned.discardFrom {d : Dict κ (Finset ι)} (h : d.Pruned) (k : κ) (x : ι) :
    (d.discardFrom k x).Pruned := by
  intro j b hb
  unfold Dict.discardFrom at hb
  dsimp only at hb
  split at hb
  · rw [get?_erase] at hb
    split at hb
    · exact absurd hb (by simp)
    · next hj => rw [get?_set_ne hj] at hb; exact h j b hb
  · next hne =>
    rw [get?_set] at hb
    split at hb
    · rw [← Option.some.inj hb]; exact Finset.nonempty_iff_ne_empty.mpr hne
    · exact h j b hb

/-! ## … under a list of keys -/

theorem Inverts.addToAll (x : ι) (ks : List κ) {d : Dict κ (Finset ι)} {R : ι → κ → Prop}
    (h : Inverts d R) : Inverts (d.addToAll ks x) fun y k => R y k ∨ (y = x ∧ k ∈ ks) := by
  induction ks generalizing d R with
  | nil => exact h.congr (by simp)
  | cons k ks ih =>
    refine (ih (h.addTo k x)).congr ?_
    intro y j
    rw [List.mem_cons, and_or_left, or_assoc]

theorem Inverts.discardFromAll (x : ι) (ks : List κ) {d : Dict κ (Finset ι)} {R : ι → κ → Prop}
    (h : Inverts d R) :
    Inverts (d.discardFromAll ks x) fun y k => R y k ∧ ¬ (y = x ∧ k ∈ ks) := by
  induction ks generalizing d R with
  | nil => exact h.congr (by simp)
  | cons k ks ih =>
    refine (ih (h.discardFrom k x)).congr ?_
    intro y j
    rw [List.mem_cons]
    tauto

theorem Pruned.addToAll (x : ι) (ks : List κ) {d : Dict κ (Finset ι)} (h : d.Pruned) :
    (d.addToAll ks x).Pruned := by
  induction ks generalizing d with
  | nil => exact h
  | cons k ks ih => exact ih (h.addTo k x)

theorem Pruned.discardFromAll (x : ι) (ks : List κ) {d : Dict κ (Finset ι)} (h : d.Pruned) :
    (d.discardFromAll ks x).Pruned := by
  induction ks generalizing d with
  | nil => exact h
  | cons k ks ih => exact ih (h.discardFrom k x)

end Dict

end Lib
