import IraOS.Lib.Act
import IraOS.Lib.Buckets
import IraOS.Lib.System
import IraOS.Memory.Models

/-!
# The memory index and the store over it

`core/memory/indexes.py` and `core/memory/store.py`. An operation of the store is an action on the
index: what it wrote before it raised stays written. Each runs under the store's lock, so a run of
the store is a sequence of them.

The index is made of dictionaries and sets, and a value that does not hash raises where it is first
used as a key. `MemoryIndex.add` uses the id, then the namespace, then the owner, so an owner that
does not hash stops it half-way, and `MemoryIndex.remove` stops at the same place (`indexAdd`,
`indexRemove`). Where everything hashes nothing is in the way, and the two come to `add` and
`remove` below (`indexAdd_of`, `indexRemove_of`); for strings, that is always.

An update takes the old record out and puts the new one in, under whatever id the new one has.
Nothing looks whether that id is another record's, while adding a record does look, and refuses.

Clearing goes through the set of all ids, in the order in which it lists, and removes one record
after another. The order makes no difference to what is left where all of them can be removed, and
decides how far it gets where one cannot.
-/

set_option autoImplicit false

namespace IraOS

open Lib

/-! ## MemoryIndex -/

structure MemoryIndex (κ : Type := String) [RecordKey κ] where
  byId : Dict κ (MemoryRecord κ) := Dict.empty
  byNamespace : Dict String (Finset κ) := Dict.empty
  byTags : Dict String (Finset κ) := Dict.empty
  byOwner : Dict κ (Finset κ) := Dict.empty

variable {κ : Type} [RecordKey κ]

namespace MemoryStore

/-- An operation of the store. -/
abbrev Operation (α : Type) (κ : Type := String) [RecordKey κ] := Act (MemoryIndex κ) Exn Empty α

def hash (v : κ) : Operation Unit κ := Act.ofExcept (RecordKey.hash v)

variable {index : MemoryIndex κ} {v : κ}

theorem hash_of (h : RecordKey.hashable v = true) : hash v index = ⟨.ok (), index, []⟩ := by
  rw [hash, RecordKey.hash, if_pos h, Act.run_ofExcept]

/-- What does not hash raises, and has changed nothing. -/
theorem hash_raises (h : RecordKey.hashable v = false) :
    ∃ exc, hash v index = ⟨.error exc, index, []⟩ := by
  rw [hash, RecordKey.hash, h, if_neg Bool.false_ne_true]
  exact ⟨_, rfl⟩

end MemoryStore

variable [DecidableEq κ]

namespace MemoryIndex

def add (index : MemoryIndex κ) (record : MemoryRecord κ) : MemoryIndex κ where
  byId := index.byId.set record.id record
  byNamespace := index.byNamespace.addTo record.namespace record.id
  byOwner := index.byOwner.addTo record.ownerId record.id
  byTags := index.byTags.addToAll record.tags record.id

def remove (index : MemoryIndex κ) (recordId : κ) : MemoryIndex κ :=
  match index.byId.get? recordId with
  | none => index
  | some record =>
    { byId := index.byId.erase recordId
      byNamespace := index.byNamespace.discardFrom record.namespace recordId
      byOwner := index.byOwner.discardFrom record.ownerId recordId
      byTags := index.byTags.discardFromAll record.tags recordId }

def update (index : MemoryIndex κ) (oldRecord newRecord : MemoryRecord κ) : MemoryIndex κ :=
  (index.remove oldRecord.id).add newRecord

def namespaceCount (index : MemoryIndex κ) : Nat := index.byNamespace.size

def tagCount (index : MemoryIndex κ) : Nat := index.byTags.size

end MemoryIndex

/-! ## MemoryStore -/

namespace MemoryStore

def indexAdd (record : MemoryRecord κ) : Operation Unit κ := do
  hash record.id
  Act.modify fun index => { index with
    byId := index.byId.set record.id record
    byNamespace := index.byNamespace.addTo record.namespace record.id }
  hash record.ownerId
  Act.modify fun index => { index with
    byOwner := index.byOwner.addTo record.ownerId record.id
    byTags := index.byTags.addToAll record.tags record.id }

def indexRemove (recordId : κ) : Operation Unit κ := do
  let index ← Act.get
  match index.byId.get? recordId with
  | none => pure ()
  | some record =>
    Act.modify fun index => { index with
      byId := index.byId.erase recordId
      byNamespace := index.byNamespace.discardFrom record.namespace recordId }
    hash record.ownerId
    Act.modify fun index => { index with
      byOwner := index.byOwner.discardFrom record.ownerId recordId
      byTags := index.byTags.discardFromAll record.tags recordId }

def indexUpdate (oldRecord newRecord : MemoryRecord κ) : Operation Unit κ := do
  indexRemove oldRecord.id
  indexAdd newRecord

def missing (recordId : κ) : Exn :=
  ⟨.memoryNotFound, lit ("Memory record with id '" ++ RecordKey.str recordId ++
    "' does not exist.")⟩

def add (record : MemoryRecord κ) : Operation Unit κ := do
  hash record.id
  let index ← Act.get
  if index.byId.contains record.id then
    Act.throw ⟨.duplicateMemory,
      lit ("Memory record with id '" ++ RecordKey.str record.id ++ "' already exists.")⟩
  else indexAdd record

def get (recordId : κ) : Operation (MemoryRecord κ) κ := do
  hash recordId
  let index ← Act.get
  match index.byId.get? recordId with
  | none => Act.throw (missing recordId)
  | some record => pure record

def update (recordId : κ) (fields : UpdateFields κ) (now : Int) :
    Operation (MemoryRecord κ) κ := do
  let current ← get recordId
  let updated ← Act.ofExcept (current.withUpdate fields now)
  indexUpdate current updated
  pure updated

def replace (record : MemoryRecord κ) : Operation Unit κ := do
  let existing ← get record.id
  indexUpdate existing record

def delete (recordId : κ) : Operation Unit κ := do
  hash recordId
  let index ← Act.get
  if index.byId.contains recordId then indexRemove recordId
  else Act.throw (missing recordId)

def clear : List κ → Operation Unit κ
  | [] => pure ()
  | recordId :: rest => do
    indexRemove recordId
    clear rest

def stats (index : MemoryIndex κ) : MemoryStats where
  totalRecords := index.byId.size
  namespaces := index.namespaceCount
  tagCount := index.tagCount

/-! ## Where everything hashes -/

section Hashing

variable {index : MemoryIndex κ} {record : MemoryRecord κ} {recordId : κ}

theorem indexAdd_of (hid : RecordKey.hashable record.id = true)
    (howner : RecordKey.hashable record.ownerId = true) :
    indexAdd record index = ⟨.ok (), index.add record, []⟩ := by
  rw [indexAdd, Act.run_bind_of_ok (hash_of hid), Act.bind_modify,
    Act.run_bind_of_ok (hash_of howner)]
  rfl

theorem indexRemove_of
    (h : ∀ r, index.byId.get? recordId = some r → RecordKey.hashable r.ownerId = true) :
    indexRemove recordId index = ⟨.ok (), index.remove recordId, []⟩ := by
  rw [indexRemove, Act.bind_get, MemoryIndex.remove]
  cases hr : index.byId.get? recordId with
  | none => rfl
  | some r =>
    dsimp only
    rw [Act.bind_modify, Act.run_bind_of_ok (hash_of (h r hr))]
    rfl

theorem get_of_hashable (h : RecordKey.hashable recordId = true) (index : MemoryIndex κ) :
    (∃ record, index.byId.get? recordId = some record ∧
      get recordId index = ⟨.ok record, index, []⟩) ∨
    (index.byId.get? recordId = none ∧
      get recordId index = ⟨.error (missing recordId), index, []⟩) := by
  rw [get, Act.run_bind_of_ok (hash_of h), Act.bind_get]
  cases index.byId.get? recordId with
  | none => exact Or.inr ⟨rfl, rfl⟩
  | some record => exact Or.inl ⟨record, rfl, rfl⟩

end Hashing

/-! ## Strings -/

section Strings

theorem indexAdd_str (record : MemoryRecord) :
    indexAdd record = Act.modify fun index => index.add record :=
  funext fun _ => indexAdd_of rfl rfl

theorem indexRemove_str (recordId : String) :
    indexRemove recordId = Act.modify fun index => index.remove recordId :=
  funext fun _ => indexRemove_of fun _ _ => rfl

theorem indexUpdate_str (oldRecord newRecord : MemoryRecord) :
    indexUpdate oldRecord newRecord = Act.modify fun index => index.update oldRecord newRecord := by
  rw [indexUpdate, indexRemove_str, indexAdd_str]
  rfl

theorem clear_str (ids : List String) :
    clear ids = Act.modify fun index => ids.foldl MemoryIndex.remove index := by
  induction ids with
  | nil => rfl
  | cons recordId rest ih =>
    rw [clear, indexRemove_str, ih]
    rfl

theorem add_str (record : MemoryRecord) : add record = (do
    let index ← Act.get
    if index.byId.contains record.id then
      Act.throw ⟨.duplicateMemory,
        lit ("Memory record with id '" ++ record.id ++ "' already exists.")⟩
    else Act.modify fun index => index.add record) := by
  rw [add, indexAdd_str]
  rfl

theorem get_run (recordId : String) (index : MemoryIndex) :
    (∃ record, index.byId.get? recordId = some record ∧
      get recordId index = ⟨.ok record, index, []⟩) ∨
    (index.byId.get? recordId = none ∧
      get recordId index = ⟨.error (missing recordId), index, []⟩) :=
  get_of_hashable rfl index

theorem delete_str (recordId : String) : delete recordId = (do
    let index ← Act.get
    if index.byId.contains recordId then Act.modify fun index => index.remove recordId
    else Act.throw (missing recordId)) := by
  rw [delete, indexRemove_str]
  rfl

end Strings

/-! ## Runs -/

inductive Call (κ : Type := String) [RecordKey κ] where
  | add (record : MemoryRecord κ)
  | update (recordId : κ) (fields : UpdateFields κ) (now : Int)
  | replace (record : MemoryRecord κ)
  | delete (recordId : κ)
  | clear (ids : List κ)

def Call.run : Call κ → Operation Unit κ
  | .add record => MemoryStore.add record
  | .update recordId fields now => do
    let _ ← MemoryStore.update recordId fields now
    pure ()
  | .replace record => MemoryStore.replace record
  | .delete recordId => MemoryStore.delete recordId
  | .clear ids => MemoryStore.clear ids

/-- The store serving calls, one after the other, those that raise included. A set lists in any
order, but it lists its members once each. -/
def serving : System (MemoryIndex κ) (Call κ) where
  step index call :=
    match call with
    | .clear ids => if ids.Perm index.byId.keys then some (call.run index).state else none
    | _ => some (call.run index).state

end MemoryStore

end IraOS
