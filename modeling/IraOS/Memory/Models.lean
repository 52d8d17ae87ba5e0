import IraOS.Core.Value

/-!
# Memory records

`core/memory/models.py`. A `MemoryRecord` cannot be built but past its `__post_init__`, so that
check is a field: every record there is has an id and an owner that are truthy, a non-empty
namespace and a content `json.dumps` takes.

The id and the owner are annotated as strings and are asked for nothing but their truth, so any
truthy value gets in. A record is therefore over a type `κ` of such values, of which one has to know
what `bool()`, `hash()` and a format string make of them (`RecordKey`). Left out, it is `String`:
that is what everything above the store hands in. `KeyValue` has the others, those that do not hash
included. What the type annotations say of any other field is its Lean type.

An update goes through `replace` twice: once with the caller's fields, and once more with the
moment, and each of the two builds a record and checks it. The fields may include the id, which
nothing forbids, and an update that was refused has built nothing.

A moment is a number of microseconds, which is as finely as the source tells moments apart.
-/

set_option autoImplicit false

namespace IraOS

open Lib

/-! ## JSON -/

namespace PyValue

mutual

def serializable : PyValue → Bool
  | .enum _ _ => false
  | .list xs => serializableAll xs
  | .dict es => serializableEntries es
  | _ => true

def serializableAll : List PyValue → Bool
  | [] => true
  | v :: rest => serializable v && serializableAll rest

def serializableEntries : List (String × PyValue) → Bool
  | [] => true
  | e :: rest => serializableEntry e && serializableEntries rest

def serializableEntry : String × PyValue → Bool
  | (_, v) => serializable v

end

end PyValue

/-! ## Ids and owners -/

/-- What an id or an owner is asked for, by whatever uses it. Two values that are equal in `κ` are
one key of a dictionary. -/
class RecordKey (κ : Type) where
  /-- `bool(v)`. -/
  truthy : κ → Bool
  /-- `hash(v)` does not raise. -/
  hashable : κ → Bool
  /-- `type(v).__name__`. -/
  typeName : κ → String
  /-- `str(v)`. -/
  str : κ → String

def RecordKey.hash {κ : Type} [RecordKey κ] (v : κ) : Except Exn Unit :=
  if RecordKey.hashable v then .ok ()
  else .error ⟨.typeError, lit ("unhashable type: '" ++ RecordKey.typeName v ++ "'")⟩

instance : RecordKey String where
  truthy s := !s.isEmpty
  hashable _ := true
  typeName _ := "str"
  str s := s

@[simp] theorem truthy_str (s : String) : RecordKey.truthy s = !s.isEmpty := rfl

/-- A value handed in where an id or an owner belongs. An object is known by which one it is, and
what equals an `int` is that `int`. A `set` is left out: it does not hash, but `in` takes it for the
frozenset that equals it, so that it is found out one line later than a list. -/
inductive KeyValue where
  | none
  | str (s : String)
  | int (i : Int)
  | object (ref : Nat) (cls text : String) (truthy : Bool)
  | unhashable (cls text : String) (truthy : Bool)
  deriving DecidableEq

instance : RecordKey KeyValue where
  truthy
    | .none => false
    | .str s => !s.isEmpty
    | .int i => decide (i ≠ 0)
    | .object _ _ _ truthy | .unhashable _ _ truthy => truthy
  hashable
    | .unhashable _ _ _ => false
    | _ => true
  typeName
    | .none => "NoneType"
    | .str _ => "str"
    | .int _ => "int"
    | .object _ cls _ _ | .unhashable cls _ _ => cls
  str
    | .none => "None"
    | .str s => s
    | .int i => toString i
    | .object _ _ text _ | .unhashable _ text _ => text

/-! ## Records -/

/-- The fields of a `MemoryRecord`; a moment is the microseconds since the epoch. -/
structure RecordData (κ : Type := String) where
  id : κ
  ownerId : κ
  «namespace» : String := "default"
  title : String := ""
  content : PyValue := .none
  metadata : PyDict := Dict.empty
  tags : List String := []
  importance : Int := 0
  createdAt : Int
  updatedAt : Int
  lastAccessed : Int
  accessCount : Int := 0

section

variable {κ : Type} [RecordKey κ]

/-- `__post_init__`, less the conversions that the types of the fields make. -/
def RecordData.check (d : RecordData κ) : Except Exn Unit :=
  if !RecordKey.truthy d.id then
    .error ⟨.memoryValidationError, lit "MemoryRecord.id must not be empty."⟩
  else if !RecordKey.truthy d.ownerId then
    .error ⟨.memoryValidationError, lit "MemoryRecord.owner_id must not be empty."⟩
  else if d.namespace.isEmpty then
    .error ⟨.memoryValidationError, lit "MemoryRecord.namespace must be a non-empty string."⟩
  else if d.content.serializable then .ok ()
  else
    .error ⟨.memoryValidationError, lit "MemoryRecord content must be JSON-serializable."⟩

/-- A record: its fields, and that they pass the checks of its `__post_init__`. There is no other
way to make one, so whatever is stored has passed them. -/
structure MemoryRecord (κ : Type := String) [RecordKey κ] extends RecordData κ where
  valid : toRecordData.check = .ok ()

namespace MemoryRecord

def build (d : RecordData κ) : Except Exn (MemoryRecord κ) :=
  match h : d.check with
  | .ok () => .ok ⟨d, h⟩
  | .error exc => .error exc

theorem build_ok {d : RecordData κ} {r : MemoryRecord κ} (h : build d = .ok r) :
    r.toRecordData = d := by
  unfold build at h
  split at h
  · rw [← Except.ok.inj h]
  · exact absurd h (by simp)

end MemoryRecord

structure UpdateFields (κ : Type := String) where
  id : Option κ := none
  ownerId : Option κ := none
  «namespace» : Option String := none
  title : Option String := none
  content : Option PyValue := none
  metadata : Option PyDict := none
  tags : Option (List String) := none
  importance : Option Int := none
  createdAt : Option Int := none
  updatedAt : Option Int := none
  lastAccessed : Option Int := none
  accessCount : Option Int := none

def UpdateFields.apply {κ : Type} (f : UpdateFields κ) (d : RecordData κ) : RecordData κ where
  id := f.id.getD d.id
  ownerId := f.ownerId.getD d.ownerId
  «namespace» := f.namespace.getD d.namespace
  title := f.title.getD d.title
  content := f.content.getD d.content
  metadata := f.metadata.getD d.metadata
  tags := f.tags.getD d.tags
  importance := f.importance.getD d.importance
  createdAt := f.createdAt.getD d.createdAt
  updatedAt := f.updatedAt.getD d.updatedAt
  lastAccessed := f.lastAccessed.getD d.lastAccessed
  accessCount := f.accessCount.getD d.accessCount

namespace MemoryRecord

def withUpdate (r : MemoryRecord κ) (fields : UpdateFields κ) (now : Int) :
    Except Exn (MemoryRecord κ) := do
  let updated ← build (fields.apply r.toRecordData)
  build { updated.toRecordData with updatedAt := now }

/-- An update changes the fields it is given, and the moment. -/
theorem withUpdate_ok {r updated : MemoryRecord κ} {fields : UpdateFields κ} {now : Int}
    (h : r.withUpdate fields now = .ok updated) :
    updated.toRecordData = { fields.apply r.toRecordData with updatedAt := now } := by
  unfold withUpdate at h
  cases hb : build (fields.apply r.toRecordData) with
  | error exc => rw [hb] at h; exact absurd h (by simp [bind, Except.bind])
  | ok mid =>
    rw [hb] at h
    rw [build_ok h, build_ok hb]

end MemoryRecord

end

structure MemoryStats where
  totalRecords : Nat
  namespaces : Nat
  tagCount : Nat

end IraOS
