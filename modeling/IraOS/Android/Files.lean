import IraOS.Android.Recorded

/-!
# The file store

`core/android/bridge/files.py` and `FilesWriteCapability` (`capabilities/files.py`). A path maps to
a record, an object: `files.write` changes the record it finds **in place**, `files.delete` hands it
out, and the restoring actions put the object they are given under the path, without a copy. So a
path maps to a `RecordRef`, and what the records hold is apart.

Which actions copy and which do not is easily missed, and decides what a rollback can undo. A write
copies the record *before* it changes it and hands out the copy; a deletion hands out the object
itself; a rename moves the object and hands out names. What is handed out is in the answer's
"pre_state", and what is done to the object afterwards shows there.

A path may be any value that hashes, as nothing checks it: `Key` is what a dictionary makes of a
value, equal numbers being one key. An empty path counts as missing, and a path that does not hash
raises where the source would hash it.

The restoring actions take a reference, so they stand apart from `execute`, whose arguments hold
none. What the class asks of them is decided by the data of the result it rolls back
(`rollbackData`).
-/

set_option autoImplicit false

namespace IraOS

open Lib BaseAndroidCapability

/-- What a dictionary makes of a key: values that are equal are one key. A NaN object is equal to
itself only; here there is one. -/
inductive Key where
  | none
  | number (x : PyFloat)
  | str (s : String)
  | enum (cls member : String)
  deriving DecidableEq, Repr

def PyValue.key : PyValue → Except Exn Key
  | .none => .ok .none
  | .bool b => .ok (.number (.finite (if b then 1 else 0)))
  | .int i => .ok (.number (.finite i))
  | .float x => .ok (.number x)
  | .str s => .ok (.str s)
  | .enum cls member => .ok (.enum cls member)
  | v => .error ⟨.typeError, lit ("unhashable type: '" ++ v.typeName ++ "'")⟩

namespace MockFileBridge

abbrev RecordRef := Nat

/-- `_fs`, the "content" of each record object there is, and the next to be made. A path has a
reference to its record, so that two paths with one record can be told from two with records alike.
-/
structure State where
  fs : Dict Key RecordRef := Dict.empty
  records : RecordRef → PyValue := fun _ => .none
  next : RecordRef := 0

/-- What the bridge answers with. -/
inductive Data where
  /-- `{"path": path}` -/
  | path (path : PyValue)
  /-- `{"path": path, "pre_state": record}` -/
  | recorded (path : PyValue) (preState : RecordRef)
  /-- `{"source": src, "destination": dest, "pre_state": {"source": src, "destination": dest}}` -/
  | renamed (source destination : PyValue)
  /-- `{"path": path, "content": content}` -/
  | content (path content : PyValue)
  /-- `{"files": list(self._fs.keys())}` -/
  | files (paths : List Key)

abbrev FileAct := Act State Exn Empty

def adapterError (message : Text) : Exn := ⟨.androidAdapterError, message⟩

namespace State

variable (s : State)

def alloc (content : PyValue) : State :=
  { s with records := Function.update s.records s.next content, next := s.next + 1 }

def fill (ref : RecordRef) (content : PyValue) : State :=
  { s with records := Function.update s.records ref content }

def put (key : Key) (ref : RecordRef) : State := { s with fs := s.fs.set key ref }

def take (key : Key) : State := { s with fs := s.fs.erase key }

end State

def requirePath (args : PyDict) : FileAct PyValue :=
  let path := argument args "path"
  if path.truthy then pure path else Act.throw (adapterError (lit "path is required"))

def find (path : PyValue) : FileAct (Key × RecordRef) := do
  let s ← Act.get
  let key ← Act.ofExcept path.key
  match s.fs.get? key with
  | some ref => pure (key, ref)
  | none => Act.throw (adapterError [.text "File not found: ", .value path])

def free (path : PyValue) (message : String) : FileAct Key := do
  let s ← Act.get
  let key ← Act.ofExcept path.key
  match s.fs.get? key with
  | some _ => Act.throw (adapterError [.text message, .value path])
  | none => pure key

def contentArg (args : PyDict) : PyValue := (args.get? "content").getD (.str "")

def read (args : PyDict) : FileAct Data := do
  let path ← requirePath args
  let (_, ref) ← find path
  let s ← Act.get
  pure (.content path (s.records ref))

def create (args : PyDict) : FileAct Data := do
  let path ← requirePath args
  let key ← free path "File already exists: "
  Act.modify fun s => (s.alloc (contentArg args)).put key s.next
  pure (.path path)

def write (args : PyDict) : FileAct Data := do
  let path ← requirePath args
  let (_, ref) ← find path
  let s ← Act.get
  Act.modify fun s => s.alloc (s.records ref)
  Act.modify fun s => s.fill ref (contentArg args)
  pure (.recorded path s.next)

/-- `files.rename` and `files.move`, which do the same. -/
def rename (args : PyDict) : FileAct Data := do
  let src := argument args "source"
  let dest := argument args "destination"
  if src.truthy && dest.truthy then do
    let (srcKey, ref) ← find src
    let destKey ← free dest "Destination exists: "
    Act.modify fun s => (s.take srcKey).put destKey ref
    pure (.renamed src dest)
  else Act.throw (adapterError (lit "source and destination are required"))

def delete (args : PyDict) : FileAct Data := do
  let path ← requirePath args
  let (key, ref) ← find path
  Act.modify fun s => s.take key
  pure (.recorded path ref)

/-- `execute`, every action but the restoring ones, whose arguments hold references. -/
def execute (action : PyValue) (args : PyDict) : FileAct Data :=
  match action with
  | .str "files.read" => read args
  | .str "files.list" => do
    let s ← Act.get
    pure (.files s.fs.keys)
  | .str "files.create" => create args
  | .str "files.write" => write args
  | .str "files.rename" => rename args
  | .str "files.move" => rename args
  | .str "files.delete" => delete args
  | _ => Act.throw (adapterError [.text "Unsupported action: ", .value action])

/-- `files.restore_delete` and `files.restore_write`, which do the same: the object itself. -/
def restoreRecord (path : PyValue) (preState : RecordRef) : FileAct Unit := do
  let key ← Act.ofExcept path.key
  Act.modify fun s => s.put key preState

def keyError (key : PyValue) : Exn := ⟨.other "KeyError", [.repr key]⟩

/-- `files.restore_rename` and `files.restore_move`: `self._fs[src] = self._fs.pop(dest)`. -/
def restoreName (src dest : PyValue) : FileAct Unit := do
  let destKey ← Act.ofExcept dest.key
  let s ← Act.get
  match s.fs.get? destKey with
  | none => Act.throw (keyError dest)
  | some ref => do
    Act.modify fun s => s.take destKey
    let srcKey ← Act.ofExcept src.key
    Act.modify fun s => s.put srcKey ref

end MockFileBridge

namespace FilesWriteCapability

open MockFileBridge

def descriptor : CapabilityDescriptor :=
  { id := "android.device.files.write"
    name := "Files Write"
    description := "Creates, modifies, and deletes files."
    version := "1.0.0"
    supportedActions := ["files.create", "files.write", "files.rename", "files.move",
      "files.delete"]
    isMutation := true
    supportsRollback := true
    auditRequired := true
    confirmationLevel := .USER
    idempotent := false }

def reversibleActions : List String :=
  ["files.create", "files.write", "files.rename", "files.move", "files.delete"]

def supportsRollback (arguments : PyDict) : Except Exn Bool :=
  .ok ((actionName arguments).any reversibleActions.contains)

def pathOf : Data → Option PyValue
  | .path path | .recorded path _ | .content path _ => some path
  | .renamed _ _ | .files _ => none

def deleteOf (data : Data) : FileAct Unit :=
  match pathOf data with
  | some path => do
    let _ ← execute (.str "files.delete") (Dict.empty.set "path" path)
    pure ()
  | none => pure ()

def restoreNameOf : Data → FileAct Unit
  | .renamed src dest => restoreName src dest
  | .recorded _ _ => Act.throw (keyError (.str "source"))
  | _ => pure ()

def restoreRecordOf : Data → FileAct Unit
  | .recorded path preState => restoreRecord path preState
  | _ => pure ()

/-- `rollback`, for the data of a result. Data of a success is never empty; a failure's is, and
nothing is done for it. -/
def rollbackData (arguments : PyDict) (data : Data) : FileAct Unit :=
  match actionName arguments with
  | some "files.create" => deleteOf data
  | some "files.write" => restoreRecordOf data
  | some "files.rename" => restoreNameOf data
  | some "files.move" => restoreNameOf data
  | some "files.delete" => restoreRecordOf data
  | _ => pure ()

def rollback (arguments : PyDict) : Reported Data → FileAct Unit
  | .ok data => rollbackData arguments data
  | .error _ => pure ()

end FilesWriteCapability

def FilesWriteCapability : RecordingCapability MockFileBridge.State MockFileBridge.Data where
  descriptor := FilesWriteCapability.descriptor
  executeInternal := MockFileBridge.execute
  supportsRollback := FilesWriteCapability.supportsRollback
  rollback := FilesWriteCapability.rollback

end IraOS
