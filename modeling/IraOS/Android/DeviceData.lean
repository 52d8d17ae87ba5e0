import IraOS.Android.Communication

/-!
# Camera, microphone, files, media, gallery, downloads, storage: every action

The bridges of the device and data layer (`core/android/bridge/camera.py`, `microphone.py`,
`files.py`, `media.py`, `gallery.py`, `downloads.py`, `storage.py`) and `location.py`, each
`execute` with all its actions. What a bridge makes itself and nobody can put back is typed; what
can be restored is whatever value it was given. A file is a record object, changed in place, so a
path maps to a reference (`Files` says what follows from it).

These bridges and those of `Communication` are here for one question, whether a class that only
reads can write. That depends on every branch of every bridge, the internal ones included, as a
class is kept from asking for them by its gate and by nothing in the bridge. So no branch is left
out, and each has its own name, its own defaults and its own messages, also where two of them do the
same (`files.rename` and `files.move`, or the two restoring actions of a deletion and of a write).

Where a bridge makes an id by shortening a uuid, or stamps a record with a status that lasts until
the end of the same call, that is kept as well: it is part of what is answered.
-/

set_option autoImplicit false

namespace IraOS.Direct

open Lib

/-! ## What the bridges share -/

def adapterError (message : Text) : Exn := ⟨.androidAdapterError, message⟩

def unsupportedAction {σ : Type} (action : PyValue) : BridgeAct σ Answer :=
  Act.throw (adapterError [.text "Unsupported action: ", .value action])

def success {σ : Type} : BridgeAct σ Answer := answer [("success", .bool true)]

/-- `uuid.uuid4().hex[:8]`: the hexadecimal digits, without the hyphens between them. -/
def hex8 (uuid : Uuid) : String := String.ofList ((uuid.1.toList.filter (· ≠ '-')).take 8)

/-! ## MockCameraBridge -/

namespace MockCameraBridge

structure State where
  status : String := "idle"
  media : Dict String PyValue := Dict.empty

def capture (env : Env) : BridgeAct State Answer := do
  let mediaId := "cam-" ++ hex8 env.uuid
  Act.modify fun s => { s with status := "capturing" }
  Act.modify fun s =>
    { s with media := s.media.set mediaId (.dict [("id", .str mediaId), ("type", .str "photo")]) }
  Act.modify fun s => { s with status := "idle" }
  answer [("media_id", .str mediaId)]

def execute (env : Env) (action : PyValue) (_args : PyDict) : BridgeAct State Answer :=
  match action with
  | .str "camera.status" => do
    let s ← Act.get
    answer [("status", .str s.status)]
  | .str "camera.capture" => capture env
  | _ => unsupportedAction action

end MockCameraBridge

/-! ## MockMicrophoneBridge -/

namespace MockMicrophoneBridge

structure State where
  status : String := "idle"
  recordings : Dict String PyValue := Dict.empty

def start : BridgeAct State Answer := do
  let s ← Act.get
  if s.status = "idle" then
    Act.modify fun s => { s with status := "recording" }
    success
  else Act.throw (adapterError (lit "Microphone is already recording"))

def stop (env : Env) : BridgeAct State Answer := do
  let s ← Act.get
  if s.status = "recording" then
    let recId := "rec-" ++ hex8 env.uuid
    Act.modify fun s =>
      { status := "idle"
        recordings := s.recordings.set recId
          (.dict [("id", .str recId), ("status", .str "completed")]) }
    answer [("recording_id", .str recId)]
  else Act.throw (adapterError (lit "Microphone is not recording"))

def execute (env : Env) (action : PyValue) (_args : PyDict) : BridgeAct State Answer :=
  match action with
  | .str "microphone.status" => do
    let s ← Act.get
    answer [("status", .str s.status)]
  | .str "microphone.record.start" => start
  | .str "microphone.record.stop" => stop env
  | _ => unsupportedAction action

end MockMicrophoneBridge

/-! ## MockFileBridge -/

namespace MockFileBridge

open IraOS.MockFileBridge (RecordRef keyError)

structure State where
  fs : Dict Key RecordRef := Dict.empty
  records : RecordRef → PyValue := fun _ => .none
  next : RecordRef := 0

namespace State

variable (s : State)

def alloc (record : PyValue) : State :=
  { s with records := Function.update s.records s.next record, next := s.next + 1 }

def fill (ref : RecordRef) (record : PyValue) : State :=
  { s with records := Function.update s.records ref record }

def put (key : Key) (ref : RecordRef) : State := { s with fs := s.fs.set key ref }

def take (key : Key) : State := { s with fs := s.fs.erase key }

end State

abbrev FileAct := Act State Exn Empty

def requirePath (args : PyDict) : FileAct PyValue :=
  let path := argument args "path"
  if path.truthy then pure path else Act.throw (adapterError (lit "path is required"))

def find (path : PyValue) : FileAct (Key × RecordRef) := do
  let s ← Act.get
  let key ← Act.ofExcept path.key
  match s.fs.get? key with
  | some ref => pure (key, ref)
  | none => Act.throw (adapterError [.text "File not found: ", .value path])

def free (path : PyValue) (message : String) : FileAct Key := do
  let s ← Act.get
  let key ← Act.ofExcept path.key
  match s.fs.get? key with
  | some _ => Act.throw (adapterError [.text message, .value path])
  | none => pure key

def contentArg (args : PyDict) : PyValue := (args.get? "content").getD (.str "")

def read (args : PyDict) : FileAct Answer := do
  let path ← requirePath args
  let (_, ref) ← find path
  let s ← Act.get
  let content ← Act.ofExcept (subscript (s.records ref) "content")
  answer [("path", path), ("content", content)]

def list : FileAct Answer := do
  let s ← Act.get
  pure (.files s.fs.keys)

def create (args : PyDict) : FileAct Answer := do
  let path ← requirePath args
  let key ← free path "File already exists: "
  Act.modify fun s => (s.alloc (.dict [("content", contentArg args)])).put key s.next
  answer [("path", path)]

/-- The copy is made first, and then the record changed. -/
def write (args : PyDict) : FileAct Answer := do
  let path ← requirePath args
  let (_, ref) ← find path
  let s ← Act.get
  let preState ← Act.ofExcept (copyOf (s.records ref))
  Act.modify fun s => s.alloc preState
  let written ← Act.ofExcept (setItem (s.records ref) "content" (contentArg args))
  Act.modify fun s => s.fill ref written
  answer [("path", path), ("pre_state", preState)]

/-- `files.rename` and `files.move`, which do the same. -/
def rename (args : PyDict) : FileAct Answer :=
  let src := argument args "source"
  let dest := argument args "destination"
  let names := [("source", src), ("destination", dest)]
  if src.truthy && dest.truthy then do
    let (srcKey, ref) ← find src
    let destKey ← free dest "Destination exists: "
    Act.modify fun s => (s.take srcKey).put destKey ref
    answer (names ++ [("pre_state", .dict names)])
  else Act.throw (adapterError (lit "source and destination are required"))

def delete (args : PyDict) : FileAct Answer := do
  let path ← requirePath args
  let (key, ref) ← find path
  let s ← Act.get
  Act.modify fun s => s.take key
  answer [("path", path), ("pre_state", s.records ref)]

/-- `files.restore_delete` and `files.restore_write`, which do the same: the object itself is put
under the path, one the bridge has or one it has not seen. -/
def restoreRecord (env : Env) (args : PyDict) : FileAct Answer := do
  let key ← Act.ofExcept (argument args "path").key
  match env.preState with
  | some ref => Act.modify fun s => s.put key ref
  | none => Act.modify fun s => (s.alloc (argument args "pre_state")).put key s.next
  success

/-- `files.restore_rename` and `files.restore_move`: `self._fs[src] = self._fs.pop(dest)`. -/
def restoreName (args : PyDict) : FileAct Answer := do
  let src := argument args "source"
  let dest := argument args "destination"
  let destKey ← Act.ofExcept dest.key
  let s ← Act.get
  match s.fs.get? destKey with
  | none => Act.throw (keyError dest)
  | some ref => do
    Act.modify fun s => s.take destKey
    let srcKey ← Act.ofExcept src.key
    Act.modify fun s => s.put srcKey ref
    success

def execute (env : Env) (action : PyValue) (args : PyDict) : BridgeAct State Answer :=
  match action with
  | .str "files.read" => read args
  | .str "files.list" => list
  | .str "files.create" => create args
  | .str "files.write" => write args
  | .str "files.rename" => rename args
  | .str "files.move" => rename args
  | .str "files.delete" => delete args
  | .str "files.restore_delete" => restoreRecord env args
  | .str "files.restore_write" => restoreRecord env args
  | .str "files.restore_rename" => restoreName args
  | .str "files.restore_move" => restoreName args
  | _ => unsupportedAction action

end MockFileBridge

/-! ## MockMediaBridge -/

namespace MockMediaBridge

structure State where
  state : String := "stopped"
  currentMedia : PyValue := .none

def change (f : State → State) : BridgeAct State Answer := do
  Act.modify f
  let s ← Act.get
  answer [("state", .str s.state)]

def execute (action : PyValue) (args : PyDict) : BridgeAct State Answer :=
  match action with
  | .str "media.status" => do
    let s ← Act.get
    answer [("state", .str s.state), ("media", s.currentMedia)]
  | .str "media.play" =>
    change fun s =>
      { state := "playing", currentMedia := (args.get? "media_id").getD s.currentMedia }
  | .str "media.pause" =>
    change fun s => if s.state = "playing" then { s with state := "paused" } else s
  | .str "media.stop" => change fun s => { s with state := "stopped" }
  | _ => unsupportedAction action

end MockMediaBridge


namespace MockGalleryBridge

structure State where
  assets : Store := Dict.empty

def add (env : Env) (args : PyDict) : BridgeAct State Answer := do
  let assetId := "img-" ++ hex8 env.uuid
  let type := (args.get? "type").getD (.str "image")
  Act.modify fun s =>
    { s with assets := s.assets.set (.str assetId) (.dict [("id", .str assetId), ("type", type)]) }
  answer [("asset_id", .str assetId)]

def delete (args : PyDict) : BridgeAct State Answer :=
  let assetId := argument args "asset_id"
  if assetId.truthy then do
    let key ← Act.ofExcept assetId.key
    let s ← Act.get
    match s.assets.get? key with
    | some asset => do
      Act.modify fun s => { s with assets := s.assets.erase key }
      answer [("asset_id", assetId), ("pre_state", asset)]
    | none => Act.throw (adapterError [.text "Asset not found: ", .value assetId])
  else Act.throw (adapterError (lit "asset_id is required"))

def restore (args : PyDict) (f : Key → Store → Store) : BridgeAct State Answer := do
  let key ← Act.ofExcept (argument args "asset_id").key
  Act.modify fun s => { s with assets := f key s.assets }
  success

def execute (env : Env) (action : PyValue) (args : PyDict) : BridgeAct State Answer :=
  match action with
  | .str "gallery.list" => do
    let s ← Act.get
    answer [("assets", .list s.assets.values)]
  | .str "gallery.add" => add env args
  | .str "gallery.delete" => delete args
  | .str "gallery.restore_add" => restore args fun key assets => assets.erase key
  | .str "gallery.restore_delete" =>
    restore args fun key assets => assets.set key (argument args "pre_state")
  | _ => unsupportedAction action

end MockGalleryBridge

/-! ## MockDownloadBridge -/

namespace MockDownloadBridge

structure Download where
  id : String
  url : PyValue
  status : PyValue

def Download.value (d : Download) : PyValue :=
  .dict [("id", .str d.id), ("url", d.url), ("status", d.status)]

structure State where
  downloads : Dict String Download := Dict.empty

def State.find (s : State) (id : PyValue) : Except Exn (Option (String × Download)) := do
  let key ← strKey id
  pure (key.bind fun key => (s.downloads.get? key).map fun download => (key, download))

def list : BridgeAct State Answer := do
  let s ← Act.get
  answer [("downloads", .list (s.downloads.values.map Download.value))]

def status (args : PyDict) : BridgeAct State Answer :=
  let id := argument args "download_id"
  if id.truthy then do
    let s ← Act.get
    match ← Act.ofExcept (s.find id) with
    | some (_, download) => answer [("download", download.value)]
    | none => Act.throw (adapterError [.text "Download not found: ", .value id])
  else Act.throw (adapterError (lit "download_id is required"))

def start (env : Env) (args : PyDict) : BridgeAct State Answer :=
  let url := argument args "url"
  if url.truthy then do
    let id := "dl-" ++ hex8 env.uuid
    Act.modify fun s => { s with downloads := s.downloads.set id ⟨id, url, .str "downloading"⟩ }
    answer [("download_id", .str id)]
  else Act.throw (adapterError (lit "url is required"))

def require (args : PyDict) : BridgeAct State (String × Download) := do
  let id := argument args "download_id"
  let s ← Act.get
  let found ← if id.truthy then Act.ofExcept (s.find id) else pure none
  match found with
  | some found => pure found
  | none => Act.throw (adapterError (lit "Valid download_id is required"))

def setStatus (args : PyDict) (status : String) (entries : Download → List (String × PyValue)) :
    BridgeAct State Answer := do
  let (key, download) ← require args
  Act.modify fun s =>
    { s with downloads := s.downloads.set key { download with status := .str status } }
  answer (("download_id", .str key) :: entries download)

def preState (download : Download) : List (String × PyValue) := [("pre_state", download.status)]

def delete (args : PyDict) : BridgeAct State Answer := do
  let (key, _) ← require args
  Act.modify fun s => { s with downloads := s.downloads.erase key }
  answer [("download_id", .str key)]

def restoreStatus (args : PyDict) : BridgeAct State Answer := do
  let s ← Act.get
  match ← Act.ofExcept (s.find (argument args "download_id")) with
  | some (key, download) => do
    let status := argument args "pre_state"
    Act.modify fun s => { s with downloads := s.downloads.set key { download with status } }
    success
  | none => success

def execute (env : Env) (action : PyValue) (args : PyDict) : BridgeAct State Answer :=
  match action with
  | .str "downloads.list" => list
  | .str "downloads.status" => status args
  | .str "downloads.start" => start env args
  | .str "downloads.pause" => setStatus args "paused" preState
  | .str "downloads.resume" => setStatus args "downloading" preState
  | .str "downloads.cancel" => setStatus args "cancelled" fun _ => []
  | .str "downloads.delete" => delete args
  | .str "downloads.restore_status" => restoreStatus args
  | _ => unsupportedAction action

end MockDownloadBridge

/-! ## MockStorageBridge -/

namespace MockStorageBridge

structure State where
  total : Int := 128000000000
  used : Int := 40000000000
  cache : Int := 5000000000

def execute (action : PyValue) (_args : PyDict) : BridgeAct State Answer :=
  match action with
  | .str "storage.info" => do
    let s ← Act.get
    answer [("total", .int s.total), ("used", .int s.used), ("available", .int (s.total - s.used)),
      ("cache", .int s.cache)]
  | .str "storage.format" => do
    Act.modify fun s => { s with used := 0, cache := 0 }
    success
  | .str "storage.clear_cache" => do
    Act.modify fun s => { s with used := max 0 (s.used - s.cache), cache := 0 }
    success
  | _ => unsupportedAction action

end MockStorageBridge

/-! ## MockLocationBridge -/

namespace MockLocationBridge

/-- The bridge keeps nothing; the two numbers are the `float`s nearest to 37.7749 and -122.4194. -/
def execute (action : PyValue) (_args : PyDict) : BridgeAct Unit Answer :=
  match action with
  | .str "location.coarse" =>
    answer [("lat", .float (.finite (332271534304605 / 8796093022208))),
      ("lon", .float (.finite (-538406215061445 / 4398046511104)))]
  | _ => unsupported "MockLocationBridge" action

end MockLocationBridge

end IraOS.Direct
