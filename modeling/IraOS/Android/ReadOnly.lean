import IraOS.Android.Classes

/-!
# What reads does not write

Several classes share a bridge, and the bridge does whatever action it is told. A class whose
descriptor says that it is no mutation is kept from writing by its gate alone: what gets through is
one of its own actions, or "default", and each of these leaves every state of the bridge as it is.
The branches of the bridges that read are `Act.Still`, bind by bind.

The result is for every such class, every dictionary of arguments, and every state of the bridge,
those included that no sequence of calls leads to. Nothing is assumed of the arguments: an action
may be any value, a record asked for may be missing or be no dictionary, and reading may raise;
whatever happens, the state is the one before. Reads that fail leave the bridge alone as well, which
is why this is a statement about runs and not about answers.

Each class is checked by going through its own list of actions. That no reading class lists a
writing action is decided by these lists and nothing else, and the module would stop to compile if
one were added to them.
-/

set_option autoImplicit false

namespace IraOS.Direct

open Lib Act BaseAndroidCapability

/-! ## The branches that read -/

section Branches

variable {σ : Type} (env : Env) (args : PyDict)

theorem still_answer (entries : List (String × PyValue)) :
    (answer entries : BridgeAct σ Answer).Still := .pure _

theorem still_view (view : σ → List (String × PyValue)) :
    (do let s ← Act.get; answer (view s) : BridgeAct σ Answer).Still :=
  .bind .get fun _ => still_answer _

theorem still_value (value : σ → Except Exn PyValue) :
    (do let s ← Act.get; let v ← Act.ofExcept (value s); pure (Answer.value v) :
      BridgeAct σ Answer).Still :=
  .bind .get fun _ => .bind (.ofExcept _) fun _ => .pure _

theorem still_read (find : σ → PyValue → Except Exn (Key × PyValue))
    (copies : σ → Except Exn PyValue) (id : PyValue) (missing : Text) :
    (do
      let s ← Act.get
      if id.truthy then
        let (_, record) ← Act.ofExcept (find s id)
        if record.truthy then
          let copy ← Act.ofExcept (copyOf record)
          pure (Answer.value copy)
        else Act.throw (valueError missing)
      else
        let copies ← Act.ofExcept (copies s)
        pure (Answer.value copies) : BridgeAct σ Answer).Still := by
  apply Still.bind .get
  intro s
  apply Still.ite
  · apply Still.bind (.ofExcept _)
    rintro ⟨_, record⟩
    apply Still.ite
    · exact .bind (.ofExcept _) fun _ => .pure _
    · exact .throw _
  · exact .bind (.ofExcept _) fun _ => .pure _

theorem still_search (query : Except Exn String) (found : String → σ → Except Exn PyValue) :
    (do
      let query ← Act.ofExcept query
      let s ← Act.get
      let found ← Act.ofExcept (found query s)
      pure (Answer.value found) : BridgeAct σ Answer).Still := by
  apply Still.bind (.ofExcept _)
  intro query
  exact still_value (found query)

theorem MockFileBridge.still_requirePath : (MockFileBridge.requirePath args).Still := by
  unfold MockFileBridge.requirePath
  apply Still.ite
  · exact .pure _
  · exact .throw _

theorem MockFileBridge.still_find (path : PyValue) : (MockFileBridge.find path).Still := by
  apply Still.bind .get
  intro s
  apply Still.bind (.ofExcept _)
  intro key
  cases s.fs.get? key with
  | some ref => exact .pure _
  | none => exact .throw _

theorem MockFileBridge.still_read : (MockFileBridge.read args).Still := by
  apply Still.bind (still_requirePath args)
  intro path
  apply Still.bind (still_find path)
  rintro ⟨_, ref⟩
  apply Still.bind .get
  intro s
  exact .bind (.ofExcept _) fun _ => still_answer _

theorem MockDownloadBridge.still_status : (MockDownloadBridge.status args).Still := by
  unfold MockDownloadBridge.status
  apply Still.ite
  · apply Still.bind .get
    intro s
    apply Still.bind (.ofExcept _)
    intro found
    cases found with
    | some found => exact still_answer _
    | none => exact .throw _
  · exact .throw _

end Branches

/-! ## The gate -/

/-- A class that only reads: each of its actions, and "default", leaves the bridge alone. -/
def BridgedCapability.Reads (c : BridgedCapability) : Prop :=
  ∀ env args, ∀ action ∈ "default" :: c.descriptor.supportedActions,
    (c.executeInternal env (.str action) args).Still

theorem BridgedCapability.Reads.still {c : BridgedCapability} (h : c.Reads) (env : Env)
    (arguments : PyDict) : (c.executeAction env arguments).Still := by
  constructor
  intro s
  -- a report leaves the state where the checked code left it
  rw [executeAction, report_run]
  change (checked c.descriptor (c.executeInternal env) arguments s).state = s
  unfold checked
  split
  · next hgate =>
    obtain ⟨name, hmem, heq⟩ := exists_of_supports hgate
    rw [heq]
    exact (h env arguments name hmem).state s
  · rfl

/-! ## The classes that read -/

theorem forall_actions {P : String → Prop} {a b : String} (hdefault : P "default") (ha : P a)
    (hb : P b) : ∀ action ∈ ["default", a, b], P action := by
  simp [hdefault, ha, hb]

theorem forall_action {P : String → Prop} {a : String} (hdefault : P "default") (ha : P a) :
    ∀ action ∈ ["default", a], P action := by
  simp [hdefault, ha]

theorem reads_phone : PhoneReadCapability.Reads := fun _ _ =>
  forall_action (.throw _) (still_view MockCallBridge.State.view)

theorem reads_sms : SmsReadCapability.Reads := fun env args =>
  forall_actions (.throw _)
    (still_read (fun s : MockSMSBridge.State => s.inbox.find) (fun s => s.inbox.copies)
      (argument args "message_id") _)
    (still_search (queryOf env args) fun query (s : MockSMSBridge.State) =>
      s.inbox.search (mentions env query "body"))

theorem reads_contacts : ContactsReadCapability.Reads := fun env args =>
  forall_actions (.throw _)
    (still_read (fun s : MockContactsBridge.State => s.contacts.find) (fun s => s.contacts.copies)
      (argument args "contact_id") _)
    (still_search (queryOf env args) fun query (s : MockContactsBridge.State) =>
      s.contacts.search (MockContactsBridge.matching env query))

theorem reads_notification : NotificationReadCapability.Reads := fun _ _ =>
  forall_action (.throw _) (still_value fun s : MockNotificationBridge.State => s.active.copies)

theorem reads_camera : CameraReadCapability.Reads := fun _ _ =>
  forall_action (.throw _)
    (still_view fun s : MockCameraBridge.State => [("status", .str s.status)])

theorem reads_microphone : MicrophoneReadCapability.Reads := fun _ _ =>
  forall_action (.throw _)
    (still_view fun s : MockMicrophoneBridge.State => [("status", .str s.status)])

theorem reads_files : FilesReadCapability.Reads := fun _ args =>
  forall_actions (.throw _) (MockFileBridge.still_read args) (.bind .get fun _ => .pure _)

theorem reads_media : MediaReadCapability.Reads := fun _ _ =>
  forall_action (.throw _)
    (still_view fun s : MockMediaBridge.State =>
      [("state", .str s.state), ("media", s.currentMedia)])

theorem reads_gallery : GalleryReadCapability.Reads := fun _ _ =>
  forall_action (.throw _)
    (still_view fun s : MockGalleryBridge.State => [("assets", .list s.assets.values)])

theorem reads_downloads : DownloadsReadCapability.Reads := fun _ args =>
  forall_actions (.throw _)
    (still_view fun s : MockDownloadBridge.State =>
      [("downloads", .list (s.downloads.values.map MockDownloadBridge.Download.value))])
    (MockDownloadBridge.still_status args)

theorem reads_storage : StorageReadCapability.Reads := fun _ _ =>
  forall_action (.throw _)
    (still_view fun s : MockStorageBridge.State => [("total", .int s.total), ("used", .int s.used),
      ("available", .int (s.total - s.used)), ("cache", .int s.cache)])

theorem reads_battery : BatteryCapability.Reads := fun _ _ _ _ => .pure _

theorem reads_clipboard : ClipboardCapability.Reads := fun _ _ _ _ => .pure _

theorem reads_location : LocationCapability.Reads := fun _ _ _ _ => .pure _

def AndroidClass.ReadOnly (k : AndroidClass) : Prop := k.capability.descriptor.isMutation = false

instance (k : AndroidClass) : Decidable k.ReadOnly :=
  inferInstanceAs (Decidable (k.capability.descriptor.isMutation = false))

def AndroidClass.readers : List AndroidClass :=
  [.phoneRead, .smsRead, .contactsRead, .notificationRead, .cameraRead, .microphoneRead, .filesRead,
    .mediaRead, .galleryRead, .downloadsRead, .storageRead, .battery, .clipboard, .location]

theorem AndroidClass.readOnly_iff {k : AndroidClass} : k.ReadOnly ↔ k ∈ readers := by
  cases k <;> decide

theorem AndroidClass.ReadOnly.reads {k : AndroidClass} (h : k.ReadOnly) : k.capability.Reads := by
  have hmem := readOnly_iff.mp h
  simp only [readers, List.mem_cons, List.not_mem_nil, or_false] at hmem
  rcases hmem with rfl | rfl | rfl | rfl | rfl | rfl | rfl | rfl | rfl | rfl | rfl | rfl | rfl | rfl
  · exact reads_phone
  · exact reads_sms
  · exact reads_contacts
  · exact reads_notification
  · exact reads_camera
  · exact reads_microphone
  · exact reads_files
  · exact reads_media
  · exact reads_gallery
  · exact reads_downloads
  · exact reads_storage
  · exact reads_battery
  · exact reads_clipboard
  · exact reads_location

/-- **A class that is no mutation writes nothing**, whatever it is asked for and whatever is in its
bridge: not what another class may ask of the bridge, and not what only a rollback does. -/
theorem AndroidClass.readOnly_writes_nothing (k : AndroidClass)
    (hread : k.capability.descriptor.isMutation = false) (env : Env) (arguments : PyDict)
    (s : k.capability.State) : (k.capability.executeAction env arguments s).state = s := by
  have hreads : k.capability.Reads := ReadOnly.reads hread
  exact (hreads.still env arguments).state s

/-- The restoring action of the message bridge, asked for through the class that reads. -/
theorem AndroidClass.smsRead_restores_nothing :
    (AndroidClass.smsRead.capability.executeAction ⟨id, ⟨"1", by decide⟩, none⟩
      (((Dict.empty.set "action" (.str "telephony.sms.restore")).set "message_id"
        (.str "msg-003")).set "message" (MockSMSBridge.message "msg-003" "+3333333333" "forged"))
      ({} : MockSMSBridge.State)).state = {} :=
  readOnly_writes_nothing .smsRead rfl _ _ _

end IraOS.Direct
