import IraOS.Android.Recorded

/-!
# Contacts, messages, notifications

The stateful bridges of `core/android/bridge/telephony.py` and `notification.py`, and the
capabilities that write through them (`capabilities/contacts.py`, `sms.py`, `notification.py`).
Every record these bridges store, hand out or put back is a copy, and none is changed in place, so a
record is a value here. What only reads (`read`, `search`) changes nothing and is left out.

The records are typed, with the fields the bridges give them and arguments of any value in those
fields that are taken from a call. This is what the writing classes lead to from the stores the
bridges start with; a store that somebody has restored something else into is in
`Android.Communication`, and `Android.Correspondence` says that the two models do the same.

What can be rolled back differs. All three writing actions of the contact book can, of the messages
only the deletion, and of the notifications dismissing one and clearing them all.
-/

set_option autoImplicit false

namespace IraOS

open Lib BaseAndroidCapability

/-- `str(uuid.uuid4())`, drawn in an execution. -/
abbrev Uuid := { id : String // id.isEmpty = false }

def strKey (v : PyValue) : Except Exn (Option String) :=
  match v with
  | .str s => .ok (some s)
  | .list _ | .dict _ => .error ⟨.typeError, lit ("unhashable type: '" ++ v.typeName ++ "'")⟩
  | _ => .ok none

def lookupId {ν : Type} (d : Dict String ν) (id : PyValue) (required : String) (missing : Text) :
    Except Exn (String × ν) :=
  if id.truthy then do
    match (← strKey id).bind fun key => (d.get? key).map fun v => (key, v) with
    | some found => .ok found
    | none => .error ⟨.valueError, missing⟩
  else .error ⟨.valueError, lit required⟩

/-! ## Contacts -/

namespace MockContactsBridge

structure Contact where
  id : String
  name : PyValue
  number : PyValue

structure State where
  contacts : Dict String Contact :=
    (Dict.empty.set "c-001" ⟨"c-001", .str "Alice", .str "+1000000001"⟩).set "c-002"
      ⟨"c-002", .str "Bob", .str "+1000000002"⟩

inductive Data where
  | created (contact : Contact) (contactId : String)
  | updated (contact preState : Contact)
  | deleted (contactId : String) (preState : Contact)

abbrev ContactsAct := Act State Exn Empty

def find (args : PyDict) (required : String) : ContactsAct (String × Contact) := do
  let s ← Act.get
  let contactId := argument args "contact_id"
  Act.ofExcept (lookupId s.contacts contactId required
    [.text "Contact '", .value contactId, .text "' not found."])

def create (uuid : Uuid) (args : PyDict) : ContactsAct Data := do
  let name := argument args "name"
  let number := argument args "number"
  if name.truthy && number.truthy then do
    let contact : Contact := ⟨uuid.1, name, number⟩
    Act.modify fun s => { s with contacts := s.contacts.set uuid.1 contact }
    pure (.created contact uuid.1)
  else
    Act.throw ⟨.valueError, lit "telephony.contacts.create requires 'name' and 'number'."⟩

def updatedBy (existing : Contact) (args : PyDict) : Contact :=
  { existing with
    name := (args.get? "name").getD existing.name
    number := (args.get? "number").getD existing.number }

def update (args : PyDict) : ContactsAct Data := do
  let (key, existing) ← find args "telephony.contacts.update requires 'contact_id'."
  Act.modify fun s => { s with contacts := s.contacts.set key (updatedBy existing args) }
  pure (.updated (updatedBy existing args) existing)

def delete (args : PyDict) : ContactsAct Data := do
  let (key, existing) ← find args "telephony.contacts.delete requires 'contact_id'."
  Act.modify fun s => { s with contacts := s.contacts.erase key }
  pure (.deleted key existing)

/-- `execute`, the actions that write; `uuid` is the id a creation draws. -/
def execute (uuid : Uuid) (action : PyValue) (args : PyDict) : ContactsAct Data :=
  match action with
  | .str "telephony.contacts.create" => create uuid args
  | .str "telephony.contacts.update" => update args
  | .str "telephony.contacts.delete" => delete args
  | _ => Act.throw ⟨.unsupportedPlatformError,
      [.text "MockContactsBridge does not support action: ", .value action]⟩

def restore (contact : Contact) : ContactsAct Unit :=
  Act.modify fun s => { s with contacts := s.contacts.set contact.id contact }

def remove (contactId : String) : ContactsAct Unit :=
  Act.modify fun s =>
    if !contactId.isEmpty && s.contacts.contains contactId then
      { s with contacts := s.contacts.erase contactId }
    else s

end MockContactsBridge

namespace ContactsWriteCapability

open MockContactsBridge

def descriptor : CapabilityDescriptor :=
  { id := "android.communication.contacts.write"
    name := "Contacts Write"
    description := "Creates, updates, or deletes contacts. All actions are reversible."
    version := "1.0.0"
    supportedActions := ["telephony.contacts.create", "telephony.contacts.update",
      "telephony.contacts.delete"]
    isMutation := true
    supportsRollback := true
    auditRequired := true
    confirmationLevel := .USER
    idempotent := false }

def reversibleActions : List String :=
  ["telephony.contacts.create", "telephony.contacts.update", "telephony.contacts.delete"]

def contactIdOf : Data → Option String
  | .created _ contactId | .deleted contactId _ => some contactId
  | .updated _ _ => none

def preStateOf : Data → Option Contact
  | .updated _ preState | .deleted _ preState => some preState
  | .created _ _ => none

def restoreOf (data : Data) : ContactsAct Unit :=
  match preStateOf data with
  | some preState => restore preState
  | none => pure ()

def rollbackData (arguments : PyDict) (data : Data) : ContactsAct Unit :=
  match actionName arguments with
  | some "telephony.contacts.create" =>
    match contactIdOf data with
    | some contactId => remove contactId
    | none => pure ()
  | some "telephony.contacts.update" => restoreOf data
  | some "telephony.contacts.delete" => restoreOf data
  | _ => pure ()

def rollback (arguments : PyDict) : Reported Data → ContactsAct Unit
  | .ok data => rollbackData arguments data
  | .error _ => pure ()

end ContactsWriteCapability

def ContactsWriteCapability (uuid : Uuid) :
    RecordingCapability MockContactsBridge.State MockContactsBridge.Data where
  descriptor := ContactsWriteCapability.descriptor
  executeInternal := MockContactsBridge.execute uuid
  supportsRollback arguments :=
    inFrozenset (argument arguments "action") ContactsWriteCapability.reversibleActions
  rollback := ContactsWriteCapability.rollback

/-! ## Messages -/

namespace MockSMSBridge

structure Message where
  id : String
  «from» : String
  body : String

/-- A message that was sent. -/
structure Sent where
  id : String
  «to» : PyValue
  body : PyValue

structure State where
  inbox : Dict String Message :=
    (Dict.empty.set "msg-001" ⟨"msg-001", "+1111111111", "Hello from IRA test"⟩).set "msg-002"
      ⟨"msg-002", "+2222222222", "Test message 2"⟩
  sent : List Sent := []
  deleted : Dict String Message := Dict.empty

inductive Data where
  | sent (message : Sent)
  | deleted (messageId : String) (preState : Message)

abbrev SMSAct := Act State Exn Empty

def send (uuid : Uuid) (args : PyDict) : SMSAct Data := do
  let number := argument args "number"
  let body := argument args "body"
  if number.truthy && body.truthy then do
    let msg : Sent := ⟨uuid.1, number, body⟩
    Act.modify fun s => { s with sent := s.sent ++ [msg] }
    pure (.sent msg)
  else Act.throw ⟨.valueError, lit "telephony.sms.send requires 'number' and 'body'."⟩

def delete (args : PyDict) : SMSAct Data := do
  let s ← Act.get
  let messageId := argument args "message_id"
  let (key, msg) ← Act.ofExcept (lookupId s.inbox messageId
    "telephony.sms.delete requires 'message_id'."
    [.text "Message '", .value messageId, .text "' not found in inbox."])
  Act.modify fun s => { s with inbox := s.inbox.erase key, deleted := s.deleted.set key msg }
  pure (.deleted key msg)

/-- `execute`, the actions that write; `uuid` is the id a message sent draws. -/
def execute (uuid : Uuid) (action : PyValue) (args : PyDict) : SMSAct Data :=
  match action with
  | .str "telephony.sms.send" => send uuid args
  | .str "telephony.sms.delete" => delete args
  | _ => Act.throw ⟨.unsupportedPlatformError,
      [.text "MockSMSBridge does not support action: ", .value action]⟩

def restore (messageId : String) (message : Message) : SMSAct Unit :=
  Act.modify fun s =>
    if messageId.isEmpty then s
    else
      { s with
        inbox := s.inbox.set messageId message
        deleted := s.deleted.erase messageId }

end MockSMSBridge

namespace SmsWriteCapability

open MockSMSBridge

def descriptor : CapabilityDescriptor :=
  { id := "android.communication.sms.write"
    name := "SMS Write"
    description := "Sends or deletes SMS messages. Delete is reversible; send is not."
    version := "1.0.0"
    supportedActions := ["telephony.sms.send", "telephony.sms.delete"]
    isMutation := true
    supportsRollback := true
    auditRequired := true
    confirmationLevel := .USER
    idempotent := false }

/-- Only a deletion can be rolled back. -/
def supportsRollback (arguments : PyDict) : Except Exn Bool :=
  .ok (decide (actionName arguments = some "telephony.sms.delete"))

def rollbackData (arguments : PyDict) (data : Data) : SMSAct Unit :=
  match actionName arguments with
  | some "telephony.sms.delete" =>
    match data with
    | .deleted _ preState => restore preState.id preState
    | .sent _ => pure ()
  | _ => pure ()

def rollback (arguments : PyDict) : Reported Data → SMSAct Unit
  | .ok data => rollbackData arguments data
  | .error _ => pure ()

end SmsWriteCapability

def SmsWriteCapability (uuid : Uuid) :
    RecordingCapability MockSMSBridge.State MockSMSBridge.Data where
  descriptor := SmsWriteCapability.descriptor
  executeInternal := MockSMSBridge.execute uuid
  supportsRollback := SmsWriteCapability.supportsRollback
  rollback := SmsWriteCapability.rollback

/-! ## Notifications -/

namespace MockNotificationBridge

structure Notification where
  id : String
  app : String
  title : String
  body : String

structure State where
  active : Dict String Notification :=
    ((Dict.empty.set "n-001" ⟨"n-001", "com.ira.test", "IRA Test", "Hello"⟩).set "n-002"
      ⟨"n-002", "com.ira.sms", "New SMS", "From +123"⟩).set "n-003"
        ⟨"n-003", "com.ira.call", "Missed call", "+456"⟩
  dismissed : Dict String Notification := Dict.empty
  preClearSnapshot : Option (Dict String Notification) := none

inductive Data where
  | dismissed (notificationId : String) (preState : Notification)
  | cleared (count : Nat) (preState : Dict String Notification)
  | replied (notificationId text : PyValue)

abbrev NotificationAct := Act State Exn Empty

def dismiss (args : PyDict) : NotificationAct Data := do
  let s ← Act.get
  let notificationId := argument args "notification_id"
  let (key, n) ← Act.ofExcept (lookupId s.active notificationId
    "notification.dismiss requires 'notification_id'."
    [.text "Notification '", .value notificationId, .text "' not found."])
  Act.modify fun s => { s with active := s.active.erase key, dismissed := s.dismissed.set key n }
  pure (.dismissed key n)

def clear : NotificationAct Data := do
  let s ← Act.get
  Act.modify fun s => { s with active := Dict.empty, preClearSnapshot := some s.active }
  pure (.cleared s.active.size s.active)

def reply (args : PyDict) : NotificationAct Data :=
  let notificationId := argument args "notification_id"
  let text := argument args "text"
  if notificationId.truthy && text.truthy then pure (.replied notificationId text)
  else Act.throw ⟨.valueError, lit "notification.reply requires 'notification_id' and 'text'."⟩

def execute (action : PyValue) (args : PyDict) : NotificationAct Data :=
  match action with
  | .str "notification.dismiss" => dismiss args
  | .str "notification.clear" => clear
  | .str "notification.reply" => reply args
  | _ => Act.throw ⟨.unsupportedPlatformError,
      [.text "MockNotificationBridge does not support action: ", .value action]⟩

def restoreDismissed (notification : Notification) : NotificationAct Unit :=
  Act.modify fun s =>
    { s with
      active := s.active.set notification.id notification
      dismissed := s.dismissed.erase notification.id }

/-- `notification.restore_all`; an empty snapshot is none. -/
def restoreAll (snapshot : Dict String Notification) : NotificationAct Unit :=
  Act.modify fun s => if snapshot.size = 0 then s else { s with active := snapshot }

end MockNotificationBridge

namespace NotificationWriteCapability

open MockNotificationBridge

def descriptor : CapabilityDescriptor :=
  { id := "android.communication.notification.write"
    name := "Notification Control"
    description := "Dismisses or clears notifications. Both actions are reversible."
    version := "1.0.0"
    supportedActions := ["notification.dismiss", "notification.clear"]
    isMutation := true
    supportsRollback := true
    auditRequired := true
    confirmationLevel := .NONE
    idempotent := false }

def reversibleActions : List String := ["notification.dismiss", "notification.clear"]

/-- `restore_dismissed` of `data["pre_state"]`. A snapshot is no notification: it has the ids for
keys, and `["id"]` finds none. -/
def restoreDismissedOf : Data → NotificationAct Unit
  | .dismissed _ preState => restoreDismissed preState
  | .cleared _ snapshot =>
    if snapshot.size = 0 then pure ()
    else
      match snapshot.get? "id" with
      | none => Act.throw ⟨.other "KeyError", [.repr (.str "id")]⟩
      | some _ => Act.throw ⟨.typeError, lit "unhashable type: 'dict'"⟩
  | .replied _ _ => pure ()

/-- `restore_all` of `data["pre_state"]`. A field of a notification is no notification. -/
def restoreAllOf : Data → NotificationAct Unit
  | .cleared _ snapshot => restoreAll snapshot
  | .dismissed _ _ => Act.throw ⟨.attributeError, lit "'str' object has no attribute 'copy'"⟩
  | .replied _ _ => pure ()

def rollbackData (arguments : PyDict) (data : Data) : NotificationAct Unit :=
  match actionName arguments with
  | some "notification.dismiss" => restoreDismissedOf data
  | some "notification.clear" => restoreAllOf data
  | _ => pure ()

def rollback (arguments : PyDict) : Reported Data → NotificationAct Unit
  | .ok data => rollbackData arguments data
  | .error _ => pure ()

end NotificationWriteCapability

def NotificationWriteCapability :
    RecordingCapability MockNotificationBridge.State MockNotificationBridge.Data where
  descriptor := NotificationWriteCapability.descriptor
  executeInternal := MockNotificationBridge.execute
  supportsRollback arguments :=
    inFrozenset (argument arguments "action") NotificationWriteCapability.reversibleActions
  rollback := NotificationWriteCapability.rollback

end IraOS
