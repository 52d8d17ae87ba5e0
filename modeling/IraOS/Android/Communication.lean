import IraOS.Android.Records
import IraOS.Android.Files

/-!
# Calls, messages, contacts, notifications: every action

The bridges of `core/android/bridge/telephony.py` and `notification.py` as they are, each `execute`
with all its actions, the reading ones and the internal ones among them, on whatever arguments a
call has. A store that can be restored into holds what it was given, so its keys and its records are
whatever values those were. (`Records` has the stores that the writing capabilities make, whose
records are typed; `Correspondence` says how the two go together.)

## Values where the source has values

Nothing checks the arguments of a restoring action. A caller that may ask for it can put a list
under a number, and the reading actions then meet it: `.copy()` of a list is a list, `.lower()` of
one is an `AttributeError`, and an empty record counts for none. So the records are `PyValue`s here
and every operation on one is the source's, with the exception it raises on a value that does not
have it.

## What a call depends on besides its arguments

Three things: how `str.lower` maps a string, which id is drawn, and, for the file bridge, which
record object the "pre_state" of a call is. They are in `Env`, so the bridges are functions and what
holds of them holds for every choice.
-/

set_option autoImplicit false

namespace IraOS.Direct

open Lib

/-! ## What the bridges share -/

/-- What a call uses besides its arguments: `str.lower`, the id it draws, and which record object of
the file bridge its "pre_state" is, where it is one the bridge has. -/
structure Env where
  lower : String → String
  uuid : Uuid
  preState : Option MockFileBridge.RecordRef := none

abbrev Store := Dict Key PyValue

inductive Answer where
  | value (data : PyValue)
  /-- `{"files": list(self._fs.keys())}` -/
  | files (paths : List Key)
  /-- `{"cleared": True, "count": len(pre_state), "pre_state": pre_state}` -/
  | cleared (count : Nat) (preState : Store)

abbrev BridgeAct (σ : Type) := Act σ Exn Empty

def answer {σ : Type} (entries : List (String × PyValue)) : BridgeAct σ Answer :=
  pure (.value (.dict entries))

def valueError (message : Text) : Exn := ⟨.valueError, message⟩

def noAttribute (v : PyValue) (name : String) : Exn :=
  ⟨.attributeError, lit ("'" ++ v.typeName ++ "' object has no attribute '" ++ name ++ "'")⟩

def copyOf (v : PyValue) : Except Exn PyValue :=
  match v with
  | .list _ | .dict _ => .ok v
  | v => .error (noAttribute v "copy")

def lowerOf (lower : String → String) (v : PyValue) : Except Exn String :=
  match v with
  | .str s => .ok (lower s)
  | v => .error (noAttribute v "lower")

def setItem (record : PyValue) (key : String) (v : PyValue) : Except Exn PyValue :=
  match record with
  | .dict es => .ok (.dict (Dict.put key v es))
  | .list _ => .error ⟨.typeError, lit "list indices must be integers or slices, not str"⟩
  | record => .error ⟨.typeError,
      lit ("'" ++ record.typeName ++ "' object does not support item assignment")⟩

def setFrom (args : PyDict) (key : String) (record : PyValue) : Except Exn PyValue :=
  match args.get? key with
  | some v => setItem record key v
  | none => .ok record

namespace Store

def find (store : Store) (id : PyValue) : Except Exn (Key × PyValue) := do
  let key ← id.key
  pure (key, (store.get? key).getD .none)

/-- A record that has to be named and there; one that is empty counts for none. -/
def require (store : Store) (id : PyValue) (required missing : Text) :
    Except Exn (Key × PyValue) :=
  if id.truthy then do
    let (key, record) ← store.find id
    if record.truthy then .ok (key, record) else .error (valueError missing)
  else .error (valueError required)

def copies (store : Store) : Except Exn PyValue := do
  let records ← store.values.mapM copyOf
  pure (.list records)

def search (store : Store) (wanted : PyValue → Except Exn Bool) : Except Exn PyValue := do
  let found ← store.values.filterMapM fun record => do
    if ← wanted record then
      let copy ← copyOf record
      pure (some copy)
    else pure none
  pure (.list found)

def copy (store : Store) : Except Exn Store := do
  let _ ← store.values.mapM copyOf
  pure store

def ofSnapshot (v : PyValue) : Except Exn Store :=
  match v with
  | .dict es =>
    es.foldlM (fun (store : Store) (id, record) => do
      let copy ← copyOf record
      pure (store.set (.str id) copy)) Dict.empty
  | v => .error (noAttribute v "items")

end Store

def queryOf (env : Env) (args : PyDict) : Except Exn String :=
  let query := argument args "query"
  lowerOf env.lower (if query.truthy then query else .str "")

def mentions (env : Env) (query key : String) (record : PyValue) : Except Exn Bool := do
  let text ← subscript record key
  let lowered ← lowerOf env.lower text
  hasKey (.str lowered) query

def unsupported {σ : Type} (bridge : String) (action : PyValue) : BridgeAct σ Answer :=
  Act.throw ⟨.unsupportedPlatformError,
    [.text (bridge ++ " does not support action: "), .value action]⟩

/-! ## MockCallBridge -/

namespace MockCallBridge

structure State where
  status : String := "idle"
  currentNumber : PyValue := .none
  history : List PyValue := []

def State.view (s : State) : List (String × PyValue) :=
  [("status", .str s.status), ("number", s.currentNumber)]

def event (name : String) (number : PyValue) : PyValue :=
  .dict [("event", .str name), ("number", number)]

def call (args : PyDict) : BridgeAct State Answer :=
  let number := argument args "number"
  if number.truthy then do
    let s ← Act.get
    Act.modify fun s =>
      { status := "active"
        currentNumber := number
        history := s.history ++ [event "call" number] }
    answer [("status", .str "active"), ("number", number), ("pre_state", .dict s.view)]
  else Act.throw (valueError (lit "telephony.phone.call requires 'number' argument."))

def hangUp (name status : String) : BridgeAct State Answer := do
  let s ← Act.get
  Act.modify fun s =>
    { status := status
      currentNumber := .none
      history := s.history ++ [event name s.currentNumber] }
  answer [("status", .str status), ("pre_state", .dict s.view)]

def execute (action : PyValue) (args : PyDict) : BridgeAct State Answer :=
  match action with
  | .str "telephony.phone.status" => do
    let s ← Act.get
    answer s.view
  | .str "telephony.phone.call" => call args
  | .str "telephony.phone.end" => hangUp "end" "ended"
  | .str "telephony.phone.reject" => hangUp "reject" "idle"
  | _ => unsupported "MockCallBridge" action

end MockCallBridge

/-! ## MockSMSBridge -/

namespace MockSMSBridge

def message (id sender body : String) : PyValue :=
  .dict [("id", .str id), ("from", .str sender), ("body", .str body)]

structure State where
  inbox : Store :=
    (Dict.empty.set (.str "msg-001") (message "msg-001" "+1111111111" "Hello from IRA test")).set
      (.str "msg-002") (message "msg-002" "+2222222222" "Test message 2")
  sent : List PyValue := []
  deleted : Store := Dict.empty

def read (args : PyDict) : BridgeAct State Answer := do
  let s ← Act.get
  let messageId := argument args "message_id"
  if messageId.truthy then
    let (_, msg) ← Act.ofExcept (s.inbox.find messageId)
    if msg.truthy then
      let copy ← Act.ofExcept (copyOf msg)
      pure (.value copy)
    else
      Act.throw (valueError [.text "Message '", .value messageId, .text "' not found."])
  else
    let copies ← Act.ofExcept s.inbox.copies
    pure (.value copies)

def search (env : Env) (args : PyDict) : BridgeAct State Answer := do
  let query ← Act.ofExcept (queryOf env args)
  let s ← Act.get
  let found ← Act.ofExcept (s.inbox.search (mentions env query "body"))
  pure (.value found)

def send (env : Env) (args : PyDict) : BridgeAct State Answer :=
  let number := argument args "number"
  let body := argument args "body"
  if number.truthy && body.truthy then do
    let msg : PyValue := .dict [("id", .str env.uuid.1), ("to", number), ("body", body)]
    Act.modify fun s => { s with sent := s.sent ++ [msg] }
    answer [("sent", .bool true), ("message", msg)]
  else Act.throw (valueError (lit "telephony.sms.send requires 'number' and 'body'."))

def delete (args : PyDict) : BridgeAct State Answer := do
  let s ← Act.get
  let messageId := argument args "message_id"
  let (key, msg) ← Act.ofExcept (s.inbox.require messageId
    (lit "telephony.sms.delete requires 'message_id'.")
    [.text "Message '", .value messageId, .text "' not found in inbox."])
  let preState ← Act.ofExcept (copyOf msg)
  Act.modify fun s =>
    { s with inbox := s.inbox.erase key, deleted := s.deleted.set key preState }
  answer [("deleted", .bool true), ("message_id", messageId), ("pre_state", preState)]

def restore (args : PyDict) : BridgeAct State Answer := do
  let messageId := argument args "message_id"
  let msg := argument args "message"
  if messageId.truthy && msg.truthy then
    let copy ← Act.ofExcept (copyOf msg)
    let key ← Act.ofExcept messageId.key
    Act.modify fun s => { s with inbox := s.inbox.set key copy, deleted := s.deleted.erase key }
  answer [("restored", .bool true), ("message_id", messageId)]

def execute (env : Env) (action : PyValue) (args : PyDict) : BridgeAct State Answer :=
  match action with
  | .str "telephony.sms.read" => read args
  | .str "telephony.sms.search" => search env args
  | .str "telephony.sms.send" => send env args
  | .str "telephony.sms.delete" => delete args
  | .str "telephony.sms.restore" => restore args
  | _ => unsupported "MockSMSBridge" action

end MockSMSBridge

/-! ## MockContactsBridge -/

namespace MockContactsBridge

def contact (id : String) (name number : PyValue) : PyValue :=
  .dict [("id", .str id), ("name", name), ("number", number)]

structure State where
  contacts : Store :=
    (Dict.empty.set (.str "c-001") (contact "c-001" (.str "Alice") (.str "+1000000001"))).set
      (.str "c-002") (contact "c-002" (.str "Bob") (.str "+1000000002"))

def notFound (contactId : PyValue) : Text :=
  [.text "Contact '", .value contactId, .text "' not found."]

def read (args : PyDict) : BridgeAct State Answer := do
  let s ← Act.get
  let contactId := argument args "contact_id"
  if contactId.truthy then
    let (_, contact) ← Act.ofExcept (s.contacts.find contactId)
    if contact.truthy then
      let copy ← Act.ofExcept (copyOf contact)
      pure (.value copy)
    else Act.throw (valueError (notFound contactId))
  else
    let copies ← Act.ofExcept s.contacts.copies
    pure (.value copies)

def matching (env : Env) (query : String) (contact : PyValue) : Except Exn Bool := do
  if ← mentions env query "name" contact then pure true
  else
    let number ← subscript contact "number"
    hasKey number query

def search (env : Env) (args : PyDict) : BridgeAct State Answer := do
  let query ← Act.ofExcept (queryOf env args)
  let s ← Act.get
  let found ← Act.ofExcept (s.contacts.search (matching env query))
  pure (.value found)

def create (env : Env) (args : PyDict) : BridgeAct State Answer :=
  let name := argument args "name"
  let number := argument args "number"
  if name.truthy && number.truthy then do
    let contactId := env.uuid.1
    Act.modify fun s =>
      { s with contacts := s.contacts.set (.str contactId) (contact contactId name number) }
    answer [("created", .bool true), ("contact", contact contactId name number),
      ("contact_id", .str contactId)]
  else
    Act.throw (valueError (lit "telephony.contacts.create requires 'name' and 'number'."))

def update (args : PyDict) : BridgeAct State Answer := do
  let s ← Act.get
  let contactId := argument args "contact_id"
  let (key, existing) ← Act.ofExcept (s.contacts.require contactId
    (lit "telephony.contacts.update requires 'contact_id'.") (notFound contactId))
  let preState ← Act.ofExcept (copyOf existing)
  let named ← Act.ofExcept (setFrom args "name" existing)
  let updated ← Act.ofExcept (setFrom args "number" named)
  Act.modify fun s => { s with contacts := s.contacts.set key updated }
  answer [("updated", .bool true), ("contact", updated), ("pre_state", preState)]

def delete (args : PyDict) : BridgeAct State Answer := do
  let s ← Act.get
  let contactId := argument args "contact_id"
  let (key, existing) ← Act.ofExcept (s.contacts.require contactId
    (lit "telephony.contacts.delete requires 'contact_id'.") (notFound contactId))
  let preState ← Act.ofExcept (copyOf existing)
  Act.modify fun s => { s with contacts := s.contacts.erase key }
  answer [("deleted", .bool true), ("contact_id", contactId), ("pre_state", preState)]

def restore (args : PyDict) : BridgeAct State Answer := do
  let contact := argument args "contact"
  if contact.truthy then
    let copy ← Act.ofExcept (copyOf contact)
    let id ← Act.ofExcept (subscript contact "id")
    let key ← Act.ofExcept id.key
    Act.modify fun s => { s with contacts := s.contacts.set key copy }
  answer [("restored", .bool true)]

def remove (args : PyDict) : BridgeAct State Answer := do
  let contactId := argument args "contact_id"
  if contactId.truthy then
    let key ← Act.ofExcept contactId.key
    Act.modify fun s => { s with contacts := s.contacts.erase key }
  answer [("removed", .bool true), ("contact_id", contactId)]

def execute (env : Env) (action : PyValue) (args : PyDict) : BridgeAct State Answer :=
  match action with
  | .str "telephony.contacts.read" => read args
  | .str "telephony.contacts.search" => search env args
  | .str "telephony.contacts.create" => create env args
  | .str "telephony.contacts.update" => update args
  | .str "telephony.contacts.delete" => delete args
  | .str "telephony.contacts.restore" => restore args
  | .str "telephony.contacts.remove" => remove args
  | _ => unsupported "MockContactsBridge" action

end MockContactsBridge

/-! ## MockNotificationBridge -/

namespace MockNotificationBridge

def notification (id app title body : String) : PyValue :=
  .dict [("id", .str id), ("app", .str app), ("title", .str title), ("body", .str body)]

structure State where
  active : Store :=
    ((Dict.empty.set (.str "n-001") (notification "n-001" "com.ira.test" "IRA Test" "Hello")).set
      (.str "n-002") (notification "n-002" "com.ira.sms" "New SMS" "From +123")).set
        (.str "n-003") (notification "n-003" "com.ira.call" "Missed call" "+456")
  dismissed : Store := Dict.empty
  preClearSnapshot : Option Store := none

def dismiss (args : PyDict) : BridgeAct State Answer := do
  let s ← Act.get
  let notificationId := argument args "notification_id"
  let (key, n) ← Act.ofExcept (s.active.require notificationId
    (lit "notification.dismiss requires 'notification_id'.")
    [.text "Notification '", .value notificationId, .text "' not found."])
  let preState ← Act.ofExcept (copyOf n)
  Act.modify fun s =>
    { s with active := s.active.erase key, dismissed := s.dismissed.set key preState }
  answer [("dismissed", .bool true), ("notification_id", notificationId), ("pre_state", preState)]

def clear : BridgeAct State Answer := do
  let s ← Act.get
  let preState ← Act.ofExcept s.active.copy
  Act.modify fun s => { s with active := Dict.empty, preClearSnapshot := some preState }
  pure (.cleared preState.size preState)

def reply (args : PyDict) : BridgeAct State Answer :=
  let notificationId := argument args "notification_id"
  let text := argument args "text"
  if notificationId.truthy && text.truthy then
    answer [("replied", .bool true), ("notification_id", notificationId), ("text", text)]
  else
    Act.throw (valueError (lit "notification.reply requires 'notification_id' and 'text'."))

def restoreDismissed (args : PyDict) : BridgeAct State Answer := do
  let notification := argument args "notification"
  if notification.truthy then
    let nid ← Act.ofExcept (subscript notification "id")
    let copy ← Act.ofExcept (copyOf notification)
    let key ← Act.ofExcept nid.key
    Act.modify fun s =>
      { s with active := s.active.set key copy, dismissed := s.dismissed.erase key }
  answer [("restored", .bool true)]

def restoreAll (args : PyDict) : BridgeAct State Answer := do
  let snapshot := argument args "snapshot"
  if snapshot.truthy then
    let active ← Act.ofExcept (Store.ofSnapshot snapshot)
    Act.modify fun s => { s with active := active }
  answer [("restored", .bool true)]

def execute (action : PyValue) (args : PyDict) : BridgeAct State Answer :=
  match action with
  | .str "notification.read" => do
    let s ← Act.get
    let copies ← Act.ofExcept s.active.copies
    pure (.value copies)
  | .str "notification.dismiss" => dismiss args
  | .str "notification.clear" => clear
  | .str "notification.reply" => reply args
  | .str "notification.restore_dismissed" => restoreDismissed args
  | .str "notification.restore_all" => restoreAll args
  | _ => unsupported "MockNotificationBridge" action

end MockNotificationBridge

end IraOS.Direct
