import IraOS.Android.ReadOnly
import IraOS.Android.FileUndo
import IraOS.Lib.Image

/-!
# The two models of a bridge

Four bridges stand in this development twice. `Files` and `Records` have them with typed stores,
which is what undoing is proved about: a contact has an id that is a string, and a file is a
reference to what the file holds. `Communication` and `DeviceData` have them with stores that hold
whatever they were given, which is what reading is proved about, for every call anybody can make.

**The one is the other read back**: on a typed store, each writing class does in the second model
what it does in the first, with the same answer and the same exception (`smsWrite_image`,
`contactsWrite_image`, `notificationWrite_image`, `filesWrite_image`), and so do the restoring
actions that a rollback asks for. The typed stores are those the bridges start from and the writing
classes lead to; what they leave out is a store that somebody has restored something else into.

## How a store is read back

A typed store of records becomes a store of values by writing each record as the dictionary it is
and each id as the string it is (`store`, by `Dict.embed`). Reading and writing a dictionary go
through that unchanged, so most of a bridge's branches correspond step by step. The one step that
differs is the lookup of an id: the typed store asks whether the id is a string before it looks, the
other only whether it hashes, and a value that hashes and is no string is not found in either
(`require_of_not_str`).

A file is a reference to a record object in both models, and the two heaps hold the same
(`ofTyped`). What a reference in an answer stands for is what the record holds when the answer is
given, so the reading of an answer goes by the state it is given in (`answerOf`).

## The system bridge

The classes over the system bridge stand twice as well, and for those there is nothing to read back:
what they keep is one type in both (`onSystem_executeAction`).
-/

set_option autoImplicit false

namespace IraOS.Direct

open Lib BaseAndroidCapability

/-! ## A class -/

theorem report_image {σ σ' α β : Type} {f : σ → σ'} {g : σ → α → β}
    {descriptor : CapabilityDescriptor} {internal' : PyValue → PyDict → Act σ' Exn Empty β}
    {internal : PyValue → PyDict → Act σ Exn Empty α} {arguments : PyDict} {s : σ}
    (h : ∀ name ∈ "default" :: descriptor.supportedActions,
      Act.Image f g (internal' (.str name) arguments) (internal (.str name) arguments) s) :
    Act.Image f (fun s => Except.map (g s)) (report descriptor internal' arguments)
      (report descriptor internal arguments) s := by
  have hchecked : Act.Image f g (checked descriptor internal' arguments)
      (checked descriptor internal arguments) s := by
    apply Act.Image.ite
    · intro hgate
      obtain ⟨name, hmem, heq⟩ := exists_of_supports hgate
      rw [heq]
      exact h name hmem
    · exact fun _ => .throw _
  constructor
  rw [report_run, report_run, hchecked.run]
  cases (checked descriptor internal arguments s).result <;> rfl

theorem onSystem_executeAction (descriptor : CapabilityDescriptor)
    (internal : SystemBridge MockSystemBridge.State → Internal MockSystemBridge.State) (env : Env)
    (arguments : PyDict) (s : MockSystemBridge.State) :
    BaseAndroidCapability.executeAction descriptor (internal MockSystemBridge.execute) arguments s =
      ((onSystem descriptor internal).executeAction env arguments >>= fun reported =>
        pure (.result (resultOf descriptor reported))) s :=
  executeAction_eq_report descriptor (internal MockSystemBridge.execute) arguments s

/-! ## A store of records -/

theorem str_injective : Function.Injective Key.str := fun _ _ h => Key.str.inj h

section Records

variable {ν : Type} (record : ν → PyValue)

/-- The records under their ids, each as the dictionary it is. -/
def store (d : Dict String ν) : Store := d.embed Key.str str_injective record

theorem store_set (d : Dict String ν) (id : String) (v : ν) :
    store record (d.set id v) = (store record d).set (.str id) (record v) := Dict.embed_set d id v

theorem store_erase (d : Dict String ν) (id : String) :
    store record (d.erase id) = (store record d).erase (.str id) := Dict.embed_erase d id

variable {record} {d : Dict String ν} {id : PyValue} {required : String} {missing : Text}

/-- A value that is a key but no string is no id of a typed store. -/
theorem require_of_not_str {key : Key} (hid : id.truthy = true) (hkey : id.key = .ok key)
    (hstr : strKey id = .ok none) (hother : ∀ s, Key.str s ≠ key) :
    (store record d).require id (lit required) missing =
      (lookupId d id required missing).map fun found => (.str found.1, record found.2) := by
  have hnone : (store record d).get? key = none := Dict.embed_get?_none d hother
  rw [Store.require, if_pos hid, Store.find, hkey, lookupId, if_pos hid, hstr]
  show (if ((Dict.get? (store record d) key).getD PyValue.none).truthy = true then _ else _) = _
  rw [hnone]
  rfl

theorem require_store (hrecord : ∀ v, (record v).truthy = true) :
    (store record d).require id (lit required) missing =
      (lookupId d id required missing).map fun found => (.str found.1, record found.2) := by
  cases hid : id.truthy with
  | false =>
    have hfalsy : ¬ id.truthy = true := by simp [hid]
    rw [Store.require, if_neg hfalsy, lookupId, if_neg hfalsy]
    rfl
  | true =>
    cases id with
    | str s =>
      have hget : (store record d).get? (.str s) = (d.get? s).map record := Dict.embed_get? d s
      rw [Store.require, if_pos hid, lookupId, if_pos hid]
      show (if ((Dict.get? (store record d) (.str s)).getD PyValue.none).truthy = true then
        Except.ok (Key.str s, (Dict.get? (store record d) (.str s)).getD PyValue.none) else _) = _
      rw [hget]
      cases hfound : d.get? s with
      | none => simp [strKey, hfound, bind, Except.bind, Except.map, PyValue.truthy, valueError]
      | some v => simp [strKey, hfound, bind, Except.bind, Except.map, hrecord v]
    | none => cases hid
    | bool b => exact require_of_not_str hid rfl rfl (by simp)
    | int i => exact require_of_not_str hid rfl rfl (by simp)
    | float x => exact require_of_not_str hid rfl rfl (by simp)
    | enum cls member => exact require_of_not_str hid rfl rfl (by simp)
    | list xs =>
      rw [Store.require, if_pos hid, lookupId, if_pos hid]
      rfl
    | dict es =>
      rw [Store.require, if_pos hid, lookupId, if_pos hid]
      rfl

end Records

theorem lookupId_str {ν : Type} {d : Dict String ν} {id : PyValue} {required : String}
    {missing : Text} {key : String} {v : ν}
    (h : lookupId d id required missing = .ok (key, v)) : id = .str key := by
  unfold lookupId at h
  split at h
  · cases id with
    | str s =>
      cases hget : d.get? s with
      | none => simp [strKey, hget, bind, Except.bind] at h
      | some w =>
        simp [strKey, hget, bind, Except.bind] at h
        rw [h.1]
    | _ => simp [strKey, bind, Except.bind] at h
  · cases h

/-- What an action that has found its record goes on with. -/
theorem image_require {ν σ σ' α β : Type} {f : σ → σ'} {g : σ → α → β} {record : ν → PyValue}
    (hrecord : ∀ v, (record v).truthy = true) {d : Dict String ν} {id : PyValue}
    {required : String} {missing : Text} {s : σ} {k' : Key × PyValue → Act σ' Exn Empty β}
    {k : String × ν → Act σ Exn Empty α}
    (hk : ∀ key v, id = .str key → Act.Image f g (k' (.str key, record v)) (k (key, v)) s) :
    Act.Image f g (Act.ofExcept ((store record d).require id (lit required) missing) >>= k')
      (Act.ofExcept (lookupId d id required missing) >>= k) s := by
  have hlook : Act.Image f (fun _ found => (Key.str found.1, record found.2))
      (Act.ofExcept ((store record d).require id (lit required) missing) : BridgeAct σ' _)
      (Act.ofExcept (lookupId d id required missing)) s := .ofExcept (require_store hrecord)
  refine hlook.bind ?_
  rintro ⟨key, v⟩ s₁ t hrun
  rw [Act.run_ofExcept, Run.mk.injEq] at hrun
  obtain ⟨hfound, rfl, -⟩ := hrun
  exact hk key v (lookupId_str hfound)

/-! ## Messages -/

namespace MockSMSBridge

def messageValue (m : IraOS.MockSMSBridge.Message) : PyValue := message m.id m.from m.body

def sentValue (m : IraOS.MockSMSBridge.Sent) : PyValue :=
  .dict [("id", .str m.id), ("to", m.to), ("body", m.body)]

def ofTyped (s : IraOS.MockSMSBridge.State) : State where
  inbox := store messageValue s.inbox
  sent := s.sent.map sentValue
  deleted := store messageValue s.deleted

def answerOf : IraOS.MockSMSBridge.Data → Answer
  | .sent message => .value (.dict [("sent", .bool true), ("message", sentValue message)])
  | .deleted messageId preState => .value (.dict [("deleted", .bool true),
      ("message_id", .str messageId), ("pre_state", messageValue preState)])

variable (env : Env) (args : PyDict) (s : IraOS.MockSMSBridge.State)

theorem send_image : Act.Image ofTyped (fun _ => answerOf) (send env args)
    (IraOS.MockSMSBridge.send env.uuid args) s := by
  apply Act.Image.ite
  · intro _
    refine .bind_modify ?_ (.pure rfl)
    simp [ofTyped, sentValue]
  · exact fun _ => .throw _

theorem delete_image : Act.Image ofTyped (fun _ => answerOf) (delete args)
    (IraOS.MockSMSBridge.delete args) s := by
  apply Act.Image.bind_get
  refine image_require (fun _ => rfl) fun key msg hid => ?_
  refine .skip rfl (.bind_modify ?_ (.pure ?_))
  · simp [ofTyped, store_erase, store_set]
  · rw [hid]
    rfl

theorem execute_image : ∀ name ∈ "default" :: SmsWriteCapability.descriptor.supportedActions,
    Act.Image ofTyped (fun _ => answerOf) (execute env (.str name) args)
      (IraOS.MockSMSBridge.execute env.uuid (.str name) args) s :=
  forall_actions (.throw _) (send_image env args s) (delete_image args s)

theorem restore_image (messageId : String) (m : IraOS.MockSMSBridge.Message) :
    Act.Image ofTyped
      (fun _ _ => .value (.dict [("restored", .bool true), ("message_id", .str messageId)]))
      (execute env (.str "telephony.sms.restore")
        ((Dict.empty.set "message_id" (.str messageId)).set "message" (messageValue m)))
      (IraOS.MockSMSBridge.restore messageId m) s := by
  have hid : argument ((Dict.empty.set "message_id" (.str messageId)).set "message"
      (messageValue m)) "message_id" = .str messageId := rfl
  constructor
  show restore _ _ = _
  unfold restore
  rw [hid]
  cases hempty : messageId.isEmpty with
  | true =>
    have hfalsy : (PyValue.str messageId).truthy = false := by simp [PyValue.truthy, hempty]
    have hsame : IraOS.MockSMSBridge.restore messageId m s = ⟨.ok (), s, []⟩ := by
      rw [IraOS.MockSMSBridge.restore, Act.run_modify, if_pos hempty]
    rw [hsame]
    simp only [hfalsy, Bool.false_and]
    rfl
  | false =>
    have htruthy : (PyValue.str messageId).truthy = true := by simp [PyValue.truthy, hempty]
    have hback : IraOS.MockSMSBridge.restore messageId m s = ⟨.ok (), { s with
        inbox := s.inbox.set messageId m, deleted := s.deleted.erase messageId }, []⟩ := by
      rw [IraOS.MockSMSBridge.restore, Act.run_modify, if_neg (by simp [hempty])]
    rw [hback]
    simp only [htruthy, Bool.true_and]
    rw [ofTyped, ofTyped, store_set, store_erase]
    rfl

end MockSMSBridge

/-! ## Contacts -/

namespace MockContactsBridge

def contactValue (c : IraOS.MockContactsBridge.Contact) : PyValue := contact c.id c.name c.number

def ofTyped (s : IraOS.MockContactsBridge.State) : State where
  contacts := store contactValue s.contacts

def answerOf : IraOS.MockContactsBridge.Data → Answer
  | .created contact contactId => .value (.dict [("created", .bool true),
      ("contact", contactValue contact), ("contact_id", .str contactId)])
  | .updated contact preState => .value (.dict [("updated", .bool true),
      ("contact", contactValue contact), ("pre_state", contactValue preState)])
  | .deleted contactId preState => .value (.dict [("deleted", .bool true),
      ("contact_id", .str contactId), ("pre_state", contactValue preState)])

variable (env : Env) (args : PyDict) (s : IraOS.MockContactsBridge.State)

theorem create_image : Act.Image ofTyped (fun _ => answerOf) (create env args)
    (IraOS.MockContactsBridge.create env.uuid args) s := by
  apply Act.Image.ite
  · intro _
    refine .bind_modify ?_ (.pure rfl)
    simp [ofTyped, store_set, contactValue]
  · exact fun _ => .throw _

theorem setFrom_name (c : IraOS.MockContactsBridge.Contact) :
    setFrom args "name" (contactValue c) =
      .ok (contactValue { c with name := (args.get? "name").getD c.name }) := by
  unfold setFrom
  cases args.get? "name" <;> rfl

theorem setFrom_number (c : IraOS.MockContactsBridge.Contact) :
    setFrom args "number" (contactValue c) =
      .ok (contactValue { c with number := (args.get? "number").getD c.number }) := by
  unfold setFrom
  cases args.get? "number" <;> rfl

theorem update_image : Act.Image ofTyped (fun _ => answerOf) (update args)
    (IraOS.MockContactsBridge.update args) s := by
  unfold IraOS.MockContactsBridge.update IraOS.MockContactsBridge.find
  rw [Act.bind_assoc]
  apply Act.Image.bind_get
  refine image_require (fun _ => rfl) fun key c _ => ?_
  refine .skip rfl (.skip (setFrom_name args c) (.skip (setFrom_number args _) ?_))
  refine .bind_modify ?_ (.pure rfl)
  simp [ofTyped, store_set, IraOS.MockContactsBridge.updatedBy]

theorem delete_image : Act.Image ofTyped (fun _ => answerOf) (delete args)
    (IraOS.MockContactsBridge.delete args) s := by
  unfold IraOS.MockContactsBridge.delete IraOS.MockContactsBridge.find
  rw [Act.bind_assoc]
  apply Act.Image.bind_get
  refine image_require (fun _ => rfl) fun key c hid => ?_
  refine .skip rfl (.bind_modify ?_ (.pure ?_))
  · simp [ofTyped, store_erase]
  · rw [hid]
    rfl

theorem execute_image : ∀ name ∈ "default" :: ContactsWriteCapability.descriptor.supportedActions,
    Act.Image ofTyped (fun _ => answerOf) (execute env (.str name) args)
      (IraOS.MockContactsBridge.execute env.uuid (.str name) args) s := by
  intro name hname
  simp only [ContactsWriteCapability.descriptor, List.mem_cons, List.not_mem_nil, or_false] at hname
  rcases hname with rfl | rfl | rfl | rfl
  · exact .throw _
  · exact create_image env args s
  · exact update_image args s
  · exact delete_image args s

/-! What a rollback asks for. -/

theorem restore_image (c : IraOS.MockContactsBridge.Contact) :
    Act.Image ofTyped (fun _ _ => .value (.dict [("restored", .bool true)]))
      (execute env (.str "telephony.contacts.restore") (Dict.empty.set "contact" (contactValue c)))
      (IraOS.MockContactsBridge.restore c) s := by
  constructor
  show (⟨_, { ofTyped s with contacts := (ofTyped s).contacts.set (.str c.id) (contactValue c) },
    _⟩ : Run State Exn Empty Answer) = ⟨_, ofTyped { s with contacts := s.contacts.set c.id c }, _⟩
  rw [ofTyped, ofTyped, store_set]
  rfl

theorem remove_image (contactId : String) : Act.Image ofTyped
    (fun _ _ => .value (.dict [("removed", .bool true), ("contact_id", .str contactId)]))
    (execute env (.str "telephony.contacts.remove")
      (Dict.empty.set "contact_id" (.str contactId)))
    (IraOS.MockContactsBridge.remove contactId) s := by
  have hid : argument (Dict.empty.set "contact_id" (.str contactId)) "contact_id" =
      .str contactId := rfl
  constructor
  show remove _ _ = _
  unfold remove
  rw [hid]
  cases hempty : contactId.isEmpty with
  | true =>
    have hfalsy : (PyValue.str contactId).truthy = false := by simp [PyValue.truthy, hempty]
    have hsame : IraOS.MockContactsBridge.remove contactId s = ⟨.ok (), s, []⟩ := by
      rw [IraOS.MockContactsBridge.remove, Act.run_modify, hempty]
      rfl
    rw [hsame]
    simp only [hfalsy]
    rfl
  | false =>
    have htruthy : (PyValue.str contactId).truthy = true := by simp [PyValue.truthy, hempty]
    have hgone : IraOS.MockContactsBridge.remove contactId s =
        ⟨.ok (), { s with contacts := s.contacts.erase contactId }, []⟩ := by
      rw [IraOS.MockContactsBridge.remove, Act.run_modify, hempty]
      cases hthere : s.contacts.contains contactId with
      | true => rfl
      | false =>
        -- what is not there is not there afterwards either
        have hnone : s.contacts.get? contactId = none := by
          simpa [Dict.contains] using hthere
        rw [Dict.erase_of_absent hnone]
        rfl
    rw [hgone]
    simp only [htruthy]
    rw [ofTyped, ofTyped, store_erase]
    rfl

end MockContactsBridge

/-! ## Notifications -/

namespace MockNotificationBridge

def notificationValue (n : IraOS.MockNotificationBridge.Notification) : PyValue :=
  notification n.id n.app n.title n.body

def ofTyped (s : IraOS.MockNotificationBridge.State) : State where
  active := store notificationValue s.active
  dismissed := store notificationValue s.dismissed
  preClearSnapshot := s.preClearSnapshot.map (store notificationValue)

def answerOf : IraOS.MockNotificationBridge.Data → Answer
  | .dismissed notificationId preState => .value (.dict [("dismissed", .bool true),
      ("notification_id", .str notificationId), ("pre_state", notificationValue preState)])
  | .cleared count preState => .cleared count (store notificationValue preState)
  | .replied notificationId text => .value (.dict [("replied", .bool true),
      ("notification_id", notificationId), ("text", text)])

variable (env : Env) (args : PyDict) (s : IraOS.MockNotificationBridge.State)

theorem dismiss_image : Act.Image ofTyped (fun _ => answerOf) (dismiss args)
    (IraOS.MockNotificationBridge.dismiss args) s := by
  apply Act.Image.bind_get
  refine image_require (fun _ => rfl) fun key n hid => ?_
  refine .skip rfl (.bind_modify ?_ (.pure ?_))
  · simp [ofTyped, store_erase, store_set]
  · rw [hid]
    rfl

theorem copy_store (d : Dict String IraOS.MockNotificationBridge.Notification) :
    (store notificationValue d).copy = .ok (store notificationValue d) := by
  have hcopies : ∀ ns : List IraOS.MockNotificationBridge.Notification,
      (ns.map notificationValue).mapM copyOf = .ok (ns.map notificationValue) := by
    intro ns
    induction ns with
    | nil => rfl
    | cons n ns ih =>
      rw [List.map_cons, List.mapM_cons, ih]
      rfl
  have hvalues : Dict.values (store notificationValue d) = d.values.map notificationValue :=
    Dict.embed_values d
  rw [Store.copy, hvalues, hcopies]
  rfl

theorem clear_image : Act.Image ofTyped (fun _ => answerOf) clear
    IraOS.MockNotificationBridge.clear s := by
  apply Act.Image.bind_get
  refine .skip (copy_store s.active) (.bind_modify rfl (.pure ?_))
  rw [store, Dict.embed_size]
  rfl

theorem reply_image : Act.Image ofTyped (fun _ => answerOf) (reply args)
    (IraOS.MockNotificationBridge.reply args) s :=
  .ite (fun _ => .pure rfl) fun _ => .throw _

theorem execute_image : ∀ name ∈ "notification.reply" :: "default" ::
    NotificationWriteCapability.descriptor.supportedActions,
    Act.Image ofTyped (fun _ => answerOf) (execute (.str name) args)
      (IraOS.MockNotificationBridge.execute (.str name) args) s := by
  intro name hname
  simp only [NotificationWriteCapability.descriptor, List.mem_cons, List.not_mem_nil, or_false]
    at hname
  rcases hname with rfl | rfl | rfl | rfl
  · exact reply_image args s
  · exact .throw _
  · exact dismiss_image args s
  · exact clear_image s

/-! What a rollback asks for. -/

theorem restoreDismissed_image (n : IraOS.MockNotificationBridge.Notification) :
    Act.Image ofTyped (fun _ _ => .value (.dict [("restored", .bool true)]))
      (execute (.str "notification.restore_dismissed")
        (Dict.empty.set "notification" (notificationValue n)))
      (IraOS.MockNotificationBridge.restoreDismissed n) s := by
  constructor
  show (⟨_, { ofTyped s with
      active := (ofTyped s).active.set (.str n.id) (notificationValue n)
      dismissed := (ofTyped s).dismissed.erase (.str n.id) }, _⟩ : Run State Exn Empty Answer) =
    ⟨_, ofTyped { s with active := s.active.set n.id n, dismissed := s.dismissed.erase n.id }, _⟩
  rw [ofTyped, ofTyped, store_set, store_erase]
  rfl

def snapshotValue (d : Dict String IraOS.MockNotificationBridge.Notification) : PyValue :=
  .dict (d.entries.map fun e => (e.1, notificationValue e.2))

theorem foldlM_snapshot {es : List (String × IraOS.MockNotificationBridge.Notification)}
    (hnodup : (es.map Prod.fst).Nodup) {acc : Store}
    (hnew : ∀ e ∈ es, Dict.get? acc (.str e.1) = none) : ∃ built : Store,
    (es.map fun e => (e.1, notificationValue e.2)).foldlM (fun (store : Store) (id, record) => do
      let copy ← copyOf record
      pure (store.set (.str id) copy)) acc = Except.ok (ε := Exn) built ∧
    built.entries = acc.entries ++ es.map fun e => (Key.str e.1, notificationValue e.2) := by
  induction es generalizing acc with
  | nil => exact ⟨acc, rfl, by simp⟩
  | cons e es ih =>
    rw [List.map_cons, List.nodup_cons] at hnodup
    have hnone := hnew e List.mem_cons_self
    have hrest : ∀ e' ∈ es,
        Dict.get? (Dict.set acc (.str e.1) (notificationValue e.2)) (.str e'.1) = none := by
      intro e' he'
      have hne : Key.str e'.1 ≠ .str e.1 := by
        intro heq
        exact hnodup.1 (Key.str.inj heq ▸ List.mem_map_of_mem he')
      rw [Dict.get?_set_ne hne]
      exact hnew e' (List.mem_cons_of_mem _ he')
    obtain ⟨built, hbuilt, hentries⟩ := ih hnodup.2 hrest
    refine ⟨built, hbuilt, ?_⟩
    have hput : (Dict.set acc (.str e.1) (notificationValue e.2)).entries =
        acc.entries ++ [(.str e.1, notificationValue e.2)] := Dict.put_of_absent hnone _
    rw [hentries, hput, List.append_assoc]
    rfl

theorem ofSnapshot_snapshotValue (d : Dict String IraOS.MockNotificationBridge.Notification) :
    Store.ofSnapshot (snapshotValue d) = .ok (store notificationValue d) := by
  have hnew : ∀ e ∈ d.entries, Dict.get? (Dict.empty : Store) (.str e.1) = none := fun _ _ => rfl
  obtain ⟨⟨l, hl⟩, hbuilt, hentries⟩ := foldlM_snapshot d.nodup hnew
  rw [snapshotValue, Store.ofSnapshot, hbuilt]
  dsimp only at hentries
  subst hentries
  rfl

theorem restoreAll_image (d : Dict String IraOS.MockNotificationBridge.Notification) :
    Act.Image ofTyped (fun _ _ => .value (.dict [("restored", .bool true)]))
      (execute (.str "notification.restore_all") (Dict.empty.set "snapshot" (snapshotValue d)))
      (IraOS.MockNotificationBridge.restoreAll d) s := by
  have hsnapshot : argument (Dict.empty.set "snapshot" (snapshotValue d)) "snapshot" =
      snapshotValue d := rfl
  constructor
  show restoreAll _ _ = _
  unfold restoreAll
  rw [hsnapshot]
  by_cases hzero : d.size = 0
  · have hfalsy : (snapshotValue d).truthy = false := by
      simpa [snapshotValue, PyValue.truthy, Dict.size] using hzero
    have hsame : IraOS.MockNotificationBridge.restoreAll d s = ⟨.ok (), s, []⟩ := by
      rw [IraOS.MockNotificationBridge.restoreAll, Act.run_modify, if_pos hzero]
    rw [hsame]
    simp only [hfalsy]
    rfl
  · have htruthy : (snapshotValue d).truthy = true := by
      simpa [snapshotValue, PyValue.truthy, Dict.size] using hzero
    have hback : IraOS.MockNotificationBridge.restoreAll d s =
        ⟨.ok (), { s with active := d }, []⟩ := by
      rw [IraOS.MockNotificationBridge.restoreAll, Act.run_modify, if_neg hzero]
    rw [hback]
    simp only [htruthy, ofSnapshot_snapshotValue]
    rfl

end MockNotificationBridge

/-! ## Files -/

namespace MockFileBridge

open IraOS.MockFileBridge (RecordRef)

def recordValue (content : PyValue) : PyValue := .dict [("content", content)]

/-- A reference that has been given out is to a record, and no other is. -/
def ofTyped (s : IraOS.MockFileBridge.State) : State where
  fs := s.fs
  records ref := if ref < s.next then recordValue (s.records ref) else .none
  next := s.next

/-- A reference in an answer says what the record holds when the answer is given. -/
def answerOf (s : IraOS.MockFileBridge.State) : IraOS.MockFileBridge.Data → Answer
  | .path path => .value (.dict [("path", path)])
  | .recorded path preState =>
    .value (.dict [("path", path), ("pre_state", recordValue (s.records preState))])
  | .renamed source destination => .value (.dict [("source", source), ("destination", destination),
      ("pre_state", .dict [("source", source), ("destination", destination)])])
  | .content path content => .value (.dict [("path", path), ("content", content)])
  | .files paths => .files paths

section Records

variable {s : IraOS.MockFileBridge.State} {ref : RecordRef}

theorem fs_ofTyped : (ofTyped s).fs = s.fs := rfl

theorem records_ofTyped (h : ref < s.next) :
    (ofTyped s).records ref = recordValue (s.records ref) := if_pos h

theorem ofTyped_alloc (content : PyValue) :
    ofTyped (s.alloc content) = (ofTyped s).alloc (recordValue content) := by
  simp only [ofTyped, State.alloc, IraOS.MockFileBridge.State.alloc, State.mk.injEq, and_true,
    true_and]
  funext r
  by_cases hr : r = s.next
  · simp [hr]
  · have hlt : r < s.next + 1 ↔ r < s.next :=
      ⟨fun h => Nat.lt_of_le_of_ne (Nat.le_of_lt_succ h) hr, Nat.lt_succ_of_lt⟩
    simp only [Function.update_of_ne hr, hlt]

theorem ofTyped_fill (h : ref < s.next) (content : PyValue) :
    ofTyped (s.fill ref content) = (ofTyped s).fill ref (recordValue content) := by
  simp only [ofTyped, State.fill, IraOS.MockFileBridge.State.fill, State.mk.injEq, and_true,
    true_and]
  funext r
  by_cases hr : r = ref
  · subst hr
    simp [h]
  · simp [Function.update_of_ne hr]

end Records

section Steps

variable {α : Type} {g : IraOS.MockFileBridge.State → α → Answer} {s : IraOS.MockFileBridge.State}
  {args : PyDict} {path : PyValue}

theorem image_requirePath {k' : PyValue → FileAct Answer}
    {k : PyValue → IraOS.MockFileBridge.FileAct α}
    (hk : ∀ path, Act.Image ofTyped g (k' path) (k path) s) :
    Act.Image ofTyped g (requirePath args >>= k')
      (IraOS.MockFileBridge.requirePath args >>= k) s := by
  have hpath : Act.Image ofTyped (fun _ path => path) (requirePath args)
      (IraOS.MockFileBridge.requirePath args) s := .ite (fun _ => .pure rfl) fun _ => .throw _
  refine hpath.bind fun path s₁ t hrun => ?_
  obtain rfl := Act.trace_nil t
  obtain ⟨-, rfl⟩ := IraOS.MockFileBridge.requirePath_ok hrun
  exact hk path

theorem key_image (path : PyValue) (s : IraOS.MockFileBridge.State) :
    Act.Image ofTyped (fun _ key => key) (Act.ofExcept path.key : FileAct Key)
      (Act.ofExcept path.key) s := .ofExcept (by cases path.key <;> rfl)

theorem image_find {k' : Key × RecordRef → FileAct Answer}
    {k : Key × RecordRef → IraOS.MockFileBridge.FileAct α}
    (hk : ∀ key ref, s.fs.get? key = some ref →
      Act.Image ofTyped g (k' (key, ref)) (k (key, ref)) s) :
    Act.Image ofTyped g (find path >>= k') (IraOS.MockFileBridge.find path >>= k) s := by
  have hfind : Act.Image ofTyped (fun _ found => found) (find path)
      (IraOS.MockFileBridge.find path) s := by
    apply Act.Image.bind_get
    refine (key_image path s).bind fun key s₁ t hrun => ?_
    rw [fs_ofTyped]
    cases s.fs.get? key with
    | some ref => exact .pure rfl
    | none => exact .throw _
  refine hfind.bind ?_
  rintro ⟨key, ref⟩ s₁ t hrun
  obtain rfl := Act.trace_nil t
  obtain ⟨-, hget, rfl⟩ := IraOS.MockFileBridge.find_ok hrun
  exact hk key ref hget

theorem image_free {message : String} {k' : Key → FileAct Answer}
    {k : Key → IraOS.MockFileBridge.FileAct α}
    (hk : ∀ key, Act.Image ofTyped g (k' key) (k key) s) :
    Act.Image ofTyped g (free path message >>= k')
      (IraOS.MockFileBridge.free path message >>= k) s := by
  have hfree : Act.Image ofTyped (fun _ key => key) (free path message)
      (IraOS.MockFileBridge.free path message) s := by
    apply Act.Image.bind_get
    refine (key_image path s).bind fun key s₁ t hrun => ?_
    rw [fs_ofTyped]
    cases s.fs.get? key with
    | some ref => exact .throw _
    | none => exact .pure rfl
  refine hfree.bind fun key s₁ t hrun => ?_
  obtain rfl := Act.trace_nil t
  obtain ⟨-, -, rfl⟩ := IraOS.MockFileBridge.free_ok hrun
  exact hk key

end Steps

section Actions

variable (env : Env) (args : PyDict) {s : IraOS.MockFileBridge.State}

theorem read_image (hmade : s.Made) :
    Act.Image ofTyped answerOf (read args) (IraOS.MockFileBridge.read args) s := by
  refine image_requirePath fun path => image_find fun key ref hget => .bind_get ?_
  have hcontent : subscript ((ofTyped s).records ref) "content" = .ok (s.records ref) := by
    rw [records_ofTyped (hmade hget)]
    rfl
  exact .skip hcontent (.pure rfl)

theorem create_image :
    Act.Image ofTyped answerOf (create args) (IraOS.MockFileBridge.create args) s := by
  refine image_requirePath fun path => image_free fun key => .bind_modify ?_ (.pure rfl)
  exact congrArg (fun t : State => t.put key s.next) (ofTyped_alloc _).symm

theorem write_image (hmade : s.Made) :
    Act.Image ofTyped answerOf (write args) (IraOS.MockFileBridge.write args) s := by
  refine image_requirePath fun path => image_find fun key ref hget => .bind_get ?_
  have hlt := hmade hget
  have hcopy : copyOf ((ofTyped s).records ref) = .ok (recordValue (s.records ref)) := by
    rw [records_ofTyped hlt]
    rfl
  have hwritten : setItem ((ofTyped s).records ref) "content" (contentArg args) =
      .ok (recordValue (contentArg args)) := by
    rw [records_ofTyped hlt]
    rfl
  refine .skip hcopy (.bind_modify (ofTyped_alloc _).symm (.skip hwritten ?_))
  refine .bind_modify (ofTyped_fill (Nat.lt_succ_of_lt hlt) _).symm (.pure ?_)
  -- the copy is another object, which the write does not reach
  have hpreState : ((s.alloc (s.records ref)).fill ref (contentArg args)).records s.next =
      s.records ref := by
    show Function.update (Function.update s.records s.next (s.records ref)) ref _ s.next = _
    rw [Function.update_of_ne (Nat.ne_of_gt hlt), Function.update_self]
  show Answer.value (.dict [("path", path), ("pre_state", recordValue (s.records ref))]) =
    .value (.dict [("path", path), ("pre_state", recordValue
      (((s.alloc (s.records ref)).fill ref (contentArg args)).records s.next))])
  rw [hpreState]

theorem rename_image :
    Act.Image ofTyped answerOf (rename args) (IraOS.MockFileBridge.rename args) s := by
  apply Act.Image.ite
  · intro _
    exact image_find fun key ref _ => image_free fun key' => .bind_modify rfl (.pure rfl)
  · exact fun _ => .throw _

theorem delete_image (hmade : s.Made) :
    Act.Image ofTyped answerOf (delete args) (IraOS.MockFileBridge.delete args) s := by
  refine image_requirePath fun path => image_find fun key ref hget => ?_
  refine .get_left (.bind_modify rfl (.pure ?_))
  rw [records_ofTyped (hmade hget)]
  rfl

theorem execute_image (hmade : s.Made) : ∀ name ∈ "files.read" :: "files.list" :: "default" ::
    FilesWriteCapability.descriptor.supportedActions,
    Act.Image ofTyped answerOf (execute env (.str name) args)
      (IraOS.MockFileBridge.execute (.str name) args) s := by
  intro name hname
  simp only [FilesWriteCapability.descriptor, List.mem_cons, List.not_mem_nil, or_false] at hname
  rcases hname with rfl | rfl | rfl | rfl | rfl | rfl | rfl | rfl
  · exact read_image args hmade
  · exact .bind_get (.pure rfl)
  · exact .throw _
  · exact create_image args
  · exact write_image args hmade
  · exact rename_image args
  · exact rename_image args
  · exact delete_image args hmade

end Actions

/-! What a rollback asks for. -/

theorem restoreRecord_image (env : Env) (path preState : PyValue) {ref : RecordRef}
    (henv : env.preState = some ref) (s : IraOS.MockFileBridge.State) {action : String}
    (haction : action = "files.restore_delete" ∨ action = "files.restore_write") :
    Act.Image ofTyped (fun _ _ => .value (.dict [("success", .bool true)]))
      (execute env (.str action) ((Dict.empty.set "path" path).set "pre_state" preState))
      (IraOS.MockFileBridge.restoreRecord path ref) s := by
  have hpath : argument ((Dict.empty.set "path" path).set "pre_state" preState) "path" = path :=
    rfl
  have hexecute : execute env (.str action) ((Dict.empty.set "path" path).set "pre_state" preState)
      = restoreRecord env ((Dict.empty.set "path" path).set "pre_state" preState) := by
    rcases haction with rfl | rfl <;> rfl
  rw [hexecute, restoreRecord, hpath, henv]
  constructor
  unfold IraOS.MockFileBridge.restoreRecord
  cases path.key <;> rfl

theorem restoreName_image (env : Env) (src dest : PyValue) (s : IraOS.MockFileBridge.State)
    {action : String}
    (haction : action = "files.restore_rename" ∨ action = "files.restore_move") :
    Act.Image ofTyped (fun _ _ => .value (.dict [("success", .bool true)]))
      (execute env (.str action) ((Dict.empty.set "source" src).set "destination" dest))
      (IraOS.MockFileBridge.restoreName src dest) s := by
  have hsrc : argument ((Dict.empty.set "source" src).set "destination" dest) "source" = src := rfl
  have hdest : argument ((Dict.empty.set "source" src).set "destination" dest) "destination" =
      dest := rfl
  have hexecute : execute env (.str action) ((Dict.empty.set "source" src).set "destination" dest)
      = restoreName ((Dict.empty.set "source" src).set "destination" dest) := by
    rcases haction with rfl | rfl <;> rfl
  rw [hexecute, restoreName, hsrc, hdest]
  refine (key_image dest s).bind fun destKey s₁ t hrun => .bind_get ?_
  rw [fs_ofTyped]
  cases s₁.fs.get? destKey with
  | none => exact .throw _
  | some ref =>
    refine .bind_modify rfl ((key_image src _).bind fun srcKey s₂ t hrun => ?_)
    exact ⟨rfl⟩

end MockFileBridge

/-! ## The classes -/

variable (env : Env) (arguments : PyDict)

theorem smsWrite_image (s : IraOS.MockSMSBridge.State) :
    Act.Image MockSMSBridge.ofTyped (fun _ => Except.map MockSMSBridge.answerOf)
      (AndroidClass.smsWrite.capability.executeAction env arguments)
      ((SmsWriteCapability env.uuid).executeAction arguments) s :=
  report_image (MockSMSBridge.execute_image env arguments s)

theorem contactsWrite_image (s : IraOS.MockContactsBridge.State) :
    Act.Image MockContactsBridge.ofTyped (fun _ => Except.map MockContactsBridge.answerOf)
      (AndroidClass.contactsWrite.capability.executeAction env arguments)
      ((ContactsWriteCapability env.uuid).executeAction arguments) s :=
  report_image (MockContactsBridge.execute_image env arguments s)

theorem notificationWrite_image (s : IraOS.MockNotificationBridge.State) :
    Act.Image MockNotificationBridge.ofTyped (fun _ => Except.map MockNotificationBridge.answerOf)
      (AndroidClass.notificationWrite.capability.executeAction env arguments)
      (NotificationWriteCapability.executeAction arguments) s :=
  report_image fun name hname =>
    MockNotificationBridge.execute_image arguments s name (List.mem_cons_of_mem _ hname)

/-- The paths of a file store lead to records it has made; so it is wherever the bridge gets. -/
theorem filesWrite_image {s : IraOS.MockFileBridge.State} (hmade : s.Made) :
    Act.Image MockFileBridge.ofTyped (fun s => Except.map (MockFileBridge.answerOf s))
      (AndroidClass.filesWrite.capability.executeAction env arguments)
      (FilesWriteCapability.executeAction arguments) s :=
  report_image fun name hname => MockFileBridge.execute_image env arguments hmade name
    (List.mem_cons_of_mem _ (List.mem_cons_of_mem _ hname))

end IraOS.Direct
