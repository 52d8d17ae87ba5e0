import IraOS.Android.Records

/-!
# Taking back contacts, messages and notifications

The three stores put a record back under the id it has in it, so what they need is that every record
is under its own id (`Keyed`). That holds of the records they start with and is never lost, whatever
is executed and rolled back.

Each of the three follows the same plan: what a successful action does to the store (`Did`), that it
keeps `Keyed`, that its rollback leads back to the same records under the same ids whatever order
they are in (`Alike`), and that every history keeps `Keyed` (`keyed_of_reached`). The three
instances differ in what is undone by what: a creation by a removal, an update by writing the old
record over the new one, a deletion by writing it back, and clearing all notifications by writing
back a snapshot, one record after the other.

Creating a contact draws an id, and is undone only if the id was not in use. The ids are drawn at
random, so this is a condition on the run (`Fresh`), and the only one that this module has.
-/

set_option autoImplicit false

namespace IraOS

open Lib BaseAndroidCapability RecordingCapability

structure Keyed {ν : Type} (id : ν → String) (d : Dict String ν) : Prop where
  eq : ∀ {key v}, d.get? key = some v → id v = key

namespace Keyed

variable {ν : Type} {id : ν → String} {d : Dict String ν} {key : String} {v : ν}

theorem empty : Keyed id (Dict.empty : Dict String ν) where
  eq h := by cases h

theorem set (h : Keyed id d) (hv : id v = key) : Keyed id (d.set key v) where
  eq := by
    intro key' v' hget
    rw [Dict.get?_set] at hget
    split at hget
    · next hq =>
      cases hget
      rw [hq, hv]
    · exact h.eq hget

theorem erase (h : Keyed id d) : Keyed id (d.erase key) where
  eq := by
    intro key' v' hget
    rw [Dict.get?_erase] at hget
    split at hget
    · cases hget
    · exact h.eq hget

end Keyed

def Alike {ν : Type} (d d' : Dict String ν) : Prop := ∀ key, d'.get? key = d.get? key

namespace Alike

variable {ν : Type} {d d' : Dict String ν} {key : String} {v : ν}

theorem refl (d : Dict String ν) : Alike d d := fun _ => rfl

theorem erase_of_set (h : Alike (d.set key v) d') (hfree : d.get? key = none) :
    Alike d (d'.erase key) := by
  intro key'
  rw [Dict.get?_erase]
  split
  · next hq => rw [hq, hfree]
  · next hne => rw [h, Dict.get?_set_ne hne]

theorem set_of_set {w : ν} (h : Alike (d.set key w) d') (hfound : d.get? key = some v) :
    Alike d (d'.set key v) := by
  intro key'
  rw [Dict.get?_set]
  split
  · next hq => rw [hq, hfound]
  · next hne => rw [h, Dict.get?_set_ne hne]

theorem set_of_erase (h : Alike (d.erase key) d') (hfound : d.get? key = some v) :
    Alike d (d'.set key v) := by
  intro key'
  rw [Dict.get?_set]
  split
  · next hq => rw [hq, hfound]
  · next hne => rw [h, Dict.get?_erase_ne hne]

end Alike

theorem lookupId_ok {ν : Type} {d : Dict String ν} {id : PyValue} {required : String}
    {missing : Text} {key : String} {v : ν}
    (h : lookupId d id required missing = .ok (key, v)) :
    key.isEmpty = false ∧ d.get? key = some v := by
  unfold lookupId at h
  split at h
  · next htruthy =>
    cases id with
    | str key' =>
      cases hget : d.get? key' with
      | none => simp [strKey, hget, bind, Except.bind] at h
      | some v' =>
        simp [strKey, hget, bind, Except.bind] at h
        obtain ⟨rfl, rfl⟩ := h
        exact ⟨by simpa [PyValue.truthy] using htruthy, hget⟩
    | _ => simp [strKey, bind, Except.bind] at h
  · cases h

/-! ## Contacts -/

namespace MockContactsBridge

variable {s s' t : State} {args : PyDict} {data : Data} {uuid : Uuid}

/-- An action that succeeds, its answer and the contacts it leaves. -/
inductive Did (s : State) (uuid : Uuid) : String → Data → State → Prop where
  | create {contact} (id : contact.id = uuid.1) :
      Did s uuid "telephony.contacts.create" (.created contact uuid.1)
        ⟨s.contacts.set uuid.1 contact⟩
  | update {key existing contact} (found : s.contacts.get? key = some existing)
      (id : contact.id = existing.id) :
      Did s uuid "telephony.contacts.update" (.updated contact existing)
        ⟨s.contacts.set key contact⟩
  | delete {key existing} (found : s.contacts.get? key = some existing) :
      Did s uuid "telephony.contacts.delete" (.deleted key existing) ⟨s.contacts.erase key⟩

theorem find_ok {required key : String} {existing : Contact}
    (h : find args required s = ⟨.ok (key, existing), s', []⟩) :
    s.contacts.get? key = some existing ∧ s' = s := by
  unfold find at h
  rw [Act.bind_get, Act.run_ofExcept, Run.mk.injEq] at h
  exact ⟨(lookupId_ok h.1).2, h.2.1.symm⟩

theorem still_find (args : PyDict) (required : String) :
    (find args required).Moves (fun s s' => s' = s) :=
  .bind_still ⟨fun _ => rfl⟩ fun _ => ⟨fun _ => rfl⟩

theorem atomic_execute (uuid : Uuid) (action : PyValue) (args : PyDict) :
    (execute uuid action args).Atomic := by
  unfold execute
  split
  · exact .ite (.of_returns fun s => ⟨_, rfl⟩) (.of_still ⟨fun _ => rfl⟩)
  · exact .bind (still_find _ _) fun _ => .of_returns fun s => ⟨_, rfl⟩
  · exact .bind (still_find _ _) fun _ => .of_returns fun s => ⟨_, rfl⟩
  · exact .of_still ⟨fun _ => rfl⟩

theorem execute_did {action : PyValue} (h : execute uuid action args s = ⟨.ok data, s', []⟩) :
    ∃ a, action = .str a ∧ Did s uuid a data s' := by
  unfold execute at h
  split at h
  · refine ⟨_, rfl, ?_⟩
    unfold create at h
    dsimp only at h
    split at h
    · cases h
      exact .create rfl
    · cases h
  · refine ⟨_, rfl, ?_⟩
    obtain ⟨⟨key, existing⟩, s₁, hfind, h₁⟩ := Act.bind_ok_silent h
    obtain ⟨hfound, rfl⟩ := find_ok hfind
    cases h₁
    exact .update hfound rfl
  · refine ⟨_, rfl, ?_⟩
    obtain ⟨⟨key, existing⟩, s₁, hfind, h₁⟩ := Act.bind_ok_silent h
    obtain ⟨hfound, rfl⟩ := find_ok hfind
    cases h₁
    exact .delete hfound
  · cases h

def State.Keyed (s : State) : Prop := IraOS.Keyed Contact.id s.contacts

theorem Did.keeps {action : String} (h : Did s uuid action data s') (hs : s.Keyed) : s'.Keyed := by
  cases h with
  | create id => exact IraOS.Keyed.set hs id
  | update found id => exact IraOS.Keyed.set hs (id.trans (hs.eq found))
  | delete _ => exact IraOS.Keyed.erase hs

def SameContacts (s t : State) : Prop := Alike s.contacts t.contacts

theorem Did.takenBack {action : String} {arguments : PyDict} (h : Did s uuid action data s')
    (hs : s.Keyed) (ha : actionName arguments = some action)
    (hfresh : action = "telephony.contacts.create" → s.contacts.get? uuid.1 = none)
    (ht : SameContacts s' t) :
    ∃ t', ContactsWriteCapability.rollback arguments (.ok data) t = ⟨.ok (), t', []⟩ ∧
      SameContacts s t' := by
  unfold ContactsWriteCapability.rollback ContactsWriteCapability.rollbackData
  rw [ha]
  cases h with
  | create id =>
    -- the id was free before, so that it is gone again is all there is to restore
    refine ⟨⟨t.contacts.erase uuid.1⟩, ?_, Alike.erase_of_set ht (hfresh rfl)⟩
    have hthere : t.contacts.contains uuid.1 = true :=
      Dict.contains_iff.mpr ⟨_, (ht uuid.1).trans (Dict.get?_set_self ..)⟩
    change remove uuid.1 t = _
    rw [remove, Act.run_modify, uuid.2, hthere]
    rfl
  | update found id =>
    refine ⟨_, rfl, ?_⟩
    rw [SameContacts, hs.eq found]
    exact Alike.set_of_set ht found
  | delete found =>
    refine ⟨_, rfl, ?_⟩
    rw [SameContacts, hs.eq found]
    exact Alike.set_of_erase ht found

def contacts : Undoable State (Call Uuid) Data := undoable ContactsWriteCapability

/-- The id a creation draws is not in use. -/
def Fresh (s : State) (call : Call Uuid) : Prop :=
  actionName call.1 = some "telephony.contacts.create" → s.contacts.get? call.2.1 = none

theorem exec_contacts {call : Call Uuid} (h : contacts.exec s call = some (data, s')) :
    ∃ action, actionName call.1 = some action ∧ Did s call.2 action data s' := by
  obtain ⟨hsupports, hrun⟩ := exec_undoable h
  obtain ⟨action, _, ha⟩ := actionName_of_inFrozenset hsupports
  rw [actionOf_eq ha] at hrun
  obtain ⟨a, hq, hdid⟩ := execute_did hrun
  cases hq
  exact ⟨action, ha, hdid⟩

theorem contacts_reverses : contacts.Reverses Fresh State.Keyed SameContacts := by
  refine undoable_reverses (fun _ => Alike.refl _) ?_
  intro s s₁ call data hs hexec
  obtain ⟨action, ha, hdid⟩ := exec_contacts hexec
  refine ⟨hdid.keeps hs, fun hfresh s₂ hback => ?_⟩
  exact hdid.takenBack hs ha (fun hq => hfresh (hq ▸ ha)) hback

theorem keyed_rollback (hs : s.Keyed) (arguments : PyDict) (data : Data) :
    (ContactsWriteCapability.rollback arguments (.ok data) s).state.Keyed := by
  have hremove : ∀ contactId, (remove contactId s).state.Keyed := by
    intro contactId
    rw [remove, Act.run_modify]
    split
    · exact IraOS.Keyed.erase hs
    · exact hs
  have hrestore : (ContactsWriteCapability.restoreOf data s).state.Keyed := by
    unfold ContactsWriteCapability.restoreOf
    cases ContactsWriteCapability.preStateOf data with
    | none => exact hs
    | some preState => exact IraOS.Keyed.set hs rfl
  have hcases : ContactsWriteCapability.rollbackData arguments data = pure () ∨
      ContactsWriteCapability.rollbackData arguments data
        = ContactsWriteCapability.restoreOf data ∨
      ∃ contactId, ContactsWriteCapability.rollbackData arguments data = remove contactId := by
    unfold ContactsWriteCapability.rollbackData
    split
    · cases ContactsWriteCapability.contactIdOf data <;> simp
    · simp
    · simp
    · simp
  change (ContactsWriteCapability.rollbackData arguments data s).state.Keyed
  rcases hcases with hq | hq | ⟨contactId, hq⟩
  · rw [hq]
    exact hs
  · rwa [hq]
  · rw [hq]
    exact hremove contactId

theorem keyed_init : ({} : State).Keyed := by
  refine IraOS.Keyed.set (IraOS.Keyed.set IraOS.Keyed.empty ?_) ?_ <;> rfl

theorem keyed_of_reached {log : List (Call Uuid × Reported Data)}
    (h : Reached ContactsWriteCapability {} log s) : s.Keyed := by
  refine h.invariant atomic_execute keyed_init ?_ ?_ rfl
  · intro uuid action arguments s s' data hs hrun
    obtain ⟨a, _, hdid⟩ := execute_did hrun
    exact hdid.keeps hs
  · intro uuid arguments s data hs
    exact keyed_rollback hs arguments data

end MockContactsBridge

/-! ## Messages -/

namespace MockSMSBridge

variable {s s' t : State} {args : PyDict} {data : Data} {uuid : Uuid}

/-- An action that succeeds, its answer and the messages it leaves. -/
inductive Did (s : State) : String → Data → State → Prop where
  | send (message : Sent) :
      Did s "telephony.sms.send" (.sent message) { s with sent := s.sent ++ [message] }
  | delete {key msg} (given : key.isEmpty = false) (found : s.inbox.get? key = some msg) :
      Did s "telephony.sms.delete" (.deleted key msg)
        { s with inbox := s.inbox.erase key, deleted := s.deleted.set key msg }

theorem atomic_execute (uuid : Uuid) (action : PyValue) (args : PyDict) :
    (execute uuid action args).Atomic := by
  unfold execute
  split
  · exact .ite (.of_returns fun s => ⟨_, rfl⟩) (.of_still ⟨fun _ => rfl⟩)
  · exact .bind ⟨fun _ => rfl⟩ fun _ => .bind ⟨fun _ => rfl⟩ fun _ =>
      .of_returns fun s => ⟨_, rfl⟩
  · exact .of_still ⟨fun _ => rfl⟩

theorem execute_did {action : PyValue} (h : execute uuid action args s = ⟨.ok data, s', []⟩) :
    ∃ a, action = .str a ∧ Did s a data s' := by
  unfold execute at h
  split at h
  · refine ⟨_, rfl, ?_⟩
    unfold send at h
    dsimp only at h
    split at h
    · cases h
      exact .send _
    · cases h
  · refine ⟨_, rfl, ?_⟩
    unfold delete at h
    rw [Act.bind_get] at h
    obtain ⟨⟨key, msg⟩, hlookup, h₁⟩ := Act.bind_ofExcept_ok h
    cases h₁
    exact .delete (lookupId_ok hlookup).1 (lookupId_ok hlookup).2
  · cases h

def State.Keyed (s : State) : Prop := IraOS.Keyed Message.id s.inbox

theorem Did.keeps {action : String} (h : Did s action data s') (hs : s.Keyed) : s'.Keyed := by
  cases h with
  | send _ => exact hs
  | delete _ _ => exact IraOS.Keyed.erase hs

def SameInbox (s t : State) : Prop := Alike s.inbox t.inbox

/-- The message actions that can be rolled back, which are the deletions. -/
def sms : Undoable State (Call Uuid) Data := undoable SmsWriteCapability

theorem exec_sms {call : Call Uuid} (h : sms.exec s call = some (data, s')) :
    actionName call.1 = some "telephony.sms.delete" ∧
      ∃ a, a = "telephony.sms.delete" ∧ Did s a data s' := by
  obtain ⟨hsupports, hrun⟩ := exec_undoable h
  have ha : actionName call.1 = some "telephony.sms.delete" := by
    change Except.ok (decide _) = _ at hsupports
    simpa using hsupports
  obtain ⟨a, hq, hdid⟩ := execute_did hrun
  rw [actionOf_eq ha] at hq
  cases hq
  exact ⟨ha, _, rfl, hdid⟩

theorem Did.takenBack {action : String} {arguments : PyDict} (h : Did s action data s')
    (hdelete : action = "telephony.sms.delete") (hs : s.Keyed)
    (ha : actionName arguments = some "telephony.sms.delete") (ht : SameInbox s' t) :
    ∃ t', SmsWriteCapability.rollback arguments (.ok data) t = ⟨.ok (), t', []⟩ ∧
      SameInbox s t' := by
  cases h with
  | send message => simp at hdelete
  | @delete key msg given found =>
    have hroll : SmsWriteCapability.rollback arguments (.ok (.deleted key msg)) t
        = restore msg.id msg t := by
      unfold SmsWriteCapability.rollback SmsWriteCapability.rollbackData
      rw [ha]
      rfl
    rw [hroll, hs.eq found, restore, Act.run_modify, if_neg (by simp [given])]
    exact ⟨_, rfl, Alike.set_of_erase ht found⟩

theorem sms_reverses : sms.Reverses (fun _ _ => True) State.Keyed SameInbox := by
  refine undoable_reverses (fun _ => Alike.refl _) ?_
  intro s s₁ call data hs hexec
  obtain ⟨ha, a, hdelete, hdid⟩ := exec_sms hexec
  exact ⟨hdid.keeps hs, fun _ s₂ hback => hdid.takenBack hdelete hs ha hback⟩

theorem keyed_rollback (hs : s.Keyed) (arguments : PyDict) (data : Data) :
    (SmsWriteCapability.rollback arguments (.ok data) s).state.Keyed := by
  have hrestore : ∀ msg : Message, (restore msg.id msg s).state.Keyed := by
    intro msg
    rw [restore, Act.run_modify]
    split
    · exact hs
    · exact IraOS.Keyed.set hs rfl
  have hcases : SmsWriteCapability.rollbackData arguments data = pure () ∨
      ∃ msg : Message, SmsWriteCapability.rollbackData arguments data = restore msg.id msg := by
    unfold SmsWriteCapability.rollbackData
    split
    · cases data with
      | sent message => exact Or.inl rfl
      | deleted key msg => exact Or.inr ⟨msg, rfl⟩
    · exact Or.inl rfl
  change (SmsWriteCapability.rollbackData arguments data s).state.Keyed
  rcases hcases with hq | ⟨msg, hq⟩
  · rw [hq]
    exact hs
  · rw [hq]
    exact hrestore msg

theorem keyed_init : ({} : State).Keyed := by
  refine IraOS.Keyed.set (IraOS.Keyed.set IraOS.Keyed.empty ?_) ?_ <;> rfl

theorem keyed_of_reached {log : List (Call Uuid × Reported Data)}
    (h : Reached SmsWriteCapability {} log s) : s.Keyed := by
  refine h.invariant atomic_execute keyed_init ?_ ?_ rfl
  · intro uuid action arguments s s' data hs hrun
    obtain ⟨a, _, hdid⟩ := execute_did hrun
    exact hdid.keeps hs
  · intro uuid arguments s data hs
    exact keyed_rollback hs arguments data

end MockSMSBridge

/-! ## Notifications -/

namespace MockNotificationBridge

variable {s s' t : State} {args : PyDict} {data : Data}

/-- An action that succeeds, its answer and the notifications it leaves. -/
inductive Did (s : State) : String → Data → State → Prop where
  | dismiss {key n} (found : s.active.get? key = some n) :
      Did s "notification.dismiss" (.dismissed key n)
        { s with active := s.active.erase key, dismissed := s.dismissed.set key n }
  | clear :
      Did s "notification.clear" (.cleared s.active.size s.active)
        { s with active := Dict.empty, preClearSnapshot := some s.active }
  | reply (notificationId text : PyValue) :
      Did s "notification.reply" (.replied notificationId text) s

theorem atomic_execute (action : PyValue) (args : PyDict) : (execute action args).Atomic := by
  unfold execute
  split
  · exact .bind ⟨fun _ => rfl⟩ fun _ => .bind ⟨fun _ => rfl⟩ fun _ =>
      .of_returns fun s => ⟨_, rfl⟩
  · exact .of_returns fun s => ⟨_, rfl⟩
  · exact .ite (.of_returns fun s => ⟨_, rfl⟩) (.of_still ⟨fun _ => rfl⟩)
  · exact .of_still ⟨fun _ => rfl⟩

theorem execute_did {action : PyValue} (h : execute action args s = ⟨.ok data, s', []⟩) :
    ∃ a, action = .str a ∧ Did s a data s' := by
  unfold execute at h
  split at h
  · refine ⟨_, rfl, ?_⟩
    unfold dismiss at h
    rw [Act.bind_get] at h
    obtain ⟨⟨key, n⟩, hlookup, h₁⟩ := Act.bind_ofExcept_ok h
    cases h₁
    exact .dismiss (lookupId_ok hlookup).2
  · refine ⟨_, rfl, ?_⟩
    cases h
    exact .clear
  · refine ⟨_, rfl, ?_⟩
    unfold reply at h
    split at h
    · cases h
      exact .reply _ _
    · cases h
  · cases h

def State.Keyed (s : State) : Prop := IraOS.Keyed Notification.id s.active

def KeyedData : Data → Prop
  | .cleared _ snapshot => IraOS.Keyed Notification.id snapshot
  | _ => True

theorem Did.keeps {action : String} (h : Did s action data s') (hs : s.Keyed) :
    s'.Keyed ∧ KeyedData data := by
  cases h with
  | dismiss _ => exact ⟨IraOS.Keyed.erase hs, trivial⟩
  | clear => exact ⟨IraOS.Keyed.empty, hs⟩
  | reply _ _ => exact ⟨hs, trivial⟩

def SameActive (s t : State) : Prop := Alike s.active t.active

/-- A snapshot goes back whole; an empty one leaves what there is, which is nothing too. -/
theorem sameActive_restoreAll (ht : Alike Dict.empty t.active) :
    ∃ t', restoreAll s.active t = ⟨.ok (), t', []⟩ ∧ SameActive s t' := by
  rw [restoreAll, Act.run_modify]
  refine ⟨_, rfl, ?_⟩
  split
  -- nothing was cleared, so nothing is put back
  · next hsize =>
    intro key
    obtain ⟨⟨entries, nodup⟩, dismissed, snapshot⟩ := s
    obtain rfl : entries = [] := List.length_eq_zero_iff.mp hsize
    exact ht key
  · exact Alike.refl _

theorem Did.takenBack {action : String} {arguments : PyDict} (h : Did s action data s')
    (hs : s.Keyed) (hmem : action ∈ NotificationWriteCapability.reversibleActions)
    (ha : actionName arguments = some action) (ht : SameActive s' t) :
    ∃ t', NotificationWriteCapability.rollback arguments (.ok data) t = ⟨.ok (), t', []⟩ ∧
      SameActive s t' := by
  unfold NotificationWriteCapability.rollback NotificationWriteCapability.rollbackData
  rw [ha]
  cases h with
  | dismiss found =>
    refine ⟨_, rfl, ?_⟩
    rw [SameActive, hs.eq found]
    exact Alike.set_of_erase ht found
  | clear => exact sameActive_restoreAll ht
  | reply _ _ => simp [NotificationWriteCapability.reversibleActions] at hmem

def notifications : Undoable State (Call Unit) Data :=
  undoable fun _ => NotificationWriteCapability

theorem exec_notifications {call : Call Unit}
    (h : notifications.exec s call = some (data, s')) :
    ∃ action ∈ NotificationWriteCapability.reversibleActions,
      actionName call.1 = some action ∧ Did s action data s' := by
  obtain ⟨hsupports, hrun⟩ := exec_undoable h
  obtain ⟨action, hmem, ha⟩ := actionName_of_inFrozenset hsupports
  rw [actionOf_eq ha] at hrun
  obtain ⟨a, hq, hdid⟩ := execute_did hrun
  cases hq
  exact ⟨action, hmem, ha, hdid⟩

theorem notifications_reverses :
    notifications.Reverses (fun _ _ => True) State.Keyed SameActive := by
  refine undoable_reverses (fun _ => Alike.refl _) ?_
  intro s s₁ call data hs hexec
  obtain ⟨action, hmem, ha, hdid⟩ := exec_notifications hexec
  exact ⟨(hdid.keeps hs).1, fun _ s₂ hback => hdid.takenBack hs hmem ha hback⟩

theorem keyed_rollback (hs : s.Keyed) (arguments : PyDict) (hdata : KeyedData data) :
    (NotificationWriteCapability.rollback arguments (.ok data) s).state.Keyed := by
  have hdismissed : (NotificationWriteCapability.restoreDismissedOf data s).state.Keyed := by
    cases data with
    | dismissed key n => exact IraOS.Keyed.set hs rfl
    | cleared count snapshot =>
      have hstill : (NotificationWriteCapability.restoreDismissedOf (.cleared count snapshot)).Moves
          (fun s s' => s' = s) := by
        unfold NotificationWriteCapability.restoreDismissedOf
        refine .ite ⟨fun _ => rfl⟩ ?_
        cases snapshot.get? "id" <;> exact ⟨fun _ => rfl⟩
      rwa [hstill.state s]
    | replied _ _ => exact hs
  have hall : (NotificationWriteCapability.restoreAllOf data s).state.Keyed := by
    cases data with
    | dismissed key n => exact hs
    | cleared count snapshot =>
      change (restoreAll snapshot s).state.Keyed
      rw [restoreAll, Act.run_modify]
      split
      · exact hs
      · exact hdata
    | replied _ _ => exact hs
  have hcases : NotificationWriteCapability.rollbackData arguments data = pure () ∨
      NotificationWriteCapability.rollbackData arguments data
        = NotificationWriteCapability.restoreDismissedOf data ∨
      NotificationWriteCapability.rollbackData arguments data
        = NotificationWriteCapability.restoreAllOf data := by
    unfold NotificationWriteCapability.rollbackData
    split <;> simp
  change (NotificationWriteCapability.rollbackData arguments data s).state.Keyed
  rcases hcases with hq | hq | hq
  · rw [hq]
    exact hs
  · rwa [hq]
  · rwa [hq]

theorem keyed_init : ({} : State).Keyed := by
  refine IraOS.Keyed.set (IraOS.Keyed.set (IraOS.Keyed.set IraOS.Keyed.empty ?_) ?_) ?_ <;> rfl

theorem keyed_of_reached {log : List (Call Unit × Reported Data)}
    (h : Reached (fun _ => NotificationWriteCapability) {} log s) : s.Keyed := by
  refine (h.induct (I := State.Keyed) (J := fun _ => KeyedData) (fun _ => atomic_execute)
    keyed_init ?_ ?_ rfl).1
  · intro _ action arguments s s' data hs hrun
    obtain ⟨a, _, hdid⟩ := execute_did hrun
    obtain ⟨hs', hdata⟩ := hdid.keeps hs
    exact ⟨hs', hdata, fun _ h => h⟩
  · intro _ arguments s data hs hdata
    exact ⟨keyed_rollback hs arguments hdata, fun _ h => h⟩

end MockNotificationBridge

end IraOS
