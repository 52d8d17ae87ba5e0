import IraOS.Android.FileUndo
import IraOS.Android.RecordUndo

/-!
# Undoing data operations, last in first out

The file store, the contact book, the inbox and the active notifications side by side, and what
their capabilities do to them, in any order and number. From a state that any history of actions and
rollbacks leads to, everything is undone, **exactly where no two paths of the file store hold one
record object**. Two do once the same deletion, or the same write, was rolled back twice: the object
it recorded is put under its path each time, and the file it was put into the first time may have
another name by then.

The four stores have nothing to do with each other, so the product of their laws is the law of all
four (`Reverses.prod`), and actions of one store between those of another make no difference.

That the condition is needed is shown from any state in which it fails, and not from an example
alone: where two paths hold one record, writing to one of them changes what is under the other, and
its rollback does not change that back (`not_takenBack_of_shared`). One action is enough.

Two things are not asked for. The order of a dictionary may differ afterwards, as a record that was
deleted and put back is last. And an id that is drawn may be any that is not in use.
-/

set_option autoImplicit false

namespace IraOS

open Lib BaseAndroidCapability

namespace DataStores

open MockFileBridge (files TakenBack)
open MockContactsBridge (contacts SameContacts)
open MockSMSBridge (sms SameInbox)
open MockNotificationBridge (notifications SameActive)

abbrev State :=
  (MockFileBridge.State × MockContactsBridge.State) ×
    (MockSMSBridge.State × MockNotificationBridge.State)

abbrev Call :=
  (RecordingCapability.Call Unit ⊕ RecordingCapability.Call Uuid) ⊕
    (RecordingCapability.Call Uuid ⊕ RecordingCapability.Call Unit)

abbrev Data :=
  (MockFileBridge.Data ⊕ MockContactsBridge.Data) ⊕
    (MockSMSBridge.Data ⊕ MockNotificationBridge.Data)

/-- The reversible actions of the four stores. -/
def stores : Undoable State Call Data := (files.prod contacts).prod (sms.prod notifications)

def Fresh : State → Call → Prop :=
  Undoable.Either (Undoable.Either (fun _ _ => True) MockContactsBridge.Fresh)
    (Undoable.Either (fun _ _ => True) fun _ _ => True)

/-- Each store is one that some history of actions and rollbacks leads to. A history may roll back
what was rolled back before; that is how two paths come to share a record. -/
structure Reached (s : State) : Prop where
  files : ∃ log, RecordingCapability.Reached (fun _ : Unit => FilesWriteCapability) {} log s.1.1
  contacts : ∃ log, RecordingCapability.Reached ContactsWriteCapability {} log s.1.2
  sms : ∃ log, RecordingCapability.Reached SmsWriteCapability {} log s.2.1
  notifications : ∃ log,
    RecordingCapability.Reached (fun _ : Unit => NotificationWriteCapability) {} log s.2.2

/-- The same contents under the same ids, in each of the four. -/
structure SameContents (s t : State) : Prop where
  files : ∀ path, t.1.1.contentAt path = s.1.1.contentAt path
  contacts : ∀ id, t.1.2.contacts.get? id = s.1.2.contacts.get? id
  inbox : ∀ id, t.2.1.inbox.get? id = s.2.1.inbox.get? id
  active : ∀ id, t.2.2.active.get? id = s.2.2.active.get? id

/-- Whatever succeeds from `s` on is undone in reverse order, and the contents are those of `s`. -/
def Undone (s : State) : Prop :=
  ∀ calls log s₁, stores.system.Meets Fresh s calls → stores.run s calls = some (log, s₁) →
    ∃ s₂, stores.unwind s₁ log = some s₂ ∧ SameContents s s₂

theorem stores_reverses : stores.Reverses Fresh
    (fun s => (s.1.1.Sound ∧ s.1.2.Keyed) ∧ s.2.1.Keyed ∧ s.2.2.Keyed)
    (fun s t => (TakenBack s.1.1 t.1.1 ∧ SameContacts s.1.2 t.1.2) ∧
      SameInbox s.2.1 t.2.1 ∧ SameActive s.2.2 t.2.2) :=
  (MockFileBridge.files_reverses.prod MockContactsBridge.contacts_reverses).prod
    (MockSMSBridge.sms_reverses.prod MockNotificationBridge.notifications_reverses)

variable {s : State}

theorem not_undone_of_file {call : RecordingCapability.Call Unit} {data : MockFileBridge.Data}
    {f₁ f₂ : MockFileBridge.State} {path : Key} (hexec : files.exec s.1.1 call = some (data, f₁))
    (hundo : files.undo f₁ call data = some f₂) (hne : f₂.contentAt path ≠ s.1.1.contentAt path) :
    ¬ Undone s := by
  intro h
  have hrun : stores.run s [.inl (.inl call)]
      = some ([(.inl (.inl call), .inl (.inl data))], ((f₁, s.1.2), s.2)) := by
    simp [Undoable.run, stores, Undoable.prod, hexec]
  have hback : stores.unwind ((f₁, s.1.2), s.2) [(.inl (.inl call), .inl (.inl data))]
      = some ((f₂, s.1.2), s.2) := by
    simp [Undoable.unwind, stores, Undoable.prod, hundo]
  have hfresh : stores.system.Meets Fresh s [.inl (.inl call)] := by
    simp [System.Meets, Fresh, Undoable.Either]
  obtain ⟨s₂, hs₂, hsame⟩ := h _ _ _ hfresh hrun
  rw [hback, Option.some.injEq] at hs₂
  subst hs₂
  exact hne (hsame.files path)

/-- **What is undone.** From every state that can be reached, every sequence of successful actions
is undone by the matching rollbacks in reverse order, exactly where no two paths of the file store
hold one record object. Two paths come to hold one where a rollback that puts an object back is made
twice; a write through the one is then a write through the other. -/
theorem undone_iff_unshared (h : Reached s) : Undone s ↔ s.1.1.Unshared := by
  obtain ⟨_, hfiles⟩ := h.files
  obtain ⟨_, hcontacts⟩ := h.contacts
  obtain ⟨_, hsms⟩ := h.sms
  obtain ⟨_, hnotifications⟩ := h.notifications
  have hwell := MockFileBridge.wellFormed_of_reached hfiles
  constructor
  · intro hundone key key' ref hget hget'
    by_contra hne
    obtain ⟨call, data, f₁, f₂, hexec, hundo, hcontent⟩ :=
      MockFileBridge.not_takenBack_of_shared hwell.named hget hget' hne
    exact not_undone_of_file hexec hundo hcontent hundone
  · intro hunshared calls log s₁ hfresh hrun
    have hsound : (s.1.1.Sound ∧ s.1.2.Keyed) ∧ s.2.1.Keyed ∧ s.2.2.Keyed :=
      ⟨⟨⟨hwell.made, hunshared⟩, MockContactsBridge.keyed_of_reached hcontacts⟩,
        MockSMSBridge.keyed_of_reached hsms,
        MockNotificationBridge.keyed_of_reached hnotifications⟩
    obtain ⟨s₂, hback, ⟨hf, hc⟩, hm, hn⟩ := stores_reverses.unwind hsound hfresh hrun
    exact ⟨s₂, hback, hf.contents, hc, hm, hn⟩

def initial : State := (({}, {}), ({}, {}))

theorem reached_initial : Reached initial :=
  ⟨⟨_, .start⟩, ⟨_, .start⟩, ⟨_, .start⟩, ⟨_, .start⟩⟩

theorem undone_initial : (Undone initial ↔ initial.1.1.Unshared) ∧ Undone initial := by
  have h := undone_iff_unshared reached_initial
  refine ⟨h, h.mpr ?_⟩
  intro key key' ref hget
  cases hget

/-! ## A deletion rolled back twice -/

def fileArgs (action : String) (entries : List (String × String)) : PyDict :=
  entries.foldl (fun d e => d.set e.1 (.str e.2)) (Dict.empty.set "action" (.str action))

def createOne : RecordingCapability.Call Unit :=
  (fileArgs "files.create" [("path", "a"), ("content", "one")], ())

def deleteOne : RecordingCapability.Call Unit := (fileArgs "files.delete" [("path", "a")], ())

def renameOne : RecordingCapability.Call Unit :=
  (fileArgs "files.rename" [("source", "a"), ("destination", "b")], ())

def writeTwo : RecordingCapability.Call Unit :=
  (fileArgs "files.write" [("path", "a"), ("content", "two")], ())

def oneFile (paths : List String) : MockFileBridge.State where
  fs := paths.foldl (fun d path => d.set (.str path) 0) Dict.empty
  records := Function.update (fun _ => .none) 0 (.str "one")
  next := 1

/-- "a" is created and deleted, the deletion rolled back, "a" renamed to "b", and the deletion
rolled back once more: the one file is "b" and "a". -/
theorem reached_twoNames : ∃ log,
    RecordingCapability.Reached (fun _ : Unit => FilesWriteCapability) {} log
      (oneFile ["b", "a"]) := by
  have hcreate : RecordingCapability.Reached (fun _ : Unit => FilesWriteCapability) {} _
      (oneFile ["a"]) := .act createOne .start rfl
  have hdelete : RecordingCapability.Reached (fun _ : Unit => FilesWriteCapability) {} _
      (oneFile []) := .act deleteOne hcreate rfl
  have hback : RecordingCapability.Reached (fun _ : Unit => FilesWriteCapability) {} _
      (oneFile ["a"]) := .rollback hdelete List.mem_cons_self
  have hrename : RecordingCapability.Reached (fun _ : Unit => FilesWriteCapability) {} _
      (oneFile ["b"]) := .act renameOne hback rfl
  exact ⟨_, .rollback hrename (List.mem_cons_of_mem _ List.mem_cons_self)⟩

def written : MockFileBridge.State := ((oneFile ["b", "a"]).alloc (.str "one")).fill 0 (.str "two")

theorem exec_writeTwo :
    files.exec (oneFile ["b", "a"]) writeTwo = some (.recorded (.str "a") 1, written) := rfl

theorem undo_writeTwo : files.undo written writeTwo (.recorded (.str "a") 1)
    = some (written.put (.str "a") 1) := rfl

theorem twoNames_not_undone :
    ∃ s, Reached s ∧ s.1.1.contentAt (.str "b") = some (.str "one") ∧ ¬ Undone s := by
  refine ⟨((oneFile ["b", "a"], {}), ({}, {})), ?_, rfl, ?_⟩
  · exact ⟨reached_twoNames, ⟨_, .start⟩, ⟨_, .start⟩, ⟨_, .start⟩⟩
  · have hone : (oneFile ["b", "a"]).contentAt (.str "b") = some (.str "one") := rfl
    have htwo : (written.put (.str "a") 1).contentAt (.str "b") = some (.str "two") := rfl
    have hne : (written.put (.str "a") 1).contentAt (.str "b")
        ≠ (oneFile ["b", "a"]).contentAt (.str "b") := by
      simp [hone, htwo]
    exact not_undone_of_file exec_writeTwo undo_writeTwo hne

end DataStores

end IraOS
