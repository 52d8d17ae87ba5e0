import IraOS.Android.Files

/-!
# Taking back file actions

What a mutating action of the file store does is `Did`, and everything else goes from there. An
action is taken back, in any state that holds what the state it left holds, as long as **no two
paths hold one record object**: then a record that was handed out is out of the store, nothing that
happens later reaches it, and it comes back as it was. Where two paths do hold one record, a single
write of the one is not taken back for the other.

## Contents instead of objects

What a caller sees of the store is what is under each path (`State.contentAt`). Undoing a deletion
puts the very object back, undoing a write puts a copy in its place, and undoing a creation leaves
an object behind that is under no path. So undone states are compared by contents, and by the
objects that were handed out: those have to be out of the store and unchanged, since a rollback that
is still to come may put one of them back (`TakenBack`).

## What any history leads to

Rolling back the same result twice, or in the wrong order, is nowhere forbidden, and may put one
object under two paths. Such states are well formed all the same (`State.WellFormed`: the records
exist, the paths can be asked for), and that is all that holds of every state that can be reached.
Whether a state is `Unshared` is a property of its own, and it decides what can be taken back.

Every action checks what it has to check before its first change (`atomic_execute`), so a failed one
leaves nothing to be undone.
-/

set_option autoImplicit false

namespace IraOS

open Lib BaseAndroidCapability

namespace MockFileBridge

def State.contentAt (s : State) (key : Key) : Option PyValue := (s.fs.get? key).map s.records

/-- The records in the store have been made. -/
def State.Made (s : State) : Prop := ∀ {key ref}, s.fs.get? key = some ref → ref < s.next

def State.Unshared (s : State) : Prop :=
  ∀ {key key' ref}, s.fs.get? key = some ref → s.fs.get? key' = some ref → key = key'

structure State.Sound (s : State) : Prop where
  made : s.Made
  unshared : s.Unshared

def State.Out (s : State) (ref : RecordRef) : Prop := ∀ key, s.fs.get? key ≠ some ref

/-! ## What an action does -/

/-- A mutating action that succeeds, its answer and the state it leaves. Each case has as hypotheses
what the action has to find in the store; the actions that only read are none of these. -/
inductive Did (s : State) : String → Data → State → Prop where
  | create {path key content} (truthy : path.truthy = true) (hash : path.key = .ok key)
      (free : s.fs.get? key = none) :
      Did s "files.create" (.path path) ((s.alloc content).put key s.next)
  | write {path key ref content} (truthy : path.truthy = true) (hash : path.key = .ok key)
      (found : s.fs.get? key = some ref) :
      Did s "files.write" (.recorded path s.next) ((s.alloc (s.records ref)).fill ref content)
  | rename {action src dest srcKey destKey ref}
      (either : action = "files.rename" ∨ action = "files.move")
      (srcTruthy : src.truthy = true) (destTruthy : dest.truthy = true)
      (srcHash : src.key = .ok srcKey) (found : s.fs.get? srcKey = some ref)
      (destHash : dest.key = .ok destKey) (free : s.fs.get? destKey = none) :
      Did s action (.renamed src dest) ((s.take srcKey).put destKey ref)
  | delete {path key ref} (truthy : path.truthy = true) (hash : path.key = .ok key)
      (found : s.fs.get? key = some ref) :
      Did s "files.delete" (.recorded path ref) (s.take key)

section Runs

variable {s s' : State} {args : PyDict} {path : PyValue} {key : Key} {ref : RecordRef} {data : Data}

theorem requirePath_ok (h : requirePath args s = ⟨.ok path, s', []⟩) :
    path.truthy = true ∧ s' = s := by
  unfold requirePath at h
  split at h
  · next ht =>
    cases h
    exact ⟨ht, rfl⟩
  · cases h

theorem find_ok (h : find path s = ⟨.ok (key, ref), s', []⟩) :
    path.key = .ok key ∧ s.fs.get? key = some ref ∧ s' = s := by
  unfold find at h
  rw [Act.bind_get] at h
  obtain ⟨key', hkey, h⟩ := Act.bind_ofExcept_ok h
  cases hget : s.fs.get? key' with
  | none =>
    rw [hget] at h
    cases h
  | some ref' =>
    rw [hget] at h
    cases h
    exact ⟨hkey, hget, rfl⟩

theorem free_ok {message : String} (h : free path message s = ⟨.ok key, s', []⟩) :
    path.key = .ok key ∧ s.fs.get? key = none ∧ s' = s := by
  unfold free at h
  rw [Act.bind_get] at h
  obtain ⟨key', hkey, h⟩ := Act.bind_ofExcept_ok h
  cases hget : s.fs.get? key' with
  | none =>
    rw [hget] at h
    cases h
    exact ⟨hkey, hget, rfl⟩
  | some ref' =>
    rw [hget] at h
    cases h

theorem create_ok (h : create args s = ⟨.ok data, s', []⟩) : Did s "files.create" data s' := by
  obtain ⟨path, s₁, hpath, h₁⟩ := Act.bind_ok_silent h
  obtain ⟨htruthy, rfl⟩ := requirePath_ok hpath
  obtain ⟨key, s₂, hfree, h₂⟩ := Act.bind_ok_silent h₁
  obtain ⟨hkey, hnone, rfl⟩ := free_ok hfree
  cases h₂
  exact .create htruthy hkey hnone

theorem write_ok (h : write args s = ⟨.ok data, s', []⟩) : Did s "files.write" data s' := by
  obtain ⟨path, s₁, hpath, h₁⟩ := Act.bind_ok_silent h
  obtain ⟨htruthy, rfl⟩ := requirePath_ok hpath
  obtain ⟨⟨key, ref⟩, s₂, hfind, h₂⟩ := Act.bind_ok_silent h₁
  obtain ⟨hkey, hget, rfl⟩ := find_ok hfind
  cases h₂
  exact .write htruthy hkey hget

theorem rename_ok {action : String} (either : action = "files.rename" ∨ action = "files.move")
    (h : rename args s = ⟨.ok data, s', []⟩) : Did s action data s' := by
  unfold rename at h
  split at h
  · next htruthy =>
    obtain ⟨hsrcTruthy, hdestTruthy⟩ := (Bool.and_eq_true ..).mp htruthy
    obtain ⟨⟨srcKey, ref⟩, s₁, hfind, h₁⟩ := Act.bind_ok_silent h
    obtain ⟨hsrc, hget, rfl⟩ := find_ok hfind
    obtain ⟨destKey, s₂, hfree, h₂⟩ := Act.bind_ok_silent h₁
    obtain ⟨hdest, hnone, rfl⟩ := free_ok hfree
    cases h₂
    exact .rename either hsrcTruthy hdestTruthy hsrc hget hdest hnone
  · cases h

theorem delete_ok (h : delete args s = ⟨.ok data, s', []⟩) : Did s "files.delete" data s' := by
  obtain ⟨path, s₁, hpath, h₁⟩ := Act.bind_ok_silent h
  obtain ⟨htruthy, rfl⟩ := requirePath_ok hpath
  obtain ⟨⟨key, ref⟩, s₂, hfind, h₂⟩ := Act.bind_ok_silent h₁
  obtain ⟨hkey, hget, rfl⟩ := find_ok hfind
  cases h₂
  exact .delete htruthy hkey hget

theorem execute_did {action : String} (hmem : action ∈ FilesWriteCapability.reversibleActions)
    (h : execute (.str action) args s = ⟨.ok data, s', []⟩) : Did s action data s' := by
  simp only [FilesWriteCapability.reversibleActions, List.mem_cons, List.not_mem_nil, or_false]
    at hmem
  rcases hmem with rfl | rfl | rfl | rfl | rfl
  · exact create_ok h
  · exact write_ok h
  · exact rename_ok (Or.inl rfl) h
  · exact rename_ok (Or.inr rfl) h
  · exact delete_ok h

theorem run_find (hkey : path.key = .ok key) (hget : s.fs.get? key = some ref) :
    find path s = ⟨.ok (key, ref), s, []⟩ := by
  unfold find
  rw [Act.bind_get, hkey, Act.bind_ofExcept, hget]
  rfl

/-- The rollback of a creation finds the file and takes it out. -/
theorem run_delete (htruthy : path.truthy = true) (hkey : path.key = .ok key)
    (hget : s.fs.get? key = some ref) :
    execute (.str "files.delete") (Dict.empty.set "path" path) s
      = ⟨.ok (.recorded path ref), s.take key, []⟩ := by
  change delete (Dict.empty.set "path" path) s = _
  have hpath : requirePath (Dict.empty.set "path" path) s = ⟨.ok path, s, []⟩ := by
    have harg : argument (Dict.empty.set "path" path) "path" = path := by simp [argument]
    unfold requirePath
    rw [harg, if_pos htruthy]
    rfl
  unfold delete
  rw [Act.run_bind_of_ok hpath, Act.run_bind_of_ok (run_find hkey hget)]
  rfl

theorem run_restoreRecord (hkey : path.key = .ok key) (preState : RecordRef) :
    restoreRecord path preState s = ⟨.ok (), s.put key preState, []⟩ := by
  unfold restoreRecord
  rw [hkey, Act.bind_ofExcept]
  rfl

theorem run_restoreName {src dest : PyValue} {srcKey destKey : Key} (hsrc : src.key = .ok srcKey)
    (hdest : dest.key = .ok destKey) (hget : s.fs.get? destKey = some ref) :
    restoreName src dest s = ⟨.ok (), (s.take destKey).put srcKey ref, []⟩ := by
  unfold restoreName
  rw [hdest, Act.bind_ofExcept, Act.bind_get, hget]
  dsimp only
  rw [Act.bind_modify, hsrc, Act.bind_ofExcept]
  rfl

end Runs

/-! ## Soundness -/

section Soundness

variable {s : State} {key key' : Key} {ref ref' : RecordRef} {content : PyValue}

theorem get?_put : (s.put key ref).fs.get? key' = if key' = key then some ref else s.fs.get? key' :=
  Dict.get?_set ..

theorem get?_take : (s.take key).fs.get? key' = if key' = key then none else s.fs.get? key' :=
  Dict.get?_erase ..

theorem found_put (h : (s.put key ref).fs.get? key' = some ref') :
    key' = key ∧ ref' = ref ∨ key' ≠ key ∧ s.fs.get? key' = some ref' := by
  rw [get?_put] at h
  split at h
  · next hq => exact Or.inl ⟨hq, (Option.some.inj h).symm⟩
  · next hne => exact Or.inr ⟨hne, h⟩

theorem found_take (h : (s.take key).fs.get? key' = some ref') :
    key' ≠ key ∧ s.fs.get? key' = some ref' := by
  rw [get?_take] at h
  split at h
  · cases h
  · next hne => exact ⟨hne, h⟩

namespace State.Sound

theorem alloc (h : s.Sound) : (s.alloc content).Sound :=
  ⟨fun hget => Nat.lt_succ_of_lt (h.made hget), h.unshared⟩

theorem fill (h : s.Sound) : (s.fill ref content).Sound := ⟨h.made, h.unshared⟩

theorem take (h : s.Sound) : (s.take key).Sound :=
  ⟨fun hget => h.made (found_take hget).2,
    fun hget hget' => h.unshared (found_take hget).2 (found_take hget').2⟩

theorem put (h : s.Sound) (hmade : ref < s.next) (hout : s.Out ref) : (s.put key ref).Sound := by
  refine ⟨?_, ?_⟩
  · intro k r hget
    rcases found_put hget with ⟨rfl, rfl⟩ | ⟨_, hget⟩
    · exact hmade
    · exact h.made hget
  · intro k k' r hget hget'
    rcases found_put hget with ⟨hk, rfl⟩ | ⟨_, hold⟩
    · rcases found_put hget' with ⟨hk', _⟩ | ⟨_, hold'⟩
      · rw [hk, hk']
      · exact absurd hold' (hout k')
    · rcases found_put hget' with ⟨_, rfl⟩ | ⟨_, hold'⟩
      · exact absurd hold (hout k)
      · exact h.unshared hold hold'

theorem out_take (h : s.Sound) (hget : s.fs.get? key = some ref) : (s.take key).Out ref := by
  intro key' hget'
  obtain ⟨hne, hget'⟩ := found_take hget'
  exact hne (h.unshared hget' hget)

theorem out_next (h : s.Sound) : s.Out s.next :=
  fun _ hget => Nat.lt_irrefl _ (h.made hget)

end State.Sound

theorem out_take_of_out (h : s.Out ref) : (s.take key).Out ref :=
  fun _ hget => h _ (found_take hget).2

theorem out_put_of_out (h : s.Out ref) (hne : ref ≠ ref') : (s.put key ref').Out ref := by
  intro key' hget
  rcases found_put hget with ⟨_, hq⟩ | ⟨_, hget⟩
  · exact hne hq
  · exact h key' hget

theorem Did.keeps {s s' : State} {action : String} {data : Data} (h : Did s action data s')
    (hs : s.Sound) : s'.Sound := by
  cases h with
  | create _ _ _ => exact hs.alloc.put (Nat.lt_succ_self _) hs.out_next
  | write _ _ _ => exact hs.alloc.fill
  | rename _ _ _ _ found _ _ => exact hs.take.put (hs.made found) (hs.out_take found)
  | delete _ _ _ => exact hs.take

/-! ## What is under a path -/

theorem contentAt_put : (s.put key ref).contentAt key'
    = if key' = key then some (s.records ref) else s.contentAt key' := by
  unfold State.contentAt
  rw [get?_put]
  split <;> rfl

theorem contentAt_take : (s.take key).contentAt key'
    = if key' = key then none else s.contentAt key' := by
  unfold State.contentAt
  rw [get?_take]
  split <;> rfl

theorem contentAt_fill (hne : s.fs.get? key' ≠ some ref) :
    (s.fill ref content).contentAt key' = s.contentAt key' := by
  unfold State.contentAt
  change (s.fs.get? key').map _ = _
  cases hget : s.fs.get? key' with
  | none => rfl
  | some r =>
    have hr : r ≠ ref := by
      rintro rfl
      exact hne hget
    exact congrArg some (Function.update_of_ne hr ..)

theorem contentAt_alloc (h : s.Sound) :
    (s.alloc content).contentAt key' = s.contentAt key' :=
  contentAt_fill (h.out_next key')

theorem contentAt_of_get? (hget : s.fs.get? key = some ref) :
    s.contentAt key = some (s.records ref) := by
  rw [State.contentAt, hget, Option.map_some]

theorem contentAt_eq_none (hget : s.fs.get? key = none) : s.contentAt key = none := by
  rw [State.contentAt, hget, Option.map_none]

theorem found_of_contentAt {value : PyValue} (h : s.contentAt key = some value) :
    ∃ ref, s.fs.get? key = some ref ∧ s.records ref = value :=
  Option.map_eq_some_iff.mp h

end Soundness

/-! ## Taking back -/

/-- `t` holds what `s` holds, under the same paths, and what `s` had handed out is out of it and as
it was. -/
structure TakenBack (s t : State) : Prop where
  contents : ∀ key, t.contentAt key = s.contentAt key
  sound : t.Sound
  later : s.next ≤ t.next
  apart : ∀ {ref}, ref < s.next → s.Out ref → t.records ref = s.records ref ∧ t.Out ref

namespace TakenBack

variable {s t : State} {path : PyValue} {key : Key} {ref : RecordRef} {content : PyValue}

theorem refl (h : s.Sound) : TakenBack s s :=
  ⟨fun _ => rfl, h, Nat.le_refl _, fun _ hout => ⟨rfl, hout⟩⟩

theorem create (hs : s.Sound) (free : s.fs.get? key = none)
    (h : TakenBack ((s.alloc content).put key s.next) t) :
    (∃ ref, t.fs.get? key = some ref) ∧ TakenBack s (t.take key) := by
  refine ⟨?_, ?_, h.sound.take, Nat.le_of_succ_le h.later, ?_⟩
  · have hthere := h.contents key
    rw [contentAt_put, if_pos rfl] at hthere
    obtain ⟨ref, hget, _⟩ := found_of_contentAt hthere
    exact ⟨ref, hget⟩
  · intro key'
    rw [contentAt_take]
    split
    · next hq => rw [hq, contentAt_eq_none free]
    · next hne => rw [h.contents, contentAt_put, if_neg hne, contentAt_alloc hs]
  · intro ref hmade hout
    have hne := Nat.ne_of_lt hmade
    obtain ⟨hrecord, hout'⟩ := h.apart (Nat.lt_succ_of_lt hmade) (out_put_of_out hout hne)
    refine ⟨?_, out_take_of_out hout'⟩
    exact hrecord.trans (Function.update_of_ne hne ..)

theorem write (hs : s.Sound) (found : s.fs.get? key = some ref)
    (h : TakenBack ((s.alloc (s.records ref)).fill ref content) t) :
    TakenBack s (t.put key s.next) := by
  -- the copy that is handed out is an object of its own, which filling the record leaves alone
  have hcopy : s.next ≠ ref := (Nat.ne_of_lt (hs.made found)).symm
  obtain ⟨hrecord, hout⟩ := h.apart (Nat.lt_succ_self s.next) hs.out_next
  have hold : t.records s.next = s.records ref := by
    rw [hrecord]
    exact (Function.update_of_ne hcopy ..).trans (Function.update_self ..)
  refine ⟨?_, h.sound.put (Nat.lt_of_succ_le h.later) hout, Nat.le_of_succ_le h.later, ?_⟩
  · intro key'
    rw [contentAt_put]
    split
    · next hq => rw [hq, hold, contentAt_of_get? found]
    · next hne =>
      rw [h.contents, contentAt_fill, contentAt_alloc hs]
      exact fun hget => hne (hs.unshared hget found)
  · intro ref' hmade hout'
    have hne : ref' ≠ ref := by
      rintro rfl
      exact hout' key found
    obtain ⟨hrecord', hout''⟩ := h.apart (Nat.lt_succ_of_lt hmade) hout'
    refine ⟨?_, out_put_of_out hout'' (Nat.ne_of_lt hmade)⟩
    rw [State.put, hrecord']
    exact (Function.update_of_ne hne ..).trans (Function.update_of_ne (Nat.ne_of_lt hmade) ..)

theorem rename {srcKey destKey : Key} (found : s.fs.get? srcKey = some ref)
    (free : s.fs.get? destKey = none) (h : TakenBack ((s.take srcKey).put destKey ref) t) :
    ∃ ref', t.fs.get? destKey = some ref' ∧ TakenBack s ((t.take destKey).put srcKey ref') := by
  -- the object under the new name may be another by now; its content is the one it should have
  have hthere := h.contents destKey
  rw [contentAt_put, if_pos rfl] at hthere
  obtain ⟨ref', hget, hrecord⟩ := found_of_contentAt hthere
  refine ⟨ref', hget, ?_, h.sound.take.put (h.sound.made hget) (h.sound.out_take hget), h.later, ?_⟩
  · intro key'
    rw [contentAt_put]
    split
    · next hq =>
      rw [hq, contentAt_of_get? found]
      exact congrArg some hrecord
    · next hsrc =>
      rw [contentAt_take]
      split
      · next hq => rw [hq, contentAt_eq_none free]
      · next hdest =>
        rw [h.contents, contentAt_put, if_neg hdest, contentAt_take, if_neg hsrc]
  · intro ref'' hmade hout
    have hne : ref'' ≠ ref := by
      rintro rfl
      exact hout srcKey found
    obtain ⟨hrecord'', hout''⟩ := h.apart hmade (out_put_of_out (out_take_of_out hout) hne)
    have hne' : ref'' ≠ ref' := by
      rintro rfl
      exact hout'' destKey hget
    exact ⟨hrecord'', out_put_of_out (out_take_of_out hout'') hne'⟩

theorem delete (hs : s.Sound) (found : s.fs.get? key = some ref) (h : TakenBack (s.take key) t) :
    TakenBack s (t.put key ref) := by
  have hmade := hs.made found
  obtain ⟨hrecord, hout⟩ := h.apart hmade (hs.out_take found)
  refine ⟨?_, h.sound.put (Nat.lt_of_lt_of_le hmade h.later) hout, h.later, ?_⟩
  · intro key'
    rw [contentAt_put]
    split
    · next hq =>
      rw [hq, contentAt_of_get? found]
      exact congrArg some hrecord
    · next hne => rw [h.contents, contentAt_take, if_neg hne]
  · intro ref' hmade' hout'
    have hne : ref' ≠ ref := by
      rintro rfl
      exact hout' key found
    obtain ⟨hrecord', hout''⟩ := h.apart hmade' (out_take_of_out hout')
    exact ⟨hrecord', out_put_of_out hout'' hne⟩

end TakenBack

/-- What an action did is taken back by its rollback, in whatever its state was taken back to. -/
theorem Did.takenBack {s s' t : State} {action : String} {data : Data} {arguments : PyDict}
    (h : Did s action data s') (hs : s.Sound) (ha : actionName arguments = some action)
    (ht : TakenBack s' t) :
    ∃ t', FilesWriteCapability.rollback arguments (.ok data) t = ⟨.ok (), t', []⟩ ∧
      TakenBack s t' := by
  unfold FilesWriteCapability.rollback FilesWriteCapability.rollbackData
  rw [ha]
  cases h with
  | create truthy hash free =>
    -- taken back by the bridge's own deletion, which asks for the path once more
    obtain ⟨⟨ref, hget⟩, hback⟩ := ht.create hs free
    refine ⟨_, ?_, hback⟩
    change (execute (.str "files.delete") _ >>= fun _ => pure ()) t = _
    rw [Act.run_bind_of_ok (run_delete truthy hash hget)]
    rfl
  | write _ hash found => exact ⟨_, run_restoreRecord hash _, ht.write hs found⟩
  | rename either _ _ srcHash found destHash free =>
    obtain ⟨ref', hget, hback⟩ := ht.rename found free
    refine ⟨_, ?_, hback⟩
    rcases either with rfl | rfl
    · exact run_restoreName srcHash destHash hget
    · exact run_restoreName srcHash destHash hget
  | delete _ hash found => exact ⟨_, run_restoreRecord hash _, ht.delete hs found⟩

def files : Undoable State (RecordingCapability.Call Unit) Data :=
  RecordingCapability.undoable fun _ => FilesWriteCapability

theorem exec_files {s s' : State} {call : RecordingCapability.Call Unit} {data : Data}
    (h : files.exec s call = some (data, s')) :
    ∃ action, actionName call.1 = some action ∧ Did s action data s' := by
  obtain ⟨hsupports, hrun⟩ := RecordingCapability.exec_undoable h
  change FilesWriteCapability.supportsRollback call.1 = _ at hsupports
  unfold FilesWriteCapability.supportsRollback at hsupports
  cases ha : actionName call.1 with
  | none => simp [ha] at hsupports
  | some action =>
    have hmem : action ∈ FilesWriteCapability.reversibleActions := by simpa [ha] using hsupports
    rw [actionOf_eq ha] at hrun
    exact ⟨action, rfl, execute_did hmem hrun⟩

/-- File actions are taken back from a sound store. -/
theorem files_reverses : files.Reverses (fun _ _ => True) State.Sound TakenBack := by
  refine RecordingCapability.undoable_reverses TakenBack.refl ?_
  intro s s₁ call data hs hexec
  obtain ⟨action, ha, hdid⟩ := exec_files hexec
  exact ⟨hdid.keeps hs, fun _ s₂ hback => hdid.takenBack hs ha hback⟩

/-! ## Where two paths hold one record -/

def State.Named (s : State) : Prop :=
  ∀ {key ref}, s.fs.get? key = some ref →
    ∃ path : PyValue, path.truthy = true ∧ path.key = .ok key

def writeArgs (path content : PyValue) : PyDict :=
  ((Dict.empty.set "action" (.str "files.write")).set "path" path).set "content" content

theorem actionName_writeArgs (path content : PyValue) :
    actionName (writeArgs path content) = some "files.write" := by
  simp [actionName, writeArgs, Dict.get?_set]

theorem run_write {s : State} {path content : PyValue} {key : Key} {ref : RecordRef}
    (htruthy : path.truthy = true) (hkey : path.key = .ok key)
    (hget : s.fs.get? key = some ref) :
    write (writeArgs path content) s
      = ⟨.ok (.recorded path s.next), (s.alloc (s.records ref)).fill ref content, []⟩ := by
  have hpath : requirePath (writeArgs path content) s = ⟨.ok path, s, []⟩ := by
    have harg : argument (writeArgs path content) "path" = path := by
      simp [argument, writeArgs, Dict.get?_set]
    unfold requirePath
    rw [harg, if_pos htruthy]
    rfl
  have hcontent : contentArg (writeArgs path content) = content := by
    simp [contentArg, writeArgs]
  unfold write
  rw [Act.run_bind_of_ok hpath, Act.run_bind_of_ok (run_find hkey hget), hcontent]
  rfl

theorem exec_writeArgs {s : State} {path content : PyValue} {key : Key} {ref : RecordRef}
    (htruthy : path.truthy = true) (hkey : path.key = .ok key)
    (hget : s.fs.get? key = some ref) :
    files.exec s (writeArgs path content, ())
      = some (.recorded path s.next, (s.alloc (s.records ref)).fill ref content) := by
  have ha := actionName_writeArgs path content
  have hsupports : FilesWriteCapability.supportsRollback (writeArgs path content) = .ok true := by
    rw [FilesWriteCapability.supportsRollback, ha]
    rfl
  refine RecordingCapability.exec_undoable_of hsupports ?_ ?_
  · rw [actionOf_eq ha]
    rfl
  · rw [actionOf_eq ha]
    exact run_write htruthy hkey hget

/-- **Where two paths hold one record**, a write of one of them reaches the other, and its rollback
does not. -/
theorem not_takenBack_of_shared {s : State} (hnamed : s.Named) {key key' : Key}
    {ref : RecordRef} (hget : s.fs.get? key = some ref) (hget' : s.fs.get? key' = some ref)
    (hne : key ≠ key') :
    ∃ call data s₁ s₂, files.exec s call = some (data, s₁) ∧
      files.undo s₁ call data = some s₂ ∧ s₂.contentAt key' ≠ s.contentAt key' := by
  obtain ⟨path, htruthy, hkey⟩ := hnamed hget
  obtain ⟨content, hcontent⟩ : ∃ content : PyValue, content ≠ s.records ref := by
    by_cases h : PyValue.bool true = s.records ref
    · exact ⟨.bool false, by rw [← h]; simp⟩
    · exact ⟨.bool true, h⟩
  -- the write fills the one object, and its rollback gives only `key` another
  have hundo : FilesWriteCapability.rollback (writeArgs path content) (.ok (.recorded path s.next))
      ((s.alloc (s.records ref)).fill ref content)
        = ⟨.ok (), ((s.alloc (s.records ref)).fill ref content).put key s.next, []⟩ := by
    unfold FilesWriteCapability.rollback FilesWriteCapability.rollbackData
    rw [actionName_writeArgs]
    exact run_restoreRecord hkey _
  refine ⟨(writeArgs path content, ()), _, _, _, exec_writeArgs htruthy hkey hget,
    RecordingCapability.undo_undoable hundo, ?_⟩
  rw [contentAt_put, if_neg (Ne.symm hne), contentAt_of_get? hget']
  have hfilled : ((s.alloc (s.records ref)).fill ref content).contentAt key' = some content := by
    rw [contentAt_of_get? (s := (s.alloc (s.records ref)).fill ref content) hget']
    exact congrArg some (Function.update_self ..)
  rw [hfilled]
  exact fun hq => hcontent (Option.some.inj hq)

/-! ## Histories -/

section Histories

theorem still_requirePath (args : PyDict) : (requirePath args).Moves (fun s s' => s' = s) := by
  unfold requirePath
  exact .ite ⟨fun _ => rfl⟩ ⟨fun _ => rfl⟩

theorem still_find (path : PyValue) : (find path).Moves (fun s s' => s' = s) := by
  refine .bind_still ⟨fun _ => rfl⟩ fun s => .bind_still ⟨fun _ => rfl⟩ fun key => ?_
  split
  · exact ⟨fun _ => rfl⟩
  · exact ⟨fun _ => rfl⟩

theorem still_free (path : PyValue) (message : String) :
    (free path message).Moves (fun s s' => s' = s) := by
  refine .bind_still ⟨fun _ => rfl⟩ fun s => .bind_still ⟨fun _ => rfl⟩ fun key => ?_
  split
  · exact ⟨fun _ => rfl⟩
  · exact ⟨fun _ => rfl⟩

theorem atomic_rename (args : PyDict) : (rename args).Atomic := by
  unfold rename
  refine .ite (.bind (still_find _) fun _ => .bind (still_free _ _) fun _ => ?_)
    (.of_still ⟨fun _ => rfl⟩)
  exact .of_returns fun s => ⟨_, rfl⟩

/-- Every action checks what it checks before it changes anything. -/
theorem atomic_execute (action : PyValue) (args : PyDict) : (execute action args).Atomic := by
  unfold execute
  split
  · exact .bind (still_requirePath args) fun path => .bind (still_find path) fun _ =>
      .of_returns fun s => ⟨_, rfl⟩
  · exact .of_returns fun s => ⟨_, rfl⟩
  · exact .bind (still_requirePath args) fun path => .bind (still_free path _) fun _ =>
      .of_returns fun s => ⟨_, rfl⟩
  · exact .bind (still_requirePath args) fun path => .bind (still_find path) fun _ =>
      .of_returns fun s => ⟨_, rfl⟩
  · exact atomic_rename args
  · exact atomic_rename args
  · exact .bind (still_requirePath args) fun path => .bind (still_find path) fun _ =>
      .of_returns fun s => ⟨_, rfl⟩
  · exact .of_still ⟨fun _ => rfl⟩

/-- A result that can be rolled back names paths that can be asked for, and a record that was
made. -/
def Sane (s : State) : Data → Prop
  | .recorded path ref => path.truthy = true ∧ ref < s.next
  | .renamed src _ => src.truthy = true
  | _ => True

theorem execute_cases {s s' : State} {action : PyValue} {args : PyDict} {data : Data}
    (h : execute action args s = ⟨.ok data, s', []⟩) :
    (s' = s ∧ Sane s data) ∨ ∃ a, Did s a data s' := by
  unfold execute at h
  split at h
  · obtain ⟨path, s₁, hpath, h₁⟩ := Act.bind_ok_silent h
    obtain ⟨_, rfl⟩ := requirePath_ok hpath
    obtain ⟨⟨key, ref⟩, s₂, hfind, h₂⟩ := Act.bind_ok_silent h₁
    obtain ⟨_, _, rfl⟩ := find_ok hfind
    cases h₂
    exact Or.inl ⟨rfl, trivial⟩
  · cases h
    exact Or.inl ⟨rfl, trivial⟩
  · exact Or.inr ⟨_, create_ok h⟩
  · exact Or.inr ⟨_, write_ok h⟩
  · exact Or.inr ⟨_, rename_ok (Or.inl rfl) h⟩
  · exact Or.inr ⟨_, rename_ok (Or.inr rfl) h⟩
  · exact Or.inr ⟨_, delete_ok h⟩
  · cases h

/-- The records in the store have been made, and the paths can be asked for. -/
structure State.WellFormed (s : State) : Prop where
  made : s.Made
  named : s.Named

namespace State.WellFormed

variable {s : State} {path : PyValue} {key : Key} {ref : RecordRef} {content : PyValue}

theorem alloc (h : s.WellFormed) : (s.alloc content).WellFormed :=
  ⟨fun hget => Nat.lt_succ_of_lt (h.made hget), h.named⟩

theorem fill (h : s.WellFormed) : (s.fill ref content).WellFormed := ⟨h.made, h.named⟩

theorem take (h : s.WellFormed) : (s.take key).WellFormed :=
  ⟨fun hget => h.made (found_take hget).2, fun hget => h.named (found_take hget).2⟩

theorem put (h : s.WellFormed) (hmade : ref < s.next) (htruthy : path.truthy = true)
    (hash : path.key = .ok key) : (s.put key ref).WellFormed := by
  refine ⟨?_, ?_⟩
  · intro k r hget
    rcases found_put hget with ⟨rfl, rfl⟩ | ⟨_, hold⟩
    · exact hmade
    · exact h.made hold
  · intro k r hget
    rcases found_put hget with ⟨rfl, rfl⟩ | ⟨_, hold⟩
    · exact ⟨path, htruthy, hash⟩
    · exact h.named hold

end State.WellFormed

theorem Did.wellFormed {s s' : State} {action : String} {data : Data} (h : Did s action data s')
    (hs : s.WellFormed) : s'.WellFormed ∧ s.next ≤ s'.next ∧ Sane s' data := by
  cases h with
  | create truthy hash _ =>
    exact ⟨hs.alloc.put (Nat.lt_succ_self _) truthy hash, Nat.le_succ _, trivial⟩
  | write truthy _ _ => exact ⟨hs.alloc.fill, Nat.le_succ _, truthy, Nat.lt_succ_self _⟩
  | rename _ srcTruthy destTruthy _ found destHash _ =>
    exact ⟨hs.take.put (hs.made found) destTruthy destHash, Nat.le_refl _, srcTruthy⟩
  | delete truthy _ found => exact ⟨hs.take, Nat.le_refl _, truthy, hs.made found⟩

theorem Sane.mono {s s' : State} {data : Data} (h : Sane s data) (hnext : s.next ≤ s'.next) :
    Sane s' data := by
  cases data with
  | recorded path ref => exact ⟨h.1, Nat.lt_of_lt_of_le h.2 hnext⟩
  | renamed src dest => exact h
  | _ => trivial

def Later (s s' : State) : Prop := s'.WellFormed ∧ s.next ≤ s'.next

theorem later_execute {s : State} (hs : s.WellFormed) (action : PyValue) (args : PyDict) :
    Later s (execute action args s).state := by
  generalize hrun : execute action args s = run
  obtain ⟨result, s', t⟩ := run
  obtain rfl := Act.trace_nil t
  cases result with
  | error e =>
    rw [(atomic_execute action args).state hrun]
    exact ⟨hs, Nat.le_refl _⟩
  | ok data =>
    rcases execute_cases hrun with ⟨rfl, _⟩ | ⟨a, hdid⟩
    · exact ⟨hs, Nat.le_refl _⟩
    · exact ⟨(hdid.wellFormed hs).1, (hdid.wellFormed hs).2.1⟩

theorem later_restoreRecord {s : State} (hs : s.WellFormed) {path : PyValue} {ref : RecordRef}
    (htruthy : path.truthy = true) (hmade : ref < s.next) :
    Later s (restoreRecord path ref s).state := by
  cases hkey : path.key with
  | error e =>
    unfold restoreRecord
    rw [hkey]
    exact ⟨hs, Nat.le_refl _⟩
  | ok key =>
    rw [run_restoreRecord hkey]
    exact ⟨hs.put hmade htruthy hkey, Nat.le_refl _⟩

theorem later_restoreName {s : State} (hs : s.WellFormed) {src dest : PyValue}
    (htruthy : src.truthy = true) : Later s (restoreName src dest s).state := by
  unfold restoreName
  cases hdest : dest.key with
  | error e => exact ⟨hs, Nat.le_refl _⟩
  | ok destKey =>
    rw [Act.bind_ofExcept, Act.bind_get]
    cases hget : s.fs.get? destKey with
    | none => exact ⟨hs, Nat.le_refl _⟩
    | some ref =>
      dsimp only
      rw [Act.bind_modify]
      cases hsrc : src.key with
      | error e => exact ⟨hs.take, Nat.le_refl _⟩
      | ok srcKey => exact ⟨hs.take.put (hs.made hget) htruthy hsrc, Nat.le_refl _⟩

open FilesWriteCapability in
theorem rollbackData_eq (arguments : PyDict) (data : Data) :
    rollbackData arguments data = deleteOf data ∨
      rollbackData arguments data = restoreRecordOf data ∨
      rollbackData arguments data = restoreNameOf data ∨ rollbackData arguments data = pure () := by
  unfold rollbackData
  split <;> simp

theorem later_rollback {s : State} (hs : s.WellFormed) (arguments : PyDict) {data : Data}
    (hdata : Sane s data) :
    Later s (FilesWriteCapability.rollback arguments (.ok data) s).state := by
  have hrecord : Later s (FilesWriteCapability.restoreRecordOf data s).state := by
    cases data with
    | recorded path ref => exact later_restoreRecord hs hdata.1 hdata.2
    | _ => exact ⟨hs, Nat.le_refl _⟩
  have hname : Later s (FilesWriteCapability.restoreNameOf data s).state := by
    cases data with
    | renamed src dest => exact later_restoreName hs hdata
    | _ => exact ⟨hs, Nat.le_refl _⟩
  have hdelete : Later s (FilesWriteCapability.deleteOf data s).state := by
    unfold FilesWriteCapability.deleteOf
    cases FilesWriteCapability.pathOf data with
    | none => exact ⟨hs, Nat.le_refl _⟩
    | some path =>
      have hexecute := later_execute hs (.str "files.delete") (Dict.empty.set "path" path)
      rwa [← Act.state_bind_of_still (f := fun _ => pure ()) (fun _ _ => rfl)] at hexecute
  change Later s (FilesWriteCapability.rollbackData arguments data s).state
  rcases rollbackData_eq arguments data with hq | hq | hq | hq
  · rwa [hq]
  · rwa [hq]
  · rwa [hq]
  · rw [hq]
    exact ⟨hs, Nat.le_refl _⟩

theorem wellFormed_empty : ({} : State).WellFormed := by
  refine ⟨?_, ?_⟩
  · intro key ref hget
    cases hget
  · intro key ref hget
    cases hget

/-- The store any history of actions and rollbacks leads to, from an empty one. -/
theorem wellFormed_of_reached {log : List (RecordingCapability.Call Unit × Reported Data)}
    {s : State} (h : RecordingCapability.Reached (fun _ => FilesWriteCapability) {} log s) :
    s.WellFormed := by
  refine (h.induct (I := State.WellFormed) (J := Sane) (fun _ => atomic_execute)
    wellFormed_empty ?_ ?_ rfl).1
  · intro _ action arguments s s' data hs hrun
    rcases execute_cases hrun with ⟨rfl, hdata⟩ | ⟨a, hdid⟩
    · exact ⟨hs, hdata, fun _ h => h⟩
    · obtain ⟨hs', hnext, hdata⟩ := hdid.wellFormed hs
      exact ⟨hs', hdata, fun _ h => h.mono hnext⟩
  · intro _ arguments s data hs hdata
    obtain ⟨hs', hnext⟩ := later_rollback hs arguments hdata
    exact ⟨hs', fun _ h => h.mono hnext⟩

end Histories

end MockFileBridge

end IraOS
