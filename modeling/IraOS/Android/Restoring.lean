import IraOS.Android.Settings

/-!
# Which rollbacks restore

The six capabilities over the system bridge, each command that succeeds rolled back with the result
it returned. The answers of the bridge carry the state before; what a rollback makes of it is
another matter. A level is set back through the bridge, which clamps, a flag is **inverted whatever
it was** (both branches of the test on the pre-state do the same), and a rotation that was not
locked is unlocked without its orientation. `undone_iff` says which commands come back to where they
started.

## The condition, setting by setting

`Setting.Restorable` is read off the state before the command:

* setting, raising or lowering a level is undone if the level was in range, as the clamp then
  leaves it as it was;
* turning a flag on or off is undone if it turned it;
* locking a rotation is undone if it was locked, or if the orientation was the one that is set;
* the mode and the timeout always come back.

## From a result to its rollback

The data of a successful command is what its rollback is handed (`undone_run`), and an assignment's
answer has the state before it under "pre_state" (`change_ok`), so the rollback starts from the new
state with the old one in hand. For volume and brightness that is one lemma about any control and
its dial (`Drives.undo_iff`); the other four are looked at one by one.
-/

set_option autoImplicit false

namespace IraOS

open Lib BaseAndroidCapability MockSystemBridge

/-- Run a command, and roll it back with the result it returned. -/
def AndroidCapability.undone {δ : Type} (capability : AndroidCapability δ) (arguments : PyDict) :
    DeviceAct δ Unit := do
  let result ← capability.executeAction arguments
  DefaultAndroidAdapter.rollback capability arguments result

inductive Setting where
  | volume | brightness | rotation | doNotDisturb | screenTimeout | flashlight
  deriving DecidableEq, Repr

namespace Setting

def capability : Setting → AndroidCapability State
  | .volume => VolumeCapability execute
  | .brightness => BrightnessCapability execute
  | .rotation => RotationCapability execute
  | .doNotDisturb => DoNotDisturbCapability execute
  | .screenTimeout => ScreenTimeoutCapability execute
  | .flashlight => FlashlightCapability execute

def internal : Setting → Internal State
  | .volume => VolumeCapability.executeInternal execute
  | .brightness => BrightnessCapability.executeInternal execute
  | .rotation => RotationCapability.executeInternal execute
  | .doNotDisturb => DoNotDisturbCapability.executeInternal execute
  | .screenTimeout => ScreenTimeoutCapability.executeInternal execute
  | .flashlight => FlashlightCapability.executeInternal execute

theorem executeAction_eq (kind : Setting) :
    kind.capability.executeAction = executeAction kind.capability.descriptor kind.internal := by
  cases kind <;> rfl

structure Undoable (kind : Setting) (arguments : PyDict) (s : State) : Prop where
  succeeds : ∃ r, (kind.capability.executeAction arguments s).result = .ok (.result r) ∧
    r.success = true
  supports : DefaultAndroidAdapter.supportsRollback kind.capability arguments = .ok true

end Setting

/-- What the level and the flag of a control have to be for an action on them to be undone. -/
def LevelControl.Restorable (c : LevelControl) (level : Int) (flag : Bool) (action : String) :
    Prop :=
  if action = c.set ∨ action = c.up ∨ action = c.down then 0 ≤ level ∧ level ≤ 100
  else if action = c.on then flag = false
  else if action = c.off then flag = true
  else True

/-- What the state has to be for a command to be undone. -/
def Setting.Restorable (kind : Setting) (arguments : PyDict) (s : State) : Prop :=
  ∀ action, actionName arguments = some action →
    match kind with
    | .volume => VolumeCapability.control.Restorable s.volumeLevel s.volumeMuted action
    | .brightness =>
      BrightnessCapability.control.Restorable s.brightnessLevel s.brightnessAuto action
    | .rotation =>
      action = "system.rotation.lock" →
        s.rotationLocked = true ∨ argument arguments "orientation" = s.rotationOrientation
    | .doNotDisturb | .screenTimeout => True
    | .flashlight =>
      (action = "system.flashlight.on" → s.flashlightOn = false) ∧
        (action = "system.flashlight.off" → s.flashlightOn = true)

/-! ## From a result to its rollback -/

theorem undone_run {capability : AndroidCapability State} {internal : Internal State}
    (hbase : capability.executeAction = executeAction capability.descriptor internal)
    {arguments : PyDict} {s : State}
    (hok : ∃ r, (capability.executeAction arguments s).result = .ok (.result r) ∧
      r.success = true) :
    ∃ r s', internal (actionOf arguments) arguments s = ⟨.ok r.data, s', []⟩ ∧
      capability.undone arguments s
        = DefaultAndroidAdapter.rollback capability arguments (.result r) s' := by
  obtain ⟨r, hr, hs⟩ := hok
  rw [hbase, executeAction_run, Except.ok.injEq, PyAny.result.injEq] at hr
  have hacc := reportOf_success_iff.mp (hr ▸ hs)
  generalize hi : internal (actionOf arguments) arguments s = run
  obtain ⟨result, s', t⟩ := run
  obtain rfl := Act.trace_nil t
  obtain ⟨hsupp, data, hdata⟩ := hacc
  rw [hi] at hdata
  subst hdata
  have hchecked : checkedExecute capability.descriptor internal arguments s
      = ⟨.ok data, s', []⟩ := by
    unfold checkedExecute
    rw [if_pos hsupp, hi]
  refine ⟨⟨capability.descriptor.id, true, data, "", lit ""⟩, s', rfl, ?_⟩
  unfold AndroidCapability.undone
  have hrun := executeAction_run capability.descriptor internal arguments s
  rw [reportOf, hchecked] at hrun
  rw [hbase, Act.run_bind_of_ok hrun]
  generalize DefaultAndroidAdapter.rollback capability arguments _ s' = run
  obtain ⟨result, s', t⟩ := run
  rfl

theorem change_ok {view : State → List (String × PyValue)} {f : State → State} {s s' : State}
    {data : PyValue} {t : List Empty} (h : change view f s = ⟨.ok data, s', t⟩) :
    s' = f s ∧ data = .dict (view (f s) ++ [("pre_state", .dict (view s))]) := by
  have hchange : change view f s
      = ⟨.ok (.dict (view (f s) ++ [("pre_state", .dict (view s))])), f s, []⟩ := rfl
  rw [hchange, Run.mk.injEq, Except.ok.injEq] at h
  exact ⟨h.2.1.symm, h.1.symm⟩

theorem recordedPreState_change {view : State → List (String × PyValue)}
    (hview : ∀ s, (view s).lookup "pre_state" = none) {f : State → State} {s s' : State}
    {r : CapabilityResult} {t : List Empty} (h : change view f s = ⟨.ok r.data, s', t⟩) :
    s' = f s ∧ recordedPreState (.result r) = .ok (some (.dict (view s))) := by
  obtain ⟨hs, hdata⟩ := change_ok h
  have hlookup : (view (f s) ++ [("pre_state", PyValue.dict (view s))]).lookup "pre_state"
      = some (.dict (view s)) := by
    simp [List.lookup_append, hview]
  refine ⟨hs, ?_⟩
  rw [recordedPreState, hdata, hasKey, subscript, hlookup]
  rfl

theorem run_ends_iff {s s' : State} :
    (⟨.ok (), s', []⟩ : Run State Exn Empty Unit) = ⟨.ok (), s, []⟩ ↔ s' = s := by
  simp

/-! ## A level and a flag -/

/-- A level and a flag of the bridge's state, with what it answers of them. The laws are those of
two fields of a record, each to be read and set by itself. -/
structure Dial where
  view : State → List (String × PyValue)
  level : State → Int
  flag : State → Bool
  setLevel : Int → State → State
  setFlag : Bool → State → State
  view_level : ∀ s, (view s).lookup "level" = some (.int (level s))
  view_preState : ∀ s, (view s).lookup "pre_state" = none
  level_setLevel : ∀ n s, level (setLevel n s) = n
  setLevel_setLevel : ∀ m n s, setLevel m (setLevel n s) = setLevel m s
  setLevel_level : ∀ s, setLevel (level s) s = s
  flag_setFlag : ∀ b s, flag (setFlag b s) = b
  setFlag_setFlag : ∀ b b' s, setFlag b (setFlag b' s) = setFlag b s
  setFlag_flag : ∀ s, setFlag (flag s) s = s

namespace Dial

variable (dial : Dial)

theorem setLevel_eq_iff {n m : Int} {s : State} :
    dial.setLevel m (dial.setLevel n s) = s ↔ m = dial.level s := by
  rw [dial.setLevel_setLevel]
  constructor
  · intro h
    rw [← dial.level_setLevel m s, h]
  · rintro rfl
    exact dial.setLevel_level s

theorem setFlag_eq_iff {b b' : Bool} {s : State} :
    dial.setFlag b (dial.setFlag b' s) = s ↔ b = dial.flag s := by
  rw [dial.setFlag_setFlag]
  constructor
  · intro h
    rw [← dial.flag_setFlag b s, h]
  · rintro rfl
    exact dial.setFlag_flag s

/-- What an assignment has recorded is what a control reads back. -/
theorem preStateOf_change {f : State → State} {r : CapabilityResult} {s s' : State}
    (h : change dial.view f s = ⟨.ok r.data, s', []⟩) :
    s' = f s ∧ preStateOf (.result r) = .ok (some (.dict (dial.view s))) := by
  obtain ⟨hs, hdata⟩ := change_ok h
  refine ⟨hs, ?_⟩
  simp [preStateOf, hdata, List.lookup_append, dial.view_preState]

end Dial

namespace LevelControl

variable {c : LevelControl} {dial : Dial}

/-- The bridge's actions under the control's names, as the dial moves. It is as much as a rollback
needs to know: an action on the level sets it to something, and a set or a switch does what it says
whatever there was before. -/
structure Drives (c : LevelControl) (dial : Dial) : Prop where
  level : ∀ {action}, action = c.set ∨ action = c.up ∨ action = c.down → ∀ {args s data s' t},
    execute (.str action) args s = ⟨.ok data, s', t⟩ →
      ∃ n, change dial.view (dial.setLevel n) s = ⟨.ok data, s', t⟩
  set : ∀ n, execute (.str c.set) (Dict.empty.set "value" (.int n))
    = change dial.view (dial.setLevel (max 0 (min 100 n)))
  on : ∀ args, execute (.str c.on) args = change dial.view (dial.setFlag true)
  off : ∀ args, execute (.str c.off) args = change dial.view (dial.setFlag false)

theorem run_callBridge_change {action : String} {args : PyDict}
    {view : State → List (String × PyValue)} {f : State → State} {s : State}
    (h : execute (.str action) args = change view f) :
    callBridge execute action args s = ⟨.ok (), f s, []⟩ := by
  unfold callBridge
  rw [h]
  rfl

theorem clamp_eq_iff {n : Int} : max 0 (min 100 n) = n ↔ 0 ≤ n ∧ n ≤ 100 := by omega

theorem rollback_change {f : State → State} {arguments : PyDict} {r : CapabilityResult}
    {s s' : State} (h : change dial.view f s = ⟨.ok r.data, s', []⟩) :
    c.rollback execute arguments (.result r) s'
      = c.undo execute arguments (some (.dict (dial.view s))) (f s) := by
  obtain ⟨rfl, hpre⟩ := dial.preStateOf_change h
  unfold rollback
  rw [hpre, Act.bind_ofExcept]

/-- A level goes back through the clamp, and a flag to the opposite of what it was set to. -/
theorem Drives.undo_iff (hd : c.Drives dial) {arguments : PyDict} {action : String}
    (ha : actionName arguments = some action) (hmem : action ∈ c.mutatingActions) {args : PyDict}
    {s s' : State} {r : CapabilityResult}
    (hrun : execute (.str action) args s = ⟨.ok r.data, s', []⟩) :
    c.rollback execute arguments (.result r) s' = ⟨.ok (), s, []⟩ ↔
      c.Restorable (dial.level s) (dial.flag s) action := by
  unfold Restorable
  -- a level is put back by setting it, which clamps it
  by_cases hl : action = c.set ∨ action = c.up ∨ action = c.down
  · obtain ⟨n, hn⟩ := hd.level hl hrun
    have hlevel : subscript (.dict (dial.view s)) "level" = .ok (.int (dial.level s)) := by
      rw [subscript, dial.view_level]
    rw [if_pos hl, rollback_change hn, undo, ha]
    dsimp only
    rw [if_pos hl, restoreLevel, hlevel, Act.bind_ofExcept,
      run_callBridge_change (hd.set (dial.level s)), run_ends_iff, dial.setLevel_eq_iff,
      clamp_eq_iff]
  rw [if_neg hl]
  -- a flag is put back by the opposite action, where it was the opposite before
  by_cases hon : action = c.on
  · rw [hon, hd.on args] at hrun
    rw [if_pos hon, rollback_change hrun, undo, ha]
    dsimp only
    rw [if_neg hl, if_pos hon, readFlag, Act.bind_ofExcept,
      run_callBridge_change (hd.off Dict.empty), run_ends_iff, dial.setFlag_eq_iff, eq_comm]
  have hoff : action = c.off := by
    simp only [mutatingActions, List.mem_cons, List.not_mem_nil, or_false] at hmem
    tauto
  rw [hoff, hd.off args] at hrun
  rw [if_neg hon, if_pos hoff, rollback_change hrun, undo, ha]
  dsimp only
  rw [if_neg hl, if_neg hon, if_pos hoff, readFlag, Act.bind_ofExcept,
    run_callBridge_change (hd.on Dict.empty), run_ends_iff, dial.setFlag_eq_iff, eq_comm]

end LevelControl

theorem intArg_change {args : PyDict} {key : String} {default : Int}
    {view : State → List (String × PyValue)} {f : Int → State → State} {s s' : State}
    {data : PyValue} {t : List Empty}
    (h : (intArg args key default >>= fun n => change view (f n)) s = ⟨.ok data, s', t⟩) :
    ∃ n, change view (f n) s = ⟨.ok data, s', t⟩ := by
  obtain ⟨n, _, hc⟩ := Act.bind_ofExcept_ok h
  exact ⟨n, hc⟩

def volumeDial : Dial where
  view := volumeState
  level := State.volumeLevel
  flag := State.volumeMuted
  setLevel n s := { s with volumeLevel := n }
  setFlag b s := { s with volumeMuted := b }
  view_level _ := rfl
  view_preState _ := rfl
  level_setLevel _ _ := rfl
  setLevel_setLevel _ _ _ := rfl
  setLevel_level _ := rfl
  flag_setFlag _ _ := rfl
  setFlag_setFlag _ _ _ := rfl
  setFlag_flag _ := rfl

def brightnessDial : Dial where
  view := brightnessState
  level := State.brightnessLevel
  flag := State.brightnessAuto
  setLevel n s := { s with brightnessLevel := n }
  setFlag b s := { s with brightnessAuto := b }
  view_level _ := rfl
  view_preState _ := rfl
  level_setLevel _ _ := rfl
  setLevel_setLevel _ _ _ := rfl
  setLevel_level _ := rfl
  flag_setFlag _ _ := rfl
  setFlag_setFlag _ _ _ := rfl
  setFlag_flag _ := rfl

theorem volume_drives : VolumeCapability.control.Drives volumeDial where
  level := by
    rintro action hl args s data s' t hrun
    rcases hl with rfl | rfl | rfl
    · obtain ⟨n, hn⟩ := intArg_change hrun
      exact ⟨_, hn⟩
    · obtain ⟨n, hn⟩ := intArg_change hrun
      exact ⟨min 100 (s.volumeLevel + n), hn⟩
    · obtain ⟨n, hn⟩ := intArg_change hrun
      exact ⟨max 0 (s.volumeLevel - n), hn⟩
  set _ := rfl
  on _ := rfl
  off _ := rfl

theorem brightness_drives : BrightnessCapability.control.Drives brightnessDial where
  level := by
    rintro action hl args s data s' t hrun
    rcases hl with rfl | rfl | rfl
    · obtain ⟨n, hn⟩ := intArg_change hrun
      exact ⟨_, hn⟩
    · obtain ⟨n, hn⟩ := intArg_change hrun
      exact ⟨min 100 (s.brightnessLevel + n), hn⟩
    · obtain ⟨n, hn⟩ := intArg_change hrun
      exact ⟨max 0 (s.brightnessLevel - n), hn⟩
  set _ := rfl
  on _ := rfl
  off _ := rfl

theorem run_of_validated {action : PyValue} {name : String} {arguments : PyDict}
    {check : Except Exn Unit} {s s' : State} {data : PyValue} {t : List Empty}
    (h : (do
      if action.isStr name then Act.ofExcept check
      execute action arguments : DeviceAct State PyValue) s = ⟨.ok data, s', t⟩) :
    execute action arguments s = ⟨.ok data, s', t⟩ := by
  by_cases hs : action.isStr name = true
  · rw [if_pos hs] at h
    obtain ⟨_, _, hrun⟩ := Act.bind_ofExcept_ok h
    exact hrun
  · rw [if_neg hs] at h
    exact h

/-! ## Rotation, do not disturb, screen timeout, flashlight -/

namespace RotationCapability

theorem run_restore (s s' : State) :
    restore execute (.dict (rotationState s)) s' = ⟨.ok (),
      if s.rotationLocked then
        { s' with rotationLocked := true, rotationOrientation := s.rotationOrientation }
      else { s' with rotationLocked := false }, []⟩ := by
  unfold restore
  cases hl : s.rotationLocked with
  | true =>
    have hget : getKey (.dict (rotationState s)) "locked" .none = .ok (.bool true) := by
      rw [← hl]
      rfl
    rw [hget, Act.bind_ofExcept]
    rfl
  | false =>
    have hget : getKey (.dict (rotationState s)) "locked" .none = .ok (.bool false) := by
      rw [← hl]
      rfl
    rw [hget, Act.bind_ofExcept]
    rfl

theorem rollback_change {f : State → State} {arguments : PyDict} {r : CapabilityResult}
    {s s' : State} (h : change rotationState f s = ⟨.ok r.data, s', []⟩) :
    rollback execute arguments (.result r) s'
      = restore execute (.dict (rotationState s)) (f s) := by
  obtain ⟨rfl, hpre⟩ := recordedPreState_change (fun _ => rfl) h
  unfold rollback
  rw [hpre, Act.bind_ofExcept]

theorem undo_iff {arguments : PyDict} {action : String} (hmem : action ∈ mutatingActions)
    {s s' : State} {r : CapabilityResult}
    (hrun : executeInternal execute (.str action) arguments s = ⟨.ok r.data, s', []⟩) :
    rollback execute arguments (.result r) s' = ⟨.ok (), s, []⟩ ↔
      (action = "system.rotation.lock" →
        s.rotationLocked = true ∨ argument arguments "orientation" = s.rotationOrientation) := by
  simp only [mutatingActions, List.mem_cons, List.not_mem_nil, or_false] at hmem
  rcases hmem with rfl | rfl
  · obtain ⟨_, _, hset⟩ := Act.bind_ofExcept_ok hrun
    rw [rollback_change hset, run_restore, run_ends_iff]
    cases s with
    | mk on level muted bright auto vib dnd locked orientation timeout =>
      cases locked <;> simp [argOr]
  · rw [rollback_change hrun, run_restore, run_ends_iff]
    cases s with
    | mk on level muted bright auto vib dnd locked orientation timeout =>
      cases locked <;> simp

end RotationCapability

theorem recordedField_change {key : String} {field : State → PyValue} (hkey : key ≠ "pre_state")
    {f : State → State} {s s' : State} {r : CapabilityResult} {t : List Empty}
    (h : change (fun s => [(key, field s)]) f s = ⟨.ok r.data, s', t⟩) :
    s' = f s ∧ recordedField (.result r) key = .ok (some (field s)) := by
  obtain ⟨hs, hpre⟩ := recordedPreState_change (fun _ => by simp [Ne.symm hkey]) h
  refine ⟨hs, ?_⟩
  rw [recordedField, hpre]
  simp [hasKey, subscript, bind, Except.bind, pure, Except.pure]

namespace DoNotDisturbCapability

theorem rollback_set (bridge : SystemBridge State) {arguments : PyDict}
    (ha : actionName arguments = some "system.dnd.set") (originalResult : PyAny) :
    rollback bridge arguments originalResult = (do
      let mode ← Act.ofExcept (recordedField originalResult "mode")
      let _ ← setMode bridge (mode.getD (.str "NORMAL"))
      pure ()) := by
  unfold rollback
  rw [ha]
  rfl

theorem undo {arguments : PyDict} (ha : actionName arguments = some "system.dnd.set") {s s' : State}
    {r : CapabilityResult}
    (hrun : executeInternal execute (.str "system.dnd.set") arguments s = ⟨.ok r.data, s', []⟩) :
    rollback execute arguments (.result r) s' = ⟨.ok (), s, []⟩ := by
  obtain ⟨_, _, hset⟩ := Act.bind_ofExcept_ok hrun
  obtain ⟨rfl, hmode⟩ := recordedField_change (by simp) hset
  rw [rollback_set execute ha, hmode, Act.bind_ofExcept]
  rfl

end DoNotDisturbCapability

namespace ScreenTimeoutCapability

theorem rollback_set (bridge : SystemBridge State) {arguments : PyDict}
    (ha : actionName arguments = some "system.screen_timeout.set") (originalResult : PyAny) :
    rollback bridge arguments originalResult = (do
      match ← Act.ofExcept (recordedField originalResult "duration_ms") with
      | some duration => do
        let _ ← setDuration bridge duration
        pure ()
      | none => pure ()) := by
  unfold rollback
  rw [ha]
  rfl

theorem run_set {arguments : PyDict} {s s' : State} {data : PyValue}
    (hrun : executeInternal execute (.str "system.screen_timeout.set") arguments s
      = ⟨.ok data, s', []⟩) :
    ∃ duration, setDuration execute (.int duration) s = ⟨.ok data, s', []⟩ := by
  obtain ⟨duration, _, hrest⟩ := Act.bind_ofExcept_ok hrun
  refine ⟨duration, ?_⟩
  -- asking the bridge what it supports changes nothing
  obtain ⟨_, _, hask, hrest⟩ := Act.bind_ok_silent hrest
  cases hask
  obtain ⟨supported, _, hrest⟩ := Act.bind_ofExcept_ok hrest
  obtain ⟨listed, _, hrest⟩ := Act.bind_ofExcept_ok hrest
  cases listed with
  | true => exact hrest
  | false => cases hrest

theorem undo {arguments : PyDict} (ha : actionName arguments = some "system.screen_timeout.set")
    {s s' : State} {r : CapabilityResult}
    (hrun : executeInternal execute (.str "system.screen_timeout.set") arguments s
      = ⟨.ok r.data, s', []⟩) :
    rollback execute arguments (.result r) s' = ⟨.ok (), s, []⟩ := by
  obtain ⟨duration, hset⟩ := run_set hrun
  obtain ⟨rfl, hback⟩ := recordedField_change (by simp) hset
  rw [rollback_set execute ha, hback, Act.bind_ofExcept]
  rfl

end ScreenTimeoutCapability

namespace FlashlightCapability

theorem actionName_of_supportsRollback {arguments : PyDict}
    (h : supportsRollback arguments = .ok true) :
    actionName arguments = some "system.flashlight.on" ∨
      actionName arguments = some "system.flashlight.off" ∨
      actionName arguments = some "system.flashlight.toggle" := by
  unfold supportsRollback at h
  cases ha : actionName arguments with
  | none => simp [ha] at h
  | some action => simpa [ha] using h

/-- Where an action does `f` to the light and its inverse `g`, the light is as it was before both
or it is not. -/
theorem undo_iff_of {arguments : PyDict} {action back : String} {f g : Bool → Bool}
    (ha : actionName arguments = some action)
    (hinv : logicalInverse arguments = some (back, Dict.empty)) {s s' : State}
    {r : CapabilityResult}
    (hrun : execute (actionOf arguments) arguments s = ⟨.ok r.data, s', []⟩)
    (hf : (execute (.str action) arguments s).state = { s with flashlightOn := f s.flashlightOn })
    (hg : callBridge execute back Dict.empty = fun s =>
      ⟨.ok (), { s with flashlightOn := g s.flashlightOn }, []⟩) :
    rollback execute arguments (.result r) s' = ⟨.ok (), s, []⟩ ↔
      g (f s.flashlightOn) = s.flashlightOn := by
  rw [actionOf_eq ha] at hrun
  obtain rfl : s' = { s with flashlightOn := f s.flashlightOn } := by rw [← hf, hrun]
  rw [rollback, hinv, invert, hg, run_ends_iff]
  cases s
  simp

/-- Toggling is undone by toggling; turning on and off only where it turned something. -/
theorem undo_iff {arguments : PyDict} (hroll : supportsRollback arguments = .ok true)
    {s s' : State} {r : CapabilityResult}
    (hrun : execute (actionOf arguments) arguments s = ⟨.ok r.data, s', []⟩) :
    rollback execute arguments (.result r) s' = ⟨.ok (), s, []⟩ ↔
      Setting.flashlight.Restorable arguments s := by
  rcases actionName_of_supportsRollback hroll with ha | ha | ha
  · have hinv : logicalInverse arguments = some ("system.flashlight.off", Dict.empty) := by
      rw [logicalInverse, ha]
      rfl
    rw [undo_iff_of (f := fun _ => true) (g := fun _ => false) ha hinv hrun rfl rfl, eq_comm]
    simp [Setting.Restorable, ha]
  · have hinv : logicalInverse arguments = some ("system.flashlight.on", Dict.empty) := by
      rw [logicalInverse, ha]
      rfl
    rw [undo_iff_of (f := fun _ => false) (g := fun _ => true) ha hinv hrun rfl rfl, eq_comm]
    simp [Setting.Restorable, ha]
  · have hinv : logicalInverse arguments = some ("system.flashlight.toggle", Dict.empty) := by
      rw [logicalInverse, ha]
      rfl
    rw [undo_iff_of (f := fun b => !b) (g := fun b => !b) ha hinv hrun rfl rfl]
    simp [Setting.Restorable, ha]

end FlashlightCapability

/-! ## The settings -/

namespace Setting

variable {kind : Setting} {arguments : PyDict} {s : State}

/-- **Which rollbacks restore.** A command that succeeds and can be rolled back is undone, rolled
back with the result it returned, exactly where the state is one that the rollback restores. The
condition is on the state before the command and on its arguments; the rollback has the arguments
and the result to go by. -/
theorem undone_iff_restorable (h : kind.Undoable arguments s) :
    kind.capability.undone arguments s = ⟨.ok (), s, []⟩ ↔ kind.Restorable arguments s := by
  obtain ⟨r, s', hrun, hundone⟩ := undone_run kind.executeAction_eq h.succeeds
  rw [hundone]
  cases kind with
  | volume =>
    obtain ⟨action, hmem, ha⟩ := actionName_of_inFrozenset h.supports
    rw [actionOf_eq ha] at hrun
    simp only [Restorable, ha, Option.some.injEq, forall_eq']
    exact volume_drives.undo_iff ha hmem (run_of_validated hrun)
  | brightness =>
    obtain ⟨action, hmem, ha⟩ := actionName_of_inFrozenset h.supports
    rw [actionOf_eq ha] at hrun
    simp only [Restorable, ha, Option.some.injEq, forall_eq']
    exact brightness_drives.undo_iff ha hmem (run_of_validated hrun)
  | rotation =>
    obtain ⟨action, hmem, ha⟩ := actionName_of_inFrozenset h.supports
    rw [actionOf_eq ha] at hrun
    simp only [Restorable, ha, Option.some.injEq, forall_eq']
    exact RotationCapability.undo_iff hmem hrun
  | doNotDisturb =>
    obtain ⟨action, hmem, ha⟩ := actionName_of_inFrozenset h.supports
    obtain rfl : action = "system.dnd.set" := List.mem_singleton.mp hmem
    rw [actionOf_eq ha] at hrun
    exact ⟨fun _ _ _ => trivial, fun _ => DoNotDisturbCapability.undo ha hrun⟩
  | screenTimeout =>
    obtain ⟨action, hmem, ha⟩ := actionName_of_inFrozenset h.supports
    obtain rfl : action = "system.screen_timeout.set" := List.mem_singleton.mp hmem
    rw [actionOf_eq ha] at hrun
    exact ⟨fun _ _ _ => trivial, fun _ => ScreenTimeoutCapability.undo ha hrun⟩
  | flashlight => exact FlashlightCapability.undo_iff h.supports hrun

theorem undone_volumeUp :
    let arguments : PyDict := Dict.empty.set "action" (.str "system.volume.up")
    volume.Undoable arguments {} ∧
      (volume.capability.undone arguments {} = ⟨.ok (), {}, []⟩ ↔
        volume.Restorable arguments {}) := by
  intro arguments
  have h : volume.Undoable arguments {} := ⟨⟨_, rfl, rfl⟩, rfl⟩
  exact ⟨h, undone_iff_restorable h⟩

theorem autoOn_not_undone :
    let arguments : PyDict := Dict.empty.set "action" (.str "system.brightness.auto_on")
    let before : State := {}
    brightness.Undoable arguments before ∧ before.brightnessAuto = true ∧
      (brightness.capability.undone arguments before).state.brightnessAuto = false ∧
      brightness.capability.undone arguments before ≠ ⟨.ok (), before, []⟩ := by
  intro arguments before
  have hstate : (brightness.capability.undone arguments before).state.brightnessAuto = false := rfl
  refine ⟨⟨⟨_, rfl, rfl⟩, rfl⟩, rfl, hstate, ?_⟩
  intro h
  rw [h] at hstate
  cases hstate

end Setting

end IraOS
