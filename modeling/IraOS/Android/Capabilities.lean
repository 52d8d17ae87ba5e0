import IraOS.Android.Adapter
import IraOS.Android.Bridge
import Mathlib.Data.List.Infix

/-!
# Volume, brightness, flashlight

The three capabilities that pair a mutation with a rollback over the system bridge
(`core/android/capabilities/volume.py`, `brightness.py`, `flashlight.py`). Volume and brightness are
one control, a level and a flag, under two sets of action names (`LevelControl`); what they validate
differs and stays their own.

`rollback` undoes with a `pre_state` where the execution left one. Where it did not, the documented
strategy is *logical inversion* of the action, and `logicalInverse` says which bridge call that is.
The lemma to use is `rollback_noResult`: rolling back without a result makes that one call, or none.

## What a rollback reads

A rollback is handed the result of the execution, which may be `None`, and the data in it, which may
be anything. The source reads it with `.get` and `[...]`, and each of these raises on a value that
is no mapping or has no such key; the readers (`subscript`, `hasKey`, `getKey`, `preStateOf`) keep
the exceptions, as a rollback that raises half way leaves a level restored and a flag not.

## Where the source does the same in two branches

The flag of a control is undone by the inverse action whether or not the pre-state says what it was:
the test on the pre-state guards two branches with the same call. `readFlag` keeps the reading,
which can raise, and drops the test. The brightness's flag is the automatic mode, so turning it on
is undone by turning it off, whatever it was before.
-/

set_option autoImplicit false

namespace IraOS

open Lib BaseAndroidCapability

variable {δ : Type}

/-! ## Reading the original result -/

def notAMapping (v : PyValue) : Exn :=
  ⟨.attributeError, lit ("'" ++ v.typeName ++ "' object has no attribute 'get'")⟩

def subscript (v : PyValue) (key : String) : Except Exn PyValue :=
  match v with
  | .dict es =>
    match es.lookup key with
    | some x => .ok x
    | none => .error ⟨.other "KeyError", [.repr (.str key)]⟩
  | .list _ => .error ⟨.typeError, lit "list indices must be integers or slices, not str"⟩
  | .str _ => .error ⟨.typeError, lit "string indices must be integers, not 'str'"⟩
  | v => .error ⟨.typeError, lit ("'" ++ v.typeName ++ "' object is not subscriptable")⟩

def hasKey (v : PyValue) (key : String) : Except Exn Bool :=
  match v with
  | .dict es => .ok (es.lookup key).isSome
  | .list xs => .ok (xs.any fun x => x.isStr key)
  | .str s => .ok (decide (key.toList <:+: s.toList))
  | v => .error ⟨.typeError, lit ("argument of type '" ++ v.typeName ++ "' is not iterable")⟩

def inFrozenset (v : PyValue) (xs : List String) : Except Exn Bool :=
  match v with
  | .list _ | .dict _ => .error ⟨.typeError, lit ("unhashable type: '" ++ v.typeName ++ "'")⟩
  | v => .ok (xs.any v.isStr)

def argument (arguments : PyDict) (key : String) : PyValue := (arguments.get? key).getD .none

/-- `original_result.data.get("pre_state")` of a result that has `data`; `none` is `None`. -/
def preStateOf : PyAny → Except Exn (Option PyValue)
  | .value _ => .ok none
  | .result r =>
    match r.data with
    | .dict es =>
      match es.lookup "pre_state" with
      | some .none | none => .ok none
      | some v => .ok (some v)
    | v => .error (notAMapping v)

def getKey (v : PyValue) (key : String) (default : PyValue) : Except Exn PyValue :=
  match v with
  | .dict es => .ok ((es.lookup key).getD default)
  | v => .error (notAMapping v)

/-- `pre_state is not None and ... pre_state.get(key, ...)`: only whether it can be read matters,
since both branches it guards do the same. -/
def readFlag : Option PyValue → Except Exn Unit
  | none | some (.dict _) => .ok ()
  | some v => .error (notAMapping v)

def actionName (arguments : PyDict) : Option String :=
  match arguments.get? "action" with
  | some (.str s) => some s
  | _ => none

/-- What can be rolled back names one of the actions that can. -/
theorem actionName_of_inFrozenset {arguments : PyDict} {actions : List String}
    (h : inFrozenset (argument arguments "action") actions = .ok true) :
    ∃ action ∈ actions, actionName arguments = some action := by
  unfold argument inFrozenset at h
  unfold actionName
  cases ha : arguments.get? "action" with
  | none =>
    rw [ha] at h
    simp [PyValue.isStr] at h
  | some v =>
    rw [ha, Option.getD_some] at h
    cases v with
    | str action =>
      simp only [PyValue.isStr, Except.ok.injEq, List.any_eq_true, beq_iff_eq] at h
      obtain ⟨_, hmem, rfl⟩ := h
      exact ⟨_, hmem, rfl⟩
    | _ => simp [PyValue.isStr] at h

theorem actionOf_eq {arguments : PyDict} {action : String}
    (h : actionName arguments = some action) : actionOf arguments = .str action := by
  unfold actionName at h
  unfold actionOf
  split at h
  · next ha =>
    rw [ha, ← Option.some.inj h]
    rfl
  · cases h

/-- A name the action has comes from the arguments, unless it is the one for want of any. -/
theorem actionName_of_actionOf {arguments : PyDict} {action : String}
    (h : actionOf arguments = .str action) (hne : action ≠ "default") :
    actionName arguments = some action := by
  unfold actionOf at h
  unfold actionName
  cases ha : arguments.get? "action" with
  | none =>
    rw [ha, Option.getD_none, PyValue.str.injEq] at h
    exact absurd h.symm hne
  | some v =>
    rw [ha, Option.getD_some] at h
    rw [h]

def callBridge (bridge : SystemBridge δ) (action : String) (args : PyDict) : DeviceAct δ Unit := do
  let _ ← bridge (.str action) args
  pure ()

def invert (bridge : SystemBridge δ) : Option (String × PyDict) → DeviceAct δ Unit
  | some (action, args) => callBridge bridge action args
  | none => pure ()

/-! ## A level and a flag -/

/-- The five mutating actions of a control: three on its level, two on its flag. Volume and
brightness differ in the names of these and in their messages; which action inverts which goes by
the place it has here. -/
structure LevelControl where
  set : String
  up : String
  down : String
  on : String
  off : String

namespace LevelControl

variable (c : LevelControl)

def mutatingActions : List String := [c.set, c.up, c.down, c.on, c.off]

def supportsRollback (arguments : PyDict) : Except Exn Bool :=
  inFrozenset (argument arguments "action") c.mutatingActions

/-- `{"step": arguments.get("step", 10)}`. -/
def stepArgs (arguments : PyDict) : PyDict :=
  Dict.empty.set "step" ((arguments.get? "step").getD (.int 10))

/-- The call that inverts an action when its pre-state is not known. Setting a level has none, as
nothing says what it was. -/
def logicalInverse (arguments : PyDict) : Option (String × PyDict) :=
  match actionName arguments with
  | none => none
  | some action =>
    if action = c.up then some (c.down, stepArgs arguments)
    else if action = c.down then some (c.up, stepArgs arguments)
    else if action = c.on then some (c.off, Dict.empty)
    else if action = c.off then some (c.on, Dict.empty)
    else none

/-- `self._bridge.execute(set_action, {"value": pre_state["level"]})`. -/
def restoreLevel (bridge : SystemBridge δ) (preState : PyValue) : DeviceAct δ Unit := do
  let level ← Act.ofExcept (subscript preState "level")
  callBridge bridge c.set (Dict.empty.set "value" level)

def undo (bridge : SystemBridge δ) (arguments : PyDict) (preState : Option PyValue) :
    DeviceAct δ Unit :=
  match actionName arguments with
  | none => pure ()
  | some action =>
    if action = c.set ∨ action = c.up ∨ action = c.down then
      match preState with
      | some preState => c.restoreLevel bridge preState
      | none => invert bridge (c.logicalInverse arguments)
    else if action = c.on then do
      Act.ofExcept (readFlag preState)
      callBridge bridge c.off Dict.empty
    else if action = c.off then do
      Act.ofExcept (readFlag preState)
      callBridge bridge c.on Dict.empty
    else pure ()

def rollback (bridge : SystemBridge δ) (arguments : PyDict) (originalResult : PyAny) :
    DeviceAct δ Unit := do
  let preState ← Act.ofExcept (preStateOf originalResult)
  c.undo bridge arguments preState

end LevelControl

/-! ## VolumeCapability -/

namespace VolumeCapability

def control : LevelControl :=
  { set := "system.volume.set"
    up := "system.volume.up"
    down := "system.volume.down"
    on := "system.volume.mute"
    off := "system.volume.unmute" }

def descriptor : CapabilityDescriptor :=
  { id := "android.device.volume"
    name := "Volume Control"
    description := "Controls device media volume including absolute set, step up/down, " ++
      "and mute/unmute. Supports precise rollback using pre-state capture."
    version := "1.0.0"
    supportedActions := ["system.volume.get", "system.volume.set", "system.volume.up",
      "system.volume.down", "system.volume.mute", "system.volume.unmute"]
    isMutation := true
    supportsRollback := true
    auditRequired := true
    confirmationLevel := .NONE
    idempotent := false }

def validateSet (arguments : PyDict) : Except Exn Unit :=
  match arguments.get? "value" with
  | none => .error ⟨.invalidArgumentError,
      lit "system.volume.set requires a 'value' argument (int 0-100)."⟩
  | some raw => do
    let value ← raw.toInt
    if 0 ≤ value ∧ value ≤ 100 then pure ()
    else .error ⟨.invalidArgumentError,
      [.text "system.volume.set 'value' must be 0-100, got ", .value (.int value), .text "."]⟩

def executeInternal (bridge : SystemBridge δ) : Internal δ := fun action arguments => do
  if action.isStr "system.volume.set" then Act.ofExcept (validateSet arguments)
  bridge action arguments

end VolumeCapability

def VolumeCapability (bridge : SystemBridge δ) : AndroidCapability δ where
  descriptor := VolumeCapability.descriptor
  executeAction := executeAction VolumeCapability.descriptor
    (VolumeCapability.executeInternal bridge)
  supportsRollback := some VolumeCapability.control.supportsRollback
  rollback := some (VolumeCapability.control.rollback bridge)

/-! ## BrightnessCapability -/

namespace BrightnessCapability

def control : LevelControl :=
  { set := "system.brightness.set"
    up := "system.brightness.increase"
    down := "system.brightness.decrease"
    on := "system.brightness.auto_on"
    off := "system.brightness.auto_off" }

def descriptor : CapabilityDescriptor :=
  { id := "android.device.brightness"
    name := "Brightness Control"
    description := "Controls device screen brightness including absolute set, " ++
      "step increase/decrease, and auto-brightness toggle. " ++
      "Supports precise rollback using pre-state capture."
    version := "1.0.0"
    supportedActions := ["system.brightness.get", "system.brightness.set",
      "system.brightness.increase", "system.brightness.decrease", "system.brightness.auto_on",
      "system.brightness.auto_off"]
    isMutation := true
    supportsRollback := true
    auditRequired := true
    confirmationLevel := .NONE
    idempotent := false }

def isNumber : PyValue → Bool
  | .bool _ | .int _ | .float _ => true
  | _ => false

/-- The validation of `system.brightness.set`: unlike the volume's, it takes numbers only. -/
def validateSet (arguments : PyDict) : Except Exn Unit :=
  match arguments.get? "value" with
  | none => .error ⟨.invalidArgumentError,
      lit "system.brightness.set requires a 'value' argument (int 0-100)."⟩
  | some raw =>
    if isNumber raw then do
      let value ← raw.toInt
      if 0 ≤ value ∧ value ≤ 100 then pure ()
      else .error ⟨.invalidArgumentError,
        [.text "system.brightness.set 'value' must be 0-100, got ", .value (.int value),
          .text "."]⟩
    else .error ⟨.invalidArgumentError,
      lit ("system.brightness.set 'value' must be a number, got " ++ raw.typeName ++ ".")⟩

def executeInternal (bridge : SystemBridge δ) : Internal δ := fun action arguments => do
  if action.isStr "system.brightness.set" then Act.ofExcept (validateSet arguments)
  bridge action arguments

end BrightnessCapability

def BrightnessCapability (bridge : SystemBridge δ) : AndroidCapability δ where
  descriptor := BrightnessCapability.descriptor
  executeAction := executeAction BrightnessCapability.descriptor
    (BrightnessCapability.executeInternal bridge)
  supportsRollback := some BrightnessCapability.control.supportsRollback
  rollback := some (BrightnessCapability.control.rollback bridge)

/-! ## FlashlightCapability -/

namespace FlashlightCapability

def descriptor : CapabilityDescriptor :=
  { id := "android.hardware.flashlight"
    name := "Flashlight Control"
    description := "Controls the device flashlight"
    version := "1.0.0"
    supportedActions := ["system.flashlight.on", "system.flashlight.off",
      "system.flashlight.toggle", "system.flashlight.status"]
    isMutation := true
    supportsRollback := true
    auditRequired := true
    confirmationLevel := .USER
    idempotent := false }

def executeInternal (bridge : SystemBridge δ) : Internal δ := bridge

def supportsRollback (arguments : PyDict) : Except Exn Bool :=
  .ok ((actionName arguments).any
    ["system.flashlight.on", "system.flashlight.off", "system.flashlight.toggle"].contains)

def logicalInverse (arguments : PyDict) : Option (String × PyDict) :=
  match actionName arguments with
  | some "system.flashlight.on" => some ("system.flashlight.off", Dict.empty)
  | some "system.flashlight.off" => some ("system.flashlight.on", Dict.empty)
  | some "system.flashlight.toggle" => some ("system.flashlight.toggle", Dict.empty)
  | _ => none

/-- The result of the execution is not looked at: this rollback always inverts. -/
def rollback (bridge : SystemBridge δ) (arguments : PyDict) (_originalResult : PyAny) :
    DeviceAct δ Unit :=
  invert bridge (logicalInverse arguments)

end FlashlightCapability

def FlashlightCapability (bridge : SystemBridge δ) : AndroidCapability δ where
  descriptor := FlashlightCapability.descriptor
  executeAction := executeAction FlashlightCapability.descriptor
    (FlashlightCapability.executeInternal bridge)
  supportsRollback := some FlashlightCapability.supportsRollback
  rollback := some (FlashlightCapability.rollback bridge)

/-! ## Rolling back what left no result -/

/-- **Without a result there is only inversion**: one bridge call, and none for a `set`. -/
theorem LevelControl.rollback_noResult (c : LevelControl) (bridge : SystemBridge δ)
    (arguments : PyDict) (v : PyValue) :
    c.rollback bridge arguments (.value v) = invert bridge (c.logicalInverse arguments) := by
  change c.undo bridge arguments none = _
  unfold undo
  cases ha : actionName arguments with
  | none => simp only [logicalInverse, ha]; rfl
  | some action =>
    by_cases hl : action = c.set ∨ action = c.up ∨ action = c.down
    · simp only [if_pos hl]
    · obtain ⟨_, hup, hdown⟩ := not_or.mp hl |>.imp id not_or.mp
      simp only [logicalInverse, ha, hup, hdown, if_false]
      split_ifs <;> rfl

theorem callBridge_state (bridge : SystemBridge δ) (action : String) (args : PyDict) (d : δ) :
    (callBridge bridge action args d).state = (bridge (.str action) args d).state := by
  unfold callBridge
  rw [Act.run_bind]
  cases (bridge (.str action) args d).result <;> rfl

end IraOS
