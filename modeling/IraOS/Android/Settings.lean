import IraOS.Android.Capabilities

/-!
# Rotation, do not disturb, screen timeout

`core/android/capabilities/rotation.py`, `do_not_disturb.py` and `screen_timeout.py`: settings that
are one value each, validated against a list and undone from the recorded pre-state. What each does
where nothing was recorded is its own: rotation inverts, do not disturb goes back to normal, and the
timeout is left alone.

Three differences are easily overlooked. The orientation comes back only together with a lock, so
undoing an unlocking sets it and undoing a locking does not. The screen timeout goes back by a call
of the bridge, which validates nothing, so any timeout that was there before comes back. And what a
duration has to be is `int()` of it, for anything but a `bool`: an infinite float raises an
`OverflowError`, which is not among the exceptions the validation turns into its own.
-/

set_option autoImplicit false

namespace IraOS

open Lib BaseAndroidCapability

variable {δ : Type}

/-! ## Reading and checking -/

def recordedPreState : PyAny → Except Exn (Option PyValue)
  | .value _ => .ok none
  | .result r => do
    if ← hasKey r.data "pre_state" then
      let preState ← subscript r.data "pre_state"
      pure (some preState)
    else pure none

def recordedField (originalResult : PyAny) (key : String) : Except Exn (Option PyValue) := do
  match ← recordedPreState originalResult with
  | none => pure none
  | some preState =>
    if ← hasKey preState key then
      let value ← subscript preState key
      pure (some value)
    else pure none

def containsInt (v : PyValue) (n : Int) : Except Exn Bool :=
  match v with
  | .list xs => .ok (xs.any fun x => x.equals (.int n))
  | .dict _ => .ok false
  | .str _ => .error ⟨.typeError, lit "'in <string>' requires string as left operand, not int"⟩
  | v => .error ⟨.typeError, lit ("argument of type '" ++ v.typeName ++ "' is not iterable")⟩

/-- The argument `name` is one of a `frozenset`, which the message joins in whatever order it
iterates in. -/
def checkOneOf (name : String) (valid : List String) (value : PyValue) : Except Exn Unit := do
  if ← inFrozenset value valid then pure ()
  else
    .error ⟨.invalidArgumentError, lit (name ++ " must be one of: " ++ ", ".intercalate valid)⟩

def unsupportedAction (action : PyValue) : Exn :=
  ⟨.invalidArgumentError, [.text "Unsupported action: ", .value action]⟩

/-! ## RotationCapability -/

namespace RotationCapability

def descriptor : CapabilityDescriptor :=
  { id := "android.device.rotation"
    name := "Rotation Control"
    description := "Controls the device screen rotation and orientation lock."
    version := "1.0.0"
    supportedActions := ["system.rotation.get", "system.rotation.lock", "system.rotation.unlock"]
    isMutation := true
    supportsRollback := true
    auditRequired := true
    confirmationLevel := .NONE
    idempotent := false }

def mutatingActions : List String := ["system.rotation.lock", "system.rotation.unlock"]

def validOrientations : List String := ["PORTRAIT", "LANDSCAPE"]

def executeInternal (bridge : SystemBridge δ) : Internal δ := fun action arguments =>
  match action with
  | .str "system.rotation.get" => bridge action Dict.empty
  | .str "system.rotation.unlock" => bridge action Dict.empty
  | .str "system.rotation.lock" => do
    let orientation := argument arguments "orientation"
    Act.ofExcept (checkOneOf "orientation" validOrientations orientation)
    bridge action (Dict.empty.set "orientation" orientation)
  | _ => Act.throw (unsupportedAction action)

def lockAt (bridge : SystemBridge δ) (orientation : PyValue) : DeviceAct δ Unit :=
  callBridge bridge "system.rotation.lock" (Dict.empty.set "orientation" orientation)

/-- The orientation comes back with the lock, and only with it: unlocking sets none. -/
def restore (bridge : SystemBridge δ) (preState : PyValue) : DeviceAct δ Unit := do
  let locked ← Act.ofExcept (getKey preState "locked" .none)
  if locked.truthy then
    let orientation ← Act.ofExcept (getKey preState "orientation" (.str "PORTRAIT"))
    lockAt bridge orientation
  else callBridge bridge "system.rotation.unlock" Dict.empty

def rollback (bridge : SystemBridge δ) (arguments : PyDict) (originalResult : PyAny) :
    DeviceAct δ Unit := do
  match ← Act.ofExcept (recordedPreState originalResult) with
  | some preState => restore bridge preState
  | none =>
    match actionName arguments with
    | some "system.rotation.lock" => callBridge bridge "system.rotation.unlock" Dict.empty
    | some "system.rotation.unlock" => lockAt bridge (.str "PORTRAIT")
    | _ => pure ()

end RotationCapability

def RotationCapability (bridge : SystemBridge δ) : AndroidCapability δ where
  descriptor := RotationCapability.descriptor
  executeAction := executeAction RotationCapability.descriptor
    (RotationCapability.executeInternal bridge)
  supportsRollback := some fun arguments =>
    inFrozenset (argument arguments "action") RotationCapability.mutatingActions
  rollback := some (RotationCapability.rollback bridge)

/-! ## DoNotDisturbCapability -/

namespace DoNotDisturbCapability

def descriptor : CapabilityDescriptor :=
  { id := "android.device.dnd"
    name := "Do Not Disturb Control"
    description := "Controls the device Do Not Disturb (DND) mode."
    version := "1.0.0"
    supportedActions := ["system.dnd.get", "system.dnd.set"]
    isMutation := true
    supportsRollback := true
    auditRequired := true
    confirmationLevel := .NONE
    idempotent := false }

def mutatingActions : List String := ["system.dnd.set"]

def validModes : List String := ["NORMAL", "PRIORITY", "ALARMS", "SILENT"]

def setMode (bridge : SystemBridge δ) (mode : PyValue) : DeviceAct δ PyValue :=
  bridge (.str "system.dnd.set") (Dict.empty.set "mode" mode)

def executeInternal (bridge : SystemBridge δ) : Internal δ := fun action arguments =>
  match action with
  | .str "system.dnd.get" => bridge action Dict.empty
  | .str "system.dnd.set" => do
    let mode := argument arguments "mode"
    Act.ofExcept (checkOneOf "mode" validModes mode)
    setMode bridge mode
  | _ => Act.throw (unsupportedAction action)

def rollback (bridge : SystemBridge δ) (arguments : PyDict) (originalResult : PyAny) :
    DeviceAct δ Unit :=
  match actionName arguments with
  | some "system.dnd.set" => do
    let mode ← Act.ofExcept (recordedField originalResult "mode")
    let _ ← setMode bridge (mode.getD (.str "NORMAL"))
    pure ()
  | _ => pure ()

end DoNotDisturbCapability

def DoNotDisturbCapability (bridge : SystemBridge δ) : AndroidCapability δ where
  descriptor := DoNotDisturbCapability.descriptor
  executeAction := executeAction DoNotDisturbCapability.descriptor
    (DoNotDisturbCapability.executeInternal bridge)
  supportsRollback := some fun arguments =>
    inFrozenset (argument arguments "action") DoNotDisturbCapability.mutatingActions
  rollback := some (DoNotDisturbCapability.rollback bridge)

/-! ## ScreenTimeoutCapability -/

namespace ScreenTimeoutCapability

def descriptor : CapabilityDescriptor :=
  { id := "android.device.screen_timeout"
    name := "Screen Timeout Control"
    description := "Controls the device screen timeout duration."
    version := "1.0.0"
    supportedActions := ["system.screen_timeout.get", "system.screen_timeout.get_supported",
      "system.screen_timeout.set"]
    isMutation := true
    supportsRollback := true
    auditRequired := true
    confirmationLevel := .NONE
    idempotent := false }

def mutatingActions : List String := ["system.screen_timeout.set"]

/-- `int(duration)`, of anything but a `bool`; an infinite `float` raises an `OverflowError` that
nothing here catches. -/
def durationOf (duration : PyValue) : Except Exn Int :=
  match duration with
  | .none => .error ⟨.invalidArgumentError, lit "duration_ms is required for set action"⟩
  | .bool _ => .error ⟨.invalidArgumentError, lit "duration_ms must be an integer"⟩
  | duration =>
    match duration.toInt with
    | .ok value => .ok value
    | .error exc =>
      if exc.cls = .valueError ∨ exc.cls = .typeError then
        .error ⟨.invalidArgumentError, lit "duration_ms must be an integer"⟩
      else .error exc

def setDuration (bridge : SystemBridge δ) (duration : PyValue) : DeviceAct δ PyValue :=
  bridge (.str "system.screen_timeout.set") (Dict.empty.set "duration_ms" duration)

def executeInternal (bridge : SystemBridge δ) : Internal δ := fun action arguments =>
  match action with
  | .str "system.screen_timeout.get" => bridge action Dict.empty
  | .str "system.screen_timeout.get_supported" => bridge action Dict.empty
  | .str "system.screen_timeout.set" => do
    let duration ← Act.ofExcept (durationOf (argument arguments "duration_ms"))
    let response ← bridge (.str "system.screen_timeout.get_supported") Dict.empty
    let supported ← Act.ofExcept (getKey response "supported" (.list []))
    if ← Act.ofExcept (containsInt supported duration) then
      setDuration bridge (.int duration)
    else
      Act.throw ⟨.invalidArgumentError, [.text "duration_ms ", .value (.int duration),
        .text " is not supported. Supported values: ", .value supported]⟩
  | _ => Act.throw (unsupportedAction action)

def rollback (bridge : SystemBridge δ) (arguments : PyDict) (originalResult : PyAny) :
    DeviceAct δ Unit :=
  match actionName arguments with
  | some "system.screen_timeout.set" => do
    match ← Act.ofExcept (recordedField originalResult "duration_ms") with
    | some duration => do
      let _ ← setDuration bridge duration
      pure ()
    | none => pure ()
  | _ => pure ()

end ScreenTimeoutCapability

def ScreenTimeoutCapability (bridge : SystemBridge δ) : AndroidCapability δ where
  descriptor := ScreenTimeoutCapability.descriptor
  executeAction := executeAction ScreenTimeoutCapability.descriptor
    (ScreenTimeoutCapability.executeInternal bridge)
  supportsRollback := some fun arguments =>
    inFrozenset (argument arguments "action") ScreenTimeoutCapability.mutatingActions
  rollback := some (ScreenTimeoutCapability.rollback bridge)

end IraOS
