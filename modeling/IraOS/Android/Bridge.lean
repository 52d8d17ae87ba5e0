import IraOS.Core.Capability

/-!
# SystemBridge

`core/android/bridge/system.py`: the in-memory bridge, every action of it. What a capability needs
of a bridge is one `execute`, so `SystemBridge δ` is that function, and a bridge that fails is the
same bridge behind a schedule of faults (`faulty`): each call goes through, raises before it touches
the state, or raises after.

The mock is the only bridge the source has, and its branches are what the capabilities were written
against, so they are here one by one: which argument each reads, with which default; whether it
clamps, and on which side; what it answers, and whether the answer has a "pre_state". Setting a
level clamps on both sides, raising it on one and lowering it on the other, and the step is whatever
`int()` makes of the argument.

The faults are the surroundings' choice, as the exceptions of a real bridge would be. A schedule is
a function of how often the bridge was called, so a quantifier over schedules covers every way in
which some calls of a run fail and others do not; `faulty_state` is all that is needed of them.
-/

set_option autoImplicit false

namespace IraOS

open Lib

/-- `SystemBridge.execute`, over the state `δ` of whatever bridge it is. -/
abbrev SystemBridge (δ : Type) := PyValue → PyDict → DeviceAct δ PyValue

namespace MockSystemBridge

/-- The instance attributes of a `MockSystemBridge`. The mode, the orientation and the timeout are
values of any kind, as the bridge keeps what it is given for them. -/
structure State where
  flashlightOn : Bool := false
  volumeLevel : Int := 50
  volumeMuted : Bool := false
  brightnessLevel : Int := 50
  brightnessAuto : Bool := true
  isVibrating : Bool := false
  dndMode : PyValue := .str "OFF"
  rotationLocked : Bool := false
  rotationOrientation : PyValue := .str "PORTRAIT"
  screenTimeoutMs : PyValue := .int 60000

def supportedTimeouts : PyValue :=
  .list [.int 15000, .int 30000, .int 60000, .int 120000, .int 300000, .int 600000, .int 1800000]

def argOr (args : PyDict) (key : String) (default : PyValue) : PyValue :=
  (args.get? key).getD default

def intArg (args : PyDict) (key : String) (default : Int) : DeviceAct State Int :=
  Act.ofExcept (argOr args key (.int default)).toInt

def volumeState (s : State) : List (String × PyValue) :=
  [("level", .int s.volumeLevel), ("muted", .bool s.volumeMuted)]

def brightnessState (s : State) : List (String × PyValue) :=
  [("level", .int s.brightnessLevel), ("auto", .bool s.brightnessAuto)]

def rotationState (s : State) : List (String × PyValue) :=
  [("locked", .bool s.rotationLocked), ("orientation", s.rotationOrientation)]

/-- Assign, and answer with `view` of the new state and, under "pre_state", of the old one. The
answer's pre-state is taken before the assignment. -/
def change (view : State → List (String × PyValue)) (f : State → State) :
    DeviceAct State PyValue := do
  let s ← Act.get
  Act.modify f
  pure (.dict (view (f s) ++ [("pre_state", .dict (view s))]))

def assign (view : State → List (String × PyValue)) (f : State → State) :
    DeviceAct State PyValue := do
  let s ← Act.get
  Act.modify f
  pure (.dict (view (f s)))

def query (view : State → List (String × PyValue)) : DeviceAct State PyValue := assign view id

def flashlightState (s : State) : List (String × PyValue) := [("enabled", .bool s.flashlightOn)]

def executeVolume (args : PyDict) : String → Option (DeviceAct State PyValue)
  | "system.volume.get" => some (query volumeState)
  | "system.volume.set" => some do
    let s ← Act.get
    let value ← intArg args "value" s.volumeLevel
    change volumeState fun s => { s with volumeLevel := max 0 (min 100 value) }
  | "system.volume.up" => some do
    let step ← intArg args "step" 10
    change volumeState fun s => { s with volumeLevel := min 100 (s.volumeLevel + step) }
  | "system.volume.down" => some do
    let step ← intArg args "step" 10
    change volumeState fun s => { s with volumeLevel := max 0 (s.volumeLevel - step) }
  | "system.volume.mute" => some (change volumeState fun s => { s with volumeMuted := true })
  | "system.volume.unmute" => some (change volumeState fun s => { s with volumeMuted := false })
  | _ => none

def executeBrightness (args : PyDict) : String → Option (DeviceAct State PyValue)
  | "system.brightness.get" => some (query brightnessState)
  | "system.brightness.set" => some do
    let s ← Act.get
    let value ← intArg args "value" s.brightnessLevel
    change brightnessState fun s => { s with brightnessLevel := max 0 (min 100 value) }
  | "system.brightness.increase" => some do
    let step ← intArg args "step" 10
    change brightnessState fun s => { s with brightnessLevel := min 100 (s.brightnessLevel + step) }
  | "system.brightness.decrease" => some do
    let step ← intArg args "step" 10
    change brightnessState fun s => { s with brightnessLevel := max 0 (s.brightnessLevel - step) }
  | "system.brightness.auto_on" =>
    some (change brightnessState fun s => { s with brightnessAuto := true })
  | "system.brightness.auto_off" =>
    some (change brightnessState fun s => { s with brightnessAuto := false })
  | _ => none

def executeFlashlight : String → Option (DeviceAct State PyValue)
  | "system.flashlight.status" => some (query flashlightState)
  | "system.flashlight.on" => some (assign flashlightState fun s => { s with flashlightOn := true })
  | "system.flashlight.off" =>
    some (assign flashlightState fun s => { s with flashlightOn := false })
  | "system.flashlight.toggle" =>
    some (assign flashlightState fun s => { s with flashlightOn := !s.flashlightOn })
  | _ => none

def executeOther (args : PyDict) : String → Option (DeviceAct State PyValue)
  | "battery.read" => some (pure (.dict [("level", .int 85), ("is_charging", .bool false)]))
  | "clipboard.read" => some (pure (.dict [("text", .str "mocked clipboard content")]))
  | "system.vibrate.start" =>
    some (assign (fun _ => [("success", .bool true)]) fun s => { s with isVibrating := true })
  | "system.vibrate.cancel" =>
    some (assign (fun _ => [("success", .bool true)]) fun s => { s with isVibrating := false })
  | "system.dnd.get" => some (query fun s => [("mode", s.dndMode)])
  | "system.dnd.set" =>
    some (change (fun s => [("mode", s.dndMode)])
      fun s => { s with dndMode := argOr args "mode" (.str "OFF") })
  | "system.rotation.get" => some (query rotationState)
  | "system.rotation.lock" =>
    some (change rotationState fun s =>
      { s with
        rotationLocked := true
        rotationOrientation := argOr args "orientation" s.rotationOrientation })
  | "system.rotation.unlock" =>
    some (change rotationState fun s => { s with rotationLocked := false })
  | "system.screen_timeout.get" => some (query fun s => [("duration_ms", s.screenTimeoutMs)])
  | "system.screen_timeout.get_supported" =>
    some (query fun _ => [("supported", supportedTimeouts)])
  | "system.screen_timeout.set" =>
    some (change (fun s => [("duration_ms", s.screenTimeoutMs)])
      fun s => { s with screenTimeoutMs := argOr args "duration_ms" s.screenTimeoutMs })
  | _ => none

def unsupported (action : PyValue) : DeviceAct State PyValue :=
  Act.throw ⟨.unsupportedPlatformError,
    [.text "MockSystemBridge does not support action: ", .value action]⟩

def execute : SystemBridge State
  | .str action, args =>
    ((executeFlashlight action).orElse fun _ => (executeVolume args action).orElse fun _ =>
      (executeBrightness args action).orElse fun _ => executeOther args action).getD
        (unsupported (.str action))
  | action, _ => unsupported action

end MockSystemBridge

/-! ## A bridge that can fail -/

inductive Fault where
  | none
  | before (exc : Exn)
  | after (exc : Exn)

structure FaultyState (δ : Type) where
  bridge : δ
  calls : Nat := 0

variable {δ : Type}

def SystemBridge.faulty (bridge : SystemBridge δ) (faults : Nat → Fault) :
    SystemBridge (FaultyState δ) := fun action args s =>
  let r := bridge action args s.bridge
  match faults s.calls with
  | .none => ⟨r.result, ⟨r.state, s.calls + 1⟩, []⟩
  | .before exc => ⟨.error exc, ⟨s.bridge, s.calls + 1⟩, []⟩
  | .after exc => ⟨.error exc, ⟨r.state, s.calls + 1⟩, []⟩

/-- However a call of the failing bridge ends, it did its work on the state once or not at all. -/
theorem faulty_state (bridge : SystemBridge δ) (faults : Nat → Fault) (action : PyValue)
    (args : PyDict) (s : FaultyState δ) :
    (bridge.faulty faults action args s).state.bridge = s.bridge ∨
      (bridge.faulty faults action args s).state.bridge = (bridge action args s.bridge).state := by
  unfold SystemBridge.faulty
  cases faults s.calls with
  | none => exact Or.inr rfl
  | before exc => exact Or.inl rfl
  | after exc => exact Or.inr rfl

end IraOS
