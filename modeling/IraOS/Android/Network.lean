import IraOS.Android.Recorded

/-!
# Network bridge and radios

`core/android/bridge/network.py` and the five capabilities over it (`capabilities/wifi.py`,
`bluetooth.py`, `mobile_data.py`, `hotspot.py`, `airplane_mode.py`).

A radio is a dictionary, and what the bridge hands out of one is `dict.copy()`. The copy is new and
what is in it is not: **the list of paired devices is one object**, wherever the copies of the
bluetooth dictionary go. Here it is a `ListRef`, and the lists are apart.

Three things about the five capabilities differ from one to the next, and `Spec` has them as fields:
whether the status is asked for before the action or only after one that recorded nothing, under
which name it is recorded, and which action undoes an action without a record. The hotspot and
airplane mode reach other radios too, and the bridge itself hands out the radios as they were
("pre_state"); for the others the capability asks for its radio's status first and records that.

`network.state.restore` puts back the radios that a pre-state has, as copies that share the list
they hold. Its argument holds references, so it stands apart from `execute`.
-/

set_option autoImplicit false

namespace IraOS

open Lib BaseAndroidCapability

namespace MockNetworkBridge

/-- The identity of a list object. -/
abbrev ListRef := Nat

structure Wifi where
  enabled : Bool := true
  connected : Bool := false
  ssid : PyValue := .none

structure Bluetooth where
  enabled : Bool := false
  pairedDevices : ListRef := 0

structure Radio where
  enabled : Bool
  deriving DecidableEq, Repr

/-- `_state`. -/
structure Radios where
  wifi : Wifi := {}
  bluetooth : Bluetooth := {}
  mobileData : Radio := ⟨true⟩
  hotspot : Radio := ⟨false⟩
  airplaneMode : Radio := ⟨false⟩

structure State where
  radios : Radios := {}
  lists : ListRef → List PyValue := fun _ => []

structure PreState where
  wifi : Option Wifi := none
  bluetooth : Option Bluetooth := none
  mobileData : Option Radio := none
  hotspot : Option Radio := none
  airplaneMode : Option Radio := none

/-- `_get_full_state()`. -/
def Radios.fullState (r : Radios) : PreState :=
  { wifi := some r.wifi
    bluetooth := some r.bluetooth
    mobileData := some r.mobileData
    hotspot := some r.hotspot
    airplaneMode := some r.airplaneMode }

/-- What the bridge answers with. -/
inductive Answer where
  | wifi (copy : Wifi)
  | bluetooth (copy : Bluetooth)
  | radio (copy : Radio)
  /-- `{"status": ..., "pre_state": ...}`, from the actions that reach other radios too. -/
  | cascade (status : Radio) (preState : PreState)
  | restored (currentState : PreState)
  | plain (data : PyValue)

def Answer.preState? : Answer → Option PreState
  | .cascade _ preState => some preState
  | _ => none

abbrev NetworkAct := Act State Exn Empty

def assign (view : Radios → Answer) (f : Radios → Radios) : NetworkAct Answer := do
  let s ← Act.get
  Act.modify fun s => { s with radios := f s.radios }
  pure (view (f s.radios))

def cascade (view : Radios → Radio) (f : Radios → Radios) : NetworkAct Answer := do
  let s ← Act.get
  Act.modify fun s => { s with radios := f s.radios }
  pure (.cascade (view (f s.radios)) s.radios.fullState)

def wifiView (r : Radios) : Answer := .wifi r.wifi

def bluetoothView (r : Radios) : Answer := .bluetooth r.bluetooth

def mobileDataView (r : Radios) : Answer := .radio r.mobileData

def hotspotView (r : Radios) : Answer := .radio r.hotspot

def airplaneView (r : Radios) : Answer := .radio r.airplaneMode

def executeWifi (arguments : PyDict) : String → Option (NetworkAct Answer)
  | "network.wifi.status" => some (assign wifiView id)
  | "network.wifi.enable" =>
    some (assign wifiView fun r => { r with wifi := { r.wifi with enabled := true } })
  | "network.wifi.disable" =>
    some (assign wifiView fun r => { r with wifi := ⟨false, false, .none⟩ })
  | "network.wifi.connect" => some do
    let s ← Act.get
    if s.radios.wifi.enabled then
      let ssid := (arguments.get? "ssid").getD (.str "unknown")
      assign wifiView fun r => { r with wifi := { r.wifi with connected := true, ssid := ssid } }
    else Act.throw ⟨.runtimeError, lit "Cannot connect to WiFi while it is disabled."⟩
  | "network.wifi.disconnect" =>
    some (assign wifiView fun r =>
      { r with wifi := { r.wifi with connected := false, ssid := .none } })
  | _ => none

/-- `device_id in paired_devices`. -/
def isPaired (deviceId : PyValue) (devices : List PyValue) : Bool :=
  devices.any fun device => device.equals deviceId

def changeList (ref : ListRef) (f : List PyValue → List PyValue) (s : State) : State :=
  { s with lists := Function.update s.lists ref (f (s.lists ref)) }

/-- `pair`'s branch that appends. -/
def pairs (deviceId : PyValue) (devices : List PyValue) : Bool :=
  deviceId.truthy && !isPaired deviceId devices

def executeBluetooth (arguments : PyDict) : String → Option (NetworkAct Answer)
  | "network.bluetooth.status" => some (assign bluetoothView id)
  | "network.bluetooth.enable" =>
    some (assign bluetoothView fun r =>
      { r with bluetooth := { r.bluetooth with enabled := true } })
  | "network.bluetooth.disable" =>
    some (assign bluetoothView fun r =>
      { r with bluetooth := { r.bluetooth with enabled := false } })
  | "network.bluetooth.pair" => some do
    let s ← Act.get
    if s.radios.bluetooth.enabled then
      let deviceId := argument arguments "device_id"
      let devices := s.radios.bluetooth.pairedDevices
      if pairs deviceId (s.lists devices) then
        Act.modify (changeList devices fun l => l ++ [deviceId])
      assign bluetoothView id
    else Act.throw ⟨.runtimeError, lit "Cannot pair Bluetooth while it is disabled."⟩
  | "network.bluetooth.unpair" => some do
    let s ← Act.get
    let deviceId := argument arguments "device_id"
    let devices := s.radios.bluetooth.pairedDevices
    if isPaired deviceId (s.lists devices) then
      -- `list.remove` takes the first that is equal
      Act.modify (changeList devices fun l => l.eraseP fun device => device.equals deviceId)
    assign bluetoothView id
  | _ => none

def executeMobileData : String → Option (NetworkAct Answer)
  | "network.mobile_data.status" => some (assign mobileDataView id)
  | "network.mobile_data.enable" =>
    some (assign mobileDataView fun r => { r with mobileData := ⟨true⟩ })
  | "network.mobile_data.disable" =>
    some (assign mobileDataView fun r => { r with mobileData := ⟨false⟩ })
  | _ => none

/-- The hotspot takes the Wi-Fi down, and does not bring it back. -/
def executeHotspot : String → Option (NetworkAct Answer)
  | "network.hotspot.status" => some (assign hotspotView id)
  | "network.hotspot.enable" =>
    some (cascade Radios.hotspot fun r =>
      { r with hotspot := ⟨true⟩, wifi := ⟨false, false, .none⟩ })
  | "network.hotspot.disable" =>
    some (cascade Radios.hotspot fun r => { r with hotspot := ⟨false⟩ })
  | _ => none

/-- Airplane mode takes everything down. -/
def executeAirplane : String → Option (NetworkAct Answer)
  | "network.airplane.status" => some (assign airplaneView id)
  | "network.airplane.enable" =>
    some (cascade Radios.airplaneMode fun r =>
      { airplaneMode := ⟨true⟩
        wifi := ⟨false, false, .none⟩
        bluetooth := { r.bluetooth with enabled := false }
        mobileData := ⟨false⟩
        hotspot := ⟨false⟩ })
  | "network.airplane.disable" =>
    some (cascade Radios.airplaneMode fun r => { r with airplaneMode := ⟨false⟩ })
  | _ => none

/-- The two reads left for old tests. -/
def executeOld : String → Option (NetworkAct Answer)
  | "wifi.read" =>
    some (pure (.plain (.dict [("enabled", .bool true), ("ssid", .str "IRA_OS_WIFI")])))
  | "bluetooth.read" => some (pure (.plain (.dict [("enabled", .bool false)])))
  | _ => none

def unsupported (action : PyValue) : NetworkAct Answer :=
  Act.throw ⟨.unsupportedPlatformError,
    [.text "MockNetworkBridge does not support action: ", .value action]⟩

/-- `execute`, every action but "network.state.restore", whose argument holds references. -/
def execute : PyValue → PyDict → NetworkAct Answer
  | .str action, arguments =>
    -- the branches of the one `if`, from the top; no two groups share an action
    ((executeWifi arguments action).orElse fun _ =>
      (executeBluetooth arguments action).orElse fun _ => (executeMobileData action).orElse fun _ =>
        (executeHotspot action).orElse fun _ => (executeAirplane action).orElse fun _ =>
          executeOld action).getD (unsupported (.str action))
  | action, _ => unsupported action

/-- The radios in a pre-state are put back, as copies that share what they hold. -/
def PreState.putBack (p : PreState) (r : Radios) : Radios :=
  { wifi := p.wifi.getD r.wifi
    bluetooth := p.bluetooth.getD r.bluetooth
    mobileData := p.mobileData.getD r.mobileData
    hotspot := p.hotspot.getD r.hotspot
    airplaneMode := p.airplaneMode.getD r.airplaneMode }

def restore (state : PreState) : NetworkAct Answer := do
  Act.modify fun s => { s with radios := state.putBack s.radios }
  let s ← Act.get
  pure (.restored s.radios.fullState)

end MockNetworkBridge

open MockNetworkBridge

/-! ## The capabilities -/

namespace NetworkCapability

/-- The data of a result: the bridge's answer, or `{"status": ..., "pre_state": ...}`. -/
inductive Data where
  | answer (res : Answer)
  | recorded (status : Answer) (preState : PreState)

def Data.preState? : Data → Option PreState
  | .answer res => res.preState?
  | .recorded _ preState => some preState

/-- What tells the five capabilities apart: the actions that mutate, when the status is asked for
and under which radio it is recorded, and which action inverts which. Everything else of them is one
definition. -/
structure Spec where
  descriptor : CapabilityDescriptor
  status : String
  mutatingActions : List String
  /-- Whether the status is asked for before the action, or only after one that recorded nothing. -/
  statusFirst : Bool
  /-- `{radio: status}`. -/
  keyed : Answer → PreState
  /-- What undoes an action that recorded nothing. -/
  inverse : String → Option String

variable (c : Spec)

def record (res pre : Answer) : Data :=
  match res.preState? with
  | some _ => .answer res
  | none => .recorded res (c.keyed pre)

def mutate (action : PyValue) (arguments : PyDict) : NetworkAct Data :=
  if c.statusFirst then do
    let pre ← execute (.str c.status) Dict.empty
    let res ← execute action arguments
    pure (record c res pre)
  else do
    let res ← execute action arguments
    match res.preState? with
    | some _ => pure (.answer res)
    | none => do
      -- the status after the action, which is what the source records here
      let pre ← execute (.str c.status) Dict.empty
      pure (.recorded res (c.keyed pre))

def executeInternal (action : PyValue) (arguments : PyDict) : NetworkAct Data := do
  if ← Act.ofExcept (inFrozenset action c.mutatingActions) then mutate c action arguments
  else
    let res ← execute action arguments
    pure (.answer res)

def preStateOf : Reported Data → Option PreState
  | .ok data => data.preState?
  | .error _ => none

def rollback (arguments : PyDict) (originalResult : Reported Data) : NetworkAct Unit :=
  match preStateOf originalResult with
  | some preState => do
    let _ ← restore preState
    pure ()
  | none =>
    match (actionName arguments).bind c.inverse with
    | some action => do
      let _ ← execute (.str action) Dict.empty
      pure ()
    | none => pure ()

end NetworkCapability

def NetworkCapability (c : NetworkCapability.Spec) :
    RecordingCapability MockNetworkBridge.State NetworkCapability.Data where
  descriptor := c.descriptor
  executeInternal := NetworkCapability.executeInternal c
  supportsRollback arguments := inFrozenset (argument arguments "action") c.mutatingActions
  rollback := NetworkCapability.rollback c

namespace NetworkCapability

def wifi : Spec where
  descriptor :=
    { id := "android.device.wifi"
      name := "Wi-Fi Control"
      description := "Controls device Wi-Fi state and connections."
      version := "1.0.0"
      supportedActions := ["network.wifi.status", "network.wifi.enable", "network.wifi.disable",
        "network.wifi.connect", "network.wifi.disconnect"]
      isMutation := true
      supportsRollback := true
      auditRequired := true }
  status := "network.wifi.status"
  mutatingActions := ["network.wifi.enable", "network.wifi.disable", "network.wifi.connect",
    "network.wifi.disconnect"]
  statusFirst := true
  keyed
    | .wifi copy => { wifi := some copy }
    | _ => {}
  inverse
    | "network.wifi.enable" => some "network.wifi.disable"
    | "network.wifi.disable" => some "network.wifi.enable"
    | "network.wifi.connect" => some "network.wifi.disconnect"
    | _ => none

def bluetooth : Spec where
  descriptor :=
    { id := "android.device.bluetooth"
      name := "Bluetooth Control"
      description := "Controls device Bluetooth state and pairing."
      version := "1.0.0"
      supportedActions := ["network.bluetooth.status", "network.bluetooth.enable",
        "network.bluetooth.disable", "network.bluetooth.pair", "network.bluetooth.unpair"]
      isMutation := true
      supportsRollback := true
      auditRequired := true }
  status := "network.bluetooth.status"
  mutatingActions := ["network.bluetooth.enable", "network.bluetooth.disable",
    "network.bluetooth.pair", "network.bluetooth.unpair"]
  statusFirst := true
  keyed
    | .bluetooth copy => { bluetooth := some copy }
    | _ => {}
  inverse
    | "network.bluetooth.enable" => some "network.bluetooth.disable"
    | "network.bluetooth.disable" => some "network.bluetooth.enable"
    | _ => none

def mobileData : Spec where
  descriptor :=
    { id := "android.device.mobile_data"
      name := "Mobile Data Control"
      description := "Controls device Mobile Data state."
      version := "1.0.0"
      supportedActions := ["network.mobile_data.status", "network.mobile_data.enable",
        "network.mobile_data.disable"]
      isMutation := true
      supportsRollback := true
      auditRequired := true }
  status := "network.mobile_data.status"
  mutatingActions := ["network.mobile_data.enable", "network.mobile_data.disable"]
  statusFirst := true
  keyed
    | .radio copy => { mobileData := some copy }
    | _ => {}
  inverse
    | "network.mobile_data.enable" => some "network.mobile_data.disable"
    | "network.mobile_data.disable" => some "network.mobile_data.enable"
    | _ => none

def hotspot : Spec where
  descriptor :=
    { id := "android.device.hotspot"
      name := "Hotspot Control"
      description := "Controls device Hotspot state."
      version := "1.0.0"
      supportedActions := ["network.hotspot.status", "network.hotspot.enable",
        "network.hotspot.disable"]
      isMutation := true
      supportsRollback := true
      auditRequired := true }
  status := "network.hotspot.status"
  mutatingActions := ["network.hotspot.enable", "network.hotspot.disable"]
  statusFirst := false
  keyed
    | .radio copy => { hotspot := some copy }
    | _ => {}
  inverse
    | "network.hotspot.enable" => some "network.hotspot.disable"
    | "network.hotspot.disable" => some "network.hotspot.enable"
    | _ => none

def airplaneMode : Spec where
  descriptor :=
    { id := "android.device.airplane_mode"
      name := "Airplane Mode Control"
      description := "Controls device Airplane Mode."
      version := "1.0.0"
      supportedActions := ["network.airplane.status", "network.airplane.enable",
        "network.airplane.disable"]
      isMutation := true
      supportsRollback := true
      auditRequired := true }
  status := "network.airplane.status"
  mutatingActions := ["network.airplane.enable", "network.airplane.disable"]
  statusFirst := false
  keyed
    | .radio copy => { airplaneMode := some copy }
    | _ => {}
  inverse
    | "network.airplane.enable" => some "network.airplane.disable"
    | "network.airplane.disable" => some "network.airplane.enable"
    | _ => none

end NetworkCapability

end IraOS
