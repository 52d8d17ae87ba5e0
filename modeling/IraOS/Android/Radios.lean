import IraOS.Android.Pairing
import IraOS.Lib.System

/-!
# Radios that exclude each other

Every network capability declares which radios it conflicts with (`conflicts_with` of its
descriptor, `core/android/capabilities/wifi.py` and its siblings), each conflict on both sides. What
there is to keep them apart is in the bridge, on one side of each: the hotspot takes the Wi-Fi down,
and airplane mode takes everything down. **Nothing takes these two down**, or refuses, when one of
the others comes up, in a command or in the rollback that puts it back. `NetworkStep.Fits` is what a
step has to meet, and it is exact.

## The invariant

`Consistent` has the declared conflicts, no two of them on together, and that Wi-Fi is connected
only while it is on. The descriptors' declarations are kept as the lists of names they are, and
`consistent_iff` says which pairs they come to.

## Commands and rollbacks in one system

A rollback may come at any time after its command and more than once, so what has been returned is a
part of the configuration (`NetworkConfig.returned`). What a result has recorded of the radios was
consistent when it was recorded (`Kept`), but putting it back into what the radios are by then may
bring two of them together. A rollback fits if it turns nothing on, or finds everything off that has
to be.

## The proof

`Network.Did` is what each mutating action does to the radios, one constructor for each, and is all
that is used of the bridge afterwards. One action leaves consistent radios consistent just if what
it turns on finds everything clear (`Network.Did.consistent_iff`); a rollback likewise
(`consistent_rollback_iff`); and runs follow by the rule for exact guards.
-/

set_option autoImplicit false

namespace IraOS

open Lib BaseAndroidCapability MockNetworkBridge NetworkCapability

/-! ## Conflicts -/

namespace Network

/-- The name a radio has in `_state` and in a `conflicts_with`. -/
def radio : Network → String
  | .wifi => "wifi"
  | .bluetooth => "bluetooth"
  | .mobileData => "mobile_data"
  | .hotspot => "hotspot"
  | .airplaneMode => "airplane_mode"

def conflictsWith : Network → List String
  | .wifi => ["hotspot", "airplane_mode"]
  | .bluetooth => ["airplane_mode"]
  | .mobileData => ["airplane_mode"]
  | .hotspot => ["wifi", "airplane_mode"]
  | .airplaneMode => ["wifi", "bluetooth", "hotspot", "mobile_data"]

def Conflict (kind other : Network) : Prop :=
  other.radio ∈ kind.conflictsWith ∧ kind.radio ∈ other.conflictsWith

instance (kind other : Network) : Decidable (kind.Conflict other) :=
  inferInstanceAs (Decidable (_ ∧ _))

def enable : Network → String
  | .wifi => "network.wifi.enable"
  | .bluetooth => "network.bluetooth.enable"
  | .mobileData => "network.mobile_data.enable"
  | .hotspot => "network.hotspot.enable"
  | .airplaneMode => "network.airplane.enable"

end Network

namespace MockNetworkBridge.Radios

def enabled (r : Radios) : Network → Bool
  | .wifi => r.wifi.enabled
  | .bluetooth => r.bluetooth.enabled
  | .mobileData => r.mobileData.enabled
  | .hotspot => r.hotspot.enabled
  | .airplaneMode => r.airplaneMode.enabled

/-- No two radios in conflict are on together, and Wi-Fi is connected only while it is on. The
hotspot is in conflict with Wi-Fi, and airplane mode with all of the others. -/
structure Consistent (r : Radios) : Prop where
  apart : ∀ kind other : Network, kind.Conflict other →
    ¬ (r.enabled kind = true ∧ r.enabled other = true)
  connected : r.wifi.connected = true → r.wifi.enabled = true

/-- What has to be off for a radio to come up: what conflicts with it, and is not taken down by
it. -/
def Clear (r : Radios) : Network → Prop
  | .wifi => r.hotspot.enabled = false ∧ r.airplaneMode.enabled = false
  | .bluetooth | .mobileData | .hotspot => r.airplaneMode.enabled = false
  | .airplaneMode => True

theorem consistent_iff {r : Radios} : r.Consistent ↔
    (r.hotspot.enabled = true → r.wifi.enabled = false) ∧
      (r.airplaneMode.enabled = true → r.wifi.enabled = false ∧ r.bluetooth.enabled = false ∧
        r.mobileData.enabled = false ∧ r.hotspot.enabled = false) ∧
      (r.wifi.connected = true → r.wifi.enabled = true) := by
  constructor
  · intro h
    have off : ∀ kind other : Network, kind.Conflict other → r.enabled kind = true →
        r.enabled other = false := by
      intro kind other hconflict hon
      cases hother : r.enabled other with
      | false => rfl
      | true => exact absurd ⟨hon, hother⟩ (h.apart kind other hconflict)
    refine ⟨off .hotspot .wifi (by decide), ?_, h.connected⟩
    intro hon
    exact ⟨off .airplaneMode .wifi (by decide) hon, off .airplaneMode .bluetooth (by decide) hon,
      off .airplaneMode .mobileData (by decide) hon, off .airplaneMode .hotspot (by decide) hon⟩
  · rintro ⟨hhotspot, hairplane, hconnected⟩
    refine ⟨?_, hconnected⟩
    rintro kind other hconflict ⟨hon, hother⟩
    -- of the pairs only those in conflict are left, and each is one of the three facts
    cases kind <;> cases other <;>
      first
        | exact absurd hconflict (by decide)
        | simp_all [enabled]

theorem Consistent.clear {r : Radios} (h : r.Consistent) (kind : Network)
    (hon : r.enabled kind = true) : r.Clear kind := by
  obtain ⟨hhotspot, hairplane, _⟩ := consistent_iff.mp h
  cases kind <;> simp_all [enabled, Clear]

theorem Consistent.wifi_iff {r : Radios} (h : r.Consistent) {w : Wifi} :
    { r with wifi := w }.Consistent ↔
      (w.enabled = true → r.Clear .wifi) ∧ (w.connected = true → w.enabled = true) := by
  obtain ⟨_, hairplane, _⟩ := consistent_iff.mp h
  rw [consistent_iff]
  unfold Clear
  cases hhotspot : r.hotspot.enabled <;> cases hmode : r.airplaneMode.enabled <;> simp_all

theorem Consistent.bluetooth_iff {r : Radios} (h : r.Consistent) {b : Bluetooth} :
    { r with bluetooth := b }.Consistent ↔ (b.enabled = true → r.Clear .bluetooth) := by
  obtain ⟨hhotspot, hairplane, hconnected⟩ := consistent_iff.mp h
  rw [consistent_iff]
  unfold Clear
  cases hmode : r.airplaneMode.enabled <;> simp_all

theorem Consistent.mobileData_iff {r : Radios} (h : r.Consistent) {m : Radio} :
    { r with mobileData := m }.Consistent ↔ (m.enabled = true → r.Clear .mobileData) := by
  obtain ⟨hhotspot, hairplane, hconnected⟩ := consistent_iff.mp h
  rw [consistent_iff]
  unfold Clear
  cases hmode : r.airplaneMode.enabled <;> simp_all

end MockNetworkBridge.Radios

/-! ## Runs -/

structure Returned where
  kind : Network
  arguments : PyDict
  result : Reported Data

structure NetworkConfig where
  bridge : MockNetworkBridge.State := {}
  returned : List Returned := []

/-- A command, or the rollback of one that has returned, whenever and as often as somebody likes. A
rollback has the result of its command, and not the state of the bridge at that time. -/
inductive NetworkStep where
  | command (kind : Network) (arguments : PyDict)
  | rollback (index : Nat)

namespace NetworkStep

def run (c : NetworkConfig) : NetworkStep → Option NetworkConfig
  | .command kind arguments =>
    match (kind.capability.executeAction arguments c.bridge).result with
    | .ok result =>
      some
        { bridge := (kind.capability.executeAction arguments c.bridge).state
          returned := c.returned ++ [⟨kind, arguments, result⟩] }
    | .error _ => none
  | .rollback index =>
    match c.returned[index]? with
    | some r =>
      some { c with bridge := (r.kind.capability.rollback r.arguments r.result c.bridge).state }
    | none => none

end NetworkStep

def network : System NetworkConfig NetworkStep where
  step c step := step.run c

/-- A rollback turns its radio on: the pre-state has it on, or there is none and the inverse of the
action is to turn it on. Of the hotspot and of airplane mode the pre-state is a whole state. -/
def Returned.TurnsOn (r : Returned) : Prop :=
  match NetworkCapability.preStateOf r.result with
  | some p =>
    match r.kind with
    | .wifi => ∃ w, p.wifi = some w ∧ w.enabled = true
    | .bluetooth => ∃ b, p.bluetooth = some b ∧ b.enabled = true
    | .mobileData => ∃ m, p.mobileData = some m ∧ m.enabled = true
    | .hotspot | .airplaneMode => False
  | none => (actionName r.arguments).bind r.kind.spec.inverse = some r.kind.enable

/-- What turns a radio on finds everything off that has to be. -/
def NetworkStep.Fits (c : NetworkConfig) : NetworkStep → Prop
  | .command kind arguments =>
    actionName arguments = some kind.enable → c.bridge.radios.Clear kind
  | .rollback index =>
    ∀ r, c.returned[index]? = some r → r.TurnsOn → c.bridge.radios.Clear r.kind

/-! ## What an action does to the radios -/

/-- The radios before and after a mutating action of the bridge. -/
inductive Network.Did (r : Radios) : Network → String → Radios → Prop where
  | wifi {action w}
      (turned : w.enabled = true → action = Network.wifi.enable ∨ r.wifi.enabled = true)
      (stays : action = Network.wifi.enable → w.enabled = true)
      (connected : w.connected = true → w.enabled = true) :
      Did r .wifi action { r with wifi := w }
  | bluetooth {action b}
      (turned : b.enabled = true → action = Network.bluetooth.enable ∨ r.bluetooth.enabled = true)
      (stays : action = Network.bluetooth.enable → b.enabled = true) :
      Did r .bluetooth action { r with bluetooth := b }
  | mobileData {action m}
      (turned : m.enabled = true → action = Network.mobileData.enable)
      (stays : action = Network.mobileData.enable → m.enabled = true) :
      Did r .mobileData action { r with mobileData := m }
  | hotspotOn : Did r .hotspot Network.hotspot.enable
      { r with hotspot := ⟨true⟩, wifi := ⟨false, false, .none⟩ }
  | hotspotOff {action} (off : action ≠ Network.hotspot.enable) :
      Did r .hotspot action { r with hotspot := ⟨false⟩ }
  | airplaneOn {action} : Did r .airplaneMode action
      { airplaneMode := ⟨true⟩
        wifi := ⟨false, false, .none⟩
        bluetooth := { r.bluetooth with enabled := false }
        mobileData := ⟨false⟩
        hotspot := ⟨false⟩ }
  | airplaneOff {action} : Did r .airplaneMode action { r with airplaneMode := ⟨false⟩ }

def Network.handsOut (r : Radios) : Network → Option PreState
  | .hotspot | .airplaneMode => some r.fullState
  | _ => none

/-- **One action** leaves consistent radios consistent just if what it turns on finds everything off
that has to be. -/
theorem Network.Did.consistent_iff {r r' : Radios} {kind : Network} {action : String}
    (h : kind.Did r action r') (hr : r.Consistent) :
    r'.Consistent ↔ (action = kind.enable → r.Clear kind) := by
  cases h with
  | wifi turned stays connected =>
    rw [hr.wifi_iff]
    constructor
    · intro hclear hq
      exact hclear.1 (stays hq)
    · intro hclear
      refine ⟨?_, connected⟩
      intro hon
      rcases turned hon with hq | hbefore
      · exact hclear hq
      · exact hr.clear .wifi hbefore
  | bluetooth turned stays =>
    rw [hr.bluetooth_iff]
    constructor
    · intro hclear hq
      exact hclear (stays hq)
    · intro hclear hon
      rcases turned hon with hq | hbefore
      · exact hclear hq
      · exact hr.clear .bluetooth hbefore
  | mobileData turned stays =>
    rw [hr.mobileData_iff]
    constructor
    · intro hclear hq
      exact hclear (stays hq)
    · intro hclear hon
      exact hclear (turned hon)
  | hotspotOn =>
    obtain ⟨_, hairplane, _⟩ := Radios.consistent_iff.mp hr
    rw [Radios.consistent_iff]
    unfold Radios.Clear
    cases hmode : r.airplaneMode.enabled <;> simp_all
  | hotspotOff off =>
    refine iff_of_true ?_ fun hq => absurd hq off
    obtain ⟨_, hairplane, hconnected⟩ := Radios.consistent_iff.mp hr
    exact Radios.consistent_iff.mpr ⟨by simp, fun hon => by simp [hairplane hon], hconnected⟩
  | airplaneOn => exact iff_of_true (Radios.consistent_iff.mpr (by simp)) fun _ => trivial
  | airplaneOff =>
    refine iff_of_true ?_ fun _ => trivial
    obtain ⟨hhotspot, _, hconnected⟩ := Radios.consistent_iff.mp hr
    exact Radios.consistent_iff.mpr ⟨hhotspot, by simp, hconnected⟩

section Bridge

variable {kind : Network} {arguments : PyDict} {action : String} {s : MockNetworkBridge.State}

theorem run_pair : (∃ s', execute (.str "network.bluetooth.pair") arguments s
        = ⟨.ok (bluetoothView s.radios), s', []⟩ ∧ s'.radios = s.radios) ∨
      ∃ exc, execute (.str "network.bluetooth.pair") arguments s = ⟨.error exc, s, []⟩ := by
  have hdo : execute (.str "network.bluetooth.pair") arguments s
      = (if s.radios.bluetooth.enabled then do
          if pairs (argument arguments "device_id")
              (s.lists s.radios.bluetooth.pairedDevices) then
            Act.modify (changeList s.radios.bluetooth.pairedDevices fun l =>
              l ++ [argument arguments "device_id"])
          assign bluetoothView id
        else Act.throw ⟨.runtimeError, lit "Cannot pair Bluetooth while it is disabled."⟩ :
          NetworkAct Answer) s := rfl
  rw [hdo]
  split
  · left
    split
    · exact ⟨_, rfl, rfl⟩
    · exact ⟨_, rfl, rfl⟩
  · exact Or.inr ⟨_, rfl⟩

theorem run_unpair : ∃ s', execute (.str "network.bluetooth.unpair") arguments s
    = ⟨.ok (bluetoothView s.radios), s', []⟩ ∧ s'.radios = s.radios := by
  have hdo : execute (.str "network.bluetooth.unpair") arguments s
      = (do
          if isPaired (argument arguments "device_id")
              (s.lists s.radios.bluetooth.pairedDevices) then
            Act.modify (changeList s.radios.bluetooth.pairedDevices fun l =>
              l.eraseP fun device => device.equals (argument arguments "device_id"))
          assign bluetoothView id : NetworkAct Answer) s := rfl
  rw [hdo]
  split
  · exact ⟨_, rfl, rfl⟩
  · exact ⟨_, rfl, rfl⟩

/-- A mutating action is done, or raises and changes nothing; one that turns a radio on is done. -/
theorem execute_did (hmem : action ∈ kind.spec.mutatingActions) :
    (∃ res s', execute (.str action) arguments s = ⟨.ok res, s', []⟩ ∧
        kind.Did s.radios action s'.radios ∧ res.preState? = kind.handsOut s.radios) ∨
      (∃ exc, execute (.str action) arguments s = ⟨.error exc, s, []⟩) ∧ action ≠ kind.enable := by
  cases kind with
  | wifi =>
    simp only [Network.spec, NetworkCapability.wifi, List.mem_cons, List.not_mem_nil, or_false]
      at hmem
    rcases hmem with rfl | rfl | rfl | rfl
    · exact Or.inl ⟨_, _, rfl, .wifi (fun _ => Or.inl rfl) (fun _ => rfl) (fun _ => rfl), rfl⟩
    · exact Or.inl ⟨_, _, rfl, .wifi (by simp) (by simp [Network.enable]) (by simp), rfl⟩
    · obtain
        ⟨⟨⟨enabled, connected, ssid⟩, bluetooth, mobileData, hotspot, airplaneMode⟩, lists⟩ := s
      cases enabled with
      | true =>
        exact Or.inl ⟨_, _, rfl, .wifi (fun h => Or.inr h) (fun _ => rfl) (fun _ => rfl), rfl⟩
      | false => exact Or.inr ⟨⟨_, rfl⟩, by simp [Network.enable]⟩
    · exact Or.inl ⟨_, _, rfl, .wifi (fun h => Or.inr h) (by simp [Network.enable]) (by simp), rfl⟩
  | bluetooth =>
    simp only [Network.spec, NetworkCapability.bluetooth, List.mem_cons, List.not_mem_nil, or_false]
      at hmem
    rcases hmem with rfl | rfl | rfl | rfl
    · exact Or.inl ⟨_, _, rfl, .bluetooth (fun _ => Or.inl rfl) (fun _ => rfl), rfl⟩
    · exact Or.inl ⟨_, _, rfl, .bluetooth (by simp) (by simp [Network.enable]), rfl⟩
    · rcases @run_pair arguments s with ⟨s', hrun, hsame⟩ | hraise
      · refine Or.inl ⟨_, _, hrun, ?_, rfl⟩
        rw [hsame]
        exact .bluetooth (fun h => Or.inr h) (by simp [Network.enable])
      · exact Or.inr ⟨hraise, by simp [Network.enable]⟩
    · obtain ⟨s', hrun, hsame⟩ := @run_unpair arguments s
      refine Or.inl ⟨_, _, hrun, ?_, rfl⟩
      rw [hsame]
      exact .bluetooth (fun h => Or.inr h) (by simp [Network.enable])
  | mobileData =>
    simp only [Network.spec, NetworkCapability.mobileData, List.mem_cons, List.not_mem_nil,
      or_false] at hmem
    rcases hmem with rfl | rfl
    · exact Or.inl ⟨_, _, rfl, .mobileData (fun _ => rfl) (fun _ => rfl), rfl⟩
    · exact Or.inl ⟨_, _, rfl, .mobileData (by simp) (by simp [Network.enable]), rfl⟩
  | hotspot =>
    simp only [Network.spec, NetworkCapability.hotspot, List.mem_cons, List.not_mem_nil, or_false]
      at hmem
    rcases hmem with rfl | rfl
    · exact Or.inl ⟨_, _, rfl, .hotspotOn, rfl⟩
    · exact Or.inl ⟨_, _, rfl, .hotspotOff (by simp [Network.enable]), rfl⟩
  | airplaneMode =>
    simp only [Network.spec, NetworkCapability.airplaneMode, List.mem_cons, List.not_mem_nil,
      or_false] at hmem
    rcases hmem with rfl | rfl
    · exact Or.inl ⟨_, _, rfl, .airplaneOn, rfl⟩
    · exact Or.inl ⟨_, _, rfl, .airplaneOff, rfl⟩

def Network.recorded (r : Radios) : Network → PreState
  | .wifi => { wifi := some r.wifi }
  | .bluetooth => { bluetooth := some r.bluetooth }
  | .mobileData => { mobileData := some r.mobileData }
  | .hotspot | .airplaneMode => r.fullState

theorem execute_status (kind : Network) (s : MockNetworkBridge.State) :
    ∃ pre, execute (.str kind.spec.status) Dict.empty s = ⟨.ok pre, s, []⟩ ∧
      (kind.handsOut s.radios = none → kind.spec.keyed pre = kind.recorded s.radios) := by
  cases kind with
  | wifi => exact ⟨_, rfl, fun _ => rfl⟩
  | bluetooth => exact ⟨_, rfl, fun _ => rfl⟩
  | mobileData => exact ⟨_, rfl, fun _ => rfl⟩
  | hotspot => exact ⟨_, rfl, nofun⟩
  | airplaneMode => exact ⟨_, rfl, nofun⟩

theorem mutate_ok {res : Answer} {s' : MockNetworkBridge.State}
    (hrun : execute (.str action) arguments s = ⟨.ok res, s', []⟩)
    (hpre : res.preState? = kind.handsOut s.radios) :
    ∃ data, mutate kind.spec (.str action) arguments s = ⟨.ok data, s', []⟩ ∧
      data.preState? = some (kind.recorded s.radios) := by
  obtain ⟨pre, hstatus, hkeyed⟩ := execute_status kind s
  unfold mutate
  cases hout : kind.handsOut s.radios with
  | none =>
    rw [hout] at hpre
    have hfirst : kind.spec.statusFirst = true := by
      cases kind <;> first | rfl | cases hout
    rw [if_pos hfirst, Act.run_bind_of_ok hstatus, Act.run_bind_of_ok hrun, record, hpre]
    exact ⟨_, rfl, congrArg some (hkeyed hout)⟩
  | some p =>
    rw [hout] at hpre
    have hlast : kind.spec.statusFirst = false := by
      cases kind <;> first | rfl | cases hout
    have hp : p = kind.recorded s.radios := by
      cases kind <;> cases hout <;> rfl
    rw [if_neg (by simp [hlast]), Act.run_bind_of_ok hrun, hpre]
    exact ⟨_, rfl, hpre.trans (congrArg some hp)⟩

theorem mutate_error {exc : Exn} (hrun : execute (.str action) arguments s = ⟨.error exc, s, []⟩) :
    mutate kind.spec (.str action) arguments s = ⟨.error exc, s, []⟩ := by
  obtain ⟨pre, hstatus, _⟩ := execute_status kind s
  unfold mutate
  split
  · rw [Act.run_bind_of_ok hstatus, Act.run_bind_of_error hrun]
    rfl
  · exact Act.run_bind_of_error hrun

theorem executeInternal_did (hmem : action ∈ kind.spec.mutatingActions) :
    (∃ data s', executeInternal kind.spec (.str action) arguments s = ⟨.ok data, s', []⟩ ∧
        kind.Did s.radios action s'.radios ∧ data.preState? = some (kind.recorded s.radios)) ∨
      (∃ exc, executeInternal kind.spec (.str action) arguments s = ⟨.error exc, s, []⟩) ∧
        action ≠ kind.enable := by
  have hin : inFrozenset (.str action) kind.spec.mutatingActions = .ok true := by
    simp [inFrozenset, PyValue.isStr, hmem]
  have hmutate : executeInternal kind.spec (.str action) arguments s
      = mutate kind.spec (.str action) arguments s := by
    unfold executeInternal
    rw [hin, Act.bind_ofExcept, if_pos rfl]
  rw [hmutate]
  rcases @execute_did _ arguments _ s hmem with
    ⟨res, s', hrun, hdid, hpre⟩ | ⟨⟨exc, hrun⟩, hne⟩
  · obtain ⟨data, hdone, hdata⟩ := mutate_ok hrun hpre
    exact Or.inl ⟨data, s', hdone, hdid, hdata⟩
  · exact Or.inr ⟨⟨exc, mutate_error hrun⟩, hne⟩

theorem executeInternal_other
    (hsupports : action ∈ "default" :: kind.capability.descriptor.supportedActions)
    (hother : action ∉ kind.spec.mutatingActions) :
    ∃ result, executeInternal kind.spec (.str action) arguments s = ⟨result, s, []⟩ ∧
      ∀ data, result = .ok data → data.preState? = none := by
  have hread : action = "default" ∨ action = kind.spec.status := by
    cases kind <;>
    · simp [Network.capability, NetworkCapability, Network.spec, NetworkCapability.wifi,
        NetworkCapability.bluetooth, NetworkCapability.mobileData, NetworkCapability.hotspot,
        NetworkCapability.airplaneMode] at hsupports hother ⊢
      tauto
  rcases hread with rfl | rfl
  · cases kind <;> exact ⟨.error _, rfl, by simp⟩
  · cases kind <;>
    · refine ⟨.ok _, rfl, ?_⟩
      intro data h
      cases h
      rfl

end Bridge

/-! ## Commands and rollbacks -/

namespace Network

variable {kind : Network} {arguments : PyDict} {s : MockNetworkBridge.State}

theorem enable_mem : kind.enable ∈ kind.spec.mutatingActions := by
  cases kind <;> decide

theorem supports_enable : supports kind.capability.descriptor (.str kind.enable) = true := by
  cases kind <;> rfl

theorem default_not_mem : "default" ∉ kind.spec.mutatingActions := by
  cases kind <;> decide

/-- What a command comes to: its action is done, with the radios before it in the result, or nothing
is, and it is none that turns a radio on. -/
inductive Ends (kind : Network) (arguments : PyDict) (s : MockNetworkBridge.State) :
    Reported Data → MockNetworkBridge.State → Prop where
  | done {action result s'} (name : actionName arguments = some action)
      (did : kind.Did s.radios action s'.radios)
      (records : NetworkCapability.preStateOf result = some (kind.recorded s.radios)) :
      Ends kind arguments s result s'
  | nothing {result : Reported Data} (records : NetworkCapability.preStateOf result = none)
      (other : actionName arguments ≠ some kind.enable) : Ends kind arguments s result s

theorem checked_ends (kind : Network) (arguments : PyDict) (s : MockNetworkBridge.State) :
    ∃ result s', checked kind.capability.descriptor (executeInternal kind.spec) arguments s
        = ⟨result, s', []⟩ ∧
      kind.Ends arguments s (reported kind.capability.descriptor result) s' := by
  unfold checked
  split
  · next hgate =>
    obtain ⟨name, hsupports, haction⟩ := exists_of_supports hgate
    rw [haction]
    by_cases hmem : name ∈ kind.spec.mutatingActions
    · have hname : actionName arguments = some name :=
        actionName_of_actionOf haction fun hq => default_not_mem (hq ▸ hmem)
      rcases @executeInternal_did _ arguments _ s hmem with
        ⟨data, s', hrun, hdid, hdata⟩ | ⟨⟨exc, hrun⟩, hne⟩
      · exact ⟨_, _, hrun, .done hname hdid hdata⟩
      · refine ⟨_, _, hrun, .nothing rfl ?_⟩
        rw [hname]
        exact fun hq => hne (Option.some.inj hq)
    · obtain ⟨result, hrun, hdata⟩ :=
        @executeInternal_other _ arguments _ s hsupports hmem
      refine ⟨_, _, hrun, .nothing ?_ ?_⟩
      · cases result with
        | error exc => rfl
        | ok data => exact hdata data rfl
      · intro hname
        have hsame : name = kind.enable :=
          PyValue.str.inj (haction.symm.trans (actionOf_eq hname))
        exact hmem (hsame ▸ enable_mem)
  · next hgate =>
    refine ⟨_, _, rfl, .nothing rfl ?_⟩
    intro hname
    rw [actionOf_eq hname] at hgate
    exact hgate supports_enable

theorem executeAction_ends (kind : Network) (arguments : PyDict) (s : MockNetworkBridge.State) :
    ∃ result s', kind.capability.executeAction arguments s = ⟨.ok result, s', []⟩ ∧
      kind.Ends arguments s result s' := by
  obtain ⟨result, s', hrun, hends⟩ := checked_ends kind arguments s
  refine ⟨_, s', ?_, hends⟩
  rw [RecordingCapability.executeAction, report_run]
  change (⟨.ok (reported _ (checked _ (executeInternal kind.spec) arguments s).result),
    (checked _ (executeInternal kind.spec) arguments s).state, []⟩ : Run _ _ _ _) = _
  rw [hrun]

theorem inverse_mem {action inverse : String} (h : kind.spec.inverse action = some inverse) :
    inverse ∈ kind.spec.mutatingActions := by
  cases kind <;>
  · simp only [spec, NetworkCapability.wifi, NetworkCapability.bluetooth,
      NetworkCapability.mobileData, NetworkCapability.hotspot, NetworkCapability.airplaneMode] at h
    split at h <;> cases h <;> decide

end Network

namespace Returned

def Kept (r : Returned) : Prop :=
  ∀ p, NetworkCapability.preStateOf r.result = some p →
    ∃ radios : Radios, radios.Consistent ∧ p = r.kind.recorded radios

/-- **One rollback** leaves consistent radios consistent just if what it turns on finds everything
off that has to be. -/
theorem consistent_rollback_iff {r : Returned} (hkept : r.Kept) {s : MockNetworkBridge.State}
    (hs : s.radios.Consistent) :
    (r.kind.capability.rollback r.arguments r.result s).state.radios.Consistent ↔
      (r.TurnsOn → s.radios.Clear r.kind) := by
  obtain ⟨kind, arguments, result⟩ := r
  change (NetworkCapability.rollback kind.spec arguments result s).state.radios.Consistent ↔ _
  unfold NetworkCapability.rollback TurnsOn
  cases hpre : NetworkCapability.preStateOf result with
  | some p =>
    obtain ⟨radios, hradios, hp⟩ := hkept p hpre
    dsimp only at hp
    subst hp
    have hback : (restore (kind.recorded radios) s).state.radios
        = (kind.recorded radios).putBack s.radios := rfl
    dsimp only
    rw [Act.state_bind_of_still (fun _ _ => rfl), hback]
    -- one radio is put back among the others, or all of them are
    cases kind with
    | wifi =>
      have hput : (Network.wifi.recorded radios).putBack s.radios
          = { s.radios with wifi := radios.wifi } := rfl
      rw [hput, hs.wifi_iff, and_iff_left hradios.connected]
      simp only [Network.recorded, Option.some.injEq, exists_eq_left']
    | bluetooth =>
      have hput : (Network.bluetooth.recorded radios).putBack s.radios
          = { s.radios with bluetooth := radios.bluetooth } := rfl
      rw [hput, hs.bluetooth_iff]
      simp only [Network.recorded, Option.some.injEq, exists_eq_left']
    | mobileData =>
      have hput : (Network.mobileData.recorded radios).putBack s.radios
          = { s.radios with mobileData := radios.mobileData } := rfl
      rw [hput, hs.mobileData_iff]
      simp only [Network.recorded, Option.some.injEq, exists_eq_left']
    | hotspot => exact iff_of_true hradios nofun
    | airplaneMode => exact iff_of_true hradios nofun
  | none =>
    dsimp only
    cases hinv : (actionName arguments).bind kind.spec.inverse with
    | none => exact iff_of_true hs nofun
    | some inverse =>
      obtain ⟨action, _, haction⟩ := Option.bind_eq_some_iff.mp hinv
      dsimp only
      rw [Act.state_bind_of_still (fun _ _ => rfl), Option.some.injEq]
      rcases @execute_did _ Dict.empty _ s (Network.inverse_mem haction) with
        ⟨res, s', hrun, hdid, _⟩ | ⟨⟨exc, hrun⟩, hne⟩
      · rw [hrun]
        exact hdid.consistent_iff hs
      · rw [hrun]
        exact iff_of_true hs fun hq => absurd hq hne

end Returned

/-! ## Steps and runs -/

namespace NetworkConfig

def Kept (c : NetworkConfig) : Prop := ∀ r ∈ c.returned, r.Kept

theorem command_step {c c' : NetworkConfig} {kind : Network} {arguments : PyDict}
    (hc : c.bridge.radios.Consistent) (h : network.step c (.command kind arguments) = some c') :
    (∃ result, c'.returned = c.returned ++ [⟨kind, arguments, result⟩] ∧
        (⟨kind, arguments, result⟩ : Returned).Kept) ∧
      (c'.bridge.radios.Consistent ↔ NetworkStep.Fits c (.command kind arguments)) := by
  obtain ⟨result, s', hrun, hends⟩ := kind.executeAction_ends arguments c.bridge
  have hstep : network.step c (.command kind arguments)
      = some ⟨s', c.returned ++ [⟨kind, arguments, result⟩]⟩ := by
    change (match (kind.capability.executeAction arguments c.bridge).result with
      | .ok _ => _
      | .error _ => _) = _
    rw [hrun]
  rw [hstep] at h
  cases h
  refine ⟨⟨result, rfl, ?_⟩, ?_⟩
  · intro p hp
    cases hends with
    | done _ _ records => exact ⟨c.bridge.radios, hc, Option.some.inj (hp.symm.trans records)⟩
    | nothing records _ => exact absurd (hp.symm.trans records) (by simp)
  · change _ ↔ (actionName arguments = some kind.enable → c.bridge.radios.Clear kind)
    cases hends with
    | done name did _ => rw [did.consistent_iff hc, name, Option.some.injEq]
    | nothing _ other => exact iff_of_true hc fun hq => absurd hq other

theorem kept_step {c c' : NetworkConfig} {step : NetworkStep} (hc : c.bridge.radios.Consistent)
    (hkept : c.Kept) (h : network.step c step = some c') : c'.Kept := by
  cases step with
  | command kind arguments =>
    obtain ⟨⟨result, hreturned, hnew⟩, _⟩ := command_step hc h
    intro r hmem
    rw [hreturned, List.mem_append, List.mem_singleton] at hmem
    rcases hmem with hmem | rfl
    · exact hkept r hmem
    · exact hnew
  | rollback index =>
    change (match c.returned[index]? with
      | some _ => _
      | none => _) = _ at h
    split at h
    · cases h
      exact hkept
    · cases h

/-- **One step** leaves consistent radios consistent just if it fits. -/
theorem consistent_step_iff {c c' : NetworkConfig} {step : NetworkStep}
    (hc : c.bridge.radios.Consistent) (hkept : c.Kept) (h : network.step c step = some c') :
    c'.bridge.radios.Consistent ↔ step.Fits c := by
  cases step with
  | command kind arguments => exact (command_step hc h).2
  | rollback index =>
    change (match c.returned[index]? with
      | some _ => _
      | none => _) = _ at h
    change _ ↔ ∀ r, c.returned[index]? = some r → r.TurnsOn → c.bridge.radios.Clear r.kind
    cases hr : c.returned[index]? with
    | none =>
      rw [hr] at h
      cases h
    | some r =>
      rw [hr] at h
      cases h
      rw [Returned.consistent_rollback_iff (hkept r (List.mem_of_getElem? hr)) hc]
      simp only [Option.some.injEq, forall_eq']

end NetworkConfig

/-- **The radios are consistent wherever a run gets just if every step of it fits**, from the first
state of the bridge on, for every run of commands and of rollbacks of what they returned. A rollback
may belong to a command of long before, and is asked whether what it puts back still goes with what
there is. -/
theorem radios_consistent_iff (steps : List NetworkStep) :
    network.Meets (fun c step => step.Fits c) {} steps ↔
      ∀ pre c, pre <+: steps → network.exec {} pre = some c → c.bridge.radios.Consistent := by
  have hinit : ({} : NetworkConfig).bridge.radios.Consistent :=
    Radios.consistent_iff.mpr (by decide)
  refine System.meets_iff_throughout (P := fun c => c.bridge.radios.Consistent)
    (R := NetworkConfig.Kept) ?_ ?_ ?_ hinit ?_
  · intro c step hstep
    cases step with
    | command kind arguments =>
      obtain ⟨result, s', hrun, _⟩ := kind.executeAction_ends arguments c.bridge
      change (match (kind.capability.executeAction arguments c.bridge).result with
        | .ok _ => _
        | .error _ => _) = _ at hstep
      rw [hrun] at hstep
      cases hstep
    | rollback index =>
      change (match c.returned[index]? with
        | some _ => _
        | none => _) = _ at hstep
      intro r hr
      rw [hr] at hstep
      cases hstep
  · intro c step c' hc hkept hstep
    exact NetworkConfig.kept_step hc hkept hstep
  · intro c step c' hc hkept hstep
    exact NetworkConfig.consistent_step_iff hc hkept hstep
  · intro r hmem
    cases hmem

/-- **Two radios in conflict**: the hotspot is turned on, and then the Wi-Fi. -/
theorem wifi_beside_hotspot : ¬ ∀ steps c, network.exec {} steps = some c →
    c.bridge.radios.Consistent := by
  intro h
  have hon := h
    [.command .hotspot (Dict.empty.set "action" (.str "network.hotspot.enable")),
      .command .wifi (Dict.empty.set "action" (.str "network.wifi.enable"))] _ rfl
  exact hon.apart .hotspot .wifi (by decide) (by decide)

end IraOS
