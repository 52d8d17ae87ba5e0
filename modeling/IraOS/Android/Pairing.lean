import IraOS.Android.Network

/-!
# What a network rollback puts back

Every mutating action of the five network capabilities leaves its result with the radios it changed
as they were, and the rollback puts them back: what `putBack` gives is the radios before, whatever
happened to them earlier. But the bluetooth radio is put back *with the list it shares*, and `pair`
and `unpair` changed that list in place. So a rollback restores unless the action paired or unpaired
a device, and then it never does.

States are compared by what there is to see of them (`MockNetworkBridge.Contents`): the radios, and
what is in the list of paired devices, whichever object it is. Whether an action paired or unpaired
is `Repairs`, and it depends on the list: pairing a device that is paired already changes nothing,
and its rollback restores, and so does the rollback of unpairing a device that is not.

The theorem covers all five capabilities, since four of them never touch the list
(`devicesAfter_of_mem`) and come out as the case in which the condition holds anyway.
-/

set_option autoImplicit false

namespace IraOS

open Lib BaseAndroidCapability MockNetworkBridge NetworkCapability

/-- What there is to see of a bridge's state: the radios, and the devices that are paired. Which
object holds the list of these is left out, as a rollback may put another in its place. -/
structure MockNetworkBridge.Contents where
  wifi : Wifi
  bluetoothEnabled : Bool
  pairedDevices : List PyValue
  mobileData : Radio
  hotspot : Radio
  airplaneMode : Radio

def MockNetworkBridge.State.contents (s : MockNetworkBridge.State) : Contents :=
  { wifi := s.radios.wifi
    bluetoothEnabled := s.radios.bluetooth.enabled
    pairedDevices := s.lists s.radios.bluetooth.pairedDevices
    mobileData := s.radios.mobileData
    hotspot := s.radios.hotspot
    airplaneMode := s.radios.airplaneMode }

inductive Network where
  | wifi | bluetooth | mobileData | hotspot | airplaneMode
  deriving DecidableEq, Repr

namespace Network

def spec : Network → Spec
  | .wifi => NetworkCapability.wifi
  | .bluetooth => NetworkCapability.bluetooth
  | .mobileData => NetworkCapability.mobileData
  | .hotspot => NetworkCapability.hotspot
  | .airplaneMode => NetworkCapability.airplaneMode

abbrev capability (kind : Network) : RecordingCapability MockNetworkBridge.State Data :=
  NetworkCapability kind.spec

/-- The command succeeds, and can be rolled back. -/
structure Undoable (kind : Network) (arguments : PyDict) (s : MockNetworkBridge.State) : Prop where
  succeeds : ∃ data, (kind.capability.executeAction arguments s).result = .ok (.ok data)
  supports : kind.capability.supportsRollback arguments = .ok true

end Network

def Repairs (action : String) (deviceId : PyValue) (devices : List PyValue) : Prop :=
  (action = "network.bluetooth.pair" ∧ pairs deviceId devices = true) ∨
    (action = "network.bluetooth.unpair" ∧ isPaired deviceId devices = true)

/-! ## What the bridge does -/

section Bridge

variable {arguments : PyDict} {action : String} {s s' : MockNetworkBridge.State} {res : Answer}

theorem execute_wifi (hmem : action ∈ NetworkCapability.wifi.mutatingActions)
    (hrun : execute (.str action) arguments s = ⟨.ok res, s', []⟩) :
    res.preState? = none ∧ ∃ w, s' = { s with radios := { s.radios with wifi := w } } := by
  simp only [NetworkCapability.wifi, List.mem_cons, List.not_mem_nil, or_false] at hmem
  rcases hmem with rfl | rfl | rfl | rfl
  · cases hrun
    exact ⟨rfl, _, rfl⟩
  · cases hrun
    exact ⟨rfl, _, rfl⟩
  · obtain ⟨⟨⟨enabled, connected, ssid⟩, bluetooth, mobileData, hotspot, airplaneMode⟩, lists⟩ := s
    cases enabled with
    | true =>
      cases hrun
      exact ⟨rfl, _, rfl⟩
    | false => cases hrun
  · cases hrun
    exact ⟨rfl, _, rfl⟩

theorem execute_mobileData (hmem : action ∈ NetworkCapability.mobileData.mutatingActions)
    (hrun : execute (.str action) arguments s = ⟨.ok res, s', []⟩) :
    res.preState? = none ∧ ∃ r, s' = { s with radios := { s.radios with mobileData := r } } := by
  simp only [NetworkCapability.mobileData, List.mem_cons, List.not_mem_nil, or_false] at hmem
  rcases hmem with rfl | rfl
  · cases hrun
    exact ⟨rfl, _, rfl⟩
  · cases hrun
    exact ⟨rfl, _, rfl⟩

theorem execute_cascade (hmem : action ∈ NetworkCapability.hotspot.mutatingActions ∨
      action ∈ NetworkCapability.airplaneMode.mutatingActions)
    (hrun : execute (.str action) arguments s = ⟨.ok res, s', []⟩) :
    res.preState? = some s.radios.fullState ∧ s'.lists = s.lists := by
  simp only [NetworkCapability.hotspot, NetworkCapability.airplaneMode, List.mem_cons,
    List.not_mem_nil, or_false] at hmem
  rcases hmem with (rfl | rfl) | rfl | rfl
  all_goals
    cases hrun
    exact ⟨rfl, rfl⟩

def devicesAfter (action : String) (deviceId : PyValue) (devices : List PyValue) : List PyValue :=
  if action = "network.bluetooth.pair" ∧ pairs deviceId devices = true then devices ++ [deviceId]
  else if action = "network.bluetooth.unpair" ∧ isPaired deviceId devices = true then
    devices.eraseP fun device => device.equals deviceId
  else devices

theorem devicesAfter_eq_iff {deviceId : PyValue} {devices : List PyValue} :
    devicesAfter action deviceId devices = devices ↔ ¬ Repairs action deviceId devices := by
  unfold devicesAfter Repairs
  split_ifs with hpair hunpair
  · simp [hpair]
  · obtain ⟨device, hmem, heq⟩ := List.any_eq_true.mp hunpair.2
    have hlength : (devices.eraseP fun device => device.equals deviceId).length + 1
        = devices.length := by
      rw [List.length_eraseP_of_mem hmem heq]
      exact Nat.sub_add_cancel (List.length_pos_of_mem hmem)
    constructor
    · intro h
      rw [h] at hlength
      omega
    · intro h
      exact absurd (Or.inr hunpair) h
  · simp only [true_iff]
    rintro (h | h)
    · exact hpair h
    · exact hunpair h

theorem lists_changeList (ref : ListRef) (f : List PyValue → List PyValue)
    (s : MockNetworkBridge.State) : (changeList ref f s).lists ref = f (s.lists ref) := by
  simp [changeList]

theorem execute_pair (hrun : execute (.str "network.bluetooth.pair") arguments s
      = ⟨.ok res, s', []⟩) :
    res.preState? = none ∧ s'.radios = s.radios ∧
      s'.lists s.radios.bluetooth.pairedDevices
        = devicesAfter "network.bluetooth.pair" (argument arguments "device_id")
            (s.lists s.radios.bluetooth.pairedDevices) := by
  have hdo : execute (.str "network.bluetooth.pair") arguments s
      = (if s.radios.bluetooth.enabled then do
          if pairs (argument arguments "device_id")
              (s.lists s.radios.bluetooth.pairedDevices) then
            Act.modify (changeList s.radios.bluetooth.pairedDevices fun l =>
              l ++ [argument arguments "device_id"])
          assign bluetoothView id
        else Act.throw ⟨.runtimeError, lit "Cannot pair Bluetooth while it is disabled."⟩ :
          NetworkAct Answer) s := rfl
  rw [hdo] at hrun
  unfold devicesAfter
  by_cases henabled : s.radios.bluetooth.enabled = true
  · rw [if_pos henabled] at hrun
    by_cases hp : pairs (argument arguments "device_id")
        (s.lists s.radios.bluetooth.pairedDevices) = true
    · rw [if_pos hp] at hrun
      obtain rfl := (congrArg Run.state hrun).symm
      obtain rfl := Except.ok.inj (congrArg Run.result hrun).symm
      rw [if_pos ⟨rfl, hp⟩]
      exact ⟨rfl, rfl, lists_changeList _ (fun l => l ++ [_]) s⟩
    · rw [if_neg hp] at hrun
      cases hrun
      rw [if_neg fun h => hp h.2, if_neg (by simp)]
      exact ⟨rfl, rfl, rfl⟩
  · rw [if_neg henabled] at hrun
    cases hrun

theorem execute_unpair (hrun : execute (.str "network.bluetooth.unpair") arguments s
      = ⟨.ok res, s', []⟩) :
    res.preState? = none ∧ s'.radios = s.radios ∧
      s'.lists s.radios.bluetooth.pairedDevices
        = devicesAfter "network.bluetooth.unpair" (argument arguments "device_id")
            (s.lists s.radios.bluetooth.pairedDevices) := by
  have hdo : execute (.str "network.bluetooth.unpair") arguments s
      = (do
          if isPaired (argument arguments "device_id")
              (s.lists s.radios.bluetooth.pairedDevices) then
            Act.modify (changeList s.radios.bluetooth.pairedDevices fun l =>
              l.eraseP fun device => device.equals (argument arguments "device_id"))
          assign bluetoothView id : NetworkAct Answer) s := rfl
  rw [hdo] at hrun
  unfold devicesAfter
  rw [if_neg (by simp)]
  by_cases hp : isPaired (argument arguments "device_id")
      (s.lists s.radios.bluetooth.pairedDevices) = true
  · rw [if_pos hp] at hrun
    obtain rfl := (congrArg Run.state hrun).symm
    obtain rfl := Except.ok.inj (congrArg Run.result hrun).symm
    rw [if_pos ⟨rfl, hp⟩]
    exact ⟨rfl, rfl, lists_changeList _ (fun l => l.eraseP _) s⟩
  · rw [if_neg hp] at hrun
    cases hrun
    rw [if_neg fun h => hp h.2]
    exact ⟨rfl, rfl, rfl⟩

theorem execute_bluetooth (hmem : action ∈ NetworkCapability.bluetooth.mutatingActions)
    (hrun : execute (.str action) arguments s = ⟨.ok res, s', []⟩) :
    res.preState? = none ∧ (∃ b, s'.radios = { s.radios with bluetooth := b }) ∧
      s'.lists s.radios.bluetooth.pairedDevices
        = devicesAfter action (argument arguments "device_id")
            (s.lists s.radios.bluetooth.pairedDevices) := by
  simp only [NetworkCapability.bluetooth, List.mem_cons, List.not_mem_nil, or_false] at hmem
  rcases hmem with rfl | rfl | rfl | rfl
  · cases hrun
    rw [devicesAfter, if_neg (by simp), if_neg (by simp)]
    exact ⟨rfl, ⟨_, rfl⟩, rfl⟩
  · cases hrun
    rw [devicesAfter, if_neg (by simp), if_neg (by simp)]
    exact ⟨rfl, ⟨_, rfl⟩, rfl⟩
  · obtain ⟨hpre, hradios, hlists⟩ := execute_pair hrun
    exact ⟨hpre, ⟨_, hradios⟩, hlists⟩
  · obtain ⟨hpre, hradios, hlists⟩ := execute_unpair hrun
    exact ⟨hpre, ⟨_, hradios⟩, hlists⟩

end Bridge

/-! ## What a capability records -/

section Recording

variable {c : Spec} {kind : Network} {arguments : PyDict} {action : String}
  {s s' : MockNetworkBridge.State} {data : Data}

theorem mutate_statusFirst (hfirst : c.statusFirst = true) {pre : Answer}
    (hstatus : execute (.str c.status) Dict.empty s = ⟨.ok pre, s, []⟩) {action : PyValue}
    (hrun : mutate c action arguments s = ⟨.ok data, s', []⟩) :
    ∃ res, execute action arguments s = ⟨.ok res, s', []⟩ ∧ data = record c res pre := by
  unfold mutate at hrun
  rw [if_pos hfirst] at hrun
  obtain ⟨_, _, hask, hrest⟩ := Act.bind_ok_silent hrun
  rw [hstatus] at hask
  cases hask
  obtain ⟨res, _, hres, hpure⟩ := Act.bind_ok_silent hrest
  cases hpure
  exact ⟨res, hres, rfl⟩

theorem mutate_cascade (hfirst : c.statusFirst = false) {action : PyValue}
    (hpre : ∀ {res s'}, execute action arguments s = ⟨.ok res, s', []⟩ → res.preState? ≠ none)
    (hrun : mutate c action arguments s = ⟨.ok data, s', []⟩) :
    ∃ res, execute action arguments s = ⟨.ok res, s', []⟩ ∧ data = .answer res := by
  unfold mutate at hrun
  rw [if_neg (by simp [hfirst])] at hrun
  obtain ⟨res, s₁, hres, hrest⟩ := Act.bind_ok_silent hrun
  refine ⟨res, ?_⟩
  cases hp : res.preState? with
  | none => exact absurd hp (hpre hres)
  | some p =>
    rw [hp] at hrest
    cases hrest
    exact ⟨hres, rfl⟩

theorem devicesAfter_of_mem (hkind : kind ≠ .bluetooth) (hmem : action ∈ kind.spec.mutatingActions)
    {deviceId : PyValue} {devices : List PyValue} :
    devicesAfter action deviceId devices = devices := by
  have hpair : action ≠ "network.bluetooth.pair" := by
    rintro rfl
    cases kind <;> simp [Network.spec, NetworkCapability.wifi, NetworkCapability.mobileData,
      NetworkCapability.hotspot, NetworkCapability.airplaneMode] at hmem hkind
  have hunpair : action ≠ "network.bluetooth.unpair" := by
    rintro rfl
    cases kind <;> simp [Network.spec, NetworkCapability.wifi, NetworkCapability.mobileData,
      NetworkCapability.hotspot, NetworkCapability.airplaneMode] at hmem hkind
  rw [devicesAfter, if_neg fun h => hpair h.1, if_neg fun h => hunpair h.1]

/-- The radios are recorded as they were; the list of devices is not, and is as the action left
it. -/
theorem executeInternal_ok (hmem : action ∈ kind.spec.mutatingActions)
    (hrun : executeInternal kind.spec (.str action) arguments s = ⟨.ok data, s', []⟩) :
    (∃ p, data.preState? = some p ∧ p.putBack s'.radios = s.radios) ∧
      s'.lists s.radios.bluetooth.pairedDevices
        = devicesAfter action (argument arguments "device_id")
            (s.lists s.radios.bluetooth.pairedDevices) := by
  have hin : inFrozenset (.str action) kind.spec.mutatingActions = .ok true := by
    simp [inFrozenset, PyValue.isStr, hmem]
  unfold executeInternal at hrun
  rw [hin, Act.bind_ofExcept, if_pos rfl] at hrun
  cases kind with
  | wifi =>
    obtain ⟨res, hres, rfl⟩ := mutate_statusFirst rfl rfl hrun
    obtain ⟨hpre, w, rfl⟩ := execute_wifi hmem hres
    exact ⟨⟨_, by rw [record, hpre]; rfl, rfl⟩, (devicesAfter_of_mem (by simp) hmem).symm⟩
  | bluetooth =>
    -- the status it records has the list object itself, so the list is as the action leaves it
    obtain ⟨res, hres, rfl⟩ := mutate_statusFirst rfl rfl hrun
    obtain ⟨hpre, ⟨b, hb⟩, hlists⟩ := execute_bluetooth hmem hres
    exact ⟨⟨_, by rw [record, hpre]; rfl, by rw [hb]; rfl⟩, hlists⟩
  | mobileData =>
    obtain ⟨res, hres, rfl⟩ := mutate_statusFirst rfl rfl hrun
    obtain ⟨hpre, r, rfl⟩ := execute_mobileData hmem hres
    exact ⟨⟨_, by rw [record, hpre]; rfl, rfl⟩, (devicesAfter_of_mem (by simp) hmem).symm⟩
  | hotspot =>
    obtain ⟨res, hres, rfl⟩ := mutate_cascade rfl
      (fun h => by simp [(execute_cascade (Or.inl hmem) h).1]) hrun
    obtain ⟨hpre, hlists⟩ := execute_cascade (Or.inl hmem) hres
    rw [hlists, devicesAfter_of_mem (by simp) hmem]
    exact ⟨⟨_, hpre, rfl⟩, rfl⟩
  | airplaneMode =>
    obtain ⟨res, hres, rfl⟩ := mutate_cascade rfl
      (fun h => by simp [(execute_cascade (Or.inr hmem) h).1]) hrun
    obtain ⟨hpre, hlists⟩ := execute_cascade (Or.inr hmem) hres
    rw [hlists, devicesAfter_of_mem (by simp) hmem]
    exact ⟨⟨_, hpre, rfl⟩, rfl⟩

end Recording

/-! ## The rollback -/

namespace Network

variable {kind : Network} {arguments : PyDict} {s : MockNetworkBridge.State}

theorem undone_run (h : kind.Undoable arguments s) :
    ∃ action lists, actionName arguments = some action ∧
      kind.capability.undone arguments s = ⟨.ok (), ⟨s.radios, lists⟩, []⟩ ∧
      lists s.radios.bluetooth.pairedDevices
        = devicesAfter action (argument arguments "device_id")
            (s.lists s.radios.bluetooth.pairedDevices) := by
  obtain ⟨⟨data, hdata⟩, hsupports⟩ := h
  obtain ⟨action, hmem, ha⟩ := actionName_of_inFrozenset hsupports
  generalize hrun : kind.capability.executeAction arguments s = run at hdata
  obtain ⟨result, s', t⟩ := run
  obtain rfl := Act.trace_nil t
  cases hdata
  have hinternal := report_ok hrun
  rw [actionOf_eq ha] at hinternal
  obtain ⟨⟨p, hp, hback⟩, hlists⟩ := executeInternal_ok hmem hinternal
  refine ⟨action, s'.lists, ha, ?_, hlists⟩
  have hroll : kind.capability.rollback arguments (.ok data) s'
      = ⟨.ok (), ⟨p.putBack s'.radios, s'.lists⟩, []⟩ := by
    change NetworkCapability.rollback kind.spec arguments (.ok data) s' = _
    have hpre : NetworkCapability.preStateOf (.ok data) = some p := hp
    unfold NetworkCapability.rollback
    rw [hpre]
    rfl
  rw [RecordingCapability.undone, Act.run_bind_of_ok hrun, hroll, hback]
  rfl

/-- **What a network rollback restores.** A command of the five capabilities that succeeds, rolled
back with the result it returned, leaves the bridge as it was exactly where it neither added a
device to the list of paired ones nor took one out. -/
theorem contents_undone_iff (h : kind.Undoable arguments s) :
    ((kind.capability.undone arguments s).result = .ok () ∧
        (kind.capability.undone arguments s).state.contents = s.contents) ↔
      ∀ action, actionName arguments = some action →
        ¬ Repairs action (argument arguments "device_id")
          (s.lists s.radios.bluetooth.pairedDevices) := by
  obtain ⟨action, lists, ha, hrun, hlists⟩ := undone_run h
  rw [hrun, ha]
  simp only [Option.some.injEq, forall_eq', true_and]
  rw [← devicesAfter_eq_iff, ← hlists]
  simp [MockNetworkBridge.State.contents]

theorem contents_undone_wifiDisable :
    let arguments : PyDict := Dict.empty.set "action" (.str "network.wifi.disable")
    let before : MockNetworkBridge.State := {}
    wifi.Undoable arguments before ∧
      (((wifi.capability.undone arguments before).result = .ok () ∧
          (wifi.capability.undone arguments before).state.contents = before.contents) ↔
        ∀ action, actionName arguments = some action →
          ¬ Repairs action (argument arguments "device_id") []) := by
  intro arguments before
  have h : wifi.Undoable arguments before := ⟨⟨_, rfl⟩, rfl⟩
  exact ⟨h, contents_undone_iff h⟩

/-- A bridge as it starts, bluetooth turned on, a headset paired and the pairing rolled back: the
headset is still there. -/
theorem pair_not_undone :
    let enable : PyDict := Dict.empty.set "action" (.str "network.bluetooth.enable")
    let pair : PyDict := (Dict.empty.set "action" (.str "network.bluetooth.pair")).set "device_id"
      (.str "headset")
    let before := (bluetooth.capability.executeAction enable {}).state
    let after := bluetooth.capability.undone pair before
    bluetooth.Undoable pair before ∧ before.contents.pairedDevices = [] ∧
      after.result = .ok () ∧ after.state.contents.pairedDevices = [.str "headset"] := by
  intro enable pair before after
  exact ⟨⟨⟨_, rfl⟩, rfl⟩, rfl, rfl, rfl⟩

end Network

end IraOS
