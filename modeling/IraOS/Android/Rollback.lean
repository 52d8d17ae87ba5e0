import IraOS.Android.Faithfulness
import IraOS.Mutation.Lifecycle

/-!
# What a failed mutation leaves on the device

The dispatcher fails a command only before its capability ran: the lookup found nothing, or the
announcement of the dispatch raised. The result a rollback is handed is then `None`, there is no
pre-state in it, and what remains is the documented fallback, logical inversion. It is applied to a
device that nothing was done to, so the command's own inverse is what is left on it.

That is how a command that was never carried out changes the device: turning the volume up fails,
and its rollback turns the volume down. A capability of the base class that runs and fails does not
come here, since its failure is a report and not an exception (`Android.Faithfulness`).

The result is for the three capabilities whose rollback inverts, over the in-memory bridge behind
any schedule of faults, so the call that inverts may itself fail, before or after its work. It says
what the device can be when the mutation did not succeed: as it was, or as the inverse call, made
once, leaves it.
-/

set_option autoImplicit false

namespace IraOS

open Lib BaseAndroidCapability DefaultMutationManager DefaultProtectedDispatcher

variable {δ : Type}

/-- The mutating Android capabilities that roll back over the system bridge. Each of them inverts an
action by another of its own actions, with arguments made from those of the first. -/
inductive Reversible where
  | volume | brightness | flashlight
  deriving DecidableEq, Repr

namespace Reversible

def capability (bridge : SystemBridge δ) : Reversible → AndroidCapability δ
  | .volume => VolumeCapability bridge
  | .brightness => BrightnessCapability bridge
  | .flashlight => FlashlightCapability bridge

def internal (bridge : SystemBridge δ) : Reversible → Internal δ
  | .volume => VolumeCapability.executeInternal bridge
  | .brightness => BrightnessCapability.executeInternal bridge
  | .flashlight => FlashlightCapability.executeInternal bridge

def logicalInverse : Reversible → PyDict → Option (String × PyDict)
  | .volume => VolumeCapability.control.logicalInverse
  | .brightness => BrightnessCapability.control.logicalInverse
  | .flashlight => FlashlightCapability.logicalInverse

theorem executeAction_eq (kind : Reversible) (bridge : SystemBridge δ) :
    (kind.capability bridge).executeAction
      = executeAction (kind.capability bridge).descriptor (kind.internal bridge) := by
  cases kind <;> rfl

theorem rollback_noResult (kind : Reversible) (bridge : SystemBridge δ) (arguments : PyDict) :
    DefaultAndroidAdapter.rollback (kind.capability bridge) arguments (.value .none)
      = invert bridge (kind.logicalInverse arguments) := by
  cases kind with
  | volume => exact LevelControl.rollback_noResult ..
  | brightness => exact LevelControl.rollback_noResult ..
  | flashlight => rfl

end Reversible

theorem dispatch_failed {env : Env δ} {bridge : SystemBridge δ} {kind : Reversible}
    {inst : CapabilityRef} {command : ExecutionCommand}
    (hobj : env.objects inst = DefaultAndroidAdapter (kind.capability bridge))
    {w w' : World δ}
    (hothers : env.NeverRebinds (fun _ => True) command.capabilityId (some inst) w.registry)
    {outcome : ExecutionOutcome} {t : List Entry}
    (h : dispatch env command w = ⟨.ok outcome, w', t⟩) (hne : outcome.status ≠ .SUCCEEDED) :
    (∀ x ∈ t, x.isExecution = false) ∧ w'.device = w.device ∧
      (outcome.status = .FAILED → outcome.resultData = .value .none) := by
  rcases dispatch_cases h with hu | ⟨⟨e⟩⟩
  · refine ⟨fun x hx => not_isExecution_of_own (hu.own x hx), hu.device, ?_⟩
    intro hf
    rcases hu.failed outcome rfl with hd | ⟨_, hr⟩
    · rw [hd] at hf; exact absurd hf (by simp)
    · exact hr
  · have hpassed : env.Passes (fun _ => True) w.registry e.w₁.registry :=
      e.moves _ (Stable.passes fun _ _ => trivial)
    have hinst : e.inst = inst :=
      (Option.some.inj ((hothers.passes hpassed).get? e.lookup)).symm
    have hobj' : env.objects e.inst = DefaultAndroidAdapter (kind.capability bridge) :=
      hinst ▸ hobj
    have hout := e.outcome outcome rfl
    rw [capabilityRun_adapter hobj' (kind.executeAction_eq bridge)] at hout
    exact absurd (by rw [hout]; rfl) hne

theorem failed_device {env : Env δ} {bridge : SystemBridge δ} {kind : Reversible}
    {inst : CapabilityRef} {command : ExecutionCommand}
    (hobj : env.objects inst = DefaultAndroidAdapter (kind.capability bridge))
    {w w' : World δ}
    (hothers : env.NeverRebinds (fun _ => True) command.capabilityId (some inst) w.registry)
    {outcome : ExecutionOutcome} {t : List Entry}
    (h : processMutation env command (dispatch env) w = ⟨.ok outcome, w', t⟩)
    (hne : outcome.status ≠ .SUCCEEDED) :
    w'.device = w.device ∨
      (outcome.status = .FAILED ∧ (∀ x ∈ t, x.isExecution = false) ∧
        w'.device = (invert bridge (kind.logicalInverse command.arguments) w.device).state) := by
  rcases processMutation_run env command (dispatch env) w with
    ⟨_, hr⟩ | ⟨i, r, w₁, t₁, hg, hf, hr⟩
  · rw [h, Run.mk.injEq] at hr
    exact Or.inl (by rw [hr.2.1])
  rw [h, Run.mk.injEq] at hr
  obtain ⟨rfl, rfl, rfl⟩ := hr
  obtain rfl : inst = i := Option.some.inj (hothers.get? hg)
  rcases processFound_cases hf with hu | ⟨⟨d⟩⟩
  · exact Or.inl (hu.moves SameDevice Stable.sameDevice)
  have hd₁ : d.w₁.device = w.device := d.moves SameDevice Stable.sameDevice
  have hothers₁ := hothers.passes (d.moves _ (Stable.passes fun _ _ => trivial))
  obtain ⟨outcome₀, w₂, _, t₂, hres, hfin, hafter⟩ := Act.bind_ok d.rest
  obtain ⟨hres, hw₂, _⟩ := Act.ofExcept_ok hres
  have hrun := d.run
  rw [hres, hw₂] at hrun
  obtain ⟨hstatus, hdev⟩ := finish_ok hfin
  obtain ⟨hquiet, hd₂, hnone⟩ := dispatch_failed hobj hothers₁ hrun (hstatus ▸ hne)
  rcases hdev with hsame | ⟨hfailed, mutating, hm, hroll⟩
  · exact Or.inl (hsame.trans (hd₂.trans hd₁))
  · refine Or.inr ⟨hstatus.trans hfailed, ?_, ?_⟩
    · intro x hx
      rw [d.trace] at hx
      rcases List.mem_cons.mp hx with rfl | hx
      · rfl
      rcases List.mem_append.mp hx with hx | hx
      · exact not_isExecution_of_mutation (d.reached.own x hx)
      rcases List.mem_append.mp hx with hx | hx
      · exact hquiet x hx
      · exact not_isExecution_of_mutation (d.after_own x hx)
    · rw [hobj] at hm
      cases hm
      rw [hroll, hnone hfailed, hd₂, hd₁]
      exact congrArg (fun m => (m w.device).state) (kind.rollback_noResult bridge command.arguments)

/-- **A failed mutation leaves the device as it was, or inverted.** For every state of the
in-memory bridge and every schedule of its faults, every command of volume, brightness or
flashlight and every point of failure: a mutation that did not succeed has left the bridge's state
alone, or it failed before its capability ran and its action's logical inverse was applied, once. -/
theorem failed_mutation_state {env : Env (FaultyState MockSystemBridge.State)}
    {faults : Nat → Fault} {kind : Reversible} {inst : CapabilityRef} {command : ExecutionCommand}
    (hobj : env.objects inst = DefaultAndroidAdapter
      (kind.capability (SystemBridge.faulty MockSystemBridge.execute faults)))
    {w w' : World (FaultyState MockSystemBridge.State)}
    (hothers : env.NeverRebinds (fun _ => True) command.capabilityId (some inst) w.registry)
    {outcome : ExecutionOutcome} {t : List Entry}
    (h : processMutation env command (dispatch env) w = ⟨.ok outcome, w', t⟩)
    (hne : outcome.status ≠ .SUCCEEDED) :
    w'.device.bridge = w.device.bridge ∨
      (outcome.status = .FAILED ∧ (∀ x ∈ t, x.isExecution = false) ∧
        ∃ action args, kind.logicalInverse command.arguments = some (action, args) ∧
          w'.device.bridge
            = (MockSystemBridge.execute (.str action) args w.device.bridge).state) := by
  rcases failed_device hobj hothers h hne with hsame | ⟨hf, hq, hd⟩
  · exact Or.inl (congrArg FaultyState.bridge hsame)
  cases hinv : kind.logicalInverse command.arguments with
  | none =>
    rw [hinv] at hd
    exact Or.inl (congrArg FaultyState.bridge hd)
  | some call =>
    obtain ⟨action, args⟩ := call
    rw [hinv, invert, callBridge_state] at hd
    rcases faulty_state MockSystemBridge.execute faults (.str action) args w.device with hb | hb
    · exact Or.inl ((congrArg FaultyState.bridge hd).trans hb)
    · exact Or.inr ⟨hf, hq, action, args, rfl, (congrArg FaultyState.bridge hd).trans hb⟩

/-! ## Turned up, not run, turned down -/

/-- The volume capability over a bridge without faults, on a bus whose middleware raises on the
announcement of the dispatch. -/
def raisingEnv : Env (FaultyState MockSystemBridge.State) :=
  { Env.alone (fun _ => DefaultAndroidAdapter (Reversible.volume.capability
      (SystemBridge.faulty MockSystemBridge.execute fun _ => .none)))
      (DefaultPolicyEvaluator.granting "android.device.volume" .LOW false) with
    bus := fun site =>
      if site = .executionDispatched then .raisesBefore ⟨.runtimeError, lit "middleware"⟩
      else .delivers }

def volumeUp : ExecutionCommand where
  commandId := "command"
  capabilityId := "android.device.volume"
  arguments := Dict.empty.set "action" (.str "system.volume.up")
  metadata := Dict.empty.set "trust_level" (.str "LOW")

def raisingWorld : World (FaultyState MockSystemBridge.State) :=
  World.holding "android.device.volume" 0 ⟨{}, 0⟩

theorem raisingEnv_object : raisingEnv.objects 0 = DefaultAndroidAdapter
    (Reversible.volume.capability (SystemBridge.faulty MockSystemBridge.execute fun _ => .none)) :=
  rfl

theorem raisingEnv_neverRebinds : raisingEnv.NeverRebinds (fun _ => True)
    "android.device.volume" (some 0) raisingWorld.registry :=
  .of_bound (Dict.get?_set_self ..) fun _ _ => List.not_mem_nil

theorem failed_mutation_state_volumeUp :
    ∃ outcome w' t, processMutation raisingEnv volumeUp (dispatch raisingEnv) raisingWorld
        = ⟨.ok outcome, w', t⟩ ∧ outcome.status ≠ .SUCCEEDED ∧
      (w'.device.bridge = raisingWorld.device.bridge ∨
        (outcome.status = .FAILED ∧ (∀ x ∈ t, x.isExecution = false) ∧
          ∃ action args, Reversible.volume.logicalInverse volumeUp.arguments = some (action, args) ∧
            w'.device.bridge
              = (MockSystemBridge.execute (.str action) args raisingWorld.device.bridge).state)) :=
  ⟨_, _, _, rfl, by decide, failed_mutation_state raisingEnv_object
    raisingEnv_neverRebinds rfl (by decide)⟩

/-- The volume was at 50, the command to turn it up failed before anything was done, and the volume
is at 40. -/
theorem volumeUp_turned_down :
    (processMutation raisingEnv volumeUp (dispatch raisingEnv) raisingWorld).result.toOption.map
        ExecutionOutcome.status = some .FAILED ∧
      raisingWorld.device.bridge.volumeLevel = 50 ∧
      (processMutation raisingEnv volumeUp (dispatch raisingEnv)
        raisingWorld).state.device.bridge.volumeLevel = 40 := by
  decide

end IraOS
