import IraOS.Android.Capabilities
import IraOS.Execution.Dispatch

/-!
# What the dispatcher makes of a capability's failure

A capability of the shared base class reports a failure in a field of its result
(`success = False`); the dispatcher knows a failure by the exception it caught. Between them nobody
reads the field, so a report of failure comes out as a success: `dispatch_adapter` is the one run
there is, and its outcome does not depend on the report.

Two promises depend on it, and both are stated by what they are for. A dispatch is `Faithful` if its
status says what the capability reported. The mutation lifecycle is `MutationFaithful` if it does
not complete a mutation whose capability ran and failed; it goes by the dispatcher's status, so it
is as good as that.

`faithful_iff` says when the two hold: exactly where the capability does not fail, which means that
the action is supported and the capability's own code gets through on the device as it stands. The
condition is `Accomplishes`, and it speaks of the command and the device only.

A delivering bus, an authorized command and a registered capability are hypotheses: without them
nothing is run, and there is no report to be faithful to.
-/

set_option autoImplicit false

namespace IraOS

open Lib BaseAndroidCapability DefaultProtectedDispatcher

variable {δ : Type}

/-- A dispatch tells what its capability reported. -/
def Faithful (command : ExecutionCommand) (report : CapabilityResult)
    (run : Run (World δ) Exn Entry ExecutionOutcome) : Prop :=
  ∃ outcome, run.result = .ok outcome ∧
    (report.success = true → outcome.status = .SUCCEEDED ∧ ∃ data,
      .event (.executionSucceeded command.commandId command.capabilityId data) ∈ run.trace) ∧
    (report.success = false → outcome.status = .FAILED ∧ ∃ error,
      .event (.executionFailed command.commandId command.capabilityId error) ∈ run.trace)

/-- A mutation whose capability ran and reported failure does not pass for completed. -/
def MutationFaithful (report : CapabilityResult)
    (run : Run (World δ) Exn Entry ExecutionOutcome) : Prop :=
  report.success = false → (∃ inst, .executed inst ∈ run.trace) →
    (∀ outcome, run.result = .ok outcome → outcome.status = .FAILED) ∧
      ∀ context data, .event (.mutationCompleted context data) ∉ run.trace

theorem capabilityRun_adapter {objects : Objects δ} {command : ExecutionCommand}
    {inst : CapabilityRef} {capability : AndroidCapability δ} {internal : Internal δ}
    (hobj : objects inst = DefaultAndroidAdapter capability)
    (hbase : capability.executeAction = executeAction capability.descriptor internal) (d : δ) :
    capabilityRun objects command inst d
      = ⟨.ok (.result (reportOf capability.descriptor internal command.arguments d)),
        (checkedExecute capability.descriptor internal command.arguments d).state, []⟩ := by
  have hrun : capability.executeAction (contextOf objects command inst).request.arguments d = _ :=
    hbase ▸ executeAction_run capability.descriptor internal command.arguments d
  rw [capabilityRun, hobj]
  change DefaultAndroidAdapter.execute capability (contextOf objects command inst) d = _
  unfold DefaultAndroidAdapter.execute
  rw [Act.run_bind_of_ok (Act.run_attempt_of hrun)]
  rfl

/-- **A report of failure is a success**: on a bus that delivers, an authorized command of a
registered Android capability succeeds, and the report is its result. -/
theorem dispatch_adapter {env : Env δ} {command : ExecutionCommand} {inst : CapabilityRef}
    {capability : AndroidCapability δ} {internal : Internal δ} {w : World δ}
    (hobj : env.objects inst = DefaultAndroidAdapter capability)
    (hbase : capability.executeAction = executeAction capability.descriptor internal)
    (hreg : w.registry.get? command.capabilityId = some inst)
    (hquiet : env.Untouched command.capabilityId) (hbus : env.BusDelivers)
    (hauth : (authorization env command w).result = .ok none) :
    let result := PyAny.result (reportOf capability.descriptor internal command.arguments w.device)
    ∃ w' t, dispatch env command w = ⟨.ok (outcomeOf command (.ok result)), w', t⟩ ∧
      .event (.executionSucceeded command.commandId command.capabilityId result) ∈ t := by
  intro result
  generalize ha : authorization env command w = run at hauth
  obtain ⟨_, w₀, t₀⟩ := run
  cases hauth
  have hmoves : SameDevice w w₀ ∧ SameBinding command.capabilityId w w₀ :=
    (authorization_moves (Stable.sameDevice.and (Stable.sameBinding hquiet)) command).of_run ha
  obtain ⟨hd, hb⟩ := hmoves
  have hlook : (w₀.after env (.publish .executionAuthorized)).registry.get? command.capabilityId
      = some inst := by
    rw [World.after_get? hquiet, hb, hreg]
  obtain ⟨w', hrun⟩ := dispatch_run hbus ha hlook
  have hres : normalize (capabilityRun env.objects command inst w₀.device).result = .ok result := by
    rw [capabilityRun_adapter hobj hbase, hd]
    rfl
  rw [hres] at hrun
  exact ⟨w', _, hrun, by simp [eventOf]⟩

/-- **Faithfulness, exactly.** The dispatcher tells what the capability reported, and the lifecycle
never completes a mutation that failed, exactly where the capability does not fail: the action is
supported and the capability's own code gets through. -/
theorem faithful_iff {env : Env δ} {command : ExecutionCommand} {inst : CapabilityRef}
    {capability : AndroidCapability δ} {internal : Internal δ} {w : World δ}
    (hobj : env.objects inst = DefaultAndroidAdapter capability)
    (hbase : capability.executeAction = executeAction capability.descriptor internal)
    (hreg : w.registry.get? command.capabilityId = some inst)
    (hquiet : env.Untouched command.capabilityId) (hbus : env.BusDelivers)
    (hauth : (authorization env command w).result = .ok none) :
    (Faithful command (reportOf capability.descriptor internal command.arguments w.device)
        (dispatch env command w) ∧
      MutationFaithful (reportOf capability.descriptor internal command.arguments w.device)
        (DefaultMutationManager.processMutation env command (dispatch env) w)) ↔
      Accomplishes capability.descriptor internal command.arguments w.device := by
  obtain ⟨w', t, hrun, ht⟩ := dispatch_adapter hobj hbase hreg hquiet hbus hauth
  rw [← reportOf_success_iff]
  constructor
  · rintro ⟨⟨outcome, ho, _, hfail⟩, _⟩
    rw [hrun, Except.ok.injEq] at ho
    by_contra hs
    have hf := (hfail (Bool.eq_false_iff.mpr hs)).1
    rw [← ho] at hf
    exact absurd hf (by simp [outcomeOf])
  · intro hs
    have hreport : ∀ {p : Prop},
        (reportOf capability.descriptor internal command.arguments w.device).success = false →
          p := by
      intro p hf
      exact absurd (hs.symm.trans hf) (by simp)
    refine ⟨⟨_, congrArg Run.result hrun, ?_, hreport⟩, hreport⟩
    intro _
    rw [hrun]
    exact ⟨rfl, _, ht⟩

/-! ## A volume in range, and one out of it -/

def volumeEnv : Env MockSystemBridge.State :=
  Env.alone (fun _ => DefaultAndroidAdapter (VolumeCapability MockSystemBridge.execute))
    (DefaultPolicyEvaluator.granting "android.device.volume" .LOW false)

def setVolume (value : Int) : ExecutionCommand where
  commandId := "command"
  capabilityId := "android.device.volume"
  arguments := (Dict.empty.set "action" (.str "system.volume.set")).set "value" (.int value)
  metadata := Dict.empty.set "trust_level" (.str "LOW")

def volumeWorld : World MockSystemBridge.State := World.holding "android.device.volume" 0 {}

def volumeReport (value : Int) : CapabilityResult :=
  reportOf VolumeCapability.descriptor (VolumeCapability.executeInternal MockSystemBridge.execute)
    (setVolume value).arguments volumeWorld.device

theorem faithful_iff_setVolume :
    Faithful (setVolume 30) (volumeReport 30) (dispatch volumeEnv (setVolume 30) volumeWorld) ∧
      MutationFaithful (volumeReport 30) (DefaultMutationManager.processMutation volumeEnv
        (setVolume 30) (dispatch volumeEnv) volumeWorld) :=
  (faithful_iff (show volumeEnv.objects 0
      = DefaultAndroidAdapter (VolumeCapability MockSystemBridge.execute) from rfl) rfl
    (by decide) (Env.alone_untouched _ _ _) (Env.alone_busDelivers _ _) rfl).mpr
    ⟨by decide, _, rfl⟩

def Entry.isMutationCompleted : Entry → Bool
  | .event (.mutationCompleted _ _) => true
  | _ => false

theorem Entry.isMutationCompleted_iff {x : Entry} : x.isMutationCompleted = true ↔
    ∃ context data, x = .event (.mutationCompleted context data) := by
  constructor
  · intro h
    cases x with
    | event e => cases e <;> simp_all [isMutationCompleted]
    | _ => exact absurd h (by simp [isMutationCompleted])
  · rintro ⟨_, _, rfl⟩; rfl

theorem setVolume_unfaithful :
    (volumeReport 500).success = false ∧
      ¬ Faithful (setVolume 500) (volumeReport 500)
        (dispatch volumeEnv (setVolume 500) volumeWorld) ∧
      ¬ MutationFaithful (volumeReport 500) (DefaultMutationManager.processMutation volumeEnv
        (setVolume 500) (dispatch volumeEnv) volumeWorld) := by
  have hreport : (volumeReport 500).success = false := by decide
  refine ⟨hreport, ?_, ?_⟩
  · rintro ⟨outcome, ho, _, hfail⟩
    have hs : (dispatch volumeEnv (setVolume 500) volumeWorld).result.toOption.map
        ExecutionOutcome.status = some .SUCCEEDED := by decide
    rw [ho] at hs
    exact absurd ((hfail hreport).1.symm.trans (Option.some.inj hs)) (by simp)
  · intro h
    obtain ⟨x, hx, hex⟩ := List.countP_pos_iff.mp (show 0 < (DefaultMutationManager.processMutation
      volumeEnv (setVolume 500) (dispatch volumeEnv) volumeWorld).trace.countP Entry.isExecution
      by decide)
    obtain ⟨y, hy, hey⟩ := List.countP_pos_iff.mp (show 0 < (DefaultMutationManager.processMutation
      volumeEnv (setVolume 500) (dispatch volumeEnv) volumeWorld).trace.countP
      Entry.isMutationCompleted by decide)
    obtain ⟨inst, rfl⟩ := Entry.isExecution_iff.mp hex
    obtain ⟨context, data, rfl⟩ := Entry.isMutationCompleted_iff.mp hey
    exact (h hreport ⟨inst, hx⟩).2 context data hy

end IraOS
