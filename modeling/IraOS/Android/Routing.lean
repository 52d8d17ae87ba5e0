import IraOS.Android.Capabilities
import IraOS.Android.Registry
import IraOS.Execution.Pipeline
import IraOS.Lib.Trace

/-!
# Where a mutating Android capability's commands go

The descriptor says `is_mutation`; the adapter answers with a `MutationMetadata`; the classifier
asks that object for `is_mutation`, which the dataclass does not declare, and takes the default. So
the classification of an adapter is READ, whatever its descriptor says, and everything the mutation
lifecycle would have done is skipped.

The service's own comments promise the opposite ("ensuring the mutation lifecycle cannot be
bypassed"). `RoutedAsMutation` is the promise for one command, read off its trace: the mutation
manager got it, the plain dispatch never did, and the capability ran only once it was confirmed and
announced. It fails for every capability that is registered through the adapter and for every
command of it, on any bus and with any policies (`adapter_never_routedAsMutation`).

The torch is the example because it is the smallest capability that asks for a confirmation. It is
registered by the Android registry, the call is the kernel's entry point, and the trace is
evaluated.
-/

set_option autoImplicit false

namespace IraOS

open Lib

variable {δ : Type}

/-- The service's promise for a command of a mutating capability with the confirmation `level`:
the mutation manager has it, the plain dispatch never does, and the capability runs only once the
confirmation is there and the mutation has been announced. -/
def RoutedAsMutation (command : ExecutionCommand) (level : ConfirmationLevel) (t : List Entry) :
    Prop :=
  .routed .mutationManager ∈ t ∧ .routed .protectedDispatcher ∉ t ∧
    Guarded (fun before x => ∀ inst, x = .executed inst →
      (level = .NONE ∨ .confirmation .mutation level true ∈ before) ∧
      ∃ context, .event (.mutationRequested context command.arguments) ∈ before) t

/-- **The attribute that is not there.** No adapter's metadata passes for a mutation's. -/
theorem not_isMutation_adapter (capability : AndroidCapability δ) :
    DefaultExecutionClassifier.isMutation (DefaultAndroidAdapter capability).metadata = false := by
  unfold DefaultAndroidAdapter DefaultAndroidAdapter.metadataOf DefaultAndroidAdapter.mutationMetaOf
    DefaultExecutionClassifier.isMutation
  cases capability.descriptor.isMutation <;> rfl

theorem classify_adapter {objects : Objects δ} {caps : InMemoryCapabilityRegistry.Capabilities}
    {command : ExecutionCommand} {capability : AndroidCapability δ} {inst : CapabilityRef}
    (hobj : objects inst = DefaultAndroidAdapter capability)
    (hreg : caps.get? command.capabilityId = some inst) :
    DefaultExecutionClassifier.classify objects caps command = (some inst, .READ) := by
  simp only [DefaultExecutionClassifier.classify, InMemoryCapabilityRegistry.lookup, hreg, hobj,
    not_isMutation_adapter, Bool.false_eq_true, if_false]

open DefaultExecutionService in
theorem routed_adapter {env : Env δ} {command : ExecutionCommand} {capability : AndroidCapability δ}
    {inst : CapabilityRef} {w : World δ}
    (hobj : env.objects inst = DefaultAndroidAdapter capability)
    (hreg : w.registry.get? command.capabilityId = some inst)
    (hquiet : env.Untouched command.capabilityId) {route : Route}
    (h : .routed route ∈ (execute env command w).trace) : route = .protectedDispatcher := by
  generalize hrun : execute env command w = run at h
  obtain ⟨r, w', t⟩ := run
  have hclass : DefaultExecutionClassifier.classify env.objects (atClassification env w).registry
      command = (some inst, .READ) :=
    classify_adapter hobj ((World.after_get? hquiet _ w).trans hreg)
  obtain ⟨found, type, hc, ht⟩ := execute_cases hrun
  rw [hclass, Prod.mk.injEq] at hc
  obtain ⟨rfl, rfl⟩ := hc
  rcases ht with ht | ⟨_, ⟨d⟩⟩
  · exact ht _ h
  · have hd : .routed route ∉ d.during := by
      intro hm
      rcases DefaultProtectedDispatcher.dispatch_cases d.run with hu | ⟨⟨e⟩⟩
      · exact hu.own _ hm
      · rw [e.trace] at hm
        have := e.own (.routed route)
        simp_all [DefaultProtectedDispatcher.OwnEntry]
    rw [d.trace] at h
    have := d.around (.routed route)
    simp_all [Around, routeOf]

/-- **The mutation lifecycle is bypassed for every Android capability, by every command**: what the
service promises never holds, and whatever it hands on goes to the plain dispatch. The adapter's
metadata do not say that a capability mutates, and the service goes by nothing else. -/
theorem adapter_never_routedAsMutation {env : Env δ} {command : ExecutionCommand}
    {capability : AndroidCapability δ} {inst : CapabilityRef} {w : World δ}
    (hobj : env.objects inst = DefaultAndroidAdapter capability)
    (hreg : w.registry.get? command.capabilityId = some inst)
    (hquiet : env.Untouched command.capabilityId) :
    ¬ RoutedAsMutation command capability.descriptor.confirmationLevel
        (DefaultExecutionService.execute env command w).trace ∧
      ∀ route, .routed route ∈ (DefaultExecutionService.execute env command w).trace →
        route = .protectedDispatcher :=
  ⟨fun h => absurd (routed_adapter hobj hreg hquiet h.1) (by simp),
    fun _ h => routed_adapter hobj hreg hquiet h⟩

/-! ## The torch, without a question -/

def flashlightEnv : Env MockSystemBridge.State :=
  Env.alone (fun _ => DefaultAndroidAdapter (FlashlightCapability MockSystemBridge.execute))
    (DefaultPolicyEvaluator.granting "android.hardware.flashlight" .LOW false)

def flashlightOn : ExecutionCommand where
  commandId := "command"
  capabilityId := "android.hardware.flashlight"
  arguments := Dict.empty.set "action" (.str "system.flashlight.on")
  metadata := Dict.empty.set "trust_level" (.str "LOW")

def flashlightWorld : World MockSystemBridge.State where
  registry := (InMemoryAndroidRegistry.registerCapability flashlightEnv.objects
    (FlashlightCapability MockSystemBridge.execute) 0 {} {}).state.toolRegistry
  device := {}

theorem flashlight_registered :
    flashlightWorld.registry.get? flashlightOn.capabilityId = some 0 := by decide

theorem flashlight_object :
    flashlightEnv.objects 0
      = DefaultAndroidAdapter (FlashlightCapability MockSystemBridge.execute) := rfl

theorem adapter_never_routedAsMutation_flashlight :
    ¬ RoutedAsMutation flashlightOn .USER
      (DefaultExecutionService.execute flashlightEnv flashlightOn flashlightWorld).trace :=
  (adapter_never_routedAsMutation flashlight_object flashlight_registered
    (Env.alone_untouched _ _ _)).1

/-- The flashlight's descriptor asks for a user's confirmation. Nobody is asked, nothing is
announced, and the light is on. -/
theorem flashlight_bypasses_confirmation :
    let run := DefaultExecutionService.execute flashlightEnv flashlightOn flashlightWorld
    FlashlightCapability.descriptor.isMutation = true ∧
      FlashlightCapability.descriptor.confirmationLevel = .USER ∧
      ¬ RoutedAsMutation flashlightOn .USER run.trace ∧
      run.trace.countP Entry.isExecution = 1 ∧ run.state.device.flashlightOn = true :=
  ⟨rfl, rfl, fun h => absurd (routed_adapter flashlight_object flashlight_registered
    (Env.alone_untouched _ _ _) h.1) (by simp), by decide, by decide⟩

end IraOS
