import IraOS.Core.Capability

/-!
# Android capabilities and the adapter that registers them

`core/android/contracts.py`, `adapter.py`, `registry.py` and `capabilities/base.py`. An Android
capability describes itself in a descriptor; `DefaultAndroidAdapter` turns the descriptor into the
kernel's metadata and the capability into a kernel capability; `InMemoryAndroidRegistry` puts the
adapter where the kernel looks.

Two translations on this way lose something, and both are in plain sight here: the adapter's
mutation metadata is a `MutationMetadata`, which has no `is_mutation`, and `execute_action` of the
shared base class *returns* a failure instead of raising it.

What follows from the first is in `Android.Routing`, and from the second in `Android.Faithfulness`.
Neither is put into the model: the adapter's metadata is the translation the source has, field by
field, and the classifier that reads it is the one of `Execution.Service`.

The base class is a gate. An action that is not among the descriptor's is refused before the
subclass's own code is reached, "default" alone excepted, and whatever that code raises becomes a
result with `success = False`: the class and the message of a `CapabilityError`, and one code for
everything else. So the whole of `execute_action` is known from the subclass's code
(`executeAction_run`), and a report is of success exactly where that code got through
(`reportOf_success_iff`).
-/

set_option autoImplicit false

namespace IraOS

open Lib

variable {δ : Type}

/-! ## The contract -/

/-- `CapabilityDescriptor`, as far as the kernel reads it. The Android package has a
`ConfirmationLevel` of its own, translated member by member to the mutation package's: both are
`ConfirmationLevel` here. -/
structure CapabilityDescriptor where
  id : String
  name : String
  description : String
  version : String
  supportedActions : List String := []
  isMutation : Bool := false
  supportsRollback : Bool := false
  auditRequired : Bool := false
  confirmationLevel : ConfirmationLevel := .NONE
  idempotent : Bool := false

structure AndroidCapability (δ : Type) where
  descriptor : CapabilityDescriptor
  executeAction : PyDict → DeviceAct δ PyAny
  /-- `none`: the class has no such method. -/
  supportsRollback : Option (PyDict → Except Exn Bool) := none
  rollback : Option (PyDict → PyAny → DeviceAct δ Unit) := none


namespace DefaultAndroidAdapter

def mutationMetaOf (descriptor : CapabilityDescriptor) : Option MutationMetadata :=
  if descriptor.isMutation then
    some
      { isDestructive := false
        supportsRollback := descriptor.supportsRollback
        auditRequired := descriptor.auditRequired
        confirmationLevel := descriptor.confirmationLevel
        idempotent := descriptor.idempotent }
  else none

def metadataOf (descriptor : CapabilityDescriptor) : CapabilityMetadata :=
  { id := descriptor.id
    name := descriptor.name
    description := descriptor.description
    version := descriptor.version
    mutation := (mutationMetaOf descriptor).map MutationMetadata.toInfo }

def execute (capability : AndroidCapability δ) (context : ExecutionContext) :
    DeviceAct δ PyAny := do
  match ← Act.attempt (capability.executeAction context.request.arguments) with
  | .ok result => pure result
  | .error exc =>
    Act.throw ⟨.androidAdapterError,
      lit "Adapter failed to execute Android capability: " ++ exc.message⟩

def supportsRollback (capability : AndroidCapability δ) (arguments : PyDict) : Except Exn Bool :=
  match capability.supportsRollback with
  | some supports => supports arguments
  | none => .ok false

def rollback (capability : AndroidCapability δ) (arguments : PyDict) (originalResult : PyAny) :
    DeviceAct δ Unit :=
  match capability.rollback with
  | some undo => undo arguments originalResult
  | none =>
    Act.throw ⟨.notImplementedError, lit "Underlying capability does not support rollback"⟩

end DefaultAndroidAdapter

/-- `DefaultAndroidAdapter(capability)`. Every adapter is a `MutatingCapability`, whatever it wraps;
whether it can be rolled back is asked of the wrapped object. -/
def DefaultAndroidAdapter (capability : AndroidCapability δ) : Capability δ where
  metadata := DefaultAndroidAdapter.metadataOf capability.descriptor
  execute := DefaultAndroidAdapter.execute capability
  mutating := some
    { supportsRollback := DefaultAndroidAdapter.supportsRollback capability
      rollback := DefaultAndroidAdapter.rollback capability }

/-! ## InMemoryAndroidRegistry -/

namespace InMemoryAndroidRegistry

/-- `_capabilities` and the tool registry it bridges to; the value under an id is the adapter's
reference in both. -/
structure State where
  capabilities : Dict String CapabilityRef := Dict.empty
  toolRegistry : InMemoryCapabilityRegistry.Capabilities := Dict.empty

end InMemoryAndroidRegistry

/-! ## BaseAndroidCapability -/

namespace BaseAndroidCapability

abbrev Internal (δ : Type) := PyValue → PyDict → DeviceAct δ PyValue

/-- The gate of `execute_action`: the action is one of the descriptor's, or "default". -/
def supports (descriptor : CapabilityDescriptor) (action : PyValue) : Bool :=
  descriptor.supportedActions.any action.isStr || action.isStr "default"

theorem exists_of_supports {descriptor : CapabilityDescriptor} {action : PyValue}
    (h : supports descriptor action = true) :
    ∃ name ∈ "default" :: descriptor.supportedActions, action = .str name := by
  have isStr_eq : ∀ {s}, action.isStr s = true → action = .str s := by
    intro s hs
    cases action with
    | str t => exact congrArg PyValue.str (beq_iff_eq.mp hs)
    | _ => cases hs
  rcases (Bool.or_eq_true ..).mp h with h | h
  · obtain ⟨name, hmem, heq⟩ := List.any_eq_true.mp h
    exact ⟨name, List.mem_cons_of_mem _ hmem, isStr_eq heq⟩
  · exact ⟨"default", List.mem_cons_self, isStr_eq h⟩

def actionOf (arguments : PyDict) : PyValue :=
  (arguments.get? "action").getD (.str "default")

/-- The result `execute_action` makes of an exception: it is returned, with `success = False`. -/
def failureOf (descriptor : CapabilityDescriptor) (exc : Exn) : CapabilityResult :=
  { capabilityId := descriptor.id
    success := false
    errorCode := if exc.cls.isCapabilityError then exc.cls.name else "PlatformExecutionError"
    errorMessage :=
      if exc.cls.isCapabilityError then exc.message
      else lit "Unhandled platform exception: " ++ exc.message }

def checkedExecute (descriptor : CapabilityDescriptor) (internal : Internal δ)
    (arguments : PyDict) : DeviceAct δ PyValue :=
  let action := actionOf arguments
  if supports descriptor action then internal action arguments
  else Act.throw ⟨.invalidArgumentError,
    [.text "Action '", .value action, .text ("' is not supported by " ++ descriptor.id ++ ".")]⟩

def executeAction (descriptor : CapabilityDescriptor) (internal : Internal δ)
    (arguments : PyDict) : DeviceAct δ PyAny := do
  match ← Act.attempt (checkedExecute descriptor internal arguments) with
  | .ok data => pure (.result { capabilityId := descriptor.id, success := true, data := data })
  | .error exc => pure (.result (failureOf descriptor exc))

def reportOf (descriptor : CapabilityDescriptor) (internal : Internal δ) (arguments : PyDict)
    (d : δ) : CapabilityResult :=
  match (checkedExecute descriptor internal arguments d).result with
  | .ok data => { capabilityId := descriptor.id, success := true, data := data }
  | .error exc => failureOf descriptor exc

/-- **`execute_action` never raises**: it reports, and the device is where the subclass's own code
left it. -/
theorem executeAction_run (descriptor : CapabilityDescriptor) (internal : Internal δ)
    (arguments : PyDict) (d : δ) :
    executeAction descriptor internal arguments d
      = ⟨.ok (.result (reportOf descriptor internal arguments d)),
        (checkedExecute descriptor internal arguments d).state, []⟩ := by
  unfold executeAction reportOf
  have ht := Act.trace_nil (checkedExecute descriptor internal arguments d).trace
  rw [Act.run_bind, Act.run_attempt]
  cases (checkedExecute descriptor internal arguments d).result <;> simp [ht]

def Accomplishes (descriptor : CapabilityDescriptor) (internal : Internal δ) (arguments : PyDict)
    (d : δ) : Prop :=
  supports descriptor (actionOf arguments) = true ∧
    ∃ data, (internal (actionOf arguments) arguments d).result = .ok data

theorem reportOf_success_iff {descriptor : CapabilityDescriptor} {internal : Internal δ}
    {arguments : PyDict} {d : δ} :
    (reportOf descriptor internal arguments d).success = true ↔
      Accomplishes descriptor internal arguments d := by
  unfold reportOf checkedExecute Accomplishes
  cases hs : supports descriptor (actionOf arguments) with
  | false => simp [failureOf]
  | true =>
    simp only [if_true, true_and]
    cases (internal (actionOf arguments) arguments d).result <;> simp [failureOf]

end BaseAndroidCapability

end IraOS
