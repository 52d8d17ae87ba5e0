import IraOS.Mutation.Manager
import IraOS.Security.Manager

/-!
# The execution pipeline

`core/execution/service.py` over `core/runtime/dispatcher.py` and `core/runtime/executor.py`:
classify a command, route it, and inside the protected dispatcher authorize before running.

`execute` is the composition of everything below it, so a quantifier over `Env`, a starting `World`
and a command ranges over every run of one call of the kernel's public entry point.

Three points of the source are easily lost in a paraphrase, and are kept:

* The classifier asks the metadata's mutation object for an attribute `is_mutation` that its own
  dataclass does not declare (`isMutation`); whether it is there depends on the object.
* The trust level of a command is read from its metadata, which the caller fills in
  (`trustLevelOf`).
* The `try` of the protected dispatcher is around the runtime and the announcement of the
  dispatch, and its handler announces a failure. The announcements before and after it, and the
  authorization, are outside.

The service itself checks the two ids of a command, before anything else, and that there is a
mutation manager, once a command was classified as a mutation. Both refusals are exceptions.
-/

set_option autoImplicit false

namespace IraOS

open Lib

variable {δ : Type}

/-! ## core/runtime -/

def RuntimeDispatcher.dispatch (request : ExecutionRequest)
    (registry : InMemoryCapabilityRegistry.Capabilities) : Except Exn CapabilityRef :=
  InMemoryCapabilityRegistry.lookup registry request.capabilityId

def RuntimeExecutor.execute (env : Env δ) (inst : CapabilityRef) (context : ExecutionContext) :
    Kernel δ PyAny := do
  Act.emit (.executed inst)
  await env .execution
  let ran ← Act.attempt (onDevice ((env.objects inst).execute context))
  Act.ofExcept (ran.mapError fun exc =>
    ⟨.executionFailedError, lit ("Capability execution failed: " ++ exc.cls.name)⟩)

/-! ## DefaultExecutionClassifier -/

namespace DefaultExecutionClassifier

/-- The classifier's test: the mutation object is truthy, and has an attribute `is_mutation` that
is. -/
def isMutation (metadata : CapabilityMetadata) : Bool :=
  match metadata.mutation with
  | none => false
  | some info => info.isMutation.getD false

def classify (objects : Objects δ) (registry : InMemoryCapabilityRegistry.Capabilities)
    (command : ExecutionCommand) : Option CapabilityRef × ExecutionType :=
  match InMemoryCapabilityRegistry.lookup registry command.capabilityId with
  | .error _ => (none, .READ)
  | .ok inst =>
    (some inst, if isMutation (objects inst).metadata then .MUTATION else .READ)

end DefaultExecutionClassifier

/-! ## DefaultProtectedDispatcher -/

namespace DefaultProtectedDispatcher

def trustLevelOf (command : ExecutionCommand) : TrustLevel :=
  TrustLevel.ofValue ((command.metadata.get? "trust_level").getD (.str "UNTRUSTED"))

def approvalContext (command : ExecutionCommand) (mutationId : String) : MutationContext :=
  { mutationId := mutationId
    workflowId := command.metadata.get? "workflow_id"
    executionId := command.commandId
    capabilityId := command.capabilityId
    userId := command.metadata.get? "user_id" }

def permissionRequest (command : ExecutionCommand) (permissionId : String) : PermissionRequest :=
  { permissionId := permissionId
    capabilityId := command.capabilityId
    context := some
      { requestId := command.commandId
        capabilityId := command.capabilityId
        trustLevel := trustLevelOf command } }

/-- What follows a permission result: the reason to deny, or `none` to go ahead. Approval is asked
for where the state calls for it and there is a confirmation manager to ask. -/
def approve (env : Env δ) (command : ExecutionCommand) (result : PermissionResult) :
    Kernel δ (Option Text) :=
  if result.state = .REQUIRES_APPROVAL then
    if env.confirmationManager then do
      let mutationId ← uuid4
      let confirmed ← ConfirmationManager.requestConfirmation env .security
        (approvalContext command mutationId) .USER
      if confirmed then pure none
      else pure (some (lit "User denied required security approval."))
    else
      pure (some (lit
        "Security requires approval, but ConfirmationManager is not injected."))
  else if result.granted then pure none
  else
    pure (some (Text.ofOption
      (Text.orElse result.denialReason (some (lit "Permission denied by Security Kernel.")))))

def authorization (env : Env δ) (command : ExecutionCommand) : Kernel δ (Option Text) := do
  let permissionId ← uuid4
  let result ←
    SecurityManager.checkPermission env (.request (permissionRequest command permissionId))
  approve env command result

def publishDenial (env : Env δ) (command : ExecutionCommand) (reason : Text) :
    Kernel δ ExecutionOutcome := do
  publish env .executionDenied
    (.executionDenied command.commandId command.capabilityId reason)
  pure
    { commandId := command.commandId
      capabilityId := command.capabilityId
      status := .DENIED
      denialReason := some reason }

def requestOf (command : ExecutionCommand) : ExecutionRequest :=
  { executionId := command.commandId
    capabilityId := command.capabilityId
    arguments := command.arguments
    metadata := command.metadata }

def contextOf (objects : Objects δ) (command : ExecutionCommand) (inst : CapabilityRef) :
    ExecutionContext :=
  { request := requestOf command
    capabilityMetadata := (objects inst).metadata }

def runtime (env : Env δ) (command : ExecutionCommand) : Kernel δ PyAny := do
  let w ← Act.get
  let inst ← Act.ofExcept (RuntimeDispatcher.dispatch (requestOf command) w.registry)
  publish env .executionDispatched
    (.executionDispatched command.commandId command.capabilityId)
  RuntimeExecutor.execute env inst (contextOf env.objects command inst)

def fail (env : Env δ) (command : ExecutionCommand) (exc : Exn) : Kernel δ ExecutionOutcome := do
  let errorMsg := lit "Runtime execution failed: " ++ exc.message
  publish env .executionFailed
    (.executionFailed command.commandId command.capabilityId errorMsg)
  pure
    { commandId := command.commandId
      capabilityId := command.capabilityId
      status := .FAILED
      error := some errorMsg }

def succeed (env : Env δ) (command : ExecutionCommand) (result : PyAny) :
    Kernel δ ExecutionOutcome := do
  publish env .executionSucceeded
    (.executionSucceeded command.commandId command.capabilityId result)
  pure
    { commandId := command.commandId
      capabilityId := command.capabilityId
      status := .SUCCEEDED
      resultData := result }

def report (env : Env δ) (command : ExecutionCommand) : Except Exn PyAny → Kernel δ ExecutionOutcome
  | .error exc => fail env command exc
  | .ok result => succeed env command result

def dispatchAuthorized (env : Env δ) (command : ExecutionCommand) :
    Kernel δ ExecutionOutcome := do
  publish env .executionAuthorized
    (.executionAuthorized command.commandId command.capabilityId)
  let ran ← Act.attempt (runtime env command)
  report env command ran

def dispatch (env : Env δ) (command : ExecutionCommand) : Kernel δ ExecutionOutcome := do
  match ← authorization env command with
  | some reason => publishDenial env command reason
  | none => dispatchAuthorized env command

end DefaultProtectedDispatcher

/-! ## DefaultExecutionService -/

namespace DefaultExecutionService

def route (env : Env δ) (command : ExecutionCommand) (type : ExecutionType) :
    Kernel δ ExecutionOutcome :=
  match type with
  | .MUTATION =>
    if env.mutationManager then do
      Act.emit (.routed .mutationManager)
      DefaultMutationManager.processMutation env command (DefaultProtectedDispatcher.dispatch env)
    else
      Act.throw ⟨.executionRuntimeError,
        lit "MutationManager is required for MUTATION execution."⟩
  | .READ => do
    Act.emit (.routed .protectedDispatcher)
    DefaultProtectedDispatcher.dispatch env command

def validate (command : ExecutionCommand) : Except Exn Unit :=
  if command.commandId.isEmpty || command.capabilityId.isEmpty then
    .error ⟨.executionValidationError,
      lit "ExecutionCommand must have a command_id and capability_id."⟩
  else .ok ()

def execute (env : Env δ) (command : ExecutionCommand) : Kernel δ ExecutionOutcome := do
  Act.ofExcept (validate command)
  publish env .executionRequested
    (.executionRequested command.commandId command.capabilityId)
  let w ← Act.get
  let (found, type) := DefaultExecutionClassifier.classify env.objects w.registry command
  Act.emit (.classified found type)
  route env command type

end DefaultExecutionService

/-! ## Surroundings to run it in -/

/-- Nobody else around: a bus that delivers, no other task, and no provider and no sink. -/
def Env.alone (objects : Objects δ) (policies : DefaultPolicyEvaluator.Policies) : Env δ where
  objects := objects
  bus _ := .delivers
  others _ := []
  providers := []
  sinks := []
  security := .ofPolicies policies

theorem Env.alone_untouched (objects : Objects δ) (policies : DefaultPolicyEvaluator.Policies)
    (id : String) : (Env.alone objects policies).Untouched id :=
  fun _ _ hop => absurd hop List.not_mem_nil

theorem Env.alone_busDelivers (objects : Objects δ) (policies : DefaultPolicyEvaluator.Policies) :
    (Env.alone objects policies).BusDelivers := fun _ => rfl

def DefaultPolicyEvaluator.granting (capabilityId : String) (level : TrustLevel) (approval : Bool) :
    DefaultPolicyEvaluator.Policies :=
  Dict.empty.set "policy"
    { policyId := "policy"
      name := ""
      description := ""
      requirements :=
        [{ capabilityId := capabilityId
           requiredTrustLevel := level
           requiresUserApproval := approval }] }

def ping : Capability Unit where
  metadata := { id := "ping", name := "Ping", description := "", version := "1.0.0" }
  execute _ := pure (.value .none)

def pingCommand : ExecutionCommand := { commandId := "command", capabilityId := "ping" }

def World.holding {δ : Type} (id : String) (inst : CapabilityRef) (device : δ) : World δ :=
  { registry := Dict.empty.set id inst, device := device }

end IraOS
