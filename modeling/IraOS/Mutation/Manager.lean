import IraOS.Mutation.Audit
import IraOS.Mutation.Confirmation

/-!
# The mutation lifecycle

`DefaultMutationManager.process_mutation` (`core/mutation/manager.py`), cut where the source numbers
its steps: resolve, request, confirm, execute, recover, audit, complete. The delegate is whatever
the caller supplies; nothing here depends on what it is.

Which steps are inside of a `try`, and which are not, decides most of what can be said of the
lifecycle, so it is kept to the letter:

* The delegate is called outside of any: what it raises goes to the caller, and steps 5 to 7 are
  passed over, the audit with them.
* The rollback and its announcement are inside one; what they raise is announced as a failed
  rollback. The question whether to roll back is not.
* Recording and announcing the audit are inside one, and nothing of it gets out.
* Completing is outside, after the audit.

The statements are one function for each numbered step, and each is written over the surroundings
(`Env`), so a run of the whole is a run for every way in which the bus, the providers, the sinks and
the other tasks behave.
-/

set_option autoImplicit false

namespace IraOS

open Lib

variable {δ : Type}

namespace DefaultMutationManager

abbrev Delegate (δ : Type) := ExecutionCommand → Kernel δ ExecutionOutcome

def mapOutcomeToState (outcome : ExecutionOutcome) : MutationState :=
  if outcome.succeeded then .COMPLETED
  else if outcome.denied then .REJECTED
  else .FAILED

def buildOutcome (command : ExecutionCommand) (status : ExecutionOutcomeStatus)
    (denialReason error : Option Text) : ExecutionOutcome :=
  { commandId := command.commandId
    capabilityId := command.capabilityId
    status := status
    denialReason := denialReason
    error := error }

def mutationMeta (capability : Capability δ) : Except Exn MutationInfo :=
  match capability.metadata.mutation with
  | some info => .ok info
  | none =>
    .error ⟨.attributeError, lit "'NoneType' object has no attribute 'confirmation_level'"⟩

def auditRecord (context : MutationContext) (command : ExecutionCommand) (status : MutationState)
    (result : PyAny) (error : Option Text) (auditId : String) : AuditRecord :=
  { auditId := auditId
    mutationId := context.mutationId
    capabilityId := context.capabilityId
    action := "execute"
    arguments := command.arguments
    status := status
    resultData := result
    error := error
    workflowId := context.workflowId
    userId := context.userId }

/-- The `try` of `_record_audit`: what recording or announcing raises is logged and dropped. -/
def persist (env : Env δ) (context : MutationContext) (record : AuditRecord) : Kernel δ Unit := do
  let _ ← Act.attempt do
    AuditManager.record env record
    publish env .auditRecorded (.auditRecorded context record)
  pure ()

def recordAudit (env : Env δ) (context : MutationContext) (command : ExecutionCommand)
    (status : MutationState) (result : PyAny) (error : Option Text) : Kernel δ Unit := do
  let auditId ← uuid4
  persist env context (auditRecord context command status result error auditId)

def audit (env : Env δ) (context : MutationContext) (command : ExecutionCommand)
    (info : MutationInfo) (status : MutationState) (result : PyAny) (error : Option Text) :
    Kernel δ Unit :=
  if info.auditRequired then recordAudit env context command status result error else pure ()

def confirm (env : Env δ) (context : MutationContext) (info : MutationInfo) :
    Kernel δ (Option Text) :=
  if info.confirmationLevel = .NONE then pure none
  else do
    let confirmed ←
      ConfirmationManager.requestConfirmation env .mutation context info.confirmationLevel
    if confirmed then
      publish env .mutationConfirmed (.mutationConfirmed context)
      pure none
    else
      pure (some (lit ("Confirmation denied for level " ++ info.confirmationLevel.value)))

def reject (env : Env δ) (context : MutationContext) (command : ExecutionCommand)
    (info : MutationInfo) (reason : Text) : Kernel δ ExecutionOutcome := do
  publish env .mutationRejected (.mutationRejected context reason)
  audit env context command info .REJECTED (.value .none) (some reason)
  pure (buildOutcome command .DENIED (some reason) none)

def rollback (env : Env δ) (context : MutationContext) (command : ExecutionCommand)
    (inst : CapabilityRef) (mutating : MutatingCapability δ) (outcome : ExecutionOutcome) :
    Kernel δ Unit := do
  Act.emit (.rollback inst)
  await env .rollback
  onDevice (mutating.rollback command.arguments outcome.resultData)
  publish env .mutationRolledBack
    (.mutationRolledBack context
      (Text.ofOption (Text.orElse outcome.error (some (lit "Execution failed")))))

def attemptRollback (env : Env δ) (context : MutationContext) (command : ExecutionCommand)
    (inst : CapabilityRef) (mutating : MutatingCapability δ) (outcome : ExecutionOutcome) :
    Kernel δ ExecutionOutcome := do
  match ← Act.attempt (rollback env context command inst mutating outcome) with
  | .ok () => pure outcome
  | .error exc =>
    let errorMsg := lit "Rollback failed: " ++ exc.message
    publish env .rollbackFailed (.rollbackFailed context errorMsg)
    pure (buildOutcome command .FAILED none
      (some (Text.ofOption outcome.error ++ lit " | " ++ errorMsg)))

/-- Step 5: after a failure the capability is asked whether it can be undone, and if it can, it
is. -/
def recover (env : Env δ) (context : MutationContext) (command : ExecutionCommand)
    (inst : CapabilityRef) (info : MutationInfo) (outcome : ExecutionOutcome) :
    Kernel δ ExecutionOutcome :=
  if outcome.failed && info.supportsRollback then
    match (env.objects inst).mutating with
    | none => pure outcome
    | some mutating => do
      if ← Act.ofExcept (mutating.supportsRollback command.arguments) then
        attemptRollback env context command inst mutating outcome
      else pure outcome
  else pure outcome

/-- Step 7: a success is announced, and nothing else is. -/
def complete (env : Env δ) (context : MutationContext) (outcome : ExecutionOutcome) :
    Kernel δ Unit :=
  if outcome.succeeded then
    publish env .mutationCompleted (.mutationCompleted context outcome.resultData)
  else pure ()

def conclude (env : Env δ) (context : MutationContext) (command : ExecutionCommand)
    (info : MutationInfo) (outcome : ExecutionOutcome) : Kernel δ ExecutionOutcome := do
  audit env context command info (mapOutcomeToState outcome) outcome.resultData
    (Text.orElse outcome.error outcome.denialReason)
  complete env context outcome
  pure outcome

def finish (env : Env δ) (context : MutationContext) (command : ExecutionCommand)
    (inst : CapabilityRef) (info : MutationInfo) (outcome : ExecutionOutcome) :
    Kernel δ ExecutionOutcome := do
  let outcome ← recover env context command inst info outcome
  conclude env context command info outcome

def carryOut (env : Env δ) (delegate : Delegate δ) (context : MutationContext)
    (command : ExecutionCommand) (inst : CapabilityRef) (info : MutationInfo) :
    Kernel δ ExecutionOutcome := do
  publish env .mutationStarted (.mutationStarted context)
  let outcome ← delegate command
  finish env context command inst info outcome

/-- Steps 2 and 3: the metadata of the capability step 1 found, and why the confirmation was
refused if it was. -/
def prepare (env : Env δ) (context : MutationContext) (command : ExecutionCommand)
    (inst : CapabilityRef) : Kernel δ (MutationInfo × Option Text) := do
  publish env .mutationRequested (.mutationRequested context command.arguments)
  let info ← Act.ofExcept (mutationMeta (env.objects inst))
  let refusal ← confirm env context info
  pure (info, refusal)

/-- Steps 2 to 7, for the capability step 1 found. -/
def processFound (env : Env δ) (delegate : Delegate δ) (context : MutationContext)
    (command : ExecutionCommand) (inst : CapabilityRef) : Kernel δ ExecutionOutcome := do
  match ← prepare env context command inst with
  | (info, some reason) => reject env context command info reason
  | (info, none) => carryOut env delegate context command inst info

/-- The context of the mutation `mutationId` of a command. -/
def contextOf (command : ExecutionCommand) (mutationId : String) : MutationContext :=
  { mutationId := mutationId
    workflowId := command.metadata.get? "workflow_id"
    executionId := command.commandId
    capabilityId := command.capabilityId
    userId := command.metadata.get? "user_id" }

def processMutation (env : Env δ) (command : ExecutionCommand) (delegate : Delegate δ) :
    Kernel δ ExecutionOutcome := do
  let mutationId ← uuid4
  let w ← Act.get
  match InMemoryCapabilityRegistry.lookup w.registry command.capabilityId with
  | .error _ => pure (buildOutcome command .FAILED none (some (lit "Capability not found.")))
  | .ok inst =>
    Act.emit (.resolved inst)
    processFound env delegate (contextOf command mutationId) command inst

end DefaultMutationManager

end IraOS
