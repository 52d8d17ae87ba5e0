import IraOS.Core.Value

/-!
# The records that travel through the execution pipeline

The frozen dataclasses and enumerations of `core/execution/models.py`, `core/mutation/models.py`,
`core/security/models.py` and `core/runtime/models.py`, less what no modelled function reads: the
timestamps, and the payload of an event, which repeats its fields.

Two fields of the source have no fixed type, and what is in them decides a branch:

* `ExecutionResult.result` is `Any`. What the pipeline does with it is to look whether it is a
  `CapabilityResult`, so `PyAny` is a plain value or one of those.
* `CapabilityMetadata.mutation` is `Any`, and is read by attribute: the fields of a
  `MutationMetadata` by the mutation manager, and `is_mutation` by the classifier. The dataclass
  declares no `is_mutation`, an object of another class may, and the two readers need not see the
  same capability alike. `MutationInfo` keeps that apart.

A trust level travels in a command's metadata as a member of `TrustLevel` or as its value; anything
else is read as untrusted (`TrustLevel.ofValue`).
-/

set_option autoImplicit false

namespace IraOS

open Lib

/-! ## core/execution -/

inductive ExecutionType where
  | READ | MUTATION
  deriving DecidableEq, Repr

inductive ExecutionOutcomeStatus where
  | SUCCEEDED | DENIED | FAILED
  deriving DecidableEq, Repr

/-- The result of an Android capability (`core/android/capabilities/models.py`). It says itself
whether it is a success, which is not the same as having been returned. -/
structure CapabilityResult where
  capabilityId : String
  success : Bool
  data : PyValue := .dict []
  errorCode : String := ""
  errorMessage : Text := lit ""

inductive PyAny where
  | value (v : PyValue)
  | result (r : CapabilityResult)

structure ExecutionCommand where
  commandId : String
  capabilityId : String
  arguments : PyDict := Dict.empty
  metadata : PyDict := Dict.empty

structure ExecutionOutcome where
  commandId : String
  capabilityId : String
  status : ExecutionOutcomeStatus
  resultData : PyAny := .value .none
  denialReason : Option Text := none
  error : Option Text := none

namespace ExecutionOutcome

def succeeded (o : ExecutionOutcome) : Bool := decide (o.status = .SUCCEEDED)

def denied (o : ExecutionOutcome) : Bool := decide (o.status = .DENIED)

def failed (o : ExecutionOutcome) : Bool := decide (o.status = .FAILED)

@[simp] theorem succeeded_iff {o : ExecutionOutcome} :
    o.succeeded = true ↔ o.status = .SUCCEEDED := decide_eq_true_iff

@[simp] theorem denied_iff {o : ExecutionOutcome} :
    o.denied = true ↔ o.status = .DENIED := decide_eq_true_iff

@[simp] theorem failed_iff {o : ExecutionOutcome} :
    o.failed = true ↔ o.status = .FAILED := decide_eq_true_iff

end ExecutionOutcome

/-! ## core/mutation -/

inductive MutationState where
  | REQUESTED | WAITING_CONFIRMATION | CONFIRMED | EXECUTING | COMPLETED | FAILED
  | ROLLING_BACK | ROLLED_BACK | REJECTED
  deriving DecidableEq, Repr

inductive ConfirmationLevel where
  | NONE | USER | PIN | BIOMETRIC | OWNER_ONLY
  deriving DecidableEq, Repr

def ConfirmationLevel.value : ConfirmationLevel → String
  | .NONE => "NONE"
  | .USER => "USER"
  | .PIN => "PIN"
  | .BIOMETRIC => "BIOMETRIC"
  | .OWNER_ONLY => "OWNER_ONLY"

structure MutationMetadata where
  isDestructive : Bool := false
  supportsRollback : Bool := false
  idempotent : Bool := false
  auditRequired : Bool := true
  confirmationLevel : ConfirmationLevel := .NONE

structure MutationContext where
  mutationId : String
  workflowId : Option PyValue
  executionId : String
  capabilityId : String
  userId : Option PyValue

structure AuditRecord where
  auditId : String
  mutationId : String
  capabilityId : String
  action : String
  arguments : PyDict
  status : MutationState
  resultData : PyAny
  error : Option Text
  workflowId : Option PyValue
  userId : Option PyValue

/-! ## core/runtime -/

/-- What `CapabilityMetadata.mutation` holds. The source types it `Any`; the kernel reads from it
the attributes of a `MutationMetadata` and, in the classifier, an attribute `is_mutation` that an
object may have or lack (`none`). -/
structure MutationInfo extends MutationMetadata where
  isMutation : Option Bool := none

/-- A `MutationMetadata` where a mutation object is expected. The dataclass declares no
`is_mutation`, so the classifier does not find one. -/
def MutationMetadata.toInfo (m : MutationMetadata) : MutationInfo :=
  { toMutationMetadata := m, isMutation := none }

structure CapabilityMetadata where
  id : String
  name : String
  description : String
  version : String
  mutation : Option MutationInfo := none

structure ExecutionRequest where
  executionId : String
  capabilityId : String
  arguments : PyDict
  metadata : PyDict

structure ExecutionContext where
  request : ExecutionRequest
  capabilityMetadata : CapabilityMetadata

/-! ## core/security -/

inductive TrustLevel where
  | UNTRUSTED | LOW | MEDIUM | HIGH | CRITICAL
  deriving DecidableEq, Repr

namespace TrustLevel

def value : TrustLevel → String
  | .UNTRUSTED => "UNTRUSTED"
  | .LOW => "LOW"
  | .MEDIUM => "MEDIUM"
  | .HIGH => "HIGH"
  | .CRITICAL => "CRITICAL"

def ofStr? (s : String) : Option TrustLevel :=
  [UNTRUSTED, LOW, MEDIUM, HIGH, CRITICAL].find? fun t => t.value == s

/-- The trust level a metadata entry stands for: a member is taken as it is, a string by its value,
and everything `TrustLevel(...)` rejects is untrusted. -/
def ofValue : PyValue → TrustLevel
  | .enum "TrustLevel" member => (ofStr? member).getD .UNTRUSTED
  | .str s => (ofStr? s).getD .UNTRUSTED
  | _ => .UNTRUSTED

end TrustLevel

inductive PermissionState where
  | PENDING | GRANTED | DENIED | REQUIRES_APPROVAL
  deriving DecidableEq, Repr

structure PermissionRequirement where
  capabilityId : String
  requiredTrustLevel : TrustLevel
  requiresUserApproval : Bool := false
  reason : String := ""

structure PermissionPolicy where
  policyId : String
  name : String
  description : String
  requirements : List PermissionRequirement := []

structure SecurityContext where
  requestId : String
  capabilityId : String
  trustLevel : TrustLevel := .UNTRUSTED

structure PermissionRequest where
  permissionId : String
  capabilityId : String
  context : Option SecurityContext

structure PermissionDecision where
  permissionId : String
  capabilityId : String
  state : PermissionState
  trustLevel : TrustLevel
  requiresUserApproval : Bool := false
  denialReason : Option Text := none

structure PermissionResult where
  permissionId : String
  capabilityId : String
  granted : Bool
  state : PermissionState
  denialReason : Option Text := none

/-! ## Events -/

inductive Event where
  -- core/execution/events.py
  | executionRequested (commandId capabilityId : String)
  | executionAuthorized (commandId capabilityId : String)
  | executionDispatched (commandId capabilityId : String)
  | executionSucceeded (commandId capabilityId : String) (resultData : PyAny)
  | executionDenied (commandId capabilityId : String) (denialReason : Text)
  | executionFailed (commandId capabilityId : String) (error : Text)
  -- core/security/events.py
  | permissionRequested (permissionId capabilityId : String)
  | policyEvaluationCompleted (permissionId capabilityId : String) (state : PermissionState)
  | permissionGranted (permissionId capabilityId : String) (trustLevel : TrustLevel)
  | permissionDenied (permissionId capabilityId : String) (denialReason : Text)
  -- core/mutation/events.py
  | mutationRequested (context : MutationContext) (arguments : PyDict)
  | mutationConfirmed (context : MutationContext)
  | mutationRejected (context : MutationContext) (reason : Text)
  | mutationStarted (context : MutationContext)
  | mutationCompleted (context : MutationContext) (resultData : PyAny)
  | mutationRolledBack (context : MutationContext) (reason : Text)
  | rollbackFailed (context : MutationContext) (error : Text)
  | auditRecorded (context : MutationContext) (record : AuditRecord)

namespace Event

def ofPermission : Event → Bool
  | .permissionRequested .. | .policyEvaluationCompleted .. | .permissionGranted ..
  | .permissionDenied .. => true
  | _ => false

def ofMutation : Event → Bool
  | .mutationRequested .. | .mutationConfirmed .. | .mutationRejected .. | .mutationStarted ..
  | .mutationCompleted .. | .mutationRolledBack .. | .rollbackFailed .. | .auditRecorded .. => true
  | _ => false

end Event

end IraOS
