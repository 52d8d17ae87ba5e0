import IraOS.Execution.Service
import IraOS.Lib.Calls

/-!
# The tool runtime

`core/runtime/manager.py` over `core/runtime/validator.py`, `core/runtime/executor.py` and the
registry of `core/runtime/registry.py`, by turns: a task runs from one wait to the next, and what it
waits for is the event bus or the capability. The registry takes no lock, so between a change of it
and the bus's answer to the event any task may go on; and so may any task while a capability runs.

A capability that uses the runtime itself does that in a task of its own here, for what it does in
the meantime is not its caller's.

## An execution

`execute` checks the request and looks up the capability in its first turn, and everything after
that is about the object it found. It awaits the bus with the event of its start, the capability,
and the bus again; whatever is raised on the way ends in `_fail`, which logs a text, awaits the bus
with the event of the failure, and returns a result. What the bus raises there is not caught by
anything.

Which text it is goes by the class of what was raised: an exception of the runtime's own is told as
it is, and of any other only a fixed phrase. The executor has made one of the first kind of whatever
the capability raised, with the class of that in its text.
-/

set_option autoImplicit false

namespace IraOS

open Lib

/-! ## core/runtime/models.py, events.py, exceptions.py -/

inductive ExecutionStatus where
  | PENDING | RUNNING | COMPLETED | FAILED
  deriving DecidableEq, Repr

structure ExecutionResult where
  executionId : String
  success : Bool
  status : ExecutionStatus
  resultData : PyAny := .value .none
  error : Option Text := none

inductive RuntimeEvent where
  | capabilityRegistered (capabilityId capabilityName : String)
  | capabilityUnregistered (capabilityId : String)
  | executionStarted (executionId capabilityId : String)
  | executionCompleted (executionId : String) (success : Bool) (resultData : PyAny)
  | executionFailed (executionId : String) (error : Text)

/-- `isinstance(exc, RuntimeSubsystemError)`; nothing raises the base class itself. -/
def ExnClass.isRuntimeSubsystemError : ExnClass → Bool
  | .validationError | .capabilityNotFoundError | .executionFailedError => true
  | _ => false

/-- What `execute` is given. -/
inductive RuntimeRequest where
  | executionRequest (executionId capabilityId : String) (arguments : Option PyDict)
      (metadata : PyDict)
  /-- Something else, with the `execution_id` it has. -/
  | other (executionId : Option String)

/-- `getattr(request, "execution_id", "unknown")`. -/
def RuntimeRequest.requestId : RuntimeRequest → String
  | .executionRequest executionId .. => executionId
  | .other executionId => executionId.getD "unknown"

/-! ## core/runtime/validator.py, executor.py -/

/-- `validate_request`: the request, now that it has been checked. -/
def RuntimeValidator.validateRequest (executionId capabilityId : String)
    (arguments : Option PyDict) (metadata : PyDict) : Except Exn ExecutionRequest :=
  if executionId.isEmpty then
    .error ⟨.validationError, lit "ExecutionRequest.execution_id must be provided."⟩
  else if capabilityId.isEmpty then
    .error ⟨.validationError, lit "ExecutionRequest.capability_id must be provided."⟩
  else match arguments with
    | none => .error ⟨.validationError, lit "ExecutionRequest.arguments must be a mapping."⟩
    | some arguments => .ok ⟨executionId, capabilityId, arguments, metadata⟩

def RuntimeExecutor.failure (exc : Exn) : Exn :=
  ⟨.executionFailedError, lit ("Capability execution failed: " ++ exc.cls.name)⟩

/-! ## Turns -/

inductive RuntimeCall where
  | register (inst : CapabilityRef)
  | unregister (capabilityId : String)
  | execute (request : RuntimeRequest)

/-- Where a task is: in no call, or what the call it is in awaits. -/
inductive RuntimePlace where
  | idle
  | announcing
  | starting (request : ExecutionRequest) (inst : CapabilityRef)
  | running (request : ExecutionRequest) (inst : CapabilityRef)
  | completing (request : ExecutionRequest) (resultData : PyAny)
  | failing (executionId : String) (error : Text)

/-- How a task goes on: it makes a call, or what it waits for returns or raises. The bus and the
capabilities may do either at any time. -/
inductive RuntimeReply where
  | call (call : RuntimeCall)
  | published (answer : Except Exn Unit)
  | returned (outcome : Except Exn PyAny)

/-- What is seen of a call, in order; a register and an unregister return nothing. -/
inductive RuntimeAction where
  | called (call : RuntimeCall)
  | event (event : RuntimeEvent)
  | invoked (inst : CapabilityRef) (context : ExecutionContext)
  /-- The capability is through. -/
  | returned (outcome : Except Exn PyAny)
  /-- The bus raised. -/
  | raised (exc : Exn)
  | logged (text : Text)
  | answered (result : Except Exn (Option ExecutionResult))

abbrev RuntimeTurn := Turn InMemoryCapabilityRegistry.Capabilities RuntimePlace RuntimeAction

namespace RuntimeManager

variable {δ : Type} (objects : Objects δ)

/-- `execute` up to its first wait: the request, and the capability that is to run. -/
def accept (caps : InMemoryCapabilityRegistry.Capabilities) :
    RuntimeRequest → Except Exn (ExecutionRequest × CapabilityRef)
  | .other _ => .error ⟨.validationError, lit "Request is not an ExecutionRequest."⟩
  | .executionRequest executionId capabilityId arguments metadata => do
    let request ← RuntimeValidator.validateRequest executionId capabilityId arguments metadata
    let capability ← RuntimeDispatcher.dispatch request caps
    pure (request, capability)

/-- The `except` clauses of `execute`: what the caller is told of an exception. -/
def errorOf (exc : Exn) : Text :=
  if exc.cls.isRuntimeSubsystemError then exc.message
  else lit "Execution failed due to unexpected error."

def completed (request : ExecutionRequest) (resultData : PyAny) : ExecutionResult where
  executionId := request.executionId
  success := true
  status := .COMPLETED
  resultData := resultData

def failed (executionId : String) (error : Text) : ExecutionResult where
  executionId := executionId
  success := false
  status := .FAILED
  error := some error

/-- `_fail(execution_id, error_message)`, up to where it awaits the bus. -/
def fail (caps : InMemoryCapabilityRegistry.Capabilities) (before : List RuntimeAction)
    (executionId : String) (exc : Exn) : RuntimeTurn where
  shared := caps
  pc := .failing executionId (errorOf exc)
  actions := before ++
    [.logged (errorOf exc), .event (.executionFailed executionId (errorOf exc))]

def answer (caps : InMemoryCapabilityRegistry.Capabilities) (before : List RuntimeAction)
    (result : Except Exn (Option ExecutionResult)) : RuntimeTurn where
  shared := caps
  pc := .idle
  actions := before ++ [.answered result]

/-- The turn a call begins with. -/
def begin (caps : InMemoryCapabilityRegistry.Capabilities) (call : RuntimeCall) : RuntimeTurn :=
  match call with
  | .register inst =>
    let metadata := (objects inst).metadata
    match InMemoryCapabilityRegistry.register objects caps inst with
    | .error e => answer caps [.called call] (.error e)
    | .ok caps =>
      ⟨caps, .announcing,
        [.called call, .event (.capabilityRegistered metadata.id metadata.name)]⟩
  | .unregister capabilityId =>
    match InMemoryCapabilityRegistry.unregister caps capabilityId with
    | .error e => answer caps [.called call] (.error e)
    | .ok caps =>
      ⟨caps, .announcing, [.called call, .event (.capabilityUnregistered capabilityId)]⟩
  | .execute request =>
    match accept caps request with
    | .error e => fail caps [.called call] request.requestId e
    | .ok (request, inst) =>
      ⟨caps, .starting request inst,
        [.called call, .event (.executionStarted request.executionId request.capabilityId)]⟩

def turn (_ : Nat) (caps : InMemoryCapabilityRegistry.Capabilities) :
    RuntimePlace → RuntimeReply → Option RuntimeTurn
  | .idle, .call call => some (begin objects caps call)
  | .announcing, .published (.ok ()) => some (answer caps [] (.ok none))
  | .announcing, .published (.error e) => some (answer caps [.raised e] (.error e))
  | .starting request inst, .published (.ok ()) =>
    some ⟨caps, .running request inst,
      [.invoked inst ⟨request, (objects inst).metadata⟩]⟩
  | .starting request _, .published (.error e) =>
    some (fail caps [.raised e] request.executionId e)
  | .running request _, .returned (.ok resultData) =>
    some ⟨caps, .completing request resultData,
      [.returned (.ok resultData),
        .event (.executionCompleted request.executionId true resultData)]⟩
  | .running request _, .returned (.error e) =>
    some (fail caps [.returned (.error e)] request.executionId (RuntimeExecutor.failure e))
  | .completing request resultData, .published (.ok ()) =>
    some (answer caps [] (.ok (some (completed request resultData))))
  | .completing request _, .published (.error e) =>
    some (fail caps [.raised e] request.executionId e)
  | .failing executionId error, .published (.ok ()) =>
    some (answer caps [] (.ok (some (failed executionId error))))
  | .failing _ _, .published (.error e) => some (answer caps [.raised e] (.error e))
  | _, _ => none

/-- Any number of tasks over one registry. -/
abbrev system : System
    (Tasks.State InMemoryCapabilityRegistry.Capabilities RuntimePlace RuntimeAction)
    (Nat × RuntimeReply) :=
  Tasks.system (turn objects)

/-- Nothing registered, and no task in a call. -/
def start : Tasks.State InMemoryCapabilityRegistry.Capabilities RuntimePlace RuntimeAction :=
  ⟨Dict.empty, fun _ => .idle, []⟩

end RuntimeManager

end IraOS
