import IraOS.Core.Models

/-!
# What the workflow manager is built from

The records of `core/workflow/models.py` and `core/workflow/events.py`, and the three components the
manager calls: the scheduler, the queue and the executor. The executor's own wait, for the execution
service, is left to the manager's turns; here is what it sends and what it makes of the answer.

The queue keeps every task twice, in a list and in a dictionary by its id, as the source does. The
two need not agree, and what follows from that is in `Workflow.Queue`.

The executor raises for an outcome that is denied or failed, with the denial's reason or the error
in the message, and makes whatever the service raises into its own class. So the manager above it
knows one kind of failure.

Retries have an event class that nothing publishes, and it is left out; the event of a failed task
is kept, although no code publishes it either, because it is one of the two ends a task is meant to
have.
-/

set_option autoImplicit false

namespace IraOS

open Lib

/-! ## Records -/

inductive WorkflowStatus where
  | PENDING | RUNNING | PAUSED | COMPLETED | FAILED | CANCELLED
  deriving DecidableEq, Repr

inductive TaskPriority where
  | LOW | NORMAL | HIGH | CRITICAL
  deriving DecidableEq, Repr

structure WorkflowRequest where
  workflowId : String
  targetCapability : String
  arguments : PyDict := Dict.empty
  priority : TaskPriority := .NORMAL

structure WorkflowTask where
  taskId : String
  workflowId : String
  targetCapability : String
  arguments : PyDict
  priority : TaskPriority
  status : WorkflowStatus := .PENDING
  retryCount : Nat := 0

structure WorkflowResult where
  workflowId : String
  success : Bool
  status : WorkflowStatus
  resultData : PyAny := .value .none
  error : Option Text := none

inductive WorkflowEvent where
  | taskQueued (taskId workflowId : String)
  | taskStarted (taskId workflowId : String)
  | taskCompleted (taskId workflowId : String)
  | taskFailed (taskId workflowId : String) (error : Text)
  | workflowStarted (workflowId : String)
  | workflowCompleted (workflowId : String) (resultData : PyAny)
  | workflowFailed (workflowId : String) (error : Text)
  | workflowCancelled (workflowId : String)
  | workflowPaused (workflowId : String)
  | workflowResumed (workflowId : String)

namespace WorkflowEvent

def workflowId : WorkflowEvent → String
  | .taskQueued _ id | .taskStarted _ id | .taskCompleted _ id | .taskFailed _ id _ => id
  | .workflowStarted id | .workflowCompleted id _ | .workflowFailed id _ => id
  | .workflowCancelled id | .workflowPaused id | .workflowResumed id => id

def taskId? : WorkflowEvent → Option String
  | .taskQueued id _ | .taskStarted id _ | .taskCompleted id _ | .taskFailed id _ _ => some id
  | _ => none

end WorkflowEvent

/-! ## The scheduler -/

def DefaultWorkflowScheduler.schedule (request : WorkflowRequest) (taskId : String) :
    WorkflowTask where
  taskId := taskId
  workflowId := request.workflowId
  targetCapability := request.targetCapability
  arguments := request.arguments
  priority := request.priority
  status := .PENDING
  retryCount := 0

/-! ## The queue -/

structure InMemoryWorkflowQueue where
  queue : List WorkflowTask := []
  lookup : Dict String WorkflowTask := Dict.empty

namespace InMemoryWorkflowQueue

def enqueue (q : InMemoryWorkflowQueue) (task : WorkflowTask) : InMemoryWorkflowQueue where
  queue := q.queue ++ [task]
  lookup := q.lookup.set task.taskId task

def dequeue (q : InMemoryWorkflowQueue) : Option WorkflowTask × InMemoryWorkflowQueue :=
  match q.queue with
  | [] => (none, q)
  | task :: rest => (some task, { queue := rest, lookup := q.lookup.erase task.taskId })

def peek (q : InMemoryWorkflowQueue) : Option WorkflowTask :=
  match q.queue with
  | [] => none
  | task :: _ => some task

def remove (q : InMemoryWorkflowQueue) (taskId : String) : Bool × InMemoryWorkflowQueue :=
  let lookup := q.lookup.erase taskId
  match q.lookup.get? taskId with
  | some _ => (true, { queue := q.queue.filter fun t => t.taskId ≠ taskId, lookup := lookup })
  | none => (false, { q with lookup := lookup })

def lookupTask (q : InMemoryWorkflowQueue) (taskId : String) : Option WorkflowTask :=
  q.lookup.get? taskId

def status (q : InMemoryWorkflowQueue) : Dict String Nat :=
  (Dict.empty.set "queued_tasks" q.queue.length).set "tracked_tasks" q.lookup.size

end InMemoryWorkflowQueue

/-! ## The executor -/

namespace DefaultWorkflowExecutor

def commandOf (task : WorkflowTask) : ExecutionCommand where
  commandId := task.taskId
  capabilityId := task.targetCapability
  arguments := task.arguments

def resultOf (task : WorkflowTask) : Except Exn ExecutionOutcome → Except Exn PyAny
  | .ok outcome =>
    if outcome.denied then
      .error ⟨.taskExecutionError, lit ("Execution denied for capability '" ++
        task.targetCapability ++ "': ") ++ Text.ofOption outcome.denialReason⟩
    else if outcome.failed then
      .error ⟨.taskExecutionError, lit ("Runtime failure for capability '" ++
        task.targetCapability ++ "': ") ++ Text.ofOption outcome.error⟩
    else .ok outcome.resultData
  | .error exc =>
    if exc.cls = .taskExecutionError then .error exc
    else if exc.cls = .executionValidationError then
      .error ⟨.taskExecutionError, lit "Invalid execution command: " ++ exc.message⟩
    else
      .error ⟨.taskExecutionError, lit ("Unexpected error dispatching task '" ++ task.taskId ++
        "': ") ++ exc.message⟩

end DefaultWorkflowExecutor

end IraOS
