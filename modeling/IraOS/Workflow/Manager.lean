import IraOS.Workflow.Components
import IraOS.Lib.Tasks

/-!
# The workflow manager

`WorkflowManagerImpl` (`core/workflow/manager.py`): its coroutines, cut at their awaits, over the
statuses and the queue they share. A turn publishes, or calls the execution service, as the last
thing it does; what it then waits for is the reply in the next turn's label. The event bus can raise
at any publish, and the service can answer or raise whatever it likes.

## Where a call may wait

A `submit` publishes at each of its stages and calls the execution service once, and everything
between two of these waits happens without interruption: enqueueing the task with its announcement,
and dequeueing one with the announcement of its start. Which task is dequeued is decided at that
moment, from a queue that all submits share.

The `except Exception` of `submit` is around nearly all of it, so an exception of the bus at one of
its publishes makes the workflow fail, with one more publish that is outside. The other calls write
a status and publish, and an exception goes to their caller with the status written.

## One system for all calls

Any number of calls are served at once (`serving`), each a task of `Lib.Tasks` with its own place
and its own part of the log. A label is the call that goes on and what it hears, so a quantifier
over runs is one over all interleavings and all behaviours of the bus and of the service.
-/

set_option autoImplicit false

namespace IraOS

open Lib

inductive WorkflowCall where
  /-- `submit(request)`, with the task id its scheduler draws. -/
  | submit (request : WorkflowRequest) (taskId : String)
  | cancel (workflowId : String)
  | pause (workflowId : String)
  | resume (workflowId : String)

def WorkflowCall.workflowId : WorkflowCall → String
  | .submit request _ => request.workflowId
  | .cancel id | .pause id | .resume id => id

namespace WorkflowManagerImpl

structure Self where
  statuses : Dict String WorkflowStatus := Dict.empty
  queue : InMemoryWorkflowQueue := {}

inductive Pc where
  | idle
  -- submit, each with the locals it still needs
  | queued
  | starting
  | taskStarting (taskToRun : WorkflowTask)
  | dispatching (taskToRun : WorkflowTask)
  | taskCompleting (dispatchResult : PyAny)
  | completing (dispatchResult : PyAny)
  | failing (exc : Exn)
  -- cancel, pause and resume
  | announcing
  -- the end; `cancel`, `pause` and `resume` return nothing
  | returned (result : Option WorkflowResult)
  | raised (exc : Exn)

inductive Reply where
  | proceed
  | raise (exc : Exn)
  | executed (answer : Except Exn ExecutionOutcome)

inductive Action where
  /-- `publish` was called with the event. -/
  | published (e : WorkflowEvent)
  /-- The execution service was called. -/
  | dispatched (command : ExecutionCommand)
  /-- The executor's `dispatch` returned or raised. -/
  | executed (result : Except Exn PyAny)

abbrev Turn := Lib.Turn Self Pc Action

/-! ## submit -/

def fail (self : Self) (request : WorkflowRequest) (exc : Exn) : Turn where
  shared := { self with statuses := self.statuses.set request.workflowId .FAILED }
  pc := .failing exc
  actions := [.published (.workflowFailed request.workflowId exc.message)]

def enqueueTask (self : Self) (request : WorkflowRequest) (taskId : String) : Turn :=
  let task := DefaultWorkflowScheduler.schedule request taskId
  { shared :=
      { statuses := self.statuses.set request.workflowId .PENDING
        queue := self.queue.enqueue task }
    pc := .queued
    actions := [.published (.taskQueued task.taskId request.workflowId)] }

def dequeueTask (self : Self) (request : WorkflowRequest) : Turn :=
  let running := { self with statuses := self.statuses.set request.workflowId .RUNNING }
  match self.queue.dequeue with
  | (none, _) => fail running request
      ⟨.workflowError, lit "Queue empty immediately after enqueue."⟩
  | (some taskToRun, queue) =>
    { shared := { running with queue := queue }
      pc := .taskStarting taskToRun
      actions := [.published (.taskStarted taskToRun.taskId request.workflowId)] }

def settle (self : Self) (request : WorkflowRequest) (taskToRun : WorkflowTask)
    (result : Except Exn PyAny) : Turn :=
  match result with
  | .ok dispatchResult =>
    { shared := self
      pc := .taskCompleting dispatchResult
      actions := [.executed result,
        .published (.taskCompleted taskToRun.taskId request.workflowId)] }
  | .error exc =>
    let failed := fail self request exc
    { failed with actions := .executed result :: failed.actions }

def succeededResult (request : WorkflowRequest) (dispatchResult : PyAny) : WorkflowResult where
  workflowId := request.workflowId
  success := true
  status := .COMPLETED
  resultData := dispatchResult

def failedResult (request : WorkflowRequest) (exc : Exn) : WorkflowResult where
  workflowId := request.workflowId
  success := false
  status := .FAILED
  error := some exc.message

def submit (self : Self) (request : WorkflowRequest) (taskId : String) :
    Pc → Reply → Option Turn
  | .idle, .proceed => some (enqueueTask self request taskId)
  | .queued, .proceed =>
    some ⟨self, .starting, [.published (.workflowStarted request.workflowId)]⟩
  | .starting, .proceed => some (dequeueTask self request)
  | .taskStarting taskToRun, .proceed =>
    some ⟨self, .dispatching taskToRun,
      [.dispatched (DefaultWorkflowExecutor.commandOf taskToRun)]⟩
  | .dispatching taskToRun, .executed answer =>
    some (settle self request taskToRun (DefaultWorkflowExecutor.resultOf taskToRun answer))
  | .taskCompleting dispatchResult, .proceed =>
    some ⟨self, .completing dispatchResult,
      [.published (.workflowCompleted request.workflowId dispatchResult)]⟩
  | .completing dispatchResult, .proceed =>
    some ⟨{ self with statuses := self.statuses.set request.workflowId .COMPLETED },
      .returned (some (succeededResult request dispatchResult)), []⟩
  | .failing exc, .proceed => some ⟨self, .returned (some (failedResult request exc)), []⟩
  -- a publish inside the `try` that raises goes to the `except`
  | .queued, .raise exc | .starting, .raise exc | .taskStarting _, .raise exc
  | .taskCompleting _, .raise exc | .completing _, .raise exc => some (fail self request exc)
  | .failing _, .raise exc => some ⟨self, .raised exc, []⟩
  | _, _ => none

/-! ## cancel, pause and resume -/

def notFound (workflowId : String) : Exn :=
  ⟨.workflowNotFoundError, lit ("Workflow " ++ workflowId ++ " not found.")⟩

def announce (self : Self) (workflowId : String) (status : WorkflowStatus) (e : WorkflowEvent) :
    Turn where
  shared := { self with statuses := self.statuses.set workflowId status }
  pc := .announcing
  actions := [.published e]

def control (first : Turn) : Self → Pc → Reply → Option Turn
  | _, .idle, .proceed => some first
  | self, .announcing, .proceed => some ⟨self, .returned none, []⟩
  | self, .announcing, .raise exc => some ⟨self, .raised exc, []⟩
  | _, _, _ => none

def cancel (self : Self) (workflowId : String) : Turn :=
  if self.statuses.contains workflowId then
    announce self workflowId .CANCELLED (.workflowCancelled workflowId)
  else ⟨self, .raised (notFound workflowId), []⟩

def pause (self : Self) (workflowId : String) : Turn :=
  if self.statuses.contains workflowId then
    announce self workflowId .PAUSED (.workflowPaused workflowId)
  else ⟨self, .raised (notFound workflowId), []⟩

def resume (self : Self) (workflowId : String) : Turn :=
  match self.statuses.get? workflowId with
  | none => ⟨self, .raised (notFound workflowId), []⟩
  | some status =>
    if status = .PAUSED then announce self workflowId .RUNNING (.workflowResumed workflowId)
    else ⟨self, .returned none, []⟩

/-! ## All of them at once -/

def turn (call : WorkflowCall) (self : Self) (pc : Pc) (reply : Reply) : Option Turn :=
  match call with
  | .submit request taskId => submit self request taskId pc reply
  | .cancel workflowId => control (cancel self workflowId) self pc reply
  | .pause workflowId => control (pause self workflowId) self pc reply
  | .resume workflowId => control (resume self workflowId) self pc reply

abbrev State := Tasks.State Self Pc Action

/-- The manager serving `calls`, as many as there are: a label is the call that goes on and what
it hears, so a run is one interleaving. -/
def serving (calls : Nat → WorkflowCall) : System State (Nat × Reply) :=
  Tasks.system fun i => turn (calls i)

def initial : State where
  shared := {}
  pcs _ := .idle
  log := []

end WorkflowManagerImpl

end IraOS
