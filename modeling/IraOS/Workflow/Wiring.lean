import IraOS.Workflow.Manager

/-!
# Whose task a submit runs

A submit enqueues its task, waits twice, and runs whatever the shared queue then has first. Where
that is its own task and the bus raises at none of its publishes, the place it waits at and its own
log determine each other (`Wired`), and everything it did was about its own request. Where another
submit got to the queue before it, it runs the other's task under its own workflow id.

So whether a submit is about its own task is a matter of the order in which the submits get to the
queue, and that order is the scheduler's. `Orderly` is a condition on each step: the bus raises at
no publish of a submit, and a submit that goes on to dequeue finds its own task first. The theorem
is for every run of such steps, for any number of submits and with other calls among them.

`NotCrossed` is what is promised of one submit, at any moment and not only at its end: its events
are of its workflow and its task, the command it sends is its task's, and what it returns is what
that task came to. For an unfinished submit this says that what it has done is a beginning of that.

The two runs at the end have the same two submits. In one they reach the queue in the order in which
they started, and the other is the smallest in which one overtakes the other.
-/

set_option autoImplicit false

namespace IraOS

open Lib

namespace WorkflowManagerImpl

/-! ## One submit -/

section Submit

variable (request : WorkflowRequest) (taskId : String)

abbrev ownTask : WorkflowTask := DefaultWorkflowScheduler.schedule request taskId

def dispatchedOwn : List Action :=
  [.published (.taskQueued taskId request.workflowId),
    .published (.workflowStarted request.workflowId),
    .published (.taskStarted taskId request.workflowId),
    .dispatched (DefaultWorkflowExecutor.commandOf (ownTask request taskId))]

def completedOwn (result : PyAny) : List Action :=
  dispatchedOwn request taskId ++
    [.executed (.ok result), .published (.taskCompleted taskId request.workflowId)]

def failedOwn (exc : Exn) : List Action :=
  dispatchedOwn request taskId ++
    [.executed (.error exc), .published (.workflowFailed request.workflowId exc.message)]

inductive Wired : Pc → List Action → Prop
  | idle : Wired .idle []
  | queued : Wired .queued ((dispatchedOwn request taskId).take 1)
  | starting : Wired .starting ((dispatchedOwn request taskId).take 2)
  | taskStarting :
      Wired (.taskStarting (ownTask request taskId)) ((dispatchedOwn request taskId).take 3)
  | dispatching : Wired (.dispatching (ownTask request taskId)) (dispatchedOwn request taskId)
  | taskCompleting (result : PyAny) :
      Wired (.taskCompleting result) (completedOwn request taskId result)
  | completing (result : PyAny) :
      Wired (.completing result) (completedOwn request taskId result ++
        [.published (.workflowCompleted request.workflowId result)])
  | completed (result : PyAny) :
      Wired (.returned (some (succeededResult request result)))
        (completedOwn request taskId result ++
          [.published (.workflowCompleted request.workflowId result)])
  | failing (exc : Exn) : Wired (.failing exc) (failedOwn request taskId exc)
  | failed (exc : Exn) :
      Wired (.returned (some (failedResult request exc))) (failedOwn request taskId exc)

end Submit

variable {request : WorkflowRequest} {taskId : String}

theorem dequeueTask_own (request : WorkflowRequest) {self : Self} {task : WorkflowTask}
    (h : self.queue.queue.head? = some task) :
    (dequeueTask self request).pc = .taskStarting task ∧
      (dequeueTask self request).actions
        = [.published (.taskStarted task.taskId request.workflowId)] := by
  unfold dequeueTask InMemoryWorkflowQueue.dequeue
  obtain ⟨rest, hq⟩ := List.head?_eq_some_iff.mp h
  rw [hq]
  exact ⟨rfl, rfl⟩

/-- **One turn keeps the wires**, if the bus does not raise and the queue's first is the submit's
own. -/
theorem Wired.turn {self : Self} {pc : Pc} {log : List Action} {reply : Reply} {t : Turn}
    (h : Wired request taskId pc log) (hr : ∀ exc, reply ≠ .raise exc)
    (hq : pc = .starting → self.queue.queue.head? = some (ownTask request taskId))
    (ht : submit self request taskId pc reply = some t) :
    Wired request taskId t.pc (log ++ t.actions) := by
  cases reply with
  | raise exc => exact absurd rfl (hr exc)
  | proceed =>
    cases h <;> simp only [submit, Option.some.injEq, reduceCtorEq] at ht <;> subst ht
    · exact .queued
    · exact .starting
    · obtain ⟨hpc, hactions⟩ := dequeueTask_own request (hq rfl)
      rw [hpc, hactions]
      exact .taskStarting
    · exact .dispatching
    · exact .completing _
    · rw [List.append_nil]; exact .completed _
    · rw [List.append_nil]; exact .failed _
  | executed answer =>
    cases h <;> simp only [submit, Option.some.injEq, reduceCtorEq] at ht
    subst ht
    cases DefaultWorkflowExecutor.resultOf (ownTask request taskId) answer with
    | ok result => exact .taskCompleting result
    | error exc => exact .failing exc

/-! ## Any number of them -/

def Action.command? : Action → Option ExecutionCommand
  | .dispatched command => some command
  | _ => none

def Action.result? : Action → Option (Except Exn PyAny)
  | .executed result => some result
  | _ => none

def resultFor (request : WorkflowRequest) : Except Exn PyAny → WorkflowResult
  | .ok result => succeededResult request result
  | .error exc => failedResult request exc

/-- Everything a submit did was about its own request: its events, the one command it sent, once
it returned, and what it returned. -/
structure NotCrossed (request : WorkflowRequest) (taskId : String) (pc : Pc) (log : List Action) :
    Prop where
  events : ∀ e, .published e ∈ log → e.workflowId = request.workflowId ∧
    ∀ id, e.taskId? = some id → id = taskId
  dispatched : log.filterMap Action.command? <+:
    [DefaultWorkflowExecutor.commandOf (ownTask request taskId)]
  returned : ∀ r, pc = .returned r →
    log.filterMap Action.command? = [DefaultWorkflowExecutor.commandOf (ownTask request taskId)] ∧
      ∃ result, log.filterMap Action.result? = [result] ∧ r = some (resultFor request result)
  returns : ∀ exc, pc ≠ .raised exc

theorem Wired.begun {pc : Pc} {log : List Action} (h : Wired request taskId pc log) :
    (∃ result, log <+: completedOwn request taskId result ++
      [.published (.workflowCompleted request.workflowId result)]) ∨
    ∃ exc, log <+: failedOwn request taskId exc := by
  have hdispatched : ∀ n, (dispatchedOwn request taskId).take n <+:
      failedOwn request taskId ⟨.runtimeError, []⟩ := by
    intro n
    exact (List.take_prefix n _).trans (List.prefix_append _ _)
  cases h with
  | idle => exact Or.inr ⟨_, hdispatched 0⟩
  | queued => exact Or.inr ⟨_, hdispatched 1⟩
  | starting => exact Or.inr ⟨_, hdispatched 2⟩
  | taskStarting => exact Or.inr ⟨_, hdispatched 3⟩
  | dispatching => exact Or.inr ⟨_, hdispatched 4⟩
  | taskCompleting result => exact Or.inl ⟨result, List.prefix_append _ _⟩
  | completing result => exact Or.inl ⟨result, List.prefix_rfl⟩
  | completed result => exact Or.inl ⟨result, List.prefix_rfl⟩
  | failing exc => exact Or.inr ⟨exc, List.prefix_rfl⟩
  | failed exc => exact Or.inr ⟨exc, List.prefix_rfl⟩

theorem own_of_mem (result : PyAny) (exc : Exn) {e : WorkflowEvent}
    (h : .published e ∈ completedOwn request taskId result ++
        [.published (.workflowCompleted request.workflowId result)] ∨
      .published e ∈ failedOwn request taskId exc) :
    e.workflowId = request.workflowId ∧ ∀ id, e.taskId? = some id → id = taskId := by
  simp only [completedOwn, failedOwn, dispatchedOwn, List.mem_append, List.mem_cons,
    List.not_mem_nil, or_false, Action.published.injEq, reduceCtorEq, false_or] at h
  have hcases : e = .taskQueued taskId request.workflowId ∨
      e = .workflowStarted request.workflowId ∨ e = .taskStarted taskId request.workflowId ∨
      e = .taskCompleted taskId request.workflowId ∨
      e = .workflowCompleted request.workflowId result ∨
      e = .workflowFailed request.workflowId exc.message := by
    tauto
  rcases hcases with rfl | rfl | rfl | rfl | rfl | rfl <;>
    simp [WorkflowEvent.workflowId, WorkflowEvent.taskId?]

theorem Wired.notCrossed {pc : Pc} {log : List Action} (h : Wired request taskId pc log) :
    NotCrossed request taskId pc log where
  events e he := by
    rcases h.begun with ⟨result, hlog⟩ | ⟨exc, hlog⟩
    · exact own_of_mem result ⟨.runtimeError, []⟩ (Or.inl (hlog.subset he))
    · exact own_of_mem (.value .none) exc (Or.inr (hlog.subset he))
  dispatched := by
    rcases h.begun with ⟨result, hlog⟩ | ⟨exc, hlog⟩
    · exact hlog.filterMap Action.command?
    · exact hlog.filterMap Action.command?
  returned r hpc := by
    cases h with
    | completed result =>
      cases hpc
      exact ⟨rfl, .ok result, rfl, rfl⟩
    | failed exc =>
      cases hpc
      exact ⟨rfl, .error exc, rfl, rfl⟩
    | _ => cases hpc
  returns exc hpc := by
    cases h <;> cases hpc

def Reply.isRaise : Reply → Bool
  | .raise _ => true
  | _ => false

def Pc.isStarting : Pc → Bool
  | .starting => true
  | _ => false

/-- A step that crosses nothing: the bus raises at no publish of a submit, and a submit that goes
on to dequeue finds its own task first in the queue. -/
def Orderly (calls : Nat → WorkflowCall) (s : State) (l : Nat × Reply) : Prop :=
  ∀ request taskId, calls l.1 = .submit request taskId → l.2.isRaise = false ∧
    ((s.pcs l.1).isStarting = true →
      s.shared.queue.queue.head? = some (ownTask request taskId))

/-- **Orderly runs cross nothing**: whatever the interleaving, every submit is about its own task
alone. What it announces, dispatches and returns bears the ids of its own request and of the task it
put into the queue. -/
theorem submit_notCrossed {calls : Nat → WorkflowCall} {ls : List (Nat × Reply)} {s : State}
    (hm : (serving calls).Meets (Orderly calls) initial ls)
    (he : (serving calls).exec initial ls = some s) {i : Nat} {request : WorkflowRequest}
    {taskId : String} (hi : calls i = .submit request taskId) :
    NotCrossed request taskId (s.pcs i) (s.logOf i) := by
  refine Wired.notCrossed (Tasks.exec_local (P := Wired request taskId) ?_ .idle hm he)
  intro s reply t hC hw ht
  obtain ⟨hr, hq⟩ := hC request taskId hi
  unfold turn at ht
  rw [hi] at ht
  refine hw.turn ?_ ?_ ht
  · intro exc h
    rw [h] at hr
    exact absurd hr (by simp [Reply.isRaise])
  · intro hpc
    exact hq (by rw [hpc]; rfl)

/-! ## Two submits -/

def requestOf (workflowId : String) : WorkflowRequest where
  workflowId := workflowId
  targetCapability := "ping"

def twoSubmits : Nat → WorkflowCall
  | 0 => .submit (requestOf "a") "task-a"
  | _ => .submit (requestOf "b") "task-b"

def inTurn : List (Nat × Reply) :=
  [(0, .proceed), (1, .proceed), (0, .proceed), (1, .proceed), (0, .proceed), (1, .proceed),
    (1, .proceed), (0, .proceed)]

def overtaking : List (Nat × Reply) :=
  [(0, .proceed), (1, .proceed), (1, .proceed), (1, .proceed), (1, .proceed)]

def afterTwo (ls : List (Nat × Reply)) : State :=
  (((serving twoSubmits).exec initial ls).getD initial)

theorem orderly_of {s : State} {j : Nat}
    (h : (s.pcs j).isStarting = true → s.shared.queue.queue.head? =
      some (if j = 0 then ownTask (requestOf "a") "task-a" else ownTask (requestOf "b") "task-b")) :
    Orderly twoSubmits s (j, .proceed) := by
  intro request taskId hj
  refine ⟨rfl, ?_⟩
  intro hs
  have hq := h hs
  cases j <;> cases hj <;> exact hq

theorem inTurn_orderly : (serving twoSubmits).Meets (Orderly twoSubmits) initial inTurn := by
  refine System.meets_cons (orderly_of fun h => absurd h (by decide)) rfl ?_
  refine System.meets_cons (orderly_of fun h => absurd h (by decide)) rfl ?_
  refine System.meets_cons (orderly_of fun h => absurd h (by decide)) rfl ?_
  refine System.meets_cons (orderly_of fun h => absurd h (by decide)) rfl ?_
  refine System.meets_cons (orderly_of fun _ => rfl) rfl ?_
  refine System.meets_cons (orderly_of fun _ => rfl) rfl ?_
  refine System.meets_cons (orderly_of fun h => absurd h (by decide)) rfl ?_
  exact System.meets_cons (orderly_of fun h => absurd h (by decide)) rfl trivial

theorem submit_notCrossed_inTurn :
    NotCrossed (requestOf "b") "task-b" ((afterTwo inTurn).pcs 1) ((afterTwo inTurn).logOf 1) :=
  submit_notCrossed (i := 1) inTurn_orderly rfl rfl

/-- The second submit dispatched the first one's task, under its own workflow id. -/
theorem overtaking_crosses :
    ((serving twoSubmits).exec initial overtaking).isSome = true ∧
      ((afterTwo overtaking).logOf 1).filterMap Action.command?
        = [DefaultWorkflowExecutor.commandOf (ownTask (requestOf "a") "task-a")] ∧
      ¬ NotCrossed (requestOf "b") "task-b" ((afterTwo overtaking).pcs 1)
        ((afterTwo overtaking).logOf 1) := by
  have hc : ((afterTwo overtaking).logOf 1).filterMap Action.command?
      = [DefaultWorkflowExecutor.commandOf (ownTask (requestOf "a") "task-a")] := rfl
  refine ⟨rfl, hc, ?_⟩
  intro h
  have hd := h.dispatched
  rw [hc, List.prefix_iff_eq_take] at hd
  have hid := congrArg (List.map ExecutionCommand.commandId) hd
  exact absurd hid (by decide)

end WorkflowManagerImpl

end IraOS
