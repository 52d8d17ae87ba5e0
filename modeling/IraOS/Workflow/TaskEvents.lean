import IraOS.Workflow.Cancellation

/-!
# The events of a task

A submit that starts a task says so, and what it says next depends on the execution: after an
outcome SUCCEEDED it says that the task completed, and after anything else it says only that the
workflow failed. `core/workflow/events.py` has an event for a failed task, and no code publishes it.
So a task that is started is accounted for just if it succeeded (`task_events_balanced_iff`).

Every submit starts a task, its own or another's: at each moment the queue holds at least as many
tasks as there are submits on their way to it (`Backed`).

## What is balanced

`Balanced` is about one submit's own log, when it has returned: every task it announced as started
has one event of its end after that, a completion only where the execution service answered
SUCCEEDED, and the workflow's own end (its terminal event, its recorded status, its result) agrees
with itself and with the task's. The task need not be the submit's own, as the queue is shared; the
events are about the one it started.

## The hypotheses

The bus raises at none of this submit's publishes. That is not the property in disguise: it says
nothing of the execution, and the failing case is one in which the bus delivers everything. Other
calls may do and hear anything in between.

## The proof

A submit whose publishes never raise goes one way, and `Followed` has its stations: where it waits,
what it has done, and what it was answered. A turn leads from one to the next (`Followed.turn`,
which needs `Backed` for the dequeue), a run stays on the way, and at the end the log is known to
the letter.
-/

set_option autoImplicit false

namespace IraOS

open Lib

namespace WorkflowManagerImpl

/-! ## What a submit owes -/

def Action.endsTask (taskId workflowId : String) : Action → Bool
  | .published (.taskCompleted id wf) => id == taskId && wf == workflowId
  | .published (.taskFailed id wf _) => id == taskId && wf == workflowId
  | _ => false

def Action.terminal? : Action → Option WorkflowEvent
  | .published (.workflowCompleted id data) => some (.workflowCompleted id data)
  | .published (.workflowFailed id error) => some (.workflowFailed id error)
  | _ => none

def WorkflowResult.terminal (r : WorkflowResult) : WorkflowEvent :=
  if r.success then .workflowCompleted r.workflowId r.resultData
  else .workflowFailed r.workflowId (Text.ofOption r.error)

def Reply.answer? : Reply → Option (Except Exn ExecutionOutcome)
  | .executed answer => some answer
  | _ => none

def answersTo (i : Nat) (ls : List (Nat × Reply)) : List (Except Exn ExecutionOutcome) :=
  ls.filterMap fun l => if l.1 = i then l.2.answer? else none

/-- A workflow's terminal event, its recorded status and its result agree, and its task completed
if the result is a success. -/
structure Agrees (request : WorkflowRequest) (log : List Action) (status : Option WorkflowStatus)
    (r : WorkflowResult) : Prop where
  workflow : r.workflowId = request.workflowId
  ended : r.status = if r.success then .COMPLETED else .FAILED
  recorded : status = some r.status
  terminal : log.filterMap Action.terminal? = [WorkflowResult.terminal r]
  task : r.success = true ↔
    ∃ taskId, .published (.taskCompleted taskId r.workflowId) ∈ log

/-- **Balanced task events.** Every task the submit started has ended once after that, completed
only for an outcome SUCCEEDED, and the workflow's end agrees with it. -/
structure Balanced (request : WorkflowRequest) (answers : List (Except Exn ExecutionOutcome))
    (log : List Action) (status : Option WorkflowStatus) (result : Option WorkflowResult) :
    Prop where
  paired : ∀ before taskId workflowId after,
    log = before ++ .published (.taskStarted taskId workflowId) :: after →
      after.countP (Action.endsTask taskId workflowId) = 1
  completed : ∀ taskId workflowId, .published (.taskCompleted taskId workflowId) ∈ log →
    ∃ outcome, answers = [.ok outcome] ∧ outcome.status = .SUCCEEDED
  agrees : ∃ r, result = some r ∧ Agrees request log status r

/-! ## The queue is never short -/

def Pc.isWaiting : Pc → Bool
  | .queued | .starting => true
  | _ => false

def Backed (s : State) : Prop :=
  ∀ waiting : List Nat, waiting.Nodup → (∀ i ∈ waiting, (s.pcs i).isWaiting = true) →
    waiting.length ≤ s.shared.queue.queue.length

theorem backed_initial : Backed initial := by
  intro waiting _ hwaiting
  cases waiting with
  | nil => simp
  | cons i rest =>
    have hidle := hwaiting i List.mem_cons_self
    cases hidle

inductive QueueMove (self : Self) (pc : Pc) (t : Turn) : Prop
  /-- A task comes in, and its submit waits. -/
  | enqueued (waits : t.pc.isWaiting = true)
      (longer : t.shared.queue.queue.length = self.queue.queue.length + 1)
  /-- A submit that waited goes on with a task. -/
  | dequeued (waited : pc.isWaiting = true) (goesOn : t.pc.isWaiting = false)
      (shorter : self.queue.queue.length = t.shared.queue.queue.length + 1)
  /-- The queue is left alone, and nobody comes to wait. -/
  | same (queue : t.shared.queue = self.queue) (waiting : t.pc.isWaiting = true →
      pc.isWaiting = true)

theorem dequeueTask_queue (self : Self) (request : WorkflowRequest) :
    QueueMove self .starting (dequeueTask self request) := by
  unfold dequeueTask InMemoryWorkflowQueue.dequeue
  cases hqueue : self.queue.queue with
  | nil => exact .same rfl fun _ => rfl
  | cons task rest => exact .dequeued rfl rfl (by simp [hqueue])

theorem submit_queue {self : Self} {request : WorkflowRequest} {taskId : String} {pc : Pc}
    {reply : Reply} {t : Turn} (ht : submit self request taskId pc reply = some t) :
    QueueMove self pc t := by
  cases pc <;> cases reply <;> simp only [submit, Option.some.injEq, reduceCtorEq] at ht <;>
    subst ht
  case idle.proceed =>
    apply QueueMove.enqueued
    · rfl
    · simp [enqueueTask, InMemoryWorkflowQueue.enqueue]
  case starting.proceed => exact dequeueTask_queue self request
  case dispatching.executed task answer =>
    cases DefaultWorkflowExecutor.resultOf task answer with
    | ok result => exact .same rfl (by simp [settle, Pc.isWaiting])
    | error exc => exact .same rfl (by simp [settle, fail, Pc.isWaiting])
  all_goals exact .same rfl (by simp [fail, Pc.isWaiting])

theorem turn_queue {call : WorkflowCall} {self : Self} {pc : Pc} {reply : Reply} {t : Turn}
    (ht : turn call self pc reply = some t) : QueueMove self pc t := by
  have hcontrol : ∀ {first : Turn}, first.shared.queue = self.queue →
      first.pc.isWaiting = false → control first self pc reply = some t → QueueMove self pc t := by
    intro first hqueue hwaiting hc
    cases pc <;> cases reply <;> simp only [control, Option.some.injEq, reduceCtorEq] at hc <;>
      subst hc
    · exact .same hqueue (by simp [hwaiting])
    · exact .same rfl (by simp [Pc.isWaiting])
    · exact .same rfl (by simp [Pc.isWaiting])
  cases call with
  | submit request taskId => exact submit_queue ht
  | cancel id =>
    apply hcontrol _ _ ht
    · unfold cancel
      split <;> rfl
    · unfold cancel
      split <;> rfl
  | pause id =>
    apply hcontrol _ _ ht
    · unfold pause
      split <;> rfl
    · unfold pause
      split <;> rfl
  | resume id =>
    apply hcontrol _ _ ht
    · unfold resume
      split
      · rfl
      · split <;> rfl
    · unfold resume
      split
      · rfl
      · split <;> rfl

/-- One turn keeps the queue backed. -/
theorem Backed.take {s : State} {i : Nat} {t : Turn} (h : Backed s)
    (hmove : QueueMove s.shared (s.pcs i) t) : Backed (s.take i t) := by
  intro waiting hnodup hwaiting
  -- whoever waits, `i` apart, waited before
  have hothers : ∀ j ∈ waiting, j ≠ i → (s.pcs j).isWaiting = true := by
    intro j hj hne
    have hstill := hwaiting j hj
    rwa [Tasks.take_pcs_ne hne] at hstill
  show waiting.length ≤ t.shared.queue.queue.length
  cases hmove with
  | enqueued _ hlonger =>
    have hrest : (waiting.erase i).length ≤ s.shared.queue.queue.length := by
      apply h _ (hnodup.erase i)
      intro j hj
      obtain ⟨hne, hmem⟩ := hnodup.mem_erase_iff.mp hj
      exact hothers j hmem hne
    have herase : waiting.length - 1 ≤ (waiting.erase i).length := List.le_length_erase
    omega
  | dequeued hwaited hgoesOn hshorter =>
    have hnot : i ∉ waiting := by
      intro hi
      have hwaits := hwaiting i hi
      rw [Tasks.take_pcs_self, hgoesOn] at hwaits
      cases hwaits
    have hmore : (i :: waiting).length ≤ s.shared.queue.queue.length := by
      apply h _ (List.nodup_cons.mpr ⟨hnot, hnodup⟩)
      intro j hj
      rcases List.mem_cons.mp hj with rfl | hj
      · exact hwaited
      · exact hothers j hj fun heq => hnot (heq ▸ hj)
    rw [List.length_cons] at hmore
    omega
  | same hqueue hstays =>
    rw [hqueue]
    apply h _ hnodup
    intro j hj
    by_cases hji : j = i
    · subst hji
      have hwaits := hwaiting j hj
      rw [Tasks.take_pcs_self] at hwaits
      exact hstays hwaits
    · exact hothers j hj hji

theorem Backed.exists_task {s : State} {i : Nat} (h : Backed s)
    (hwaits : (s.pcs i).isWaiting = true) : ∃ task rest, s.shared.queue.queue = task :: rest := by
  have hone := h [i] (List.nodup_singleton i) (by simpa using hwaits)
  cases hqueue : s.shared.queue.queue with
  | nil =>
    rw [hqueue] at hone
    cases hone
  | cons task rest => exact ⟨task, rest, rfl⟩

/-! ## The way of a submit -/

section Submit

variable (request : WorkflowRequest) (taskId : String)

def startedLog (task : WorkflowTask) : List Action :=
  [.published (.taskQueued taskId request.workflowId),
    .published (.workflowStarted request.workflowId),
    .published (.taskStarted task.taskId request.workflowId)]

def executedLog (task : WorkflowTask) (result : Except Exn PyAny) : List Action :=
  startedLog request taskId task ++
    [.dispatched (DefaultWorkflowExecutor.commandOf task), .executed result]

inductive Followed : Pc → List Action → List (Except Exn ExecutionOutcome) → Prop
  | idle : Followed .idle [] []
  | queued : Followed .queued [.published (.taskQueued taskId request.workflowId)] []
  | starting : Followed .starting [.published (.taskQueued taskId request.workflowId),
      .published (.workflowStarted request.workflowId)] []
  | taskStarting (task : WorkflowTask) :
      Followed (.taskStarting task) (startedLog request taskId task) []
  | dispatching (task : WorkflowTask) :
      Followed (.dispatching task) (startedLog request taskId task ++
        [.dispatched (DefaultWorkflowExecutor.commandOf task)]) []
  | taskCompleting (task : WorkflowTask) (outcome : ExecutionOutcome)
      (succeeded : outcome.status = .SUCCEEDED) :
      Followed (.taskCompleting outcome.resultData)
        (executedLog request taskId task (.ok outcome.resultData) ++
          [.published (.taskCompleted task.taskId request.workflowId)]) [.ok outcome]
  | completing (task : WorkflowTask) (outcome : ExecutionOutcome)
      (succeeded : outcome.status = .SUCCEEDED) :
      Followed (.completing outcome.resultData)
        (executedLog request taskId task (.ok outcome.resultData) ++
          [.published (.taskCompleted task.taskId request.workflowId),
            .published (.workflowCompleted request.workflowId outcome.resultData)]) [.ok outcome]
  | completed (task : WorkflowTask) (outcome : ExecutionOutcome)
      (succeeded : outcome.status = .SUCCEEDED) :
      Followed (.returned (some (succeededResult request outcome.resultData)))
        (executedLog request taskId task (.ok outcome.resultData) ++
          [.published (.taskCompleted task.taskId request.workflowId),
            .published (.workflowCompleted request.workflowId outcome.resultData)]) [.ok outcome]
  | failing (task : WorkflowTask) (answer : Except Exn ExecutionOutcome) (exc : Exn)
      (raised : DefaultWorkflowExecutor.resultOf task answer = .error exc) :
      Followed (.failing exc) (executedLog request taskId task (.error exc) ++
        [.published (.workflowFailed request.workflowId exc.message)]) [answer]
  | failed (task : WorkflowTask) (answer : Except Exn ExecutionOutcome) (exc : Exn)
      (raised : DefaultWorkflowExecutor.resultOf task answer = .error exc) :
      Followed (.returned (some (failedResult request exc)))
        (executedLog request taskId task (.error exc) ++
          [.published (.workflowFailed request.workflowId exc.message)]) [answer]

end Submit

theorem resultOf_ok {task : WorkflowTask} {answer : Except Exn ExecutionOutcome} {data : PyAny}
    (h : DefaultWorkflowExecutor.resultOf task answer = .ok data) :
    ∃ outcome, answer = .ok outcome ∧ outcome.status = .SUCCEEDED ∧ outcome.resultData = data := by
  cases answer with
  | error exc =>
    simp only [DefaultWorkflowExecutor.resultOf] at h
    split at h
    · cases h
    · split at h <;> cases h
  | ok outcome =>
    simp only [DefaultWorkflowExecutor.resultOf] at h
    split at h
    · cases h
    · next hdenied =>
      split at h
      · cases h
      · next hfailed =>
        refine ⟨outcome, rfl, ?_, Except.ok.inj h⟩
        rw [ExecutionOutcome.denied_iff] at hdenied
        rw [ExecutionOutcome.failed_iff] at hfailed
        cases hstatus : outcome.status with
        | SUCCEEDED => rfl
        | DENIED => exact absurd hstatus hdenied
        | FAILED => exact absurd hstatus hfailed

theorem resultOf_error {task : WorkflowTask} {outcome : ExecutionOutcome} {exc : Exn}
    (h : DefaultWorkflowExecutor.resultOf task (.ok outcome) = .error exc) :
    outcome.status ≠ .SUCCEEDED := by
  intro hstatus
  simp [DefaultWorkflowExecutor.resultOf, ExecutionOutcome.denied, ExecutionOutcome.failed,
    hstatus] at h

variable {request : WorkflowRequest} {taskId : String}

/-- **One turn of a submit goes on the way**, if the bus does not raise and the queue is not
empty. -/
theorem Followed.turn {self : Self} {pc : Pc} {log : List Action}
    {answers : List (Except Exn ExecutionOutcome)} {reply : Reply} {t : Turn}
    (h : Followed request taskId pc log answers) (hquiet : ∀ exc, reply ≠ .raise exc)
    (hqueue : pc.isWaiting = true → ∃ task rest, self.queue.queue = task :: rest)
    (ht : submit self request taskId pc reply = some t) :
    Followed request taskId t.pc (log ++ t.actions) (answers ++ reply.answer?.toList) := by
  cases reply with
  | raise exc => exact absurd rfl (hquiet exc)
  | proceed =>
    cases h <;> simp only [submit, Option.some.injEq, reduceCtorEq] at ht <;> subst ht
    case idle => exact .queued
    case queued => exact .starting
    case starting =>
      obtain ⟨task, rest, htask⟩ := hqueue rfl
      simp only [dequeueTask, InMemoryWorkflowQueue.dequeue, htask]
      exact .taskStarting task
    case taskStarting task => exact .dispatching task
    case taskCompleting task outcome succeeded =>
      simpa [Reply.answer?] using Followed.completing task outcome succeeded
    case completing task outcome succeeded =>
      simpa [Reply.answer?] using Followed.completed task outcome succeeded
    case failing task answer exc raised =>
      simpa [Reply.answer?] using Followed.failed task answer exc raised
  | executed answer =>
    cases h <;> simp only [submit, Option.some.injEq, reduceCtorEq] at ht
    subst ht
    rename_i task
    cases hresult : DefaultWorkflowExecutor.resultOf task answer with
    | ok data =>
      obtain ⟨outcome, rfl, hsucceeded, rfl⟩ := resultOf_ok hresult
      simpa [settle, executedLog, Reply.answer?] using
        Followed.taskCompleting task outcome hsucceeded
    | error exc =>
      simpa [settle, fail, executedLog, Reply.answer?] using
        Followed.failing task answer exc hresult

theorem answersTo_append (i j : Nat) (past : List (Nat × Reply)) (reply : Reply) :
    answersTo i (past ++ [(j, reply)]) =
      answersTo i past ++ if j = i then reply.answer?.toList else [] := by
  have hlast : answersTo i [(j, reply)] = if j = i then reply.answer?.toList else [] := by
    by_cases hj : j = i
    · rw [if_pos hj]
      cases reply <;> simp [answersTo, hj, Reply.answer?]
    · rw [if_neg hj]
      simp [answersTo, hj]
  rw [answersTo, List.filterMap_append, ← answersTo, ← answersTo, hlast]

/-- **A submit stays on the way in every run** in which the bus raises at none of its publishes. -/
theorem followed_run {calls : Nat → WorkflowCall} {i : Nat}
    (hcall : calls i = .submit request taskId) {ls : List (Nat × Reply)} {s : State}
    (he : (serving calls).exec initial ls = some s)
    (hquiet : ∀ exc, (i, Reply.raise exc) ∉ ls) :
    Followed request taskId (s.pcs i) (s.logOf i) (answersTo i ls) := by
  let P (past : List (Nat × Reply)) (s : State) : Prop :=
    Backed s ∧ ((∀ exc, (i, Reply.raise exc) ∉ past) →
      Followed request taskId (s.pcs i) (s.logOf i) (answersTo i past))
  have hrun : P ([] ++ ls) s := by
    refine System.exec_history (P := P) ?_ ⟨backed_initial, fun _ => .idle⟩ he
    rintro past s ⟨j, reply⟩ s' ⟨hbacked, hfollowed⟩ hstep
    obtain ⟨t, ht, rfl⟩ := Tasks.step_some hstep
    refine ⟨hbacked.take (turn_queue ht), ?_⟩
    intro hquiet
    have hbefore := hfollowed fun exc hmem => hquiet exc (List.mem_append_left _ hmem)
    rw [answersTo_append]
    by_cases hj : j = i
    · subst hj
      rw [if_pos rfl, Tasks.take_pcs_self, Tasks.take_logOf_self]
      unfold turn at ht
      rw [hcall] at ht
      refine hbefore.turn ?_ hbacked.exists_task ht
      rintro exc rfl
      exact hquiet exc (by simp)
    · rw [if_neg hj, List.append_nil, Tasks.take_pcs_ne (Ne.symm hj), Tasks.take_logOf_ne hj]
      exact hbefore
  exact hrun.2 hquiet

/-! ## The end of a submit -/

/-- The turn by which a submit returns writes COMPLETED, if it returns a success. -/
theorem submit_returned {self : Self} {pc : Pc} {reply : Reply} {t : Turn} {data : PyAny}
    (ht : submit self request taskId pc reply = some t)
    (hreturned : t.pc = .returned (some (succeededResult request data))) :
    t.shared.statuses.get? request.workflowId = some .COMPLETED := by
  cases pc <;> cases reply <;> simp only [submit, Option.some.injEq, reduceCtorEq] at ht <;>
    subst ht
  case completing.proceed => exact Dict.get?_set_self ..
  case starting.proceed =>
    simp only [dequeueTask, fail] at hreturned
    split at hreturned <;> cases hreturned
  case dispatching.executed task answer =>
    simp only [settle, fail] at hreturned
    split at hreturned <;> cases hreturned
  case failing.proceed exc => cases hreturned
  all_goals cases hreturned

theorem balanced_completed (task : WorkflowTask) {outcome : ExecutionOutcome}
    (hsucceeded : outcome.status = .SUCCEEDED) {status : Option WorkflowStatus}
    (hstatus : status = some .COMPLETED) :
    Balanced request [.ok outcome] (executedLog request taskId task (.ok outcome.resultData) ++
      [.published (.taskCompleted task.taskId request.workflowId),
        .published (.workflowCompleted request.workflowId outcome.resultData)]) status
      (some (succeededResult request outcome.resultData)) := by
  constructor
  · intro before id wf after hlog
    simp only [executedLog, startedLog, List.cons_append, List.nil_append] at hlog
    -- the start is the third entry, and no other one is a start
    rcases before with _ | ⟨_, _ | ⟨_, _ | ⟨_, before⟩⟩⟩
    · simp at hlog
    · simp at hlog
    · simp only [List.cons_append, List.nil_append, List.cons.injEq, Action.published.injEq,
        WorkflowEvent.taskStarted.injEq] at hlog
      obtain ⟨_, _, ⟨rfl, rfl⟩, rfl⟩ := hlog
      simp [Action.endsTask]
    · have hmem : Action.published (.taskStarted id wf) ∈
          before ++ .published (.taskStarted id wf) :: after := by simp
      simp only [List.cons_append, List.cons.injEq] at hlog
      rw [← hlog.2.2.2] at hmem
      simp at hmem
  · intro id wf _
    exact ⟨outcome, rfl, hsucceeded⟩
  · refine ⟨_, rfl, rfl, rfl, hstatus, ?_, ?_⟩
    · rfl
    · simp [executedLog, startedLog, succeededResult]

/-- A submit whose task did not succeed has started a task that never ends. -/
theorem not_balanced_failed (task : WorkflowTask) {answers : List (Except Exn ExecutionOutcome)}
    {exc : Exn} {status : Option WorkflowStatus} {result : Option WorkflowResult} :
    ¬ Balanced request answers (executedLog request taskId task (.error exc) ++
      [.published (.workflowFailed request.workflowId exc.message)]) status result := by
  intro h
  have hone := h.paired [.published (.taskQueued taskId request.workflowId),
    .published (.workflowStarted request.workflowId)] task.taskId request.workflowId _ rfl
  simp [Action.endsTask] at hone

/-- **A submit's task events are balanced when it returns just if its task succeeded**, whichever
task it ran and whatever the other calls did in between. The event that a task has started comes
before the dispatch, and there is none for a task that fails: it is only ever told of as started. -/
theorem task_events_balanced_iff {calls : Nat → WorkflowCall} {i : Nat}
    (hcall : calls i = .submit request taskId) {ls : List (Nat × Reply)} {reply : Reply} {s : State}
    (he : (serving calls).exec initial (ls ++ [(i, reply)]) = some s)
    (hquiet : ∀ exc, (i, Reply.raise exc) ∉ ls ++ [(i, reply)]) {result : Option WorkflowResult}
    (hreturned : s.pcs i = .returned result) :
    Balanced request (answersTo i (ls ++ [(i, reply)])) (s.logOf i)
        (s.shared.statuses.get? request.workflowId) result ↔
      ∃ outcome, answersTo i (ls ++ [(i, reply)]) = [.ok outcome] ∧
        outcome.status = .SUCCEEDED := by
  have hfollowed := followed_run hcall he hquiet
  -- the last turn, of which the status is
  rw [System.exec_append] at he
  obtain ⟨s₀, _, hlast⟩ := Option.bind_eq_some_iff.mp he
  obtain ⟨s₁, hstep, hend⟩ := System.exec_cons_some hlast
  obtain rfl := Option.some.inj hend
  obtain ⟨t, ht, rfl⟩ := Tasks.step_some hstep
  unfold turn at ht
  rw [hcall] at ht
  rw [Tasks.take_pcs_self] at hreturned
  rw [Tasks.take_pcs_self, hreturned] at hfollowed
  generalize answersTo i (ls ++ [(i, reply)]) = answers at hfollowed ⊢
  generalize (s₀.take i t).logOf i = log at hfollowed ⊢
  cases hfollowed with
  | completed task outcome hsucceeded =>
    apply iff_of_true
    · exact balanced_completed task hsucceeded (submit_returned ht hreturned)
    · exact ⟨outcome, rfl, hsucceeded⟩
  | failed task answer exc hraised =>
    apply iff_of_false (not_balanced_failed task)
    rintro ⟨outcome, hanswer, hsucceeded⟩
    obtain rfl := List.singleton_inj.mp hanswer
    exact resultOf_error hraised hsucceeded

/-! ## One submit alone -/

def onePing : WorkflowRequest where
  workflowId := "w"
  targetCapability := "ping"

def pinging : Nat → WorkflowCall := fun _ => .submit onePing "t"

def pingOutcome (status : ExecutionOutcomeStatus) : ExecutionOutcome where
  commandId := "t"
  capabilityId := "ping"
  status := status

def answered (status : ExecutionOutcomeStatus) : List (Nat × Reply) :=
  [(0, .proceed), (0, .proceed), (0, .proceed), (0, .proceed),
    (0, .executed (.ok (pingOutcome status)))]

def afterPing (ls : List (Nat × Reply)) : State :=
  ((serving pinging).exec initial ls).getD initial

def pingFailure : Exn where
  cls := .taskExecutionError
  message := lit ("Runtime failure for capability '" ++ "ping" ++ "': ") ++ Text.ofOption none

theorem task_events_balanced_succeeded :
    Balanced onePing (answersTo 0 ((answered .SUCCEEDED ++ [(0, .proceed)]) ++ [(0, .proceed)]))
      ((afterPing ((answered .SUCCEEDED ++ [(0, .proceed)]) ++ [(0, .proceed)])).logOf 0)
      ((afterPing
        ((answered .SUCCEEDED ++ [(0, .proceed)]) ++ [(0, .proceed)])).shared.statuses.get? "w")
      (some (succeededResult onePing (.value .none))) := by
  have hcall : pinging 0 = .submit onePing "t" := rfl
  refine (task_events_balanced_iff hcall rfl ?_ rfl).mpr ?_
  · intro exc h
    simp [answered] at h
  · exact ⟨pingOutcome .SUCCEEDED, rfl, rfl⟩

/-- The execution fails: the workflow does too, and the task that was started neither completes nor
fails. -/
theorem task_events_unbalanced_failed :
    (afterPing (answered .FAILED ++ [(0, .proceed)])).pcs 0 =
        .returned (some (failedResult onePing pingFailure)) ∧
      ((afterPing (answered .FAILED ++ [(0, .proceed)])).logOf 0).filterMap Action.terminal? =
        [.workflowFailed "w" pingFailure.message] ∧
      ¬ Balanced onePing (answersTo 0 (answered .FAILED ++ [(0, .proceed)]))
        ((afterPing (answered .FAILED ++ [(0, .proceed)])).logOf 0)
        ((afterPing (answered .FAILED ++ [(0, .proceed)])).shared.statuses.get? "w")
        (some (failedResult onePing pingFailure)) := by
  refine ⟨rfl, rfl, ?_⟩
  have hlog : (afterPing (answered .FAILED ++ [(0, .proceed)])).logOf 0 =
      executedLog onePing "t" (DefaultWorkflowScheduler.schedule onePing "t")
        (.error pingFailure) ++ [.published (.workflowFailed "w" pingFailure.message)] := rfl
  rw [hlog]
  exact not_balanced_failed _

end WorkflowManagerImpl

end IraOS
