import IraOS.Memory.Manager
import IraOS.Planner.Graph

/-!
# The planner

`core/planner/models.py`, `core/planner/goals.py`, `core/planner/tasks.py`,
`core/planner/planner.py`, `core/planner/strategy.py` and `core/planner/manager.py`.

A call is run to its end with nothing in between, and reads the clock once. Where the bus is awaited
its answer is a parameter, and so is what `isoformat` makes of a moment. What is logged is left out.

Goals and tasks are filed under their own ids, which is a field of the two managers: no operation
writes an entry under another id. `complete`, `fail`, `skip`, `ready` and `pending` of the task
manager differ in the state they give and are one definition with five uses; there is no order in
which the states have to be gone through.

`build_plan` catches a `PlannerError` of what it tries, publishes the failure and returns it as a
result; any other exception goes through. What comes after the `try` is not caught: the record of
the plan is written to the memory, which publishes an event of its own, and then the plan is
announced.
-/

set_option autoImplicit false

namespace IraOS

open Lib

/-! ## core/planner/enums.py, exceptions.py -/

inductive GoalState where
  | NEW | PLANNING | READY | RUNNING | COMPLETED | FAILED | CANCELLED
  deriving DecidableEq, Repr

def GoalState.value : GoalState → String
  | .NEW => "NEW"
  | .PLANNING => "PLANNING"
  | .READY => "READY"
  | .RUNNING => "RUNNING"
  | .COMPLETED => "COMPLETED"
  | .FAILED => "FAILED"
  | .CANCELLED => "CANCELLED"

inductive TaskState where
  | PENDING | READY | RUNNING | WAITING | SUCCESS | FAILED | SKIPPED
  deriving DecidableEq, Repr

def goalError : ExnClass := .other "GoalError"

def taskError : ExnClass := .other "TaskError"

def planningError : ExnClass := .other "PlanningError"

/-- `isinstance(exc, PlannerError)`. -/
def ExnClass.isPlannerError (cls : ExnClass) : Bool :=
  decide (cls ∈ [.other "PlannerError", planningError, goalError, taskError, cycleDetectedError,
    executionGraphError])

/-! ## core/planner/models.py -/

structure Goal where
  id : String
  title : String
  description : String := ""
  priority : Priority := Priority.NORMAL
  state : GoalState := .NEW
  metadata : PyDict := Dict.empty
  createdAt : Int
  updatedAt : Int
  idNotEmpty : id ≠ "" := by decide
  titleNotEmpty : title ≠ "" := by decide

def Goal.withState (goal : Goal) (state : GoalState) (now : Int) : Goal :=
  { goal with state := state, updatedAt := now }

structure PlannerTask extends Task where
  goalId : String
  name : String
  description : String := ""
  state : TaskState := .PENDING
  retries : Int := 0
  metadata : PyDict := Dict.empty
  createdAt : Int
  updatedAt : Int
  idNotEmpty : id ≠ "" := by decide
  goalIdNotEmpty : goalId ≠ "" := by decide
  nameNotEmpty : name ≠ "" := by decide

def PlannerTask.withState (task : PlannerTask) (state : TaskState) (now : Int) : PlannerTask :=
  { task with state := state, updatedAt := now }

/-- A plan; of its tasks, what the graph looks at. -/
structure ExecutionPlan where
  goal : Goal
  tasks : List Task
  graph : ExecutionGraph.Graph
  estimatedSteps : Nat
  createdAt : Int

structure PlanResult where
  success : Bool
  plan : Option ExecutionPlan := none
  error : Option Text := none
  completedTasks : List String := []
  failedTasks : List String := []


/-- A goal is found under its own id, which is a field: neither `create` nor a cancel, which writes
a goal with another state, puts one under another's id. -/
structure GoalManager where
  goals : Dict String Goal := Dict.empty
  own : ∀ id goal, goals.get? id = some goal → goal.id = id := by simp

namespace GoalManager

def put (m : GoalManager) (goal : Goal) : GoalManager where
  goals := m.goals.set goal.id goal
  own := by
    intro id g hg
    rw [Dict.get?_set] at hg
    split at hg
    · next heq =>
      cases hg
      exact heq.symm
    · exact m.own id g hg

def missing (goalId : String) : Exn :=
  ⟨goalError, lit ("Goal '" ++ goalId ++ "' does not exist.")⟩

def get (m : GoalManager) (goalId : String) : Except Exn Goal :=
  match m.goals.get? goalId with
  | none => .error (missing goalId)
  | some goal => .ok goal

def create (m : GoalManager) (goal : Goal) : Except Exn GoalManager :=
  if m.goals.contains goal.id = true then
    .error ⟨goalError, lit ("Goal '" ++ goal.id ++ "' already exists.")⟩
  else .ok (m.put goal)

/-- `cancel(goal_id)`: the goal as it is now, and what is kept. -/
def cancel (m : GoalManager) (goalId : String) (now : Int) : Except Exn (Goal × GoalManager) := do
  let current ← m.get goalId
  let cancelled := current.withState .CANCELLED now
  pure (cancelled, m.put cancelled)

def list (m : GoalManager) : List Goal := m.goals.values

end GoalManager

/-- A task is found under its own id, which is a field. A task that moves to another state is
written under the id it was looked up by, and has that id. -/
structure TaskManager where
  tasks : Dict String PlannerTask := Dict.empty
  own : ∀ id task, tasks.get? id = some task → task.id = id := by simp

namespace TaskManager

/-- `_tasks[task.id] = task`. -/
def put (m : TaskManager) (task : PlannerTask) : TaskManager where
  tasks := m.tasks.set task.id task
  own := by
    intro id t ht
    rw [Dict.get?_set] at ht
    split at ht
    · next heq =>
      cases ht
      exact heq.symm
    · exact m.own id t ht

def get (m : TaskManager) (taskId : String) : Except Exn PlannerTask :=
  match m.tasks.get? taskId with
  | none => .error ⟨taskError, lit ("Task '" ++ taskId ++ "' does not exist.")⟩
  | some task => .ok task

def create (m : TaskManager) (task : PlannerTask) : Except Exn TaskManager :=
  if m.tasks.contains task.id = true then
    .error ⟨taskError, lit ("Task '" ++ task.id ++ "' already exists.")⟩
  else .ok (m.put task)

/-- What `complete`, `fail`, `skip`, `ready` and `pending` share. -/
def move (state : TaskState) (m : TaskManager) (taskId : String) (now : Int) :
    Except Exn (PlannerTask × TaskManager) := do
  let task ← m.get taskId
  let updated := task.withState state now
  pure (updated, m.put updated)

def complete := move .SUCCESS
def fail := move .FAILED
def skip := move .SKIPPED
def ready := move .READY
def pending := move .PENDING

def list (m : TaskManager) : List PlannerTask := m.tasks.values

end TaskManager


/-- `RuleBasedPlanner.create_plan`, at the moment `now`. -/
def RuleBasedPlanner.createPlan (goal : Goal) (tasks : List Task) (now : Int) :
    Except Exn ExecutionPlan := do
  let graph ← ExecutionGraph.build tasks
  let sortedTasks ← ExecutionGraph.topologicalSort tasks
  pure
    { goal := goal
      tasks := sortedTasks
      graph := graph
      estimatedSteps := sortedTasks.length
      createdAt := now }

def Planner.plan (goal : Goal) (tasks : List Task) (now : Int) : Except Exn ExecutionPlan :=
  if goal.state = .CANCELLED then
    .error ⟨planningError, lit "Cannot plan a cancelled goal."⟩
  else if tasks.isEmpty = true then
    .error ⟨planningError, lit "No tasks provided for planning."⟩
  else RuleBasedPlanner.createPlan goal tasks now

/-! ## core/planner/manager.py -/

inductive PlannerEvent where
  | goalCreated (goalId title : String) (priority : Priority)
  | planCreated (goalId planId : String) (estimatedSteps : Nat)
  | planFailed (goalId : String) (error : Text)

/-- What is seen on the bus: the planner's own events, and those of the memory it writes to. -/
inductive PlannerEntry where
  | planner (event : PlannerEvent)
  | memory (event : MemoryEvent)

/-- The two managers the planner is made of, and the memory. -/
structure PlannerState where
  goals : GoalManager := {}
  tasks : TaskManager := {}
  memory : MemoryIndex := {}

abbrev PlannerAct := Act PlannerState Exn PlannerEntry

/-- The buses, if there are any, by how `publish` of an event ends. -/
structure PlannerManager where
  eventBus : Option (PlannerEvent → Except Exn Unit)
  memoryBus : Option (MemoryEvent → Except Exn Unit)
  isoformat : Int → String

/-- The tasks of a goal, in the order they were created in. -/
def PlannerState.tasksOf (s : PlannerState) (goalId : String) : List Task :=
  (s.tasks.list.filter fun task => task.goalId = goalId).map PlannerTask.toTask

def PlannerState.plan (s : PlannerState) (goalId : String) (now : Int) :
    Except Exn (Goal × ExecutionPlan) := do
  let goal ← s.goals.get goalId
  let plan ← Planner.plan goal (s.tasksOf goalId) now
  pure (goal, plan)

namespace PlannerManager

variable (m : PlannerManager)

def publish {ε : Type} (bus : Option (ε → Except Exn Unit)) (entry : ε → PlannerEntry)
    (event : ε) : PlannerAct Unit :=
  match bus with
  | none => pure ()
  | some answer => do
    Act.emit (entry event)
    Act.ofExcept (answer event)

def createGoal (goal : Goal) : PlannerAct Goal := do
  let s ← Act.get
  let goals ← Act.ofExcept (s.goals.create goal)
  Act.modify fun s => { s with goals := goals }
  publish m.eventBus .planner (.goalCreated goal.id goal.title goal.priority)
  pure goal

def cancelGoal (goalId : String) (now : Int) : PlannerAct Goal := do
  let s ← Act.get
  let cancelled ← Act.ofExcept (s.goals.cancel goalId now)
  Act.modify fun s => { s with goals := cancelled.2 }
  pure cancelled.1

def remember (record : MemoryRecord) : PlannerAct Unit := do
  Act.zoom PlannerState.memory (fun memory s => { s with memory := memory })
    (MemoryStore.add record)
  publish m.memoryBus .memory (.about .memoryStored record)

/-- `f"planner:{goal_id}:{uuid}"`. -/
def planId (goalId uuid : String) : String := "planner:" ++ goalId ++ ":" ++ uuid

def recordContent (goalId : String) (plan : ExecutionPlan) : PyValue :=
  .dict
    [("goal_id", .str goalId),
      ("task_ids", .list (plan.tasks.map fun task => .str task.id)),
      ("graph", .dict (plan.graph.entries.map fun e => (e.1, .list (e.2.map .str)))),
      ("estimated_steps", .int plan.estimatedSteps),
      ("created_at", .str (m.isoformat plan.createdAt))]

def recordData (goalId uuid : String) (goal : Goal) (plan : ExecutionPlan) (now : Int) :
    RecordData where
  id := planId goalId uuid
  ownerId := goalId
  «namespace» := "planner"
  title := "Execution plan for goal '" ++ goal.title ++ "'"
  content := m.recordContent goalId plan
  metadata := (Dict.empty.set "goal_state" (.str goal.state.value)).set "priority"
    (.int goal.priority)
  tags := ["planner", "goal"]
  importance := goal.priority
  createdAt := now
  updatedAt := now
  lastAccessed := now

/-- `except PlannerError`: what cannot be planned is reported. -/
def planFailed (goalId : String) (exc : Exn) : PlannerAct PlanResult := do
  publish m.eventBus .planner (.planFailed goalId exc.message)
  pure { success := false, error := some exc.message }

/-- What follows the `try`: the record, the event, the result. -/
def planMade (goalId uuid : String) (goal : Goal) (plan : ExecutionPlan) (now : Int) :
    PlannerAct PlanResult := do
  let record ← Act.ofExcept (MemoryRecord.build (m.recordData goalId uuid goal plan now))
  m.remember record
  publish m.eventBus .planner (.planCreated goalId record.id plan.estimatedSteps)
  pure { success := true, plan := some plan }

/-- `build_plan(goal_id)`, with the id `uuid4` draws. -/
def buildPlan (goalId uuid : String) (now : Int) : PlannerAct PlanResult := do
  let s ← Act.get
  match s.plan goalId now with
  | .error exc =>
    if exc.cls.isPlannerError = true then m.planFailed goalId exc
    else Act.throw exc
  | .ok (goal, plan) => m.planMade goalId uuid goal plan now


/-- `TaskManager.create(task)`. -/
def createTask (task : PlannerTask) : PlannerAct Unit := do
  let s ← Act.get
  let tasks ← Act.ofExcept (s.tasks.create task)
  Act.modify fun s => { s with tasks := tasks }

def moveTask (state : TaskState) (taskId : String) (now : Int) : PlannerAct Unit := do
  let s ← Act.get
  let moved ← Act.ofExcept (TaskManager.move state s.tasks taskId now)
  Act.modify fun s => { s with tasks := moved.2 }

/-- A call of the manager, of the task manager beside it, or of the memory by anybody else. -/
inductive Call where
  | createGoal (goal : Goal)
  | cancelGoal (goalId : String) (now : Int)
  | buildPlan (goalId uuid : String) (now : Int)
  | createTask (task : PlannerTask)
  | moveTask (state : TaskState) (taskId : String) (now : Int)
  | memory (call : MemoryStore.Call)

/-- What a call runs, its result dropped. -/
def Call.run : Call → PlannerAct Unit
  | .createGoal goal => do let _ ← m.createGoal goal
  | .cancelGoal goalId now => do let _ ← PlannerManager.cancelGoal goalId now
  | .buildPlan goalId uuid now => do let _ ← m.buildPlan goalId uuid now
  | .createTask task => PlannerManager.createTask task
  | .moveTask state taskId now => PlannerManager.moveTask state taskId now
  | .memory call =>
    Act.zoom PlannerState.memory (fun memory s => { s with memory := memory }) call.run

/-- The calls of a run, one after the other, those that raise included: what there is then. -/
def after : List Call → PlannerState → PlannerState
  | [], s => s
  | call :: calls, s => after calls (call.run m s).state

end PlannerManager

end IraOS
