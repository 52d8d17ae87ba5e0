import IraOS.Core.Value
import IraOS.Lib.Search
import Mathlib.Data.List.Sort
import Mathlib.Data.Prod.Lex
import Mathlib.Data.String.Basic

/-!
# The planner's graph

`core/planner/graph.py`. A plan is made in two steps that know nothing of each other: `build` looks
for cycles depth first, and `topological_sort` counts in-degrees down and compares what it has
placed with what there was.

Both go by ids. A dictionary by id has the last of several tasks of one id, so the results about the
graph are about tasks with different ids, as those of one task manager are. A dependency that is
listed twice is two edges in the second step, which counts it twice and releases it twice, and no
matter in the first.

The depth-first search is that of `Lib.Search`. The `while` over the ready tasks is a recursion over
a number of rounds, as many as there are tasks; the list is sorted anew in every round, by priority
downwards and by id.
-/

set_option autoImplicit false

namespace IraOS

open Lib

/-- `Priority`, whose members are ints. -/
abbrev Priority := Int

namespace Priority

def LOW : Priority := 1
def NORMAL : Priority := 2
def HIGH : Priority := 3
def CRITICAL : Priority := 4

end Priority

structure Task where
  id : String
  dependencies : List String := []
  priority : Priority := Priority.NORMAL
  deriving DecidableEq, Repr

def Task.byId {β : Type} (f : Task → β) (tasks : List Task) : Dict String β :=
  tasks.foldl (fun d task => d.set task.id (f task)) Dict.empty

def cycleDetectedError : ExnClass := .other "CycleDetectedError"

def executionGraphError : ExnClass := .other "ExecutionGraphError"

namespace ExecutionGraph

abbrev Graph := Dict String (List String)

/-! ## `build` -/

def addTask (taskIds : List String) (graph : Graph) (task : Task) : Except Exn Graph :=
  match task.dependencies.find? fun dep => dep ∉ taskIds with
  | some dep => .error ⟨executionGraphError,
      lit ("Task '" ++ task.id ++ "' depends on unknown task '" ++ dep ++ "'.")⟩
  | none => .ok (graph.set task.id task.dependencies)

def addTasks (tasks : List Task) : Except Exn Graph :=
  tasks.foldlM (addTask (tasks.map Task.id)) Dict.empty

/-- `_validate_no_cycle`; Python's own bound on the depth of a recursion is not modelled, and the
one there is here is never met (`validateNoCycle_result`). -/
def validateNoCycle (graph : Graph) : Except Exn Unit :=
  match Search.search (fun node => graph.getD node []) (graph.keys.length + 1) graph.keys with
  | .ok _ => .ok ()
  | .error (.cycle node) => .error ⟨cycleDetectedError,
      lit ("Cycle detected involving task '" ++ node ++ "'.")⟩
  | .error .depth => .error ⟨.other "RecursionError", []⟩

def build (tasks : List Task) : Except Exn Graph := do
  let graph ← addTasks tasks
  validateNoCycle graph
  return graph

/-! ## `topological_sort` -/

structure Degrees where
  dependents : Dict String (List String)
  inDegree : Dict String Int

def addEdge (d : Degrees) (edge : String × String) : Degrees where
  dependents := d.dependents.set edge.2 (d.dependents.getD edge.2 [] ++ [edge.1])
  inDegree := d.inDegree.set edge.1 (d.inDegree.getD edge.1 0 + 1)

/-- Every task with every dependency it lists, in the order of the two loops. -/
def edges (entries : List (String × List String)) : List (String × String) :=
  entries.flatMap fun e => e.2.map fun dep => (e.1, dep)

def degrees (tasks : List Task) (graph : Graph) : Degrees :=
  (edges graph.entries).foldl addEdge ⟨Dict.empty, Task.byId (fun _ => 0) tasks⟩

/-- The state of the `while`: how many listings of each id's dependencies are not placed yet, the
ids that have none, and what has been placed. -/
structure Sorting where
  inDegree : Dict String Int
  ready : List String
  ordered : List Task

variable (taskMap : Dict String Task)

def sortKey (taskId : String) : Int ×ₗ String :=
  -- every id that is sorted is some task's, so the 0 is nobody's
  toLex (((taskMap.get? taskId).map fun task => -task.priority).getD 0, taskId)

def sortReady (ready : List String) : List String :=
  ready.insertionSort fun a b => sortKey taskMap a ≤ sortKey taskMap b

/-- One listing of a dependency is placed. -/
def releaseDependent (s : Sorting) (dependent : String) : Sorting :=
  let degree := s.inDegree.getD dependent 0 - 1
  { s with
    inDegree := s.inDegree.set dependent degree
    ready := if degree = 0 then s.ready ++ [dependent] else s.ready }

/-- The body of the `while`, with the head of the sorted list taken off. -/
def placeNext (dependents : Dict String (List String)) (s : Sorting) (current : String)
    (rest : List String) : Sorting :=
  (dependents.getD current []).foldl releaseDependent
    { s with ready := rest, ordered := s.ordered ++ (taskMap.get? current).toList }

/-- `while ready`, for as many rounds as there are tasks; `drain_done` says that the loop is over by
then. -/
def drain (dependents : Dict String (List String)) : Nat → Sorting → Sorting
  | 0, s => s
  | n + 1, s =>
    match sortReady taskMap s.ready with
    | [] => s
    | current :: rest => drain dependents n (placeNext taskMap dependents s current rest)

def initialSorting (d : Degrees) : Sorting where
  inDegree := d.inDegree
  ready := d.inDegree.keys.filter fun taskId => d.inDegree.getD taskId 0 = 0
  ordered := []

def sorted (tasks : List Task) (graph : Graph) : Sorting :=
  let d := degrees tasks graph
  drain (Task.byId id tasks) d.dependents tasks.length (initialSorting d)

def Leftover (tasks : List Task) (graph : Graph) : Prop :=
  (sorted tasks graph).ordered.length ≠ (Task.byId id tasks).size

instance (tasks : List Task) (graph : Graph) : Decidable (Leftover tasks graph) :=
  inferInstanceAs (Decidable (_ ≠ _))

def topologicalSort (tasks : List Task) : Except Exn (List Task) := do
  let graph ← build tasks
  if Leftover tasks graph then
    .error ⟨cycleDetectedError, lit "Cycle detected during topological sort."⟩
  else .ok (sorted tasks graph).ordered

end ExecutionGraph

end IraOS
