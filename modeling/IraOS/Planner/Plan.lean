import IraOS.Lib.Kahn
import IraOS.Planner.Graph

/-!
# The plan is the greedy one

**A plan places, at every position, the task of highest priority among those whose dependencies are
all placed, ties by least id** (`Plan`); there is at most one, so the order the tasks come in does
not matter. The two searches for a cycle find the same thing: where every dependency is known, the
depth-first one stops exactly where the loop leaves something over (`cycle_iff_leftover`), so the
second error of `topological_sort` is never raised.

## The two steps

The depth-first check is an instance of the search of `Lib.Search`, and raises exactly if some task
depends on itself, in any number of steps. The loop is an instance of `Lib.Kahn`, as the boot order
of the components is: a round of it is a round of a worklist of ids, and what the library says of a
worklist that has run dry is that it has placed everything, greedily, or that something is left
which depends on itself.

Between the two are dictionaries by id. That an entry under an id is that of the task which has the
id needs the ids to differ, which is the one assumption throughout.
-/

set_option autoImplicit false

namespace IraOS

open Lib

namespace ExecutionGraph

/-- Some task depends on an id that no task has. -/
def Unknown (tasks : List Task) : Prop :=
  ∃ task ∈ tasks, ∃ dep ∈ task.dependencies, dep ∉ tasks.map Task.id

def DependsOn (tasks : List Task) (a b : String) : Prop :=
  ∃ task ∈ tasks, task.id = a ∧ b ∈ task.dependencies

def Cyclic (tasks : List Task) : Prop := ∃ a, Relation.TransGen (DependsOn tasks) a a

/-- A permutation of the tasks in which each follows its dependencies and is, at its position, the
one of highest priority of those that could stand there, and of these the one of least id. -/
structure Plan (tasks order : List Task) : Prop where
  perm : order.Perm tasks
  follows : ∀ pre task post, order = pre ++ task :: post →
    ∀ dep ∈ task.dependencies, dep ∈ pre.map Task.id
  first : ∀ pre task post, order = pre ++ task :: post → ∀ other ∈ tasks, other ∉ pre →
    (∀ dep ∈ other.dependencies, dep ∈ pre.map Task.id) →
    other.priority < task.priority ∨ other.priority = task.priority ∧ task.id ≤ other.id

/-! ## Dictionaries by id -/

section ById

variable {tasks : List Task} {β : Type} {f : Task → β}

theorem foldl_set_get? (d : Dict String β) (n : String) (h : (tasks.map Task.id).Nodup) :
    (tasks.foldl (fun d task => d.set task.id (f task)) d).get? n =
      match tasks.find? fun task => task.id = n with
      | some task => some (f task)
      | none => d.get? n := by
  induction tasks generalizing d with
  | nil => rfl
  | cons t ts ih =>
    rw [List.map_cons, List.nodup_cons] at h
    rw [List.foldl_cons, ih _ h.2, List.find?_cons]
    by_cases hn : t.id = n
    · have hnone : ts.find? (fun task => task.id = n) = none := by
        rw [List.find?_eq_none]
        intro u hu hq
        have hq : u.id = n := by simpa using hq
        exact h.1 (List.mem_map.mpr ⟨u, hu, hq.trans hn.symm⟩)
      simp [hnone, hn]
    · have hn' : ¬ n = t.id := fun h => hn h.symm
      simp [hn, Dict.get?_set, hn']

theorem get?_byId (h : (tasks.map Task.id).Nodup) {n : String} {v : β} :
    (Task.byId f tasks).get? n = some v ↔ ∃ task ∈ tasks, task.id = n ∧ f task = v := by
  rw [Task.byId, foldl_set_get? _ _ h]
  cases hfind : tasks.find? fun task => task.id = n with
  | none =>
    simp only [Dict.get?_empty, reduceCtorEq, false_iff]
    rintro ⟨task, hmem, hid, _⟩
    exact absurd hid (by simpa using List.find?_eq_none.mp hfind task hmem)
  | some t =>
    have hmem := List.mem_of_find?_eq_some hfind
    have hid : t.id = n := by simpa using List.find?_some hfind
    constructor
    · intro hv
      exact ⟨t, hmem, hid, Option.some.inj hv⟩
    · rintro ⟨task, htask, hid', rfl⟩
      rw [List.inj_on_of_nodup_map h hmem htask (hid.trans hid'.symm)]

theorem get?_byId_self (h : (tasks.map Task.id).Nodup) {task : Task} (hmem : task ∈ tasks) :
    (Task.byId f tasks).get? task.id = some (f task) :=
  (get?_byId h).mpr ⟨task, hmem, rfl, rfl⟩

theorem keys_byId (h : (tasks.map Task.id).Nodup) :
    (Task.byId f tasks).keys.Perm (tasks.map Task.id) := by
  refine (List.perm_ext_iff_of_nodup (Dict.keys_nodup _) h).mpr ?_
  intro n
  rw [Dict.mem_keys_iff, List.mem_map]
  constructor
  · rintro ⟨v, hv⟩
    obtain ⟨task, hmem, hid, _⟩ := (get?_byId h).mp hv
    exact ⟨task, hmem, hid⟩
  · rintro ⟨task, hmem, rfl⟩
    exact ⟨f task, get?_byId_self h hmem⟩

theorem size_byId (h : (tasks.map Task.id).Nodup) :
    (Task.byId f tasks).size = tasks.length := by
  rw [← Dict.length_keys, (keys_byId h).length_eq, List.length_map]

end ById

/-! ## The graph -/

theorem addTasks_from (ids : List String) (tasks : List Task) (graph : Graph) :
    match tasks.foldlM (addTask ids) graph with
    | .ok graph' => (∀ task ∈ tasks, ∀ dep ∈ task.dependencies, dep ∈ ids) ∧
        graph' = tasks.foldl (fun d task => d.set task.id task.dependencies) graph
    | .error e => e.cls = executionGraphError ∧
        ∃ task ∈ tasks, ∃ dep ∈ task.dependencies, dep ∉ ids := by
  induction tasks generalizing graph with
  | nil => exact ⟨by simp, rfl⟩
  | cons t ts ih =>
    rw [List.foldlM_cons, addTask]
    cases hfind : t.dependencies.find? fun dep => dep ∉ ids with
    | some dep =>
      exact ⟨rfl, t, List.mem_cons_self, dep, List.mem_of_find?_eq_some hfind,
        by simpa using List.find?_some hfind⟩
    | none =>
      have hknown : ∀ dep ∈ t.dependencies, dep ∈ ids := by
        simpa using List.find?_eq_none.mp hfind
      have hrest := ih (graph.set t.id t.dependencies)
      show match ts.foldlM (addTask ids) (graph.set t.id t.dependencies) with
        | .ok graph' => _
        | .error e => _
      cases hfold : ts.foldlM (addTask ids) (graph.set t.id t.dependencies) with
      | ok graph' =>
        rw [hfold] at hrest
        refine ⟨?_, hrest.2⟩
        intro task hmem
        rcases List.mem_cons.mp hmem with rfl | hmem
        · exact hknown
        · exact hrest.1 task hmem
      | error e =>
        rw [hfold] at hrest
        obtain ⟨hcls, task, hmem, hdep⟩ := hrest
        exact ⟨hcls, task, List.mem_cons_of_mem _ hmem, hdep⟩

theorem addTasks_result (tasks : List Task) :
    match addTasks tasks with
    | .ok graph => ¬ Unknown tasks ∧ graph = Task.byId Task.dependencies tasks
    | .error e => Unknown tasks ∧ e.cls = executionGraphError := by
  have h := addTasks_from (tasks.map Task.id) tasks Dict.empty
  rw [addTasks]
  cases hadd : tasks.foldlM (addTask (tasks.map Task.id)) Dict.empty with
  | ok graph =>
    rw [hadd] at h
    refine ⟨?_, h.2⟩
    rintro ⟨task, hmem, dep, hdep, hnot⟩
    exact hnot (h.1 task hmem dep hdep)
  | error e =>
    rw [hadd] at h
    exact ⟨h.2, h.1⟩

/-- The graph of a list of tasks. -/
abbrev graphOf (tasks : List Task) : Graph := Task.byId Task.dependencies tasks

theorem dependsOn_known {tasks : List Task} (hknown : ¬ Unknown tasks) {a b : String}
    (h : DependsOn tasks a b) :
    b ∈ tasks.map Task.id := by
  obtain ⟨task, hmem, _, hb⟩ := h
  by_contra hnot
  exact hknown ⟨task, hmem, b, hb, hnot⟩

section Graph

variable {tasks : List Task} (hnodup : (tasks.map Task.id).Nodup)

include hnodup

theorem mem_graphOf {a b : String} : b ∈ (graphOf tasks).getD a [] ↔ DependsOn tasks a b := by
  rw [Dict.getD]
  cases hget : (graphOf tasks).get? a with
  | none =>
    simp only [Option.getD_none, List.not_mem_nil, false_iff]
    rintro ⟨task, hmem, rfl, _⟩
    rw [get?_byId_self hnodup hmem] at hget
    cases hget
  | some deps =>
    obtain ⟨task, hmem, hid, rfl⟩ := (get?_byId hnodup).mp hget
    constructor
    · intro hb
      exact ⟨task, hmem, hid, hb⟩
    · rintro ⟨task', hmem', hid', hb⟩
      rwa [List.inj_on_of_nodup_map hnodup hmem hmem' (hid.trans hid'.symm)]

/-- **The depth-first check** finds a cycle exactly where there is one. -/
theorem validateNoCycle_result (hknown : ¬ Unknown tasks) :
    match validateNoCycle (graphOf tasks) with
    | .ok _ => ¬ Cyclic tasks
    | .error e => Cyclic tasks ∧ e.cls = cycleDetectedError := by
  have hleads : Search.Leads (fun node => (graphOf tasks).getD node []) = DependsOn tasks := by
    funext a b
    exact propext (mem_graphOf hnodup)
  have hnodes : ∀ v ∈ (graphOf tasks).keys, ∀ d ∈ (fun node => (graphOf tasks).getD node []) v,
      d ∈ (graphOf tasks).keys := by
    intro v _ d hd
    exact (keys_byId hnodup).mem_iff.mpr
      (dependsOn_known hknown ((mem_graphOf hnodup).mp hd))
  have hsearch := Search.search_spec hnodes
  rw [hleads] at hsearch
  rw [validateNoCycle]
  cases hs : Search.search (fun node => (graphOf tasks).getD node [])
      ((graphOf tasks).keys.length + 1) (graphOf tasks).keys with
  | ok s =>
    rw [hs] at hsearch
    rintro ⟨a, ha⟩
    obtain ⟨b, hab, _⟩ := Relation.TransGen.head'_iff.mp ha
    obtain ⟨task, hmem, hid, _⟩ := hab
    exact hsearch a ((keys_byId hnodup).mem_iff.mpr (List.mem_map.mpr ⟨task, hmem, hid⟩)) ha
  | error e =>
    rw [hs] at hsearch
    cases e with
    | cycle node => exact ⟨⟨node, hsearch⟩, rfl⟩
    -- one more than there are nodes is depth enough
    | depth => exact hsearch.elim

end Graph

/-! ## The degrees -/

theorem addEdges (es : List (String × String)) (d : Degrees) (n : String) :
    (es.foldl addEdge d).dependents.getD n [] =
        d.dependents.getD n [] ++ (es.filter fun e => n = e.2).map Prod.fst ∧
      (es.foldl addEdge d).inDegree.getD n 0 =
        d.inDegree.getD n 0 + es.countP fun e => n = e.1 := by
  induction es generalizing d with
  | nil => simp
  | cons e es ih =>
    obtain ⟨ih₁, ih₂⟩ := ih (addEdge d e)
    rw [List.foldl_cons]
    refine ⟨?_, ?_⟩
    · rw [ih₁, addEdge, Dict.getD_set, List.filter_cons]
      by_cases hn : n = e.2 <;> simp [hn]
    · rw [ih₂, addEdge, Dict.getD_set, List.countP_cons]
      by_cases hn : n = e.1
      · simp [hn]
        omega
      · simp [hn]

theorem addEdges_keys (es : List (String × String)) (d : Degrees)
    (h : ∀ e ∈ es, e.1 ∈ d.inDegree.keys) (n : String) :
    n ∈ (es.foldl addEdge d).inDegree.keys ↔ n ∈ d.inDegree.keys := by
  induction es generalizing d with
  | nil => rfl
  | cons e es ih =>
    have hkeys : ∀ m, m ∈ (addEdge d e).inDegree.keys ↔ m ∈ d.inDegree.keys := by
      intro m
      rw [addEdge, Dict.mem_keys_iff, Dict.mem_keys_iff]
      constructor
      · rintro ⟨v, hv⟩
        rw [Dict.get?_set] at hv
        split at hv
        · next hm => exact Dict.mem_keys_iff.mp (hm ▸ h e List.mem_cons_self)
        · exact ⟨v, hv⟩
      · rintro ⟨v, hv⟩
        rw [Dict.get?_set]
        split
        · exact ⟨_, rfl⟩
        · exact ⟨v, hv⟩
    rw [List.foldl_cons, ih, hkeys]
    intro e' he'
    exact (hkeys e'.1).mpr (h e' (List.mem_cons_of_mem _ he'))

theorem countP_edges (p : String → Bool) (n : String) {entries : List (String × List String)}
    (h : (entries.map Prod.fst).Nodup) :
    (edges entries).countP (fun e => n = e.1 && p e.2)
      = ((entries.lookup n).getD []).countP p := by
  have hzero : ∀ (es : List (String × List String)), n ∉ es.map Prod.fst →
      (edges es).countP (fun e => n = e.1 && p e.2) = 0 := by
    intro es hn
    rw [List.countP_eq_zero]
    intro e he
    simp only [edges, List.mem_flatMap, List.mem_map] at he
    obtain ⟨entry, hentry, dep, _, rfl⟩ := he
    have hne : n ≠ entry.1 := fun hq => hn (List.mem_map.mpr ⟨entry, hentry, hq.symm⟩)
    simp [hne]
  induction entries with
  | nil => rfl
  | cons entry es ih =>
    obtain ⟨k, deps⟩ := entry
    rw [List.map_cons, List.nodup_cons] at h
    have hsplit : edges ((k, deps) :: es) = deps.map (fun dep => (k, dep)) ++ edges es := by
      simp [edges]
    rw [hsplit, List.countP_append, List.countP_map, Dict.lookup_cons_ite]
    by_cases hn : n = k
    · subst hn
      rw [hzero es h.1]
      simp [Function.comp_def]
    · rw [ih h.2, if_neg hn]
      simp [Function.comp_def, hn]

section Degrees

variable {tasks : List Task} (hnodup : (tasks.map Task.id).Nodup)

include hnodup

theorem degrees_spec (n : String) :
    (∀ c, ((degrees tasks (graphOf tasks)).dependents.getD n []).count c =
        ((graphOf tasks).getD c []).count n) ∧
      (degrees tasks (graphOf tasks)).inDegree.getD n 0 = ((graphOf tasks).getD n []).length ∧
      (n ∈ (degrees tasks (graphOf tasks)).inDegree.keys ↔ n ∈ tasks.map Task.id) := by
  obtain ⟨hdependents, hdegree⟩ := addEdges (edges (graphOf tasks).entries)
    ⟨Dict.empty, Task.byId (fun _ => 0) tasks⟩ n
  have hlookup : ∀ c p, (edges (graphOf tasks).entries).countP (fun e => c = e.1 && p e.2) =
      ((graphOf tasks).getD c []).countP p :=
    fun c p => countP_edges p c (graphOf tasks).nodup
  refine ⟨?_, ?_, ?_⟩
  -- an id is a dependent as often as an edge leads from it
  · intro c
    rw [degrees, hdependents, Dict.getD, Dict.get?_empty, Option.getD_none, List.nil_append,
      List.count_eq_countP, List.countP_map, List.countP_filter, List.count_eq_countP,
      ← hlookup c fun dep => dep == n]
    refine List.countP_congr ?_
    intro e _
    simp only [Function.comp_apply, beq_iff_eq, Bool.and_eq_true, decide_eq_true_eq]
    exact ⟨fun h => ⟨h.1.symm, h.2.symm⟩, fun h => ⟨h.1.symm, h.2.symm⟩⟩
  · have hzero : (Task.byId (fun _ => (0 : Int)) tasks).getD n 0 = 0 := by
      rw [Dict.getD]
      cases hget : (Task.byId (fun _ => (0 : Int)) tasks).get? n with
      | none => rfl
      | some v =>
        obtain ⟨_, _, _, rfl⟩ := (get?_byId hnodup).mp hget
        rfl
    have hall := hlookup n fun _ => true
    simp only [Bool.and_true, List.countP_true] at hall
    rw [degrees, hdegree, hzero, Int.zero_add, hall]
  · rw [degrees, addEdges_keys]
    · exact (keys_byId hnodup).mem_iff
    · intro e he
      simp only [edges, List.mem_flatMap, List.mem_map] at he
      obtain ⟨entry, hentry, dep, _, rfl⟩ := he
      have hkey : entry.1 ∈ (graphOf tasks).keys := List.mem_map_of_mem hentry
      exact (keys_byId hnodup).mem_iff.mpr ((keys_byId hnodup).mem_iff.mp hkey)

end Degrees

/-!
## The loop

`Sorting.worklist` is what the loop is to `Lib.Kahn`: degrees by id, ids that are ready, and the ids
of what is placed. The loop sorts its list before it takes the first task off, where the worklist
takes the least of what is ready; so the rounds agree up to the order of what is ready.
-/

def Sorting.worklist (s : Sorting) : Worklist String where
  degree := fun taskId => s.inDegree.getD taskId 0
  ready := s.ready
  order := s.ordered.map Task.id

theorem worklist_release (s : Sorting) (dependent : String) :
    (releaseDependent s dependent).worklist = s.worklist.release dependent := by
  simp only [Sorting.worklist, releaseDependent, Worklist.release, Worklist.mk.injEq, and_true]
  refine ⟨?_, rfl⟩
  funext taskId
  rw [Dict.getD_set, Function.update_apply]

theorem worklist_releaseAll (dependents : List String) (s : Sorting) :
    (dependents.foldl releaseDependent s).worklist =
      dependents.foldl Worklist.release s.worklist := by
  induction dependents generalizing s with
  | nil => rfl
  | cons d ds ih => rw [List.foldl_cons, List.foldl_cons, ih, worklist_release]

theorem releaseAll_ordered (dependents : List String) (s : Sorting) :
    (dependents.foldl releaseDependent s).ordered = s.ordered := by
  induction dependents generalizing s with
  | nil => rfl
  | cons d ds ih =>
    rw [List.foldl_cons, ih]
    rfl

theorem worklist_placeNext {taskMap : Dict String Task} {dependents : Dict String (List String)}
    {s : Sorting} {task : Task} {rest : List String} (h : taskMap.get? task.id = some task) :
    (placeNext taskMap dependents s task.id rest).worklist =
      s.worklist.take (dependents.getD task.id []) task.id rest := by
  rw [placeNext, worklist_releaseAll, h, Worklist.take]
  simp [Sorting.worklist]

theorem sortReady_perm (taskMap : Dict String Task) (ready : List String) :
    (sortReady taskMap ready).Perm ready := List.perm_insertionSort _ ready

theorem sortReady_least {taskMap : Dict String Task} {ready rest : List String} {current : String}
    (h : sortReady taskMap ready = current :: rest) :
    ∀ other ∈ rest, sortKey taskMap current ≤ sortKey taskMap other := by
  have hsorted : (sortReady taskMap ready).Pairwise
      fun a b => sortKey taskMap a ≤ sortKey taskMap b := List.pairwise_insertionSort _ ready
  rw [h] at hsorted
  exact (List.pairwise_cons.mp hsorted).1

structure Sorting.Sound (tasks : List Task) (s : Sorting) : Prop where
  worklist : s.worklist.Sound (fun taskId => (graphOf tasks).getD taskId [])
    (sortKey (Task.byId id tasks)) (tasks.map Task.id)
  tasks : ∀ task ∈ s.ordered, task ∈ tasks

section Loop

variable {tasks : List Task} (hnodup : (tasks.map Task.id).Nodup)

include hnodup

/-- **A round keeps the loop sound.** -/
theorem placeNext_sound {s : Sorting} {current : String} {rest : List String}
    (h : s.Sound tasks)
    (hs : sortReady (Task.byId id tasks) s.ready = current :: rest) :
    let dependents := (degrees tasks (graphOf tasks)).dependents
    (placeNext (Task.byId id tasks) dependents s current rest).Sound tasks ∧
      (placeNext (Task.byId id tasks) dependents s current rest).ordered.length
        = s.ordered.length + 1 := by
  intro dependents
  have hready : s.ready.Perm (current :: rest) := hs ▸ (sortReady_perm _ s.ready).symm
  have hcurrent : current ∈ tasks.map Task.id :=
    ((h.worklist.listed.mem current).mp (hready.mem_iff.mpr List.mem_cons_self)).1
  obtain ⟨task, hmem, rfl⟩ := List.mem_map.mp hcurrent
  have hget : (Task.byId id tasks).get? task.id = some task := get?_byId_self hnodup hmem
  have hordered : (placeNext (Task.byId id tasks) dependents s task.id rest).ordered
      = s.ordered ++ [task] := by
    rw [placeNext, releaseAll_ordered, hget]
    rfl
  have hcount : ∀ c, (dependents.getD task.id []).count c =
      ((graphOf tasks).getD c []).count task.id := (degrees_spec hnodup task.id).1
  refine ⟨⟨?_, ?_⟩, by simp [hordered]⟩
  · rw [worklist_placeNext hget]
    refine h.worklist.take hready (sortReady_least hs) ?_ fun c _ => hcount c
    intro c hc
    have hpos : 0 < ((graphOf tasks).getD c []).count task.id := by
      rw [← hcount c]
      exact List.count_pos_iff.mpr hc
    obtain ⟨task', hmem', hid, _⟩ := (mem_graphOf hnodup).mp (List.count_pos_iff.mp hpos)
    exact List.mem_map.mpr ⟨task', hmem', hid⟩
  · rw [hordered]
    intro t ht
    rcases List.mem_append.mp ht with ht | ht
    · exact h.tasks t ht
    · exact List.mem_singleton.mp ht ▸ hmem

theorem initialSorting_sound :
    (initialSorting (degrees tasks (graphOf tasks))).Sound tasks := by
  refine ⟨⟨⟨?_, ?_⟩, ?_, Greedy.nil⟩, by simp [initialSorting]⟩
  · exact (Dict.keys_nodup _).filter _
  · intro c
    have hkey := (degrees_spec hnodup c).2.2
    simp only [Sorting.worklist, initialSorting, List.mem_filter, decide_eq_true_eq, hkey,
      List.map_nil, List.not_mem_nil, not_false_eq_true, true_and]
  · intro c _
    have hlength := (degrees_spec hnodup c).2.1
    simp [Sorting.worklist, initialSorting, hlength]

theorem drain_done (n : Nat) {s : Sorting} (h : s.Sound tasks)
    (hn : tasks.length ≤ s.ordered.length + n) :
    let s' := drain (Task.byId id tasks) (degrees tasks (graphOf tasks)).dependents n s
    s'.Sound tasks ∧ s'.ready = [] := by
  induction n generalizing s with
  | zero =>
    refine ⟨h, h.worklist.ready_of_full ?_⟩
    simpa [Sorting.worklist] using hn
  | succ n ih =>
    rw [drain]
    cases hs : sortReady (Task.byId id tasks) s.ready with
    | nil =>
      have hperm := sortReady_perm (Task.byId id tasks) s.ready
      rw [hs] at hperm
      exact ⟨h, List.nil_perm.mp hperm⟩
    | cons current rest =>
      obtain ⟨hsound, hlength⟩ := placeNext_sound hnodup h hs
      exact ih hsound (by rw [hlength]; omega)

theorem not_leftover
    (hperm : (sorted tasks (graphOf tasks)).worklist.order.Perm (tasks.map Task.id)) :
    ¬ Leftover tasks (graphOf tasks) := by
  have hlength := hperm.length_eq
  rw [Leftover, size_byId hnodup, not_not]
  simpa [Sorting.worklist] using hlength

theorem sorted_result (hknown : ¬ Unknown tasks) :
    (sorted tasks (graphOf tasks)).Sound tasks ∧
      ((sorted tasks (graphOf tasks)).worklist.order.Perm (tasks.map Task.id) ∧ ¬ Cyclic tasks ∨
        Leftover tasks (graphOf tasks) ∧ Cyclic tasks) := by
  obtain ⟨hsound, hready⟩ := drain_done hnodup tasks.length (initialSorting_sound hnodup)
    (Nat.le_add_left ..)
  change (sorted tasks (graphOf tasks)).Sound tasks at hsound
  refine ⟨hsound, ?_⟩
  have hleads : (fun c d => d ∈ (graphOf tasks).getD c []) = DependsOn tasks := by
    funext a b
    exact propext (mem_graphOf hnodup)
  rcases hsound.worklist.perm_or_cycle hnodup
    (fun c d hd => dependsOn_known hknown ((mem_graphOf hnodup).mp hd)) hready with
    hperm | ⟨hlength, hcycle⟩
  · refine Or.inl ⟨hperm, ?_⟩
    rintro ⟨a, ha⟩
    obtain ⟨b, ⟨task, hmem, rfl, _⟩, _⟩ := Relation.TransGen.head'_iff.mp ha
    have hplaced := hperm.mem_iff.mpr (List.mem_map_of_mem hmem)
    have hacyclic := hsound.worklist.greedy.acyclic hplaced
    rw [hleads] at hacyclic
    exact hacyclic ha
  · rw [hleads] at hcycle
    refine Or.inr ⟨?_, hcycle⟩
    rw [Leftover, size_byId hnodup]
    simpa [Sorting.worklist] using hlength

end Loop

/-! ## The plan -/

def Task.key (task : Task) : Int ×ₗ String := toLex (-task.priority, task.id)

theorem Task.key_le_iff {task other : Task} : Task.key task ≤ Task.key other ↔
    other.priority < task.priority ∨ other.priority = task.priority ∧ task.id ≤ other.id := by
  rw [Task.key, Task.key, Prod.Lex.toLex_le_toLex]
  constructor
  · rintro (h | ⟨h, hid⟩)
    · exact Or.inl (by simpa using h)
    · exact Or.inr ⟨by simpa using h.symm, hid⟩
  · rintro (h | ⟨h, hid⟩)
    · exact Or.inl (by simpa using h)
    · exact Or.inr ⟨by simp [h], hid⟩

section Plans

variable {tasks order : List Task} (hnodup : (tasks.map Task.id).Nodup)

include hnodup

theorem sortKey_byId {task : Task} (hmem : task ∈ tasks) :
    sortKey (Task.byId id tasks) task.id = Task.key task := by
  rw [sortKey, get?_byId_self hnodup hmem]
  rfl

theorem Sorting.Sound.plan {s : Sorting} (h : s.Sound tasks)
    (hperm : s.worklist.order.Perm (tasks.map Task.id)) : Plan tasks s.ordered := by
  have hids : ∀ {pre task post}, s.ordered = pre ++ task :: post →
      s.worklist.order = pre.map Task.id ++ task.id :: post.map Task.id := by
    intro pre task post hq
    simp [Sorting.worklist, hq]
  have hpre : ∀ {pre task post}, s.ordered = pre ++ task :: post → ∀ t ∈ pre, t ∈ tasks := by
    intro pre task post hq t ht
    exact h.tasks t (by rw [hq]; simp [ht])
  -- the worklist knows a task by its id only, and the ids are distinct
  have hself : ∀ {task}, task ∈ tasks →
      (graphOf tasks).getD task.id [] = task.dependencies := by
    intro task hmem
    rw [Dict.getD, get?_byId_self hnodup hmem]
    rfl
  refine ⟨?_, ?_, ?_⟩
  · have hnodup' : s.ordered.Nodup := List.Nodup.of_map _ h.worklist.greedy.nodup
    refine (List.subperm_of_subset hnodup' h.tasks).perm_of_length_le ?_
    have hlength := hperm.length_eq
    rw [Sorting.worklist, List.length_map, List.length_map] at hlength
    exact hlength.ge
  · intro pre task post hq dep hdep
    have hmem : task ∈ tasks := h.tasks task (by rw [hq]; simp)
    refine (h.worklist.greedy _ _ _ (hids hq)).ready dep ?_
    rwa [hself hmem]
  · intro pre task post hq other hother hnot hready
    have hmem : task ∈ tasks := h.tasks task (by rw [hq]; simp)
    rw [← Task.key_le_iff, ← sortKey_byId hnodup hmem, ← sortKey_byId hnodup hother]
    refine (h.worklist.greedy _ _ _ (hids hq)).least other.id (List.mem_map_of_mem hother) ?_ ?_
    · intro hin
      obtain ⟨t, ht, hid⟩ := List.mem_map.mp hin
      exact hnot (List.inj_on_of_nodup_map hnodup (hpre hq t ht) hother hid ▸ ht)
    · intro dep hdep
      rw [hself hother] at hdep
      exact hready dep hdep

theorem Plan.greedy (h : Plan tasks order) :
    Greedy (fun task other => other ∈ tasks ∧ other.id ∈ task.dependencies) Task.key tasks
      order := by
  intro pre task post hq
  have hmem : ∀ {t}, t ∈ order → t ∈ tasks := fun ht => h.perm.mem_iff.mp ht
  have hpre : ∀ {t}, t ∈ tasks → t.id ∈ pre.map Task.id → t ∈ pre := by
    intro t ht hin
    obtain ⟨u, hu, hid⟩ := List.mem_map.mp hin
    have hu' : u ∈ tasks := hmem (by rw [hq]; simp [hu])
    exact List.inj_on_of_nodup_map hnodup hu' ht hid ▸ hu
  have hordered : order.Nodup := h.perm.nodup_iff.mpr (List.Nodup.of_map _ hnodup)
  rw [hq] at hordered
  refine ⟨hmem (by rw [hq]; simp), ?_, ?_, ?_⟩
  · intro hin
    exact (List.nodup_append.mp hordered).2.2 task hin task List.mem_cons_self rfl
  · rintro other ⟨hother, hdep⟩
    exact hpre hother (h.follows pre task post hq _ hdep)
  · intro other hother hnot hready
    rw [Task.key_le_iff]
    refine h.first pre task post hq other hother hnot ?_
    -- a dependency is some task's id, as it comes before that task's own dependent in the plan
    intro dep hdep
    obtain ⟨pre', post', hq'⟩ := List.append_of_mem (h.perm.mem_iff.mpr hother)
    obtain ⟨t, ht, rfl⟩ := List.mem_map.mp (h.follows pre' other post' hq' dep hdep)
    have ht' : t ∈ tasks := hmem (by rw [hq']; simp [ht])
    exact List.mem_map_of_mem (hready t ⟨ht', hdep⟩)

/-- **A plan is the only one**, whatever order the tasks are listed in. -/
theorem Plan.unique {tasks' order' : List Task} (h : Plan tasks order) (h' : Plan tasks' order')
    (hp : tasks'.Perm tasks) : order = order' := by
  have hnodup' : (tasks'.map Task.id).Nodup := (hp.map Task.id).nodup_iff.mpr hnodup
  have hneeds : (fun task other : Task => other ∈ tasks' ∧ other.id ∈ task.dependencies) =
      fun task other => other ∈ tasks ∧ other.id ∈ task.dependencies := by
    funext task other
    rw [hp.mem_iff]
  have hgreedy' := (h'.greedy hnodup').of_perm hp
  rw [hneeds] at hgreedy'
  have hkey : ∀ t ∈ tasks, ∀ u ∈ tasks, Task.key t = Task.key u → t = u := by
    intro t ht u hu hq
    exact List.inj_on_of_nodup_map hnodup ht hu (congrArg (fun k => (ofLex k).2) hq)
  exact Greedy.unique hkey (h.greedy hnodup) hgreedy'
    (h.perm.trans (h'.perm.trans hp).symm).length_eq

omit hnodup in
theorem topologicalSort_of_checked {graph : Graph} {u : Unit} (ha : addTasks tasks = .ok graph)
    (hv : validateNoCycle graph = .ok u) : topologicalSort tasks =
      if Leftover tasks graph then
        .error ⟨cycleDetectedError, lit "Cycle detected during topological sort."⟩
      else .ok (sorted tasks graph).ordered := by
  rw [topologicalSort, build, ha]
  show (validateNoCycle graph >>= fun _ => pure graph) >>= _ = _
  rw [hv]
  rfl

/-- What `topological_sort` returns or raises. -/
theorem topologicalSort_result :
    match topologicalSort tasks with
    | .ok order => ¬ Unknown tasks ∧ ¬ Cyclic tasks ∧ Plan tasks order
    | .error e => Unknown tasks ∧ e.cls = executionGraphError ∨
        ¬ Unknown tasks ∧ Cyclic tasks ∧ e.cls = cycleDetectedError := by
  have hadd := addTasks_result tasks
  cases ha : addTasks tasks with
  | error e =>
    rw [ha] at hadd
    have hsort : topologicalSort tasks = .error e := by
      rw [topologicalSort, build, ha]
      rfl
    rw [hsort]
    exact Or.inl hadd
  | ok graph =>
    rw [ha] at hadd
    obtain ⟨hknown, rfl⟩ := hadd
    have hcheck := validateNoCycle_result hnodup hknown
    cases hv : validateNoCycle (graphOf tasks) with
    | error e =>
      rw [hv] at hcheck
      have hsort : topologicalSort tasks = .error e := by
        rw [topologicalSort, build, ha]
        show (validateNoCycle (graphOf tasks) >>= fun _ => pure (graphOf tasks)) >>= _ = _
        rw [hv]
        rfl
      rw [hsort]
      exact Or.inr ⟨hknown, hcheck⟩
    | ok u =>
      rw [hv] at hcheck
      rw [topologicalSort_of_checked ha hv]
      obtain ⟨hsound, ⟨hperm, _⟩ | ⟨_, hcycle⟩⟩ := sorted_result hnodup hknown
      · rw [if_neg (not_leftover hnodup hperm)]
        exact ⟨hknown, hcheck, hsound.plan hnodup hperm⟩
      · exact absurd hcycle hcheck

theorem cycle_iff_leftover {graph : Graph} (ha : addTasks tasks = .ok graph) :
    (∃ e, validateNoCycle graph = .error e) ↔ Leftover tasks graph := by
  have hadd := addTasks_result tasks
  rw [ha] at hadd
  obtain ⟨hknown, rfl⟩ := hadd
  have hcheck := validateNoCycle_result hnodup hknown
  obtain ⟨_, ⟨hperm, hacyclic⟩ | ⟨hleft, hcycle⟩⟩ := sorted_result hnodup hknown
  · refine ⟨?_, fun h => absurd h (not_leftover hnodup hperm)⟩
    rintro ⟨e, he⟩
    rw [he] at hcheck
    exact absurd hcheck.1 hacyclic
  · refine ⟨fun _ => hleft, fun _ => ?_⟩
    cases hv : validateNoCycle (graphOf tasks) with
    | ok u =>
      rw [hv] at hcheck
      exact absurd hcycle hcheck
    | error e => exact ⟨e, rfl⟩

end Plans

theorem unknown_of_perm {tasks tasks' : List Task} (hp : tasks'.Perm tasks) (h : Unknown tasks') :
    Unknown tasks := by
  obtain ⟨task, hmem, dep, hdep, hnot⟩ := h
  exact ⟨task, hp.mem_iff.mp hmem, dep, hdep, fun hin => hnot ((hp.map Task.id).mem_iff.mpr hin)⟩

theorem cyclic_of_perm {tasks tasks' : List Task} (hp : tasks'.Perm tasks) (h : Cyclic tasks') :
    Cyclic tasks := by
  have hdepends : DependsOn tasks' = DependsOn tasks := by
    funext a b
    simp only [DependsOn, hp.mem_iff]
  rwa [Cyclic, ← hdepends]

/-- **The plan**: an error of the one class exactly where a dependency is unknown, of the other
exactly where else there is a cycle, on which the two checks agree; and otherwise the greedy order,
the same for every order of the tasks. -/
theorem topologicalSort_correct {tasks : List Task} (hnodup : (tasks.map Task.id).Nodup) :
    (match topologicalSort tasks with
      | .ok order => ¬ Unknown tasks ∧ ¬ Cyclic tasks ∧ Plan tasks order
      | .error e => Unknown tasks ∧ e.cls = executionGraphError ∨
          ¬ Unknown tasks ∧ Cyclic tasks ∧ e.cls = cycleDetectedError) ∧
    (∀ graph, addTasks tasks = .ok graph →
      ((∃ e, validateNoCycle graph = .error e) ↔ Leftover tasks graph)) ∧
    ∀ tasks' : List Task, tasks'.Perm tasks →
      (topologicalSort tasks').toOption = (topologicalSort tasks).toOption := by
  refine ⟨topologicalSort_result hnodup, fun graph ha => cycle_iff_leftover hnodup ha, ?_⟩
  intro tasks' hp
  have hr := topologicalSort_result hnodup
  have hr' := topologicalSort_result ((hp.map Task.id).nodup_iff.mpr hnodup)
  -- one has a plan exactly where the other does
  have hnot : ∀ {ts ts' : List Task} {e : Exn}, ts'.Perm ts →
      (Unknown ts' ∧ e.cls = executionGraphError ∨
        ¬ Unknown ts' ∧ Cyclic ts' ∧ e.cls = cycleDetectedError) →
      ¬ (¬ Unknown ts ∧ ¬ Cyclic ts) := by
    rintro ts ts' e hp (⟨hunknown, _⟩ | ⟨_, hcyclic, _⟩) ⟨hknown, hacyclic⟩
    · exact hknown (unknown_of_perm hp hunknown)
    · exact hacyclic (cyclic_of_perm hp hcyclic)
  cases ho : topologicalSort tasks with
  | ok order =>
    rw [ho] at hr
    cases ho' : topologicalSort tasks' with
    | ok order' =>
      rw [ho'] at hr'
      exact congrArg some (hr.2.2.unique hnodup hr'.2.2 hp).symm
    | error e =>
      rw [ho'] at hr'
      exact absurd ⟨hr.1, hr.2.1⟩ (hnot hp hr')
  | error e =>
    rw [ho] at hr
    cases ho' : topologicalSort tasks' with
    | ok order' =>
      rw [ho'] at hr'
      exact absurd ⟨hr'.1, hr'.2.1⟩ (hnot hp.symm hr)
    | error e' => rfl

/-- Two tasks that depend on one, and one that depends on both and lists one of them twice. -/
def diamond : List Task :=
  [⟨"d", ["b", "c", "b"], Priority.CRITICAL⟩, ⟨"b", ["a"], Priority.LOW⟩,
    ⟨"c", ["a"], Priority.HIGH⟩, ⟨"a", [], Priority.NORMAL⟩]

theorem topologicalSort_correct_diamond :
    (match topologicalSort diamond with
      | .ok order => ¬ Unknown diamond ∧ ¬ Cyclic diamond ∧ Plan diamond order
      | .error e => Unknown diamond ∧ e.cls = executionGraphError ∨
          ¬ Unknown diamond ∧ Cyclic diamond ∧ e.cls = cycleDetectedError) ∧
    (∀ graph, addTasks diamond = .ok graph →
      ((∃ e, validateNoCycle graph = .error e) ↔ Leftover diamond graph)) ∧
    ∀ tasks' : List Task, tasks'.Perm diamond →
      (topologicalSort tasks').toOption = (topologicalSort diamond).toOption :=
  topologicalSort_correct (show (diamond.map Task.id).Nodup by decide)

example : ((topologicalSort diamond).toOption.getD []).map Task.id = ["a", "c", "b", "d"] := by
  decide +kernel

end ExecutionGraph

end IraOS
