import IraOS.Planner.Manager
import IraOS.Planner.Plan

/-!
# A plan, by the calls that came before

What `build_plan` does is decided by the history of the calls: **a goal has a plan just if it was
created, not as cancelled nor cancelled since, and the tasks created for it list no dependency but
one another and no cycle** (`plans_by_history`). Then one record is written and only after it is
there is the plan announced; otherwise nothing is written, and the failure is announced.

The state a task is in plays no part: a task that is done is planned like any other.

## One call

`buildPlan_cases` says what a call comes to, by what there is when it is made: the goals, the tasks,
the memory. It is refused, and that is announced; or it is made, and then either its record has an
id that is taken already, which raises, or it is written and announced, unless the bus has raised at
the event of the record. What the record of a plan says is always such as the memory accepts.

## The history

`GoalsAfter` and `TasksAfter` read the two managers off the calls: the first call that creates an id
counts, and a goal is cancelled when a call has cancelled it since. Of the tasks only what a plan
looks at is compared, as the calls that move a task change nothing of that. Calls that raise are
part of a history and change nothing.
-/

set_option autoImplicit false

namespace IraOS

open Lib
open ExecutionGraph (Unknown Cyclic Plan)

/-! ## Making a plan -/

theorem TaskManager.ids_nodup (m : TaskManager) :
    (m.list.map fun task => task.id).Nodup := by
  have hkeys : m.list.map (fun task => task.id) = m.tasks.keys := by
    unfold TaskManager.list Dict.values Dict.keys
    rw [List.map_map]
    refine List.map_congr_left ?_
    intro e he
    exact m.own e.1 e.2 (Dict.get?_of_mem_entries he)
  rw [hkeys]
  exact m.tasks.keys_nodup

theorem PlannerState.tasksOf_nodup (s : PlannerState) (goalId : String) :
    ((s.tasksOf goalId).map Task.id).Nodup := by
  unfold PlannerState.tasksOf
  rw [List.map_map]
  exact s.tasks.ids_nodup.sublist (List.filter_sublist.map _)

def Orderable (tasks : List Task) : Prop := tasks ≠ [] ∧ ¬ Unknown tasks ∧ ¬ Cyclic tasks

theorem createPlan_result {tasks : List Task} (goal : Goal) (now : Int)
    (hnodup : (tasks.map Task.id).Nodup) :
    match RuleBasedPlanner.createPlan goal tasks now with
    | .ok plan => ¬ Unknown tasks ∧ ¬ Cyclic tasks ∧ plan.goal = goal ∧
        Plan tasks plan.tasks ∧ plan.estimatedSteps = plan.tasks.length ∧ plan.createdAt = now
    | .error e => (Unknown tasks ∨ Cyclic tasks) ∧ e.cls.isPlannerError = true := by
  have hsort := ExecutionGraph.topologicalSort_result hnodup
  cases hb : ExecutionGraph.build tasks with
  | error e =>
    have hs : ExecutionGraph.topologicalSort tasks = .error e := by
      rw [ExecutionGraph.topologicalSort, hb]
      rfl
    have hc : RuleBasedPlanner.createPlan goal tasks now = .error e := by
      rw [RuleBasedPlanner.createPlan, hb]
      rfl
    rw [hs] at hsort
    rw [hc]
    rcases hsort with ⟨hunknown, hcls⟩ | ⟨_, hcyclic, hcls⟩
    · exact ⟨Or.inl hunknown, by rw [hcls]; decide⟩
    · exact ⟨Or.inr hcyclic, by rw [hcls]; decide⟩
  | ok graph =>
    have hc : RuleBasedPlanner.createPlan goal tasks now =
        (ExecutionGraph.topologicalSort tasks).map fun order =>
          ⟨goal, order, graph, order.length, now⟩ := by
      rw [RuleBasedPlanner.createPlan, hb]
      rfl
    rw [hc]
    cases hs : ExecutionGraph.topologicalSort tasks with
    | ok order =>
      rw [hs] at hsort
      exact ⟨hsort.1, hsort.2.1, rfl, hsort.2.2, rfl, rfl⟩
    | error e =>
      rw [hs] at hsort
      rcases hsort with ⟨hunknown, hcls⟩ | ⟨_, hcyclic, hcls⟩
      · exact ⟨Or.inl hunknown, by rw [hcls]; decide⟩
      · exact ⟨Or.inr hcyclic, by rw [hcls]; decide⟩

theorem Planner.plan_result {tasks : List Task} (goal : Goal) (now : Int)
    (hnodup : (tasks.map Task.id).Nodup) :
    match Planner.plan goal tasks now with
    | .ok plan => goal.state ≠ .CANCELLED ∧ Orderable tasks ∧ plan.goal = goal ∧
        Plan tasks plan.tasks ∧ plan.estimatedSteps = plan.tasks.length ∧ plan.createdAt = now
    | .error e => ¬ (goal.state ≠ .CANCELLED ∧ Orderable tasks) ∧ e.cls.isPlannerError = true := by
  unfold Planner.plan
  by_cases hlive : goal.state = .CANCELLED
  · rw [if_pos hlive]
    exact ⟨fun h => h.1 hlive, by decide⟩
  · rw [if_neg hlive]
    by_cases hempty : tasks.isEmpty = true
    · rw [if_pos hempty]
      exact ⟨fun h => h.2.1 (List.isEmpty_iff.mp hempty), by decide⟩
    · rw [if_neg hempty]
      have hcreate := createPlan_result goal now hnodup
      cases hc : RuleBasedPlanner.createPlan goal tasks now with
      | ok plan =>
        rw [hc] at hcreate
        obtain ⟨hknown, hacyclic, hrest⟩ := hcreate
        exact ⟨hlive, ⟨fun hnil => hempty (List.isEmpty_iff.mpr hnil), hknown, hacyclic⟩, hrest⟩
      | error e =>
        rw [hc] at hcreate
        refine ⟨?_, hcreate.2⟩
        rintro ⟨-, -, hknown, hacyclic⟩
        rcases hcreate.1 with h | h
        · exact hknown h
        · exact hacyclic h

def PlannerState.Plannable (s : PlannerState) (goalId : String) : Prop :=
  ∃ goal, s.goals.goals.get? goalId = some goal ∧ goal.state ≠ .CANCELLED ∧
    Orderable (s.tasksOf goalId)

theorem PlannerState.plan_result (s : PlannerState) (goalId : String) (now : Int) :
    match s.plan goalId now with
    | .ok (goal, plan) => s.Plannable goalId ∧ s.goals.goals.get? goalId = some goal ∧
        plan.goal = goal ∧ Plan (s.tasksOf goalId) plan.tasks ∧
        plan.estimatedSteps = plan.tasks.length ∧ plan.createdAt = now
    | .error e => ¬ s.Plannable goalId ∧ e.cls.isPlannerError = true := by
  unfold PlannerState.plan GoalManager.get
  cases hgoal : s.goals.goals.get? goalId with
  | none =>
    refine ⟨?_, rfl⟩
    rintro ⟨goal, hg, -⟩
    rw [hgoal] at hg
    cases hg
  | some goal =>
    have hplan := Planner.plan_result goal now (s.tasksOf_nodup goalId)
    simp only [bind, Except.bind]
    cases hp : Planner.plan goal (s.tasksOf goalId) now with
    | ok plan =>
      rw [hp] at hplan
      obtain ⟨hlive, htasks, hrest⟩ := hplan
      exact ⟨⟨goal, hgoal, hlive, htasks⟩, rfl, hrest⟩
    | error e =>
      rw [hp] at hplan
      refine ⟨?_, hplan.2⟩
      rintro ⟨g, hg, hlive, htasks⟩
      rw [hgoal, Option.some.injEq] at hg
      exact hplan.1 ⟨hg ▸ hlive, htasks⟩

/-! ## Its record -/

theorem serializableAll_strs (ids : List String) :
    PyValue.serializableAll (ids.map .str) = true := by
  induction ids with
  | nil => rfl
  | cons id ids ih =>
    rw [List.map_cons, PyValue.serializableAll, ih]
    rfl

theorem serializableEntries_lists (entries : List (String × List String)) :
    PyValue.serializableEntries (entries.map fun e => (e.1, .list (e.2.map .str))) = true := by
  induction entries with
  | nil => rfl
  | cons e entries ih =>
    rw [List.map_cons, PyValue.serializableEntries, ih, PyValue.serializableEntry,
      PyValue.serializable, serializableAll_strs]
    rfl

namespace PlannerManager

variable (m : PlannerManager) (s : PlannerState) (goalId uuid : String) (now : Int)

theorem recordData_check {goal : Goal} (plan : ExecutionPlan) (hid : goal.id = goalId) :
    (m.recordData goalId uuid goal plan now).check = .ok () := by
  have hplan : (planId goalId uuid).isEmpty = false := by
    unfold planId
    simp
  have howner : goalId.isEmpty = false := by
    rw [← hid]
    simpa using goal.idNotEmpty
  have htasks := serializableAll_strs (plan.tasks.map Task.id)
  rw [List.map_map] at htasks
  have hgraph := serializableEntries_lists plan.graph.entries
  have hcontent : (m.recordContent goalId plan).serializable = true := by
    unfold recordContent
    simp only [PyValue.serializable, PyValue.serializableEntries, PyValue.serializableEntry,
      Bool.and_true, Bool.true_and, Bool.and_eq_true]
    exact ⟨htasks, hgraph⟩
  unfold RecordData.check
  simp only [recordData, truthy_str, hplan, howner, hcontent]
  rfl

/-! ## The call -/

def answered {ε : Type} (bus : Option (ε → Except Exn Unit)) (event : ε) : Except Exn Unit :=
  match bus with
  | none => .ok ()
  | some answer => answer event

def said {ε : Type} (bus : Option (ε → Except Exn Unit)) (entry : ε → PlannerEntry)
    (event : ε) : List PlannerEntry :=
  match bus with
  | none => []
  | some _ => [entry event]

theorem publish_run {ε : Type} (bus : Option (ε → Except Exn Unit)) (entry : ε → PlannerEntry)
    (event : ε) : publish bus entry event s =
      ⟨answered bus event, s, said bus entry event⟩ := by
  cases bus <;> rfl

/-- Nothing is written, and the failure is announced. -/
def Refused (run : Run PlannerState Exn PlannerEntry PlanResult) : Prop :=
  ∃ text, run =
    ⟨(answered m.eventBus (.planFailed goalId text)).map fun _ =>
        { success := false, error := some text },
      s, said m.eventBus .planner (.planFailed goalId text)⟩

inductive Made (tasks : List Task) (run : Run PlannerState Exn PlannerEntry PlanResult) : Prop
  /-- Its record has the id of another, so that was all. -/
  | taken (there : s.memory.byId.contains (planId goalId uuid) = true)
      (state : run.state = s) (trace : run.trace = [])
      (raised : ∃ e, run.result = .error e ∧ e.cls = .duplicateMemory)
  /-- It was recorded; and announced, unless the announcement of the record already raised. -/
  | written (goal : Goal) (plan : ExecutionPlan) (record : MemoryRecord)
      (goal_found : s.goals.goals.get? goalId = some goal) (plan_goal : plan.goal = goal)
      (planned : Plan tasks plan.tasks) (steps : plan.estimatedSteps = plan.tasks.length)
      (free : s.memory.byId.contains (planId goalId uuid) = false)
      (recorded : record.toRecordData = m.recordData goalId uuid goal plan now)
      (state : run.state = { s with memory := s.memory.add record })
      (trace : run.trace = said m.memoryBus .memory (.about .memoryStored record) ++
        if (answered m.memoryBus (.about .memoryStored record)).isOk then
          said m.eventBus .planner (.planCreated goalId record.id plan.estimatedSteps)
        else [])
      (result : run.result = do
        answered m.memoryBus (.about .memoryStored record)
        answered m.eventBus (.planCreated goalId record.id plan.estimatedSteps)
        pure { success := true, plan := some plan })

theorem remember_run (record : MemoryRecord) :
    m.remember record s =
      if s.memory.byId.contains record.id = true then
        ⟨.error ⟨.duplicateMemory,
          lit ("Memory record with id '" ++ record.id ++ "' already exists.")⟩, s, []⟩
      else
        ⟨answered m.memoryBus (.about .memoryStored record),
          { s with memory := s.memory.add record },
          said m.memoryBus .memory (.about .memoryStored record)⟩ := by
  unfold remember
  rw [MemoryStore.add_str, Act.run_bind, Act.run_zoom, Act.bind_get]
  by_cases hthere : s.memory.byId.contains record.id = true
  · rw [if_pos hthere, if_pos hthere]
    rfl
  · rw [if_neg hthere, if_neg hthere]
    simp only [Act.run_modify, publish_run, List.nil_append]

theorem recordData_build (goalId uuid : String) (now : Int) {goal : Goal} (plan : ExecutionPlan)
    (hid : goal.id = goalId) : ∃ record,
      MemoryRecord.build (m.recordData goalId uuid goal plan now) = .ok record := by
  have hcheck := recordData_check m goalId uuid now plan hid
  unfold MemoryRecord.build
  split
  · next h => exact ⟨_, rfl⟩
  · next h =>
    rw [hcheck] at h
    cases h

theorem planMade_made {goal : Goal} {plan : ExecutionPlan} {tasks : List Task}
    (hgoal : s.goals.goals.get? goalId = some goal) (hplan : plan.goal = goal)
    (hplanned : Plan tasks plan.tasks) (hsteps : plan.estimatedSteps = plan.tasks.length) :
    m.Made s goalId uuid now tasks (m.planMade goalId uuid goal plan now s) := by
  obtain ⟨record, hrecord⟩ :=
    recordData_build m goalId uuid now plan (s.goals.own goalId goal hgoal)
  have hdata := MemoryRecord.build_ok hrecord
  have hrid : record.id = planId goalId uuid := by
    rw [hdata]
    rfl
  have hrun := m.remember_run s record
  have hannounce : ∀ s', (do
      publish m.eventBus .planner (.planCreated goalId record.id plan.estimatedSteps)
      pure { success := true, plan := some plan } : PlannerAct PlanResult) s' =
      ⟨(answered m.eventBus (.planCreated goalId record.id plan.estimatedSteps)).map fun _ =>
          { success := true, plan := some plan }, s',
        said m.eventBus .planner (.planCreated goalId record.id plan.estimatedSteps)⟩ := by
    intro s'
    rw [Act.run_bind_pure, publish_run]
  unfold planMade
  rw [hrecord, Act.bind_ofExcept]
  rw [hrid] at hrun
  by_cases hthere : s.memory.byId.contains (planId goalId uuid) = true
  · rw [if_pos hthere] at hrun
    rw [Act.run_bind_of_error hrun]
    exact .taken hthere rfl rfl ⟨_, rfl, rfl⟩
  · rw [if_neg hthere] at hrun
    have hfree := Bool.eq_false_of_not_eq_true hthere
    cases hstored : answered m.memoryBus (.about .memoryStored record) with
    | error e =>
      rw [hstored] at hrun
      rw [Act.run_bind_of_error hrun]
      refine .written goal plan record hgoal hplan hplanned hsteps hfree hdata rfl ?_ ?_
      · rw [hstored]
        exact (List.append_nil _).symm
      · rw [hstored]
        rfl
    | ok u =>
      rw [hstored] at hrun
      rw [Act.run_bind_of_ok hrun, hannounce]
      refine .written goal plan record hgoal hplan hplanned hsteps hfree hdata rfl ?_ ?_
      · rw [hstored]
        rfl
      · rw [hstored]
        cases answered m.eventBus (.planCreated goalId record.id plan.estimatedSteps) <;> rfl

theorem buildPlan_cases :
    (¬ s.Plannable goalId ∧ m.Refused s goalId (m.buildPlan goalId uuid now s)) ∨
      s.Plannable goalId ∧
        m.Made s goalId uuid now (s.tasksOf goalId) (m.buildPlan goalId uuid now s) := by
  have hplan := s.plan_result goalId now
  unfold buildPlan
  rw [Act.bind_get]
  cases hp : s.plan goalId now with
  | error exc =>
    rw [hp] at hplan
    refine Or.inl ⟨hplan.1, exc.message, ?_⟩
    simp only [hplan.2, if_true]
    unfold planFailed
    rw [Act.run_bind_pure, publish_run]
  | ok made =>
    obtain ⟨goal, plan⟩ := made
    rw [hp] at hplan
    obtain ⟨hplannable, hgoal, hplangoal, hplanned, hsteps, -⟩ := hplan
    exact Or.inr ⟨hplannable, m.planMade_made s goalId uuid now hgoal hplangoal hplanned hsteps⟩

/-! ## What the calls so far have made of the goals and the tasks -/

/-- The first call to create a goal of this id. -/
def Created (calls : List Call) (goal : Goal) : Prop :=
  ∃ pre post, calls = pre ++ .createGoal goal :: post ∧
    ∀ g, Call.createGoal g ∈ pre → g.id ≠ goal.id

/-- It has been cancelled since it was created. -/
def Cancelled (calls : List Call) (goalId : String) : Prop :=
  ∃ pre now post, calls = pre ++ .cancelGoal goalId now :: post ∧
    ∃ goal, Call.createGoal goal ∈ pre ∧ goal.id = goalId

/-- The tasks created, of those with one id the first. -/
def createdTasks (calls : List Call) : List PlannerTask :=
  calls.foldl (fun created call =>
    match call with
    | .createTask task => if task.id ∈ created.map (·.id) then created else created ++ [task]
    | _ => created) []

/-- The tasks created for the goal. -/
def tasksFor (calls : List Call) (goalId : String) : List Task :=
  ((createdTasks calls).filter fun task => task.goalId = goalId).map PlannerTask.toTask

/-- The goal can be planned, going by the calls alone. -/
def CanPlan (calls : List Call) (goalId : String) : Prop :=
  (∃ goal, Created calls goal ∧ goal.id = goalId ∧ goal.state ≠ .CANCELLED) ∧
    ¬ Cancelled calls goalId ∧ Orderable (tasksFor calls goalId)

/-! ## One call more -/

section Snoc

variable {m} {calls : List Call} {call : Call}

theorem Created.snoc {goal : Goal} (h : Created calls goal) : Created (calls ++ [call]) goal := by
  obtain ⟨pre, post, rfl, hfirst⟩ := h
  exact ⟨pre, post ++ [call], by simp, hfirst⟩

theorem Created.mem {goal : Goal} (h : Created calls goal) : Call.createGoal goal ∈ calls := by
  obtain ⟨pre, post, rfl, -⟩ := h
  simp

theorem Created.unique {goal goal' : Goal} (h : Created calls goal) (h' : Created calls goal')
    (hid : goal.id = goal'.id) : goal = goal' := by
  obtain ⟨pre, post, rfl, hfirst⟩ := h
  obtain ⟨pre', post', heq, hfirst'⟩ := h'
  rcases List.append_eq_append_iff.mp heq with ⟨mid, rfl, hmid⟩ | ⟨mid, rfl, hmid⟩
  · cases mid with
    | nil =>
      rw [List.nil_append, List.cons.injEq, Call.createGoal.injEq] at hmid
      exact hmid.1
    | cons c mid =>
      rw [List.cons_append, List.cons.injEq] at hmid
      refine absurd hid (hfirst' goal ?_)
      simp [hmid.1]
  · cases mid with
    | nil =>
      rw [List.nil_append, List.cons.injEq, Call.createGoal.injEq] at hmid
      exact hmid.1.symm
    | cons c mid =>
      rw [List.cons_append, List.cons.injEq] at hmid
      refine absurd hid.symm (hfirst goal' ?_)
      simp [hmid.1]

theorem cancelled_snoc {goalId : String} : Cancelled (calls ++ [call]) goalId ↔
    Cancelled calls goalId ∨ (∃ now, call = .cancelGoal goalId now) ∧
      ∃ goal, Call.createGoal goal ∈ calls ∧ goal.id = goalId := by
  constructor
  · rintro ⟨pre, now, post, heq, hcreated⟩
    rcases List.eq_nil_or_concat post with rfl | ⟨post, last, rfl⟩
    · obtain ⟨rfl, hlast⟩ := List.append_inj' heq rfl
      injection hlast with hlast
      exact Or.inr ⟨⟨now, hlast⟩, hcreated⟩
    · rw [List.concat_eq_append, ← List.cons_append, ← List.append_assoc] at heq
      obtain ⟨rfl, -⟩ := List.append_inj' heq rfl
      exact Or.inl ⟨pre, now, post, rfl, hcreated⟩
  · rintro (⟨pre, now, post, rfl, hcreated⟩ | ⟨⟨now, rfl⟩, hcreated⟩)
    · exact ⟨pre, now, post ++ [call], by simp, hcreated⟩
    · exact ⟨calls, now, [], rfl, hcreated⟩

theorem cancelled_snoc_of_ne {goalId : String} (h : ∀ now, call ≠ .cancelGoal goalId now) :
    Cancelled (calls ++ [call]) goalId ↔ Cancelled calls goalId := by
  rw [cancelled_snoc]
  exact or_iff_left fun hcall => hcall.1.elim h

theorem after_append (calls more : List Call) (s : PlannerState) :
    m.after (calls ++ more) s = m.after more (m.after calls s) := by
  induction calls generalizing s with
  | nil => rfl
  | cons call calls ih => exact ih _

structure GoalsAfter (calls : List Call) (goals : GoalManager) : Prop where
  absent : ∀ id, goals.goals.get? id = none → ∀ g, Call.createGoal g ∈ calls → g.id ≠ id
  present : ∀ id goal, goals.goals.get? id = some goal → ∃ g, Created calls g ∧ g.id = id ∧
    (goal.state = .CANCELLED ↔ g.state = .CANCELLED ∨ Cancelled calls id)

namespace GoalsAfter

variable {goals : GoalManager}

/-- A call that finds nothing to do for a goal. -/
theorem unchanged (h : GoalsAfter calls goals)
    (hcreate : ∀ goal, call = .createGoal goal → goals.goals.get? goal.id ≠ none)
    (hcancel : ∀ id now, call = .cancelGoal id now → goals.goals.get? id = none) :
    GoalsAfter (calls ++ [call]) goals where
  absent id hnone g hg := by
    rcases List.mem_append.mp hg with hg | hg
    · exact h.absent id hnone g hg
    · rintro rfl
      exact hcreate g (List.mem_singleton.mp hg).symm hnone
  present id goal hgoal := by
    obtain ⟨g, hcreated, hid, hstate⟩ := h.present id goal hgoal
    refine ⟨g, hcreated.snoc, hid, ?_⟩
    rw [hstate, cancelled_snoc_of_ne]
    intro now hcall
    rw [hcancel id now hcall] at hgoal
    cases hgoal

theorem created {goal : Goal} (h : GoalsAfter calls goals)
    (hnew : goals.goals.get? goal.id = none) :
    GoalsAfter (calls ++ [.createGoal goal]) (goals.put goal) where
  absent id hnone g hg := by
    have hput : (goals.goals.set goal.id goal).get? id = none := hnone
    rw [Dict.get?_set] at hput
    split at hput
    · cases hput
    · next hne =>
      rcases List.mem_append.mp hg with hg | hg
      · exact h.absent id hput g hg
      · cases List.mem_singleton.mp hg
        exact Ne.symm hne
  present id g hg := by
    have hput : (goals.goals.set goal.id goal).get? id = some g := hg
    have hnone := h.absent goal.id hnew
    rw [Dict.get?_set] at hput
    split at hput
    · next heq =>
      cases hput
      refine ⟨goal, ⟨calls, [], rfl, hnone⟩, heq.symm, ?_⟩
      -- it cannot have been cancelled before there was any goal of the id
      have hnot : ¬ Cancelled (calls ++ [.createGoal goal]) id := by
        rw [cancelled_snoc_of_ne (by simp)]
        rintro ⟨pre, now, post, rfl, g, hmem, hid⟩
        exact hnone g (List.mem_append_left _ hmem) (hid.trans heq)
      exact ⟨Or.inl, fun h => h.resolve_right hnot⟩
    · obtain ⟨first, hcreated, hid, hstate⟩ := h.present id g hput
      refine ⟨first, hcreated.snoc, hid, ?_⟩
      rw [hstate, cancelled_snoc_of_ne]
      intro now hcall
      cases hcall

theorem cancelled {goalId : String} {now : Int} {current : Goal} (h : GoalsAfter calls goals)
    (hcurrent : goals.goals.get? goalId = some current) :
    GoalsAfter (calls ++ [.cancelGoal goalId now])
      (goals.put (current.withState .CANCELLED now)) := by
  have hown : current.id = goalId := goals.own goalId current hcurrent
  have hget : ∀ id, (goals.put (current.withState .CANCELLED now)).goals.get? id =
      if id = goalId then some (current.withState .CANCELLED now) else goals.goals.get? id := by
    intro id
    rw [← hown]
    exact Dict.get?_set ..
  constructor
  · intro id hnone g hg
    rw [hget] at hnone
    split at hnone
    · cases hnone
    · rcases List.mem_append.mp hg with hg | hg
      · exact h.absent id hnone g hg
      · cases List.mem_singleton.mp hg
  · intro id goal hgoal
    rw [hget] at hgoal
    split at hgoal
    · next heq =>
      cases hgoal
      obtain ⟨first, hcreated, hid, -⟩ := h.present goalId current hcurrent
      refine ⟨first, hcreated.snoc, hid.trans heq.symm, ?_⟩
      have hnow : Cancelled (calls ++ [.cancelGoal goalId now]) id := by
        rw [cancelled_snoc, heq]
        exact Or.inr ⟨⟨now, rfl⟩, first, hcreated.mem, hid⟩
      exact iff_of_true rfl (Or.inr hnow)
    · next hne =>
      obtain ⟨first, hcreated, hid, hstate⟩ := h.present id goal hgoal
      refine ⟨first, hcreated.snoc, hid, ?_⟩
      rw [hstate, cancelled_snoc_of_ne]
      intro now hcall
      cases hcall
      exact hne rfl

end GoalsAfter

def seen (task : PlannerTask) : Task × String := (task.toTask, task.goalId)

/-- The tasks there are after these calls. -/
def TasksAfter (calls : List Call) (tasks : TaskManager) : Prop :=
  tasks.list.map seen = (createdTasks calls).map seen

theorem createdTasks_snoc : createdTasks (calls ++ [call]) =
    match call with
    | .createTask task =>
      if task.id ∈ (createdTasks calls).map (·.id) then createdTasks calls
      else createdTasks calls ++ [task]
    | _ => createdTasks calls := by
  unfold createdTasks
  rw [List.foldl_append]
  rfl

namespace TasksAfter

variable {tasks : TaskManager}

theorem ids (h : TasksAfter calls tasks) :
    tasks.list.map (·.id) = (createdTasks calls).map (·.id) := by
  have hids := congrArg (List.map fun x : Task × String => x.1.id) h
  rw [List.map_map, List.map_map] at hids
  exact hids

theorem contains_iff (h : TasksAfter calls tasks) (id : String) :
    tasks.tasks.contains id = true ↔ id ∈ (createdTasks calls).map (·.id) := by
  rw [← h.ids, Dict.contains_iff, List.mem_map]
  constructor
  · rintro ⟨task, htask⟩
    exact ⟨task, Dict.mem_values_iff.mpr ⟨id, htask⟩, tasks.own id task htask⟩
  · rintro ⟨task, hmem, rfl⟩
    obtain ⟨k, hk⟩ := Dict.mem_values_iff.mp hmem
    exact ⟨task, (tasks.own k task hk).symm ▸ hk⟩

theorem tasksOf_eq (h : TasksAfter calls tasks) (goals : GoalManager) (memory : MemoryIndex)
    (goalId : String) :
    PlannerState.tasksOf ⟨goals, tasks, memory⟩ goalId = tasksFor calls goalId := by
  have hview : ∀ ts : List PlannerTask,
      (ts.filter fun task => task.goalId = goalId).map PlannerTask.toTask =
        ((ts.map seen).filter fun x => x.2 = goalId).map Prod.fst := by
    intro ts
    rw [List.filter_map, List.map_map]
    rfl
  show (tasks.list.filter _).map _ = ((createdTasks calls).filter _).map _
  rw [hview, hview, h]

theorem created {task : PlannerTask} (h : TasksAfter calls tasks)
    (hnew : tasks.tasks.contains task.id = false) :
    TasksAfter (calls ++ [.createTask task]) (tasks.put task) := by
  have hnot : task.id ∉ (createdTasks calls).map (·.id) := by
    intro hin
    rw [(h.contains_iff task.id).mpr hin] at hnew
    cases hnew
  have hnone : tasks.tasks.get? task.id = none := by
    simpa [Dict.contains] using hnew
  unfold TasksAfter
  rw [createdTasks_snoc]
  simp only [if_neg hnot]
  show (tasks.tasks.set task.id task).values.map seen = _
  rw [Dict.values_set_of_absent hnone, List.map_append, List.map_append]
  exact congrArg (· ++ _) h

theorem moved {taskId : String} {task : PlannerTask} (h : TasksAfter calls tasks)
    (state : TaskState) (now : Int) (htask : tasks.tasks.get? taskId = some task) :
    TasksAfter calls (tasks.put (task.withState state now)) := by
  have hown : task.id = taskId := tasks.own taskId task htask
  unfold TasksAfter
  rw [← h]
  rw [← hown] at htask
  exact Dict.map_values_set htask rfl

theorem unchanged (h : TasksAfter calls tasks) (hcall : ∀ task, call ≠ .createTask task) :
    TasksAfter (calls ++ [call]) tasks := by
  unfold TasksAfter
  rw [createdTasks_snoc]
  cases call with
  | createTask task => exact absurd rfl (hcall task)
  | createGoal goal => exact h
  | cancelGoal goalId now => exact h
  | buildPlan goalId uuid now => exact h
  | moveTask state taskId now => exact h
  | memory call => exact h

end TasksAfter

end Snoc


/-- What there is, read off the calls: the goals and the tasks. The memory is not, as others write
to it, and what a plan needs of it is one id. -/
structure After (calls : List Call) (s : PlannerState) : Prop where
  goals : GoalsAfter calls s.goals
  tasks : TasksAfter calls s.tasks

section Runs

variable {m} {s} {calls : List Call}

theorem createGoal_state (goal : Goal) : (m.createGoal goal s).state =
    if s.goals.goals.contains goal.id = true then s else { s with goals := s.goals.put goal } := by
  unfold createGoal
  rw [Act.bind_get]
  unfold GoalManager.create
  by_cases hthere : s.goals.goals.contains goal.id = true
  · rw [if_pos hthere, if_pos hthere]
    rfl
  · rw [if_neg hthere, if_neg hthere, Act.bind_ofExcept, Act.bind_modify, Act.run_bind_pure,
      publish_run]

theorem cancelGoal_state (goalId : String) (now : Int) : (cancelGoal goalId now s).state =
    match s.goals.goals.get? goalId with
    | none => s
    | some current => { s with goals := s.goals.put (current.withState .CANCELLED now) } := by
  unfold cancelGoal GoalManager.cancel GoalManager.get
  rw [Act.bind_get]
  cases s.goals.goals.get? goalId <;> rfl

theorem buildPlan_keeps (goalId uuid : String) (now : Int) :
    (m.buildPlan goalId uuid now s).state.goals = s.goals ∧
      (m.buildPlan goalId uuid now s).state.tasks = s.tasks := by
  rcases m.buildPlan_cases s goalId uuid now with ⟨-, text, hrun⟩ | ⟨-, hmade⟩
  · rw [hrun]
    exact ⟨rfl, rfl⟩
  · cases hmade with
    | taken _ hstate =>
      rw [hstate]
      exact ⟨rfl, rfl⟩
    | written _ _ _ _ _ _ _ _ _ hstate =>
      rw [hstate]
      exact ⟨rfl, rfl⟩

theorem After.other (h : After calls s) {call : Call} {s' : PlannerState}
    (hgoals : s'.goals = s.goals) (htasks : s'.tasks = s.tasks)
    (hcreate : ∀ goal, call ≠ .createGoal goal) (hcancel : ∀ id now, call ≠ .cancelGoal id now)
    (hnew : ∀ task, call ≠ .createTask task) : After (calls ++ [call]) s' where
  goals := by
    rw [hgoals]
    exact h.goals.unchanged (fun g hg => absurd hg (hcreate g))
      (fun id now hc => absurd hc (hcancel id now))
  tasks := by
    rw [htasks]
    exact h.tasks.unchanged hnew

theorem After.step (h : After calls s) (call : Call) :
    After (calls ++ [call]) (call.run m s).state := by
  cases call with
  | createGoal goal =>
    have hstate : ((Call.createGoal goal).run m s).state = (m.createGoal goal s).state :=
      congrArg Run.state (Act.run_bind_pure _ _ s)
    rw [hstate, createGoal_state]
    have htasks : TasksAfter (calls ++ [.createGoal goal]) s.tasks := h.tasks.unchanged (by simp)
    split
    · next hthere =>
      refine ⟨h.goals.unchanged ?_ ?_, htasks⟩
      · intro g hg
        cases hg
        obtain ⟨g', hg'⟩ := Dict.contains_iff.mp hthere
        rw [hg']
        exact Option.some_ne_none g'
      · intro id now hc
        cases hc
    · next hnot =>
      have hnone : s.goals.goals.get? goal.id = none := by
        simpa [Dict.contains] using hnot
      exact ⟨h.goals.created hnone, htasks⟩
  | cancelGoal goalId now =>
    have hstate : ((Call.cancelGoal goalId now).run m s).state =
        (cancelGoal goalId now s).state :=
      congrArg Run.state (Act.run_bind_pure _ _ s)
    rw [hstate, cancelGoal_state]
    have htasks : TasksAfter (calls ++ [.cancelGoal goalId now]) s.tasks :=
      h.tasks.unchanged (by simp)
    cases hg : s.goals.goals.get? goalId with
    | none =>
      refine ⟨h.goals.unchanged ?_ ?_, htasks⟩
      · intro g hc
        cases hc
      · intro id now hc
        cases hc
        exact hg
    | some current => exact ⟨h.goals.cancelled hg, htasks⟩
  | buildPlan goalId uuid now =>
    have hstate : ((Call.buildPlan goalId uuid now).run m s).state =
        (m.buildPlan goalId uuid now s).state :=
      congrArg Run.state (Act.run_bind_pure _ _ s)
    obtain ⟨hgoals, htasks⟩ := buildPlan_keeps (m := m) (s := s) goalId uuid now
    rw [hstate]
    exact h.other hgoals htasks (by simp) (by simp) (by simp)
  | createTask task =>
    have hgoals : GoalsAfter (calls ++ [.createTask task]) s.goals :=
      h.goals.unchanged (by simp) (by simp)
    show After _ (PlannerManager.createTask task s).state
    unfold PlannerManager.createTask TaskManager.create
    rw [Act.bind_get]
    by_cases hthere : s.tasks.tasks.contains task.id = true
    · rw [if_pos hthere]
      refine ⟨hgoals, ?_⟩
      have hin := (h.tasks.contains_iff task.id).mp hthere
      unfold TasksAfter
      rw [createdTasks_snoc]
      simp only [if_pos hin]
      exact h.tasks
    · rw [if_neg hthere]
      exact ⟨hgoals, h.tasks.created (Bool.eq_false_of_not_eq_true hthere)⟩
  | moveTask state taskId now =>
    have hgoals : GoalsAfter (calls ++ [.moveTask state taskId now]) s.goals :=
      h.goals.unchanged (by simp) (by simp)
    show After _ (PlannerManager.moveTask state taskId now s).state
    unfold PlannerManager.moveTask TaskManager.move TaskManager.get
    rw [Act.bind_get]
    cases ht : s.tasks.tasks.get? taskId with
    | none => exact ⟨hgoals, h.tasks.unchanged (by simp)⟩
    | some task => exact ⟨hgoals, (h.tasks.moved state now ht).unchanged (by simp)⟩
  | memory call => exact h.other rfl rfl (by simp) (by simp) (by simp)

theorem after_after (calls : List Call) : After calls (m.after calls {}) := by
  induction calls using List.reverseRecOn with
  | nil =>
    refine ⟨⟨?_, ?_⟩, rfl⟩
    · intro id _ g hg
      cases hg
    · intro id goal hgoal
      cases hgoal
  | append_singleton calls call ih =>
    rw [after_append]
    exact ih.step call

theorem After.plannable_iff (h : After calls s) (goalId : String) :
    s.Plannable goalId ↔ CanPlan calls goalId := by
  unfold PlannerState.Plannable CanPlan
  rw [h.tasks.tasksOf_eq]
  constructor
  · rintro ⟨goal, hgoal, hlive, htasks⟩
    obtain ⟨first, hcreated, hid, hstate⟩ := h.goals.present goalId goal hgoal
    rw [ne_eq, hstate, not_or] at hlive
    exact ⟨⟨first, hcreated, hid, hlive.1⟩, hlive.2, htasks⟩
  · rintro ⟨⟨first, hcreated, hid, hstart⟩, hnot, htasks⟩
    cases hg : s.goals.goals.get? goalId with
    | none => exact absurd hid (h.goals.absent goalId hg first hcreated.mem)
    | some goal =>
      obtain ⟨first', hcreated', hid', hstate⟩ := h.goals.present goalId goal hg
      obtain rfl := hcreated.unique hcreated' (hid.trans hid'.symm)
      refine ⟨goal, rfl, ?_, htasks⟩
      rw [ne_eq, hstate, not_or]
      exact ⟨hstart, hnot⟩

end Runs

/-- **After any calls**, planning a goal is refused where the calls do not allow it, and otherwise
the one plan of the tasks created for it is made. -/
theorem plans_by_history (m : PlannerManager) (calls : List Call) (goalId uuid : String)
    (now : Int) :
    let s := m.after calls {}
    (¬ CanPlan calls goalId → m.Refused s goalId (m.buildPlan goalId uuid now s)) ∧
      (CanPlan calls goalId →
        m.Made s goalId uuid now (tasksFor calls goalId) (m.buildPlan goalId uuid now s)) := by
  intro s
  have hafter : After calls s := after_after calls
  have hplannable := hafter.plannable_iff goalId
  have htasks := hafter.tasks.tasksOf_eq s.goals s.memory goalId
  rcases m.buildPlan_cases s goalId uuid now with ⟨hnot, hrefused⟩ | ⟨hcan, hmade⟩
  · exact ⟨fun _ => hrefused, fun h => absurd (hplannable.mpr h) hnot⟩
  · exact ⟨fun h => absurd (hplannable.mp hcan) h, fun _ => htasks ▸ hmade⟩

end PlannerManager

end IraOS
