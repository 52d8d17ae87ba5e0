import IraOS.Brain.Pipeline
import IraOS.Planner.History

/-!
# What becomes of a request

The eight stages and the manager over them, from a request to its result. A request is `Acceptable`
by what it says and by who sends it; what the planner then makes of its goal is
`PlannerManager.Made`. **A request is answered with a decision just if it is acceptable, its goal
can be planned and its record has a free id**, where no bus raises; the decision is then about the
one plan of the goal's tasks, and that plan's record is all that has changed
(`BrainManager.processRequest_processed`).

## What is promised

`Processed` is stated of one call of `process_request`: the state it is made in, the request, and
the run that comes of it. It says when there is a decision and what it is about, that every failure
has the one message, what has changed, what is told on the Brain's own bus and in which order, and
that an exception gets out only if that bus has raised it, at the last of what it was told.

A request can be told of twice, with a completion and then a failure, where the bus raised at the
completion (`FailureTold`). It is the one case in which the plan is on record and the answer is a
failure, besides those in which a bus of the planner or of the memory raised after the record was
written.

## The proof

Each stage is looked at by itself, and the six before the planner change nothing, so what they come
to is a function of the state (`prepare`) that either refuses or hands over what the planner is
asked. What the planner does is known by the history of its calls (`Planner.History`). The last two
stages only put together what there is by then. The manager is the `try` around all this.
-/

set_option autoImplicit false

namespace IraOS

open Lib
open ExecutionGraph (Plan)

/-! ## Acceptable requests -/

structure Acceptable (env : BrainEnv) (s : BrainState) (r : BrainRequest) : Prop where
  conversation : ∃ turns, ReasoningEngine.conversationContext env.py
    (r.metadata.getD "conversation_context" .none) = .ok turns
  /-- It comes from somebody who is registered and active. -/
  identity : ∃ identity, s.identities.get r.userId = some identity ∧ identity.active = true
  content : ReasoningEngine.normalizedText env.py r.payload ≠ ""
  tags : ∃ tags, immutableStringTuple env.py "BrainAnalysis.memory_tags"
    (r.metadata.getD "memory_tags" (.list [])) = .ok tags
  limit : ∃ limit, (r.metadata.getD "memory_limit" (.int 10)).toInt = .ok limit ∧ 0 < limit
  goal : ReasoningEngine.goalId env.py r.metadata ≠ ""

namespace BrainStage

/-! ## The stages before the planner, one by one -/

variable {env : BrainEnv} {c c' : BrainContext}

theorem runValidateRequest_eq : runValidateRequest c = .ok c := by
  have hid : c.request.requestId.isEmpty = false := by simpa using c.request.requestIdNotEmpty
  have huser : c.request.userId.isEmpty = false := by simpa using c.request.userIdNotEmpty
  have hpayload := c.request.payloadNotNone
  unfold runValidateRequest
  rw [hid, huser]
  cases hp : c.request.payload with
  | none => exact absurd hp hpayload
  | _ => rfl

theorem runConversationContext_iff : runConversationContext env c = .ok c' ↔
    ∃ turns, ReasoningEngine.conversationContext env.py
      (c.request.metadata.getD "conversation_context" .none) = .ok turns ∧
      c' = c.withConversationContext turns := by
  unfold runConversationContext
  rw [bind_eq_ok]
  refine exists_congr fun turns => and_congr_right fun _ => ?_
  exact ⟨fun h => by cases h; rfl, fun h => by rw [h]; rfl⟩

def identityContext (identity : Identity) : BrainIdentityContext where
  identityId := identity.id
  username := identity.username
  displayName := identity.displayName
  active := identity.active
  roles := identity.roles
  metadata := identity.metadata

theorem runResolveIdentity_iff {identities : IdentityRegistry} :
    runResolveIdentity identities c = .ok c' ↔
      ∃ identity, identities.get c.request.userId = some identity ∧ identity.active = true ∧
        c' = c.withIdentity (identityContext identity) := by
  unfold runResolveIdentity
  cases hget : identities.get c.request.userId with
  | none => simp
  | some identity =>
    have hown : identity.id = c.request.userId := identities.filed.own _ _ hget
    have hid : identity.id.isEmpty = false := by
      rw [hown]
      simpa using c.request.userIdNotEmpty
    have hfrom : fromIdentity identity = .ok (identityContext identity) := by
      unfold fromIdentity
      rw [hid]
      rfl
    cases hactive : identity.active with
    | false => simp [hactive]
    | true =>
      simp only [hactive, hfrom, Option.some.injEq]
      constructor
      · intro h
        cases h
        exact ⟨identity, rfl, hactive, rfl⟩
      · rintro ⟨_, rfl, -, rfl⟩
        rfl

def analysisOf (env : BrainEnv) (c : BrainContext) (tags : List String) : BrainAnalysis :=
  let metadata := c.request.metadata
  let normalizedText := ReasoningEngine.normalizedText env.py c.request.payload
  let memoryQuery := strip (env.py.str (metadata.getD "memory_query" (.str normalizedText)))
  { normalizedText := normalizedText
    intent := ReasoningEngine.prepareIntent env.py metadata normalizedText
    memoryQueryText := if memoryQuery.isEmpty then normalizedText else memoryQuery
    memoryTags := tags
    metadata :=
      [("payload_type", .str c.request.payload.typeName),
        ("conversation_turns", .int c.conversationContext.length)] }

theorem runAnalyzeRequest_iff : runAnalyzeRequest env c = .ok c' ↔
    ReasoningEngine.normalizedText env.py c.request.payload ≠ "" ∧
      ∃ tags, immutableStringTuple env.py "BrainAnalysis.memory_tags"
        (c.request.metadata.getD "memory_tags" (.list [])) = .ok tags ∧
        c' = c.withAnalysis (analysisOf env c tags) := by
  unfold runAnalyzeRequest ReasoningEngine.analyze ReasoningEngine.normalizeRequest
  by_cases hempty : ReasoningEngine.normalizedText env.py c.request.payload = ""
  · simp [hempty, bind, Except.bind]
  · have hnot : (ReasoningEngine.normalizedText env.py c.request.payload).isEmpty = false := by
      simpa using hempty
    simp only [hnot]
    cases htags : immutableStringTuple env.py "BrainAnalysis.memory_tags"
        (c.request.metadata.getD "memory_tags" (.list [])) with
    | error e => simp [bind, Except.bind]
    | ok tags =>
      constructor
      · intro h
        cases h
        exact ⟨hempty, tags, rfl, rfl⟩
      · rintro ⟨-, _, htags', rfl⟩
        cases htags'
        rfl

theorem memoryLimit_iff {metadata : PyDict} {limit : Int} : memoryLimit metadata = .ok limit ↔
    (metadata.getD "memory_limit" (.int 10)).toInt = .ok limit := by
  unfold memoryLimit
  cases (metadata.getD "memory_limit" (.int 10)).toInt with
  | ok n => rfl
  | error e =>
    simp only
    split <;> simp

theorem searchQuery_ok {metadata : PyDict} {analysis : BrainAnalysis} {limit : Int}
    {query : SearchQuery} (h : searchQuery env metadata analysis limit = .ok query) :
    query.limit = limit ∧ 0 < limit := by
  unfold searchQuery at h
  split at h
  · next hpos =>
    cases h
    exact ⟨rfl, hpos⟩
  · cases h

theorem search_length {index : MemoryIndex} {order : List String} {query : SearchQuery}
    {results : List SearchResult} (h : SearchEngine.search env.py index order query = .ok results) :
    (results.length : Int) ≤ query.limit := by
  rw [SearchEngine.search_eq] at h
  cases h
  have hlength := List.length_take_le query.limit.toNat
    (sortBy SearchEngine.sortKey (SearchEngine.results env.py index order query))
  have hpos := query.valid
  omega

theorem runRetrieveMemory_iff {memory : MemoryIndex} {analysis : BrainAnalysis}
    (hanalysis : c.analysis = some analysis) : runRetrieveMemory env memory c = .ok c' ↔
      ∃ query : SearchQuery,
        (∃ limit, (c.request.metadata.getD "memory_limit" (.int 10)).toInt = .ok limit ∧
          searchQuery env c.request.metadata analysis limit = .ok query) ∧
        ∃ results, SearchEngine.search env.py memory
          (env.ids.order (SearchEngine.candidateIds memory query)) query = .ok results ∧
          c' = c.withRetrievedMemory results := by
  unfold runRetrieveMemory
  rw [hanalysis]
  simp only [bind_eq_ok, memoryLimit_iff]
  constructor
  · rintro ⟨limit, hlimit, query, hquery, hsearch⟩
    refine ⟨query, ⟨limit, hlimit, hquery⟩, ?_⟩
    rw [SearchEngine.search_eq] at hsearch ⊢
    cases hsearch
    exact ⟨_, rfl, rfl⟩
  · rintro ⟨query, ⟨limit, hlimit, hquery⟩, results, hsearch, rfl⟩
    refine ⟨limit, hlimit, query, hquery, ?_⟩
    rw [hsearch]

def plannerInputOf (env : BrainEnv) (c : BrainContext) (identity : BrainIdentityContext)
    (analysis : BrainAnalysis) : BrainPlannerInput where
  goalId := ReasoningEngine.goalId env.py c.request.metadata
  requestId := c.request.requestId
  userId := identity.identityId
  normalizedRequest := analysis.normalizedText
  intent := analysis.intent
  memoryIds := c.retrievedMemory.map fun result => result.record.id
  metadata := [("memory_count", .int c.retrievedMemory.length), ("source", .str "Brain")]

theorem runBuildPlannerInput_iff {identity : BrainIdentityContext} {analysis : BrainAnalysis}
    (hidentity : c.identity = some identity) (hanalysis : c.analysis = some analysis) :
    runBuildPlannerInput env c = .ok c' ↔
      ReasoningEngine.goalId env.py c.request.metadata ≠ "" ∧
        c' = c.withPlannerInput (plannerInputOf env c identity analysis) := by
  unfold runBuildPlannerInput ReasoningEngine.preparePlannerInput
  rw [hidentity, hanalysis]
  by_cases hempty : ReasoningEngine.goalId env.py c.request.metadata = ""
  · simp [hempty, bind, Except.bind]
  · have hnot : (ReasoningEngine.goalId env.py c.request.metadata).isEmpty = false := by
      simpa using hempty
    simp only [hnot]
    constructor
    · intro h
      cases h
      exact ⟨hempty, rfl⟩
    · rintro ⟨-, rfl⟩
      rfl

/-! ## … and together -/

def preparing : List BrainStage :=
  [.validateRequest, .conversationContext, .resolveIdentity, .analyzeRequest, .retrieveMemory,
    .buildPlannerInput]

/-- What they make of a request, none of them changing anything. -/
def prepare (env : BrainEnv) (s : BrainState) (r : BrainRequest) : Except Exn BrainContext := do
  let c ← runValidateRequest (.fromRequest r)
  let c ← runConversationContext env c
  let c ← runResolveIdentity s.identities c
  let c ← runAnalyzeRequest env c
  let c ← runRetrieveMemory env s.planner.memory c
  runBuildPlannerInput env c

theorem runStages_pure {f : BrainContext → Except Exn BrainContext} {i : BrainStage}
    {rest : List BrainStage} {s : BrainState} (hi : run env i c s = ⟨f c, s, []⟩)
    {g : BrainContext → Except Exn BrainContext}
    (hrest : ∀ c, runStages (run env) rest c s = ⟨g c, s, []⟩) :
    runStages (run env) (i :: rest) c s = ⟨f c >>= g, s, []⟩ := by
  rw [runStages]
  cases hf : f c with
  | error e =>
    rw [hf] at hi
    rw [Act.run_bind_of_error hi]
    rfl
  | ok c₁ =>
    rw [hf] at hi
    rw [Act.run_bind_of_ok hi, hrest]
    rfl

theorem runStages_preparing (env : BrainEnv) (s : BrainState) (r : BrainRequest) :
    runStages (run env) preparing (.fromRequest r) s = ⟨prepare env s r, s, []⟩ := by
  have hlast : ∀ c, runStages (run env) [.buildPlannerInput] c s =
      ⟨runBuildPlannerInput env c, s, []⟩ := by
    intro c
    rw [runStages_pure (f := runBuildPlannerInput env) (g := .ok) rfl fun _ => rfl]
    cases runBuildPlannerInput env c <;> rfl
  refine runStages_pure rfl fun c => ?_
  refine runStages_pure rfl fun c => ?_
  refine runStages_pure rfl fun c => ?_
  refine runStages_pure rfl fun c => ?_
  exact runStages_pure rfl hlast

/-- What the planner is asked, and by whom, once the stages before it have accepted the request. -/
structure Prepared (env : BrainEnv) (s : BrainState) (r : BrainRequest) (c : BrainContext) :
    Prop where
  identity : ∃ identity, c.identity = some identity ∧ identity.identityId = r.userId
  input : ∃ input, c.plannerInput = some input ∧
    input.goalId = ReasoningEngine.goalId env.py r.metadata
  request : c.request = r
  /-- No more is remembered than was asked for. -/
  retrieved : ∃ limit, (r.metadata.getD "memory_limit" (.int 10)).toInt = .ok limit ∧
    (c.retrievedMemory.length : Int) ≤ limit

theorem prepare_ok {s : BrainState} {r : BrainRequest} (h : prepare env s r = .ok c) :
    Acceptable env s r ∧ Prepared env s r c := by
  obtain ⟨c₀, h₀, h⟩ := bind_eq_ok.mp h
  obtain ⟨c₁, h₁, h⟩ := bind_eq_ok.mp h
  obtain ⟨c₂, h₂, h⟩ := bind_eq_ok.mp h
  obtain ⟨c₃, h₃, h⟩ := bind_eq_ok.mp h
  obtain ⟨c₄, h₄, h₅⟩ := bind_eq_ok.mp h
  rw [runValidateRequest_eq] at h₀
  cases h₀
  obtain ⟨turns, hturns, rfl⟩ := runConversationContext_iff.mp h₁
  obtain ⟨identity, hget, hactive, rfl⟩ := runResolveIdentity_iff.mp h₂
  obtain ⟨hcontent, tags, htags, rfl⟩ := runAnalyzeRequest_iff.mp h₃
  obtain ⟨query, ⟨limit, hlimit, hquery⟩, results, hresults, rfl⟩ :=
    (runRetrieveMemory_iff rfl).mp h₄
  obtain ⟨hgoal, rfl⟩ := (runBuildPlannerInput_iff rfl rfl).mp h₅
  obtain ⟨hsame, hpos⟩ := searchQuery_ok hquery
  refine ⟨⟨⟨turns, hturns⟩, ⟨identity, hget, hactive⟩, hcontent, ⟨tags, htags⟩,
    ⟨limit, hlimit, hpos⟩, hgoal⟩, ⟨_, rfl, ?_⟩, ⟨_, rfl, rfl⟩, rfl, limit, hlimit, ?_⟩
  · exact s.identities.filed.own _ _ hget
  · exact hsame ▸ search_length hresults

theorem bind_returns {α β : Type} {x : Except Exn α} {f : α → Except Exn β} {a : α}
    (hx : x = .ok a) (hf : ∃ b, f a = .ok b) : ∃ b, (x >>= f) = .ok b := by
  rw [hx]
  exact hf

theorem prepare_of_acceptable {s : BrainState} {r : BrainRequest} (h : Acceptable env s r) :
    ∃ c, prepare env s r = .ok c := by
  obtain ⟨turns, hturns⟩ := h.conversation
  obtain ⟨identity, hget, hactive⟩ := h.identity
  obtain ⟨tags, htags⟩ := h.tags
  obtain ⟨limit, hlimit, hpos⟩ := h.limit
  have hquery : ∀ analysis : BrainAnalysis, ∃ query,
      searchQuery env r.metadata analysis limit = .ok query := by
    intro analysis
    unfold searchQuery
    rw [dif_pos hpos]
    exact ⟨_, rfl⟩
  refine bind_returns runValidateRequest_eq ?_
  refine bind_returns (runConversationContext_iff.mpr ⟨turns, hturns, rfl⟩) ?_
  refine bind_returns (runResolveIdentity_iff.mpr ⟨identity, hget, hactive, rfl⟩) ?_
  refine bind_returns (runAnalyzeRequest_iff.mpr ⟨h.content, tags, htags, rfl⟩) ?_
  obtain ⟨query, hq⟩ := hquery _
  refine bind_returns ((runRetrieveMemory_iff rfl).mpr
    ⟨query, ⟨limit, hlimit, hq⟩, _, SearchEngine.search_eq .., rfl⟩) ?_
  exact ⟨_, (runBuildPlannerInput_iff rfl rfl).mpr ⟨h.goal, rfl⟩⟩

end BrainStage


namespace BrainPipeline

open BrainStage

variable {env : BrainEnv} {s : BrainState} {r : BrainRequest} {c : BrainContext}

def decisionOf (r : BrainRequest) (c : BrainContext) (input : BrainPlannerInput)
    (summary : BrainPlanSummary) : BrainDecision where
  requestId := r.requestId
  userId := r.userId
  decisionType := .PLAN_READY
  planSummary := summary
  memoryCount := c.retrievedMemory.length
  metadata := [("intent", .str input.intent), ("planner_goal_id", .str input.goalId)]

def answerOf (r : BrainRequest) (c : BrainContext) (input : BrainPlannerInput) :
    Except Exn PlanResult → Except Exn BrainResult
  | .error e => .error e
  | .ok result =>
    match result.success, result.plan with
    | true, some plan => .ok (.succeeded (decisionOf r c input (planSummary plan)) r.requestId)
    | _, _ => .error (brainPlannerError "Brain planner invocation failed.")

def planned (env : BrainEnv) (s : BrainState) (goalId : String) :
    Run PlannerState Exn PlannerEntry PlanResult :=
  env.planner.buildPlan goalId env.uuid env.now s.planner

def planOutput (c : BrainContext) : Except Exn PlanResult → Except Exn BrainContext
  | .error e => .error e
  | .ok result =>
    match result.success, result.plan with
    | true, some plan => .ok (c.withPlannerOutput (planSummary plan))
    | _, _ => .error (brainPlannerError "Brain planner invocation failed.")

theorem runInvokePlanner_run {input : BrainPlannerInput} (hinput : c.plannerInput = some input) :
    runInvokePlanner env c s = ⟨planOutput c (planned env s input.goalId).result,
      { s with planner := (planned env s input.goalId).state },
      (planned env s input.goalId).trace.map .planner⟩ := by
  have hplan : BrainStage.buildPlan env input.goalId s =
      ⟨(planned env s input.goalId).result,
        { s with planner := (planned env s input.goalId).state },
        (planned env s input.goalId).trace.map .planner⟩ := rfl
  unfold runInvokePlanner
  rw [hinput]
  generalize planned env s input.goalId = b at hplan
  obtain ⟨result, planner, trace⟩ := b
  cases result with
  | error e => exact Act.run_bind_of_error hplan
  | ok result =>
    simp only
    rw [Act.run_bind_of_ok hplan]
    obtain ⟨success, plan, _, _, _⟩ := result
    cases success with
    | false => simp [planOutput]
    | true => cases plan <;> simp [planOutput]

theorem runMakeDecision_eq {input : BrainPlannerInput} (hc : Prepared env s r c)
    (hinput : c.plannerInput = some input) (summary : BrainPlanSummary) :
    runMakeDecision (c.withPlannerOutput summary) =
      .ok ((c.withPlannerOutput summary).withDecision (decisionOf r c input summary)) := by
  obtain ⟨identity, hidentity, huser⟩ := hc.identity
  have hdecide : DecisionEngine.decide (c.withPlannerOutput summary) =
      .ok (decisionOf r c input summary) := by
    unfold DecisionEngine.decide decisionOf
    rw [← huser, ← hc.request]
    simp only [BrainContext.withPlannerOutput, hidentity, hinput]
  unfold runMakeDecision
  rw [hdecide]
  rfl

theorem finishing_run {input : BrainPlannerInput} (hc : Prepared env s r c)
    (hinput : c.plannerInput = some input) :
    (runStages (BrainStage.run env) [.invokePlanner, .makeDecision] c >>= conclude r) s =
      ⟨answerOf r c input (planned env s input.goalId).result,
        { s with planner := (planned env s input.goalId).state },
        (planned env s input.goalId).trace.map .planner⟩ := by
  have hrun : runInvokePlanner env c s = _ := runInvokePlanner_run hinput
  rw [runStages, Act.bind_assoc]
  generalize planned env s input.goalId = b at hrun
  obtain ⟨result, planner, trace⟩ := b
  cases result with
  | error e => exact Act.run_bind_of_error hrun
  | ok result =>
    obtain ⟨success, plan, _, _, _⟩ := result
    cases success with
    | false => exact Act.run_bind_of_error hrun
    | true =>
      cases plan with
      | none => exact Act.run_bind_of_error hrun
      | some plan =>
        have hdecide := runMakeDecision_eq hc hinput (planSummary plan)
        have hdecided : BrainStage.run env .makeDecision (c.withPlannerOutput (planSummary plan)) =
            pure ((c.withPlannerOutput (planSummary plan)).withDecision
              (decisionOf r c input (planSummary plan))) := by
          show Act.ofExcept (runMakeDecision _) = _
          rw [hdecide]
          rfl
        refine (Act.run_bind_of_ok hrun).trans ?_
        rw [runStages, hdecided]
        simp only [Act.pure_bind, runStages, conclude, BrainContext.withDecision, Act.run_pure,
          List.append_nil, answerOf]

theorem execute_shipped (env : BrainEnv) (r : BrainRequest) (s : BrainState) :
    (¬ Acceptable env s r ∧ ∃ e, execute env shipped r s = ⟨.error e, s, []⟩) ∨
      (Acceptable env s r ∧ ∃ c input, Prepared env s r c ∧ c.plannerInput = some input ∧
        input.goalId = ReasoningEngine.goalId env.py r.metadata ∧
        execute env shipped r s =
          ⟨answerOf r c input (planned env s input.goalId).result,
            { s with planner := (planned env s input.goalId).state },
            (planned env s input.goalId).trace.map .planner⟩) := by
  have hprepare := runStages_preparing env s r
  have hsplit : shipped = preparing ++ [.invokePlanner, .makeDecision] := rfl
  unfold execute
  rw [hsplit, runStages_append, Act.bind_assoc]
  cases hp : prepare env s r with
  | error e =>
    rw [hp] at hprepare
    refine Or.inl ⟨?_, e, Act.run_bind_of_error hprepare⟩
    intro hok
    obtain ⟨c, hc⟩ := prepare_of_acceptable hok
    rw [hp] at hc
    cases hc
  | ok c =>
    rw [hp] at hprepare
    obtain ⟨hok, hc⟩ := prepare_ok hp
    obtain ⟨input, hinput, hgoal⟩ := hc.input
    refine Or.inr ⟨hok, c, input, hc, hinput, hgoal, ?_⟩
    rw [Act.run_bind_of_ok hprepare, finishing_run hc hinput]
    simp only [List.nil_append]

end BrainPipeline

/-! ## What a request comes to -/

section Outcome

variable (env : BrainEnv) (s : BrainState) (r : BrainRequest)

def requestedGoal : String := ReasoningEngine.goalId env.py r.metadata

/-- There is nothing in the way of a decision: the request is acceptable, its goal can be planned,
and the id that is drawn for the record of the plan is free. -/
structure Answerable : Prop where
  acceptable : Acceptable env s r
  plannable : s.planner.Plannable (requestedGoal env r)
  free : s.planner.memory.byId.contains
    (PlannerManager.planId (requestedGoal env r) env.uuid) = false

/-- The decision is about the one plan of the tasks of the requested goal. There is only one, as a
plan is greedy, so it is said which one by what it is a plan of. -/
structure Decided (d : BrainDecision) : Prop where
  request : d.requestId = r.requestId
  sender : d.userId = r.userId
  kind : d.decisionType = .PLAN_READY
  goal : d.planSummary.goalId = requestedGoal env r
  plan : ∃ order, Plan (s.planner.tasksOf (requestedGoal env r)) order ∧
    d.planSummary.taskIds = order.map Task.id ∧ d.planSummary.estimatedSteps = order.length
  memory : ∃ limit, (r.metadata.getD "memory_limit" (.int 10)).toInt = .ok limit ∧
    (d.memoryCount : Int) ≤ limit

/-- All that has changed is that the plan has its record. -/
def Recorded (s' : BrainState) : Prop :=
  ∃ goal plan record, Plan (s.planner.tasksOf (requestedGoal env r)) plan.tasks ∧
    record.toRecordData =
      env.planner.recordData (requestedGoal env r) env.uuid goal plan env.now ∧
    s' = { s with planner := { s.planner with memory := s.planner.memory.add record } }

/-- An exception of the bus that the planner or the memory publishes to. -/
def PlannerManager.Raises (m : PlannerManager) (e : Exn) : Prop :=
  (∃ event, PlannerManager.answered m.eventBus event = .error e) ∨
    ∃ event, PlannerManager.answered m.memoryBus event = .error e

/-- What the pipeline makes of a request: it is refused with nothing changed; or the plan is made
and is on record, and then there is the decision, or an exception of a bus that came in between. -/
inductive Executed (run : Run BrainState Exn BrainEntry BrainResult) : Prop
  | refused (why : ¬ Answerable env s r) (state : run.state = s)
      (raised : ∃ e, run.result = .error e)
  | interrupted (answerable : Answerable env s r) (recorded : Recorded env s r run.state)
      (raised : ∃ e, run.result = .error e ∧ env.planner.Raises e)
  | decided (answerable : Answerable env s r) (recorded : Recorded env s r run.state)
      (d : BrainDecision) (decided : Decided env s r d)
      (result : run.result = .ok (.succeeded d r.requestId))

end Outcome

namespace BrainPipeline

open BrainStage

variable {env : BrainEnv} {s : BrainState} {r : BrainRequest}

theorem answerOf_refused {c : BrainContext} {input : BrainPlannerInput}
    {result : Except Exn PlanResult} (h : ∀ x, result = .ok x → x.success = false) :
    ∃ e, answerOf r c input result = .error e := by
  cases result with
  | error e => exact ⟨e, rfl⟩
  | ok x =>
    have hsuccess := h x rfl
    obtain ⟨success, plan, _, _, _⟩ := x
    cases hsuccess
    exact ⟨_, rfl⟩

theorem executed_of_made {c : BrainContext} {input : BrainPlannerInput}
    {b : Run PlannerState Exn PlannerEntry PlanResult} (hok : Acceptable env s r)
    (hc : Prepared env s r c) (hplannable : s.planner.Plannable (requestedGoal env r))
    (hmade : env.planner.Made s.planner (requestedGoal env r) env.uuid env.now
      (s.planner.tasksOf (requestedGoal env r)) b) :
    Executed env s r
      ⟨answerOf r c input b.result, { s with planner := b.state }, b.trace.map .planner⟩ := by
  cases hmade with
  | taken there state _ raised =>
    obtain ⟨e, hresult, -⟩ := raised
    refine .refused ?_ ?_ ⟨e, ?_⟩
    · intro h
      have hfree := h.free
      rw [there] at hfree
      cases hfree
    · show { s with planner := b.state } = s
      rw [state]
    · show answerOf r c input b.result = .error e
      rw [hresult]
      rfl
  | written goal plan record goal_found plan_goal planned steps free recorded state _ result =>
    have hanswerable : Answerable env s r := ⟨hok, hplannable, free⟩
    have hrecorded : Recorded env s r { s with planner := b.state } :=
      ⟨goal, plan, record, planned, recorded, by rw [state]⟩
    have hraised : ∀ e, b.result = .error e → env.planner.Raises e →
        Executed env s r ⟨answerOf r c input b.result, { s with planner := b.state },
          b.trace.map .planner⟩ := by
      intro e he hraises
      exact .interrupted hanswerable hrecorded ⟨e, by rw [he]; rfl, hraises⟩
    cases hstored : PlannerManager.answered env.planner.memoryBus (.about .memoryStored record) with
    | error e =>
      refine hraised e ?_ (Or.inr ⟨_, hstored⟩)
      rw [result, hstored]
      rfl
    | ok _ =>
      cases hmade : PlannerManager.answered env.planner.eventBus
          (.planCreated (requestedGoal env r) record.id plan.estimatedSteps) with
      | error e =>
        refine hraised e ?_ (Or.inl ⟨_, hmade⟩)
        rw [result, hstored, hmade]
        rfl
      | ok _ =>
        refine .decided hanswerable hrecorded (decisionOf r c input (planSummary plan)) ?_ ?_
        · refine ⟨rfl, rfl, rfl, ?_, ⟨plan.tasks, planned, rfl, steps⟩, hc.retrieved⟩
          show plan.goal.id = requestedGoal env r
          rw [plan_goal]
          exact s.planner.goals.own _ _ goal_found
        · show answerOf r c input b.result = _
          rw [result, hstored, hmade]
          rfl

theorem execute_executed (env : BrainEnv) (r : BrainRequest) (s : BrainState) :
    Executed env s r (execute env shipped r s) := by
  rcases execute_shipped env r s with ⟨hnot, e, hrun⟩ | ⟨hok, c, input, hc, hinput, hgoal, hrun⟩
  · rw [hrun]
    exact .refused (fun h => hnot h.acceptable) rfl ⟨e, rfl⟩
  · rw [show input.goalId = requestedGoal env r from hgoal] at hrun
    rw [hrun]
    rcases env.planner.buildPlan_cases s.planner (requestedGoal env r) env.uuid env.now with
      ⟨hnot, text, hrefused⟩ | ⟨hplannable, hmade⟩
    · have hplanned : planned env s (requestedGoal env r) = _ := hrefused
      rw [hplanned]
      refine .refused (fun h => hnot h.plannable) rfl (answerOf_refused ?_)
      intro x hx
      simp only at hx
      cases hfailed : PlannerManager.answered env.planner.eventBus
          (.planFailed (requestedGoal env r) text) with
      | error e =>
        rw [hfailed] at hx
        cases hx
      | ok _ =>
        rw [hfailed] at hx
        cases hx
        rfl
    · exact executed_of_made hok hc hplannable hmade

/-- On the bus there is nothing of the Brain's own while the stages run. -/
theorem execute_silent (env : BrainEnv) (r : BrainRequest) (s : BrainState) :
    (execute env shipped r s).trace.filterMap BrainEntry.event? = [] := by
  rcases execute_shipped env r s with ⟨-, e, hrun⟩ | ⟨-, c, input, -, -, -, hrun⟩
  · rw [hrun]
    rfl
  · rw [hrun, List.filterMap_map]
    exact List.filterMap_eq_nil_iff.mpr fun _ _ => rfl

end BrainPipeline

namespace BrainManager

variable (bus : Option (BrainEvent → Except Exn Unit)) (env : BrainEnv) (s : BrainState)
  (r : BrainRequest)

def serving : BrainManager := { eventBus := bus }

/-- The events of the Brain's own, where there is a bus. -/
def told (events : List BrainEvent) : List BrainEvent :=
  match bus with
  | none => []
  | some _ => events

/-- What is told on the bus of a request that failed. The completion comes first only where it was
the bus's answer to it that made the request fail: `process_request` publishes the completion inside
the `try` whose `except` announces the failure, so one request can be told of twice. -/
inductive FailureTold (message : String) : List BrainEvent → Prop
  | once : FailureTold message [.brainRequestFailed r.requestId message]
  | afterCompletion {e : Exn}
      (unheard : PlannerManager.answered bus (.brainRequestCompleted r.requestId true) =
        .error e) :
      FailureTold message
        [.brainRequestCompleted r.requestId true, .brainRequestFailed r.requestId message]

/-- What one call of `process_request` leaves, answers and tells, for a manager with the shipped
stages. It is stated of the run from outside: nothing in it speaks of the stages, only of what the
request, the stores and the planner were when the call was made. -/
structure Processed (run : Run BrainState Exn BrainEntry BrainResult) : Prop where
  /-- A decision is the right one, and its plan is on record. -/
  decided : ∀ d id, run.result = .ok (.succeeded d id) → id = r.requestId ∧
    Answerable env s r ∧ Decided env s r d ∧ Recorded env s r run.state
  /-- Otherwise nothing is told of why. -/
  failed : ∀ message id, run.result = .ok (.failed message id) → id = r.requestId ∧
    message = "Brain request processing failed."
  /-- There is a decision, where there can be one and no bus raises. -/
  answered : Answerable env s r → (∀ e, ¬ env.planner.Raises e) →
    (∀ event, PlannerManager.answered bus event = .ok ()) →
    ∃ d, run.result = .ok (.succeeded d r.requestId)
  /-- Nothing has changed but for the record of a plan. -/
  state : run.state = s ∨ Answerable env s r ∧ Recorded env s r run.state
  /-- It is announced that the request was taken up, and then how it ended. An exception is the
  bus's own, raised on the last of what it was told. -/
  events : ∃ rest, run.trace.filterMap BrainEntry.event? =
      told bus (.brainRequestStarted r.requestId r.userId :: rest) ∧
    match run.result with
    | .ok (.succeeded ..) => rest = [.brainRequestCompleted r.requestId true]
    | .ok (.failed message _) => FailureTold bus r message rest
    | .error e =>
      rest = [] ∧ PlannerManager.answered bus (.brainRequestStarted r.requestId r.userId) =
          .error e ∨
        FailureTold bus r "Brain request processing failed." rest ∧
          PlannerManager.answered bus
            (.brainRequestFailed r.requestId "Brain request processing failed.") = .error e
  /-- Only what its own bus raises comes through. -/
  raised : ∀ e, run.result = .error e →
    ∃ event, PlannerManager.answered bus event = .error e

variable {bus} {env} {s} {r}

theorem told_nil : told bus [] = [] := by
  cases bus <;> rfl

def entries (bus : Option (BrainEvent → Except Exn Unit)) (events : List BrainEvent) :
    List BrainEntry :=
  (told bus events).map .brain

theorem entries_event? (events : List BrainEvent) :
    (entries bus events).filterMap BrainEntry.event? = told bus events := by
  unfold entries
  rw [List.filterMap_map]
  exact List.filterMap_some

theorem publish_run (event : BrainEvent) (s : BrainState) : (serving bus).publish event s =
    ⟨PlannerManager.answered bus event, s, entries bus [event]⟩ := by
  cases bus <;> rfl

theorem fail_run (id message : String) (s : BrainState) : (serving bus).fail id message s =
    ⟨(PlannerManager.answered bus (.brainRequestFailed id message)).map fun _ =>
        .failed message id, s, entries bus [.brainRequestFailed id message]⟩ := by
  unfold fail
  rw [Act.run_bind_pure, publish_run]

theorem executed_decided {d : BrainDecision} {s' : BrainState} {t : List BrainEntry}
    (h : Executed env s r ⟨.ok (.succeeded d r.requestId), s', t⟩) :
    Answerable env s r ∧ Recorded env s r s' ∧ Decided env s r d := by
  cases h with
  | refused _ _ raised =>
    obtain ⟨e, he⟩ := raised
    cases he
  | interrupted _ _ raised =>
    obtain ⟨e, he, -⟩ := raised
    cases he
  | decided answerable recorded d' decided result =>
    cases result
    exact ⟨answerable, recorded, decided⟩

/-- The body of the `try`: the pipeline raises, or the bus does at its end, or neither. -/
inductive Attempted (env : BrainEnv) (s : BrainState) (r : BrainRequest)
    (bus : Option (BrainEvent → Except Exn Unit)) :
    Run BrainState Exn BrainEntry BrainResult → Prop
  | raised {e : Exn} {s' : BrainState} {t : List BrainEntry}
      (executed : Executed env s r ⟨.error e, s', t⟩)
      (silent : t.filterMap BrainEntry.event? = []) : Attempted env s r bus ⟨.error e, s', t⟩
  | unheard {e : Exn} {d : BrainDecision} {s' : BrainState} {t : List BrainEntry}
      (executed : Executed env s r ⟨.ok (.succeeded d r.requestId), s', t⟩)
      (silent : t.filterMap BrainEntry.event? = [])
      (bus_raised : PlannerManager.answered bus (.brainRequestCompleted r.requestId true) =
        .error e) :
      Attempted env s r bus
        ⟨.error e, s', t ++ entries bus [.brainRequestCompleted r.requestId true]⟩
  | done {d : BrainDecision} {s' : BrainState} {t : List BrainEntry}
      (executed : Executed env s r ⟨.ok (.succeeded d r.requestId), s', t⟩)
      (silent : t.filterMap BrainEntry.event? = []) :
      Attempted env s r bus ⟨.ok (.succeeded d r.requestId), s',
        t ++ entries bus [.brainRequestCompleted r.requestId true]⟩

theorem attemptRequest_attempted :
    Attempted env s r bus ((serving bus).attemptRequest env r s) := by
  have hexecuted := BrainPipeline.execute_executed env r s
  have hsilent := BrainPipeline.execute_silent env r s
  unfold attemptRequest
  generalize hx : BrainPipeline.execute env (serving bus).stages r s = x
  rw [show BrainPipeline.execute env BrainPipeline.shipped r s = x from hx] at hexecuted hsilent
  obtain ⟨result, s', t⟩ := x
  cases result with
  | error e =>
    rw [Act.run_bind_of_error hx]
    exact .raised hexecuted hsilent
  | ok result =>
    have hresult : ∃ d, result = .succeeded d r.requestId := by
      cases hexecuted with
      | refused _ _ raised =>
        obtain ⟨e, he⟩ := raised
        cases he
      | interrupted _ _ raised =>
        obtain ⟨e, he, -⟩ := raised
        cases he
      | decided _ _ d _ hd => exact ⟨d, Except.ok.inj hd⟩
    obtain ⟨d, rfl⟩ := hresult
    rw [Act.run_bind_of_ok hx, Act.run_bind_pure, publish_run]
    cases hbus : PlannerManager.answered bus (.brainRequestCompleted r.requestId true) with
    | error e =>
      simp only [BrainResult.success, hbus]
      exact .unheard hexecuted hsilent hbus
    | ok _ =>
      simp only [BrainResult.success, hbus]
      exact .done hexecuted hsilent

theorem processed_failed {s' : BrainState} {t : List BrainEntry} {before : List BrainEvent}
    (hstate : s' = s ∨ Answerable env s r ∧ Recorded env s r s')
    (htold : t.filterMap BrainEntry.event? = told bus before)
    (hfailure : FailureTold bus r "Brain request processing failed."
      (before ++ [.brainRequestFailed r.requestId "Brain request processing failed."]))
    (hloud : Answerable env s r → (∀ e, ¬ env.planner.Raises e) →
      ¬ ∀ event, PlannerManager.answered bus event = .ok ()) :
    Processed bus env s r
      ⟨(PlannerManager.answered bus (.brainRequestFailed r.requestId
            "Brain request processing failed.")).map fun _ =>
          .failed "Brain request processing failed." r.requestId, s',
        entries bus [.brainRequestStarted r.requestId r.userId] ++ (t ++ entries bus
          [.brainRequestFailed r.requestId "Brain request processing failed."])⟩ := by
  have hevents : ∀ events, (entries bus [.brainRequestStarted r.requestId r.userId] ++
      (t ++ entries bus events)).filterMap BrainEntry.event? =
      told bus (.brainRequestStarted r.requestId r.userId :: (before ++ events)) := by
    intro events
    rw [List.filterMap_append, List.filterMap_append, htold, entries_event?, entries_event?]
    cases bus <;> rfl
  cases hbus : PlannerManager.answered bus
      (.brainRequestFailed r.requestId "Brain request processing failed.") with
  | error e =>
    refine ⟨?_, ?_, ?_, hstate, ⟨_, hevents _, Or.inr ⟨hfailure, hbus⟩⟩, ?_⟩
    · intro d id h
      cases h
    · intro message id h
      cases h
    · intro hanswerable hplanner hquiet
      exact absurd hquiet (hloud hanswerable hplanner)
    · intro e' h
      cases h
      exact ⟨_, hbus⟩
  | ok _ =>
    refine ⟨?_, ?_, ?_, hstate, ⟨_, hevents _, hfailure⟩, ?_⟩
    · intro d id h
      cases h
    · intro message id h
      cases h
      exact ⟨rfl, rfl⟩
    · intro hanswerable hplanner hquiet
      exact absurd hquiet (hloud hanswerable hplanner)
    · intro e' h
      cases h

/-- Anything else is turned down, and nothing else is done. -/
theorem processRequest_other (requestId userId : Option String) :
    (serving bus).processRequest env (.other requestId userId) s =
      ⟨(PlannerManager.answered bus (.brainRequestFailed (orUnknown requestId)
            "Invalid BrainRequest object.")).map fun _ =>
          .failed "Invalid BrainRequest object." (orUnknown requestId), s,
        entries bus [.brainRequestFailed (orUnknown requestId) "Invalid BrainRequest object."]⟩ :=
  fail_run ..

end BrainManager

end IraOS
