import IraOS.Brain.Pipeline

/-!
# Which pipelines can decide

`BrainPipeline` takes its stages in any number and any order; the stages themselves look into the
context for what they need and raise when it is not there. The stages here are those of
`core/brain/pipeline.py`; what a stage of someone else's would look for is not known.

`BrainStage.flow` is what each of the eight looks for and puts in, and on the list of stages alone
it decides the matter (`execute_ready`):

* **no request is ever answered by a pipeline that is not ready**, whatever else there is;
* an answer carries the decision the last `MakeDecisionStage` has made of what it found, under the
  id of the request;
* in a pipeline that is ready every stage finds what it looks for, and when all of them have
  returned `execute` answers: the `BrainDecisionError` after its loop is never raised.

Being ready is decidable, so a list of stages can be looked at before it is used. What a stage looks
for is read off its text, and the flows are checked against it (`flows`): a stage that returns has
found its parts and puts in its own, takes none out, and one that misses a part raises. That lists
of stages with flows behave so is a general fact (`Lib.Stages`).
-/

set_option autoImplicit false

namespace IraOS

open Lib

/-- The parts of a context that stages put in. -/
inductive ContextPart where
  | identity | analysis | plannerInput | plannerOutput | decision
  deriving DecidableEq

namespace BrainContext

def has (c : BrainContext) : ContextPart → Bool
  | .identity => c.identity.isSome
  | .analysis => c.analysis.isSome
  | .plannerInput => c.plannerInput.isSome
  | .plannerOutput => c.plannerOutput.isSome
  | .decision => c.decision.isSome

/-- The parts that are there. -/
def parts (c : BrainContext) : Finset ContextPart :=
  ({.identity, .analysis, .plannerInput, .plannerOutput, .decision} : Finset ContextPart).filter
    fun part => c.has part = true

theorem mem_parts {c : BrainContext} {part : ContextPart} :
    part ∈ c.parts ↔ c.has part = true := by
  unfold parts
  rw [Finset.mem_filter]
  refine and_iff_right ?_
  cases part <;> decide

theorem parts_fromRequest (request : BrainRequest) : (fromRequest request).parts = ∅ := rfl

theorem parts_of_has {c c' : BrainContext} {gives : Finset ContextPart}
    (h : ∀ part, c'.has part = true ↔ c.has part = true ∨ part ∈ gives) :
    c'.parts = c.parts ∪ gives := by
  ext part
  rw [mem_parts, h, Finset.mem_union, mem_parts]

end BrainContext

namespace BrainStage

/-- What each stage looks for and puts in. -/
def flow : BrainStage → Flow ContextPart
  | .validateRequest => ⟨∅, ∅⟩
  | .conversationContext => ⟨∅, ∅⟩
  | .resolveIdentity => ⟨∅, {.identity}⟩
  | .analyzeRequest => ⟨∅, {.analysis}⟩
  | .retrieveMemory => ⟨{.analysis}, ∅⟩
  | .buildPlannerInput => ⟨{.identity, .analysis}, {.plannerInput}⟩
  | .invokePlanner => ⟨{.plannerInput}, {.plannerOutput}⟩
  | .makeDecision => ⟨{.identity, .plannerInput, .plannerOutput}, {.decision}⟩

section Returning

variable {env : BrainEnv} {c c' : BrainContext}

theorem validateRequest_ok (h : runValidateRequest c = .ok c') : c' = c := by
  unfold runValidateRequest at h
  split at h
  · cases h
  · split at h
    · cases h
    · split at h
      · cases h
      · cases h
        rfl

theorem conversationContext_ok (h : runConversationContext env c = .ok c') :
    ∃ turns, c' = c.withConversationContext turns := by
  obtain ⟨turns, -, hc⟩ := bind_eq_ok.mp h
  cases hc
  exact ⟨turns, rfl⟩

theorem resolveIdentity_ok {identities : IdentityRegistry}
    (h : runResolveIdentity identities c = .ok c') : ∃ identity, c' = c.withIdentity identity := by
  unfold runResolveIdentity at h
  split at h
  · cases h
  · split at h
    · cases h
    · obtain ⟨identity, -, hc⟩ := bind_eq_ok.mp h
      cases hc
      exact ⟨identity, rfl⟩

theorem analyzeRequest_ok (h : runAnalyzeRequest env c = .ok c') :
    ∃ analysis, c' = c.withAnalysis analysis := by
  obtain ⟨analysis, -, hc⟩ := bind_eq_ok.mp h
  cases hc
  exact ⟨analysis, rfl⟩

theorem retrieveMemory_ok {memory : MemoryIndex} (h : runRetrieveMemory env memory c = .ok c') :
    c.analysis.isSome = true ∧ ∃ results, c' = c.withRetrievedMemory results := by
  unfold runRetrieveMemory at h
  split at h
  · cases h
  · next analysis hsome =>
    obtain ⟨limit, -, h⟩ := bind_eq_ok.mp h
    obtain ⟨query, -, h⟩ := bind_eq_ok.mp h
    split at h
    · next results _ =>
      cases h
      exact ⟨by rw [hsome]; rfl, results, rfl⟩
    · cases h

theorem preparePlannerInput_ok {input : BrainPlannerInput}
    (h : ReasoningEngine.preparePlannerInput env.py c = .ok input) :
    c.identity.isSome = true ∧ c.analysis.isSome = true := by
  unfold ReasoningEngine.preparePlannerInput at h
  split at h
  · cases h
  · next hidentity =>
    split at h
    · cases h
    · next hanalysis => exact ⟨by rw [hidentity]; rfl, by rw [hanalysis]; rfl⟩

theorem buildPlannerInput_ok (h : runBuildPlannerInput env c = .ok c') :
    (c.identity.isSome = true ∧ c.analysis.isSome = true) ∧
      ∃ input, c' = c.withPlannerInput input := by
  obtain ⟨input, hinput, hc⟩ := bind_eq_ok.mp h
  cases hc
  exact ⟨preparePlannerInput_ok hinput, input, rfl⟩

theorem invokePlanner_ok {s s' : BrainState} {t : List BrainEntry}
    (h : runInvokePlanner env c s = ⟨.ok c', s', t⟩) :
    c.plannerInput.isSome = true ∧ ∃ output, c' = c.withPlannerOutput output := by
  unfold runInvokePlanner at h
  cases hinput : c.plannerInput with
  | none =>
    rw [hinput] at h
    cases h
  | some input =>
    rw [hinput] at h
    obtain ⟨result, _, _, _, -, h, -⟩ := Act.bind_ok h
    refine ⟨rfl, ?_⟩
    obtain ⟨success, plan, _, _, _⟩ := result
    cases success with
    | false => cases h
    | true =>
      cases plan with
      | none => cases h
      | some plan =>
        obtain ⟨rfl, -, -⟩ := Act.pure_ok h
        exact ⟨_, rfl⟩

theorem decide_ok {decision : BrainDecision} (h : DecisionEngine.decide c = .ok decision) :
    c.identity.isSome = true ∧ c.plannerInput.isSome = true ∧ c.plannerOutput.isSome = true := by
  unfold DecisionEngine.decide at h
  split at h
  · cases h
  · next hidentity =>
    split at h
    · cases h
    · next hinput =>
      split at h
      · cases h
      · next houtput =>
        exact ⟨by rw [hidentity]; rfl, by rw [hinput]; rfl, by rw [houtput]; rfl⟩

theorem makeDecision_ok (h : runMakeDecision c = .ok c') :
    ∃ decision, DecisionEngine.decide c = .ok decision ∧ c' = c.withDecision decision := by
  obtain ⟨decision, hdecision, hc⟩ := bind_eq_ok.mp h
  cases hc
  exact ⟨decision, hdecision, rfl⟩

end Returning

/-- The stages keep to their flows. -/
theorem flows (env : BrainEnv) : Flows (run env) flow BrainContext.parts := by
  constructor
  intro i c c' s s' t h
  cases i with
  | validateRequest =>
    obtain rfl := validateRequest_ok (Act.ofExcept_ok h).1
    exact ⟨Finset.empty_subset _, (Finset.union_empty _).symm⟩
  | conversationContext =>
    obtain ⟨turns, rfl⟩ := conversationContext_ok (Act.ofExcept_ok h).1
    exact ⟨Finset.empty_subset _, (Finset.union_empty _).symm⟩
  | resolveIdentity =>
    obtain ⟨identity, rfl⟩ := resolveIdentity_ok (Act.ofExcept_ok h).1
    refine ⟨Finset.empty_subset _, BrainContext.parts_of_has ?_⟩
    intro part
    cases part <;> simp [flow, BrainContext.has, BrainContext.withIdentity]
  | analyzeRequest =>
    obtain ⟨analysis, rfl⟩ := analyzeRequest_ok (Act.ofExcept_ok h).1
    refine ⟨Finset.empty_subset _, BrainContext.parts_of_has ?_⟩
    intro part
    cases part <;> simp [flow, BrainContext.has, BrainContext.withAnalysis]
  | retrieveMemory =>
    obtain ⟨hanalysis, results, rfl⟩ := retrieveMemory_ok (Act.ofExcept_ok h).1
    refine ⟨?_, (Finset.union_empty _).symm⟩
    exact Finset.singleton_subset_iff.mpr (BrainContext.mem_parts.mpr hanalysis)
  | buildPlannerInput =>
    obtain ⟨⟨hidentity, hanalysis⟩, input, rfl⟩ := buildPlannerInput_ok (Act.ofExcept_ok h).1
    refine ⟨?_, BrainContext.parts_of_has ?_⟩
    · intro part hpart
      rw [BrainContext.mem_parts]
      cases part <;> simp_all [flow, BrainContext.has]
    · intro part
      cases part <;> simp [flow, BrainContext.has, BrainContext.withPlannerInput]
  | invokePlanner =>
    obtain ⟨hinput, output, rfl⟩ := invokePlanner_ok h
    refine ⟨?_, BrainContext.parts_of_has ?_⟩
    · exact Finset.singleton_subset_iff.mpr (BrainContext.mem_parts.mpr hinput)
    · intro part
      cases part <;> simp [flow, BrainContext.has, BrainContext.withPlannerOutput]
  | makeDecision =>
    obtain ⟨decision, hdecision, rfl⟩ := makeDecision_ok (Act.ofExcept_ok h).1
    obtain ⟨hidentity, hinput, houtput⟩ := decide_ok hdecision
    refine ⟨?_, BrainContext.parts_of_has ?_⟩
    · intro part hpart
      rw [BrainContext.mem_parts]
      cases part <;> simp_all [flow, BrainContext.has]
    · intro part
      cases part <;> simp [flow, BrainContext.has, BrainContext.withDecision]

theorem decision_kept {env : BrainEnv} {i : BrainStage} {c c' : BrainContext} {s s' : BrainState}
    {t : List BrainEntry} (hi : i ≠ .makeDecision) (h : run env i c s = ⟨.ok c', s', t⟩) :
    c'.decision = c.decision := by
  cases i with
  | validateRequest =>
    obtain rfl := validateRequest_ok (Act.ofExcept_ok h).1
    rfl
  | conversationContext =>
    obtain ⟨turns, rfl⟩ := conversationContext_ok (Act.ofExcept_ok h).1
    rfl
  | resolveIdentity =>
    obtain ⟨identity, rfl⟩ := resolveIdentity_ok (Act.ofExcept_ok h).1
    rfl
  | analyzeRequest =>
    obtain ⟨analysis, rfl⟩ := analyzeRequest_ok (Act.ofExcept_ok h).1
    rfl
  | retrieveMemory =>
    obtain ⟨-, results, rfl⟩ := retrieveMemory_ok (Act.ofExcept_ok h).1
    rfl
  | buildPlannerInput =>
    obtain ⟨-, input, rfl⟩ := buildPlannerInput_ok (Act.ofExcept_ok h).1
    rfl
  | invokePlanner =>
    obtain ⟨-, output, rfl⟩ := invokePlanner_ok h
    rfl
  | makeDecision => exact absurd rfl hi

end BrainStage

namespace BrainPipeline

/-- There is a decision at the end, and every stage finds what it looks for. -/
abbrev IsReady (stages : List BrainStage) : Prop :=
  StagesReady BrainStage.flow {ContextPart.decision} ∅ stages

example : IsReady shipped ∧ ¬ IsReady (shipped.erase .resolveIdentity ++ [.resolveIdentity]) := by
  decide

/-- The answer is the decision of the last stage that makes one: `decide` was given what the stages
before had put together, and what it returned went into the result with the id of the request. -/
def Decided (env : BrainEnv) (stages : List BrainStage) (request : BrainRequest) (s : BrainState)
    (result : BrainResult) : Prop :=
  ∃ pre post c s' t decision, stages = pre ++ .makeDecision :: post ∧ .makeDecision ∉ post ∧
    runStages (BrainStage.run env) pre (.fromRequest request) s = ⟨.ok c, s', t⟩ ∧
    DecisionEngine.decide c = .ok decision ∧ result = .succeeded decision request.requestId

section Running

variable {env : BrainEnv} {stages : List BrainStage} {request : BrainRequest} {s s' : BrainState}
  {t : List BrainEntry} {c : BrainContext} {decision : BrainDecision}

theorem decided_of_run
    (hrun : runStages (BrainStage.run env) stages (.fromRequest request) s = ⟨.ok c, s', t⟩)
    (hdecision : c.decision = some decision) :
    Decided env stages request s (.succeeded decision request.requestId) := by
  have hmem : BrainStage.makeDecision ∈ stages := by
    by_contra hno
    have hkept : c.decision = none := runStages_view BrainStage.decision_kept hno hrun
    rw [hdecision] at hkept
    cases hkept
  obtain ⟨pre, post, c₁, s₁, t₁, c₂, s₂, t₂, hsplit, hpost, hpre, hmake, hlast⟩ :=
    runStages_last BrainStage.decision_kept hmem hrun
  obtain ⟨made, hmade, rfl⟩ := BrainStage.makeDecision_ok (Act.ofExcept_ok hmake).1
  have heq : decision = made := Option.some.inj (hdecision.symm.trans hlast)
  exact ⟨pre, post, c₁, s₁, t₁, made, hsplit, hpost, hpre, hmade, by rw [heq]⟩

theorem execute_of_run
    (hrun : runStages (BrainStage.run env) stages (.fromRequest request) s = ⟨.ok c, s', t⟩)
    (hdecision : c.decision = some decision) :
    execute env stages request s = ⟨.ok (.succeeded decision request.requestId), s', t⟩ := by
  refine (Act.run_bind_of_ok hrun).trans ?_
  unfold conclude
  rw [hdecision]
  simp only [Act.run_pure, List.append_nil]

end Running

/-- **Only a ready pipeline ever answers a request**, with the decision its last stage for it has
made. One that is ready supplies every stage that is reached, answers when all of them have
returned, and raises only what one of them has raised. -/
theorem execute_ready (env : BrainEnv) (stages : List BrainStage) (request : BrainRequest)
    (s : BrainState) :
    (∀ result, (execute env stages request s).result = .ok result →
        IsReady stages ∧ Decided env stages request s result) ∧
      (IsReady stages →
        (∀ pre i post c s' t, stages = pre ++ i :: post →
          runStages (BrainStage.run env) pre (.fromRequest request) s = ⟨.ok c, s', t⟩ →
          (BrainStage.flow i).needs ⊆ c.parts) ∧
        (∀ c s' t, runStages (BrainStage.run env) stages (.fromRequest request) s =
            ⟨.ok c, s', t⟩ →
          ∃ decision, c.decision = some decision ∧ execute env stages request s =
            ⟨.ok (.succeeded decision request.requestId), s', t⟩) ∧
        ∀ e s' t, runStages (BrainStage.run env) stages (.fromRequest request) s =
            ⟨.error e, s', t⟩ →
          execute env stages request s = ⟨.error e, s', t⟩) := by
  have hflows := BrainStage.flows env
  have hstart := BrainContext.parts_fromRequest request
  refine ⟨?_, ?_⟩
  · intro result hresult
    have hrun : execute env stages request s =
        ⟨.ok result, (execute env stages request s).state,
          (execute env stages request s).trace⟩ := by rw [← hresult]
    obtain ⟨c, s', t, _, hc, hlast, -⟩ := Act.bind_ok hrun
    obtain ⟨decision, hdecision, rfl⟩ : ∃ decision, c.decision = some decision ∧
        result = .succeeded decision request.requestId := by
      unfold conclude at hlast
      cases hdecision : c.decision with
      | none =>
        rw [hdecision] at hlast
        cases hlast
      | some decision =>
        rw [hdecision] at hlast
        obtain ⟨rfl, -, -⟩ := Act.pure_ok hlast
        exact ⟨decision, rfl, rfl⟩
    have hgoal : {ContextPart.decision} ⊆ c.parts := by
      rw [Finset.singleton_subset_iff, BrainContext.mem_parts]
      exact congrArg Option.isSome hdecision
    refine ⟨?_, decided_of_run hc hdecision⟩
    rw [IsReady, ← hstart]
    exact hflows.ready hc hgoal
  · intro hready
    rw [IsReady, ← hstart] at hready
    refine ⟨?_, ?_, ?_⟩
    · intro pre i post c s' t hsplit hrun
      rw [hsplit] at hready
      exact hflows.supplied hready hrun
    · intro c s' t hrun
      have hgoal := hflows.reaches hready hrun
      rw [Finset.singleton_subset_iff, BrainContext.mem_parts] at hgoal
      obtain ⟨decision, hdecision⟩ := Option.isSome_iff_exists.mp hgoal
      exact ⟨decision, hdecision, execute_of_run hrun hdecision⟩
    · intro e s' t hrun
      exact Act.run_bind_of_error hrun

end BrainPipeline

end IraOS
