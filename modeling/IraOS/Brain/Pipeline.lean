import IraOS.Brain.Models
import IraOS.Lib.Stages
import IraOS.Planner.Manager

/-!
# The pipeline and the manager

`core/brain/pipeline.py` and `core/brain/manager.py`, over the identities, the memory and the
planner the stages are built with. A request is run to its end with nothing in between; what is
logged is left out.

## Stages

The eight stages are eight constructors, and a pipeline is a list of them. A stage takes a context
and gives one; all but the one that asks the planner only read the stores, and are functions into
`Except`. `execute` runs the stages in the order of the list and wants a decision at the end.

## The manager

`process_request` takes whatever it is given. If that is no request it announces a failure and
returns one. If it is, it announces that the request was received; then it runs the pipeline and
announces the completion, these two within one `try`: what is raised in it is told as a failure, of
which nothing but a fixed message is said. So a bus which raises at the completion makes a failure
of a request that was decided.

A bus is how its `publish` of an event ends. The one of the manager need not be that of the planner
or of the memory, and there may be none.
-/

set_option autoImplicit false

namespace IraOS

open Lib

/-! ## What the stages work on -/

structure BrainState where
  identities : IdentityRegistry := .empty
  planner : PlannerState := {}

inductive BrainEvent where
  | brainRequestStarted (requestId userId : String)
  | brainRequestCompleted (requestId : String) (success : Bool)
  | brainRequestFailed (requestId error : String)
  deriving DecidableEq

inductive BrainEntry where
  | planner (entry : PlannerEntry)
  | brain (event : BrainEvent)

def BrainEntry.event? : BrainEntry → Option BrainEvent
  | .planner _ => none
  | .brain event => some event

abbrev BrainAct := Act BrainState Exn BrainEntry

/-- A set of ids enumerates in some order. Which one is not known; while one request is answered,
the same set enumerates the same each time. -/
structure IdOrder where
  order : Finset String → List String
  enumerates : ∀ ids, Enumerates (order ids) ids

/-- What one request meets with: how strings convert and sets enumerate, the planner it is built
with, the id `uuid4` draws, and the time. -/
structure BrainEnv where
  py : Characters
  ids : IdOrder
  planner : PlannerManager
  uuid : String
  now : Int

/-! ## core/brain/pipeline.py -/

inductive BrainStage where
  | validateRequest
  | conversationContext
  | resolveIdentity
  | analyzeRequest
  | retrieveMemory
  | buildPlannerInput
  | invokePlanner
  | makeDecision
  deriving DecidableEq, Repr

namespace BrainStage

variable (env : BrainEnv)

/-- `ValidateRequestStage.run`. -/
def runValidateRequest (c : BrainContext) : Except Exn BrainContext :=
  if c.request.requestId.isEmpty then
    .error (brainValidationError "BrainRequest.request_id must not be empty.")
  else if c.request.userId.isEmpty then
    .error (brainValidationError "BrainRequest.user_id must not be empty.")
  else
    match c.request.payload with
    | .none => .error (brainValidationError "BrainRequest.payload must not be None.")
    | _ => .ok c

/-- `ConversationContextStage.run`. -/
def runConversationContext (c : BrainContext) : Except Exn BrainContext := do
  let turns ← ReasoningEngine.conversationContext env.py
    (c.request.metadata.getD "conversation_context" .none)
  pure (c.withConversationContext turns)

def fromIdentity (identity : Identity) : Except Exn BrainIdentityContext :=
  if identity.id.isEmpty then
    .error (brainValidationError "BrainIdentityContext.identity_id must not be empty.")
  else .ok
    { identityId := identity.id
      username := identity.username
      displayName := identity.displayName
      active := identity.active
      roles := identity.roles
      metadata := identity.metadata }

/-- `ResolveIdentityStage.run`. -/
def runResolveIdentity (identities : IdentityRegistry) (c : BrainContext) :
    Except Exn BrainContext :=
  match identities.get c.request.userId with
  | none => .error (brainIdentityResolutionError "Brain identity could not be resolved.")
  | some identity =>
    if identity.active = false then
      .error (brainIdentityResolutionError "Brain identity is inactive.")
    else do
      let identity ← fromIdentity identity
      pure (c.withIdentity identity)

/-- `AnalyzeRequestStage.run`. -/
def runAnalyzeRequest (c : BrainContext) : Except Exn BrainContext := do
  let analysis ← ReasoningEngine.analyze env.py c
  pure (c.withAnalysis analysis)

/-- `int(metadata.get("memory_limit", 10))`, with the handler around it. -/
def memoryLimit (metadata : PyDict) : Except Exn Int :=
  match (metadata.getD "memory_limit" (.int 10)).toInt with
  | .ok limit => .ok limit
  | .error exc =>
    if exc.cls = .typeError ∨ exc.cls = .valueError then
      .error (brainValidationError "BrainRequest.metadata.memory_limit must be an integer.")
    else .error exc

def searchQuery (metadata : PyDict) (analysis : BrainAnalysis) (limit : Int) :
    Except Exn SearchQuery :=
  if hlimit : 0 < limit then .ok
    { text := analysis.memoryQueryText
      tags := analysis.memoryTags
      «namespace» := (metadata.get? "memory_namespace").bind fun
        | .none => none
        | value => some (env.py.str value)
      limit := limit
      valid := hlimit }
  else .error ⟨.memoryValidationError, lit "SearchQuery.limit must be greater than zero."⟩

def runRetrieveMemory (memory : MemoryIndex) (c : BrainContext) : Except Exn BrainContext :=
  match c.analysis with
  | none => .error (brainMemoryError "Request analysis is required before memory retrieval.")
  | some analysis => do
    let limit ← memoryLimit c.request.metadata
    let query ← searchQuery env c.request.metadata analysis limit
    match SearchEngine.search env.py memory
        (env.ids.order (SearchEngine.candidateIds memory query)) query with
    | .ok results => .ok (c.withRetrievedMemory results)
    | .error _ => .error (brainMemoryError "Brain memory retrieval failed.")

/-- `BuildPlannerInputStage.run`. -/
def runBuildPlannerInput (c : BrainContext) : Except Exn BrainContext := do
  let input ← ReasoningEngine.preparePlannerInput env.py c
  pure (c.withPlannerInput input)

def planSummary (plan : ExecutionPlan) : BrainPlanSummary where
  goalId := plan.goal.id
  taskIds := plan.tasks.map Task.id
  estimatedSteps := plan.estimatedSteps
  createdAt := plan.createdAt

/-- `build_plan(goal_id)` of the planner's manager. -/
def buildPlan (goalId : String) : BrainAct PlanResult :=
  Act.focus BrainState.planner (fun planner s => { s with planner := planner }) .planner
    (env.planner.buildPlan goalId env.uuid env.now)

/-- `InvokePlannerStage.run`. -/
def runInvokePlanner (c : BrainContext) : BrainAct BrainContext :=
  match c.plannerInput with
  | none => Act.throw (brainPlannerError "Planner input is required before planner invocation.")
  | some input => do
    let result ← buildPlan env input.goalId
    match result.success, result.plan with
    | true, some plan => pure (c.withPlannerOutput (planSummary plan))
    | _, _ => Act.throw (brainPlannerError "Brain planner invocation failed.")

/-- `MakeDecisionStage.run`; `decide` raises a `BrainDecisionError` or nothing. -/
def runMakeDecision (c : BrainContext) : Except Exn BrainContext := do
  let decision ← DecisionEngine.decide c
  pure (c.withDecision decision)

def run : BrainStage → BrainContext → BrainAct BrainContext
  | .validateRequest, c => Act.ofExcept (runValidateRequest c)
  | .conversationContext, c => Act.ofExcept (runConversationContext env c)
  | .resolveIdentity, c => do
    let s ← Act.get
    Act.ofExcept (runResolveIdentity s.identities c)
  | .analyzeRequest, c => Act.ofExcept (runAnalyzeRequest env c)
  | .retrieveMemory, c => do
    let s ← Act.get
    Act.ofExcept (runRetrieveMemory env s.planner.memory c)
  | .buildPlannerInput, c => Act.ofExcept (runBuildPlannerInput env c)
  | .invokePlanner, c => runInvokePlanner env c
  | .makeDecision, c => Act.ofExcept (runMakeDecision c)

end BrainStage

namespace BrainPipeline

/-- The stages `BrainModule` builds the pipeline with. -/
def shipped : List BrainStage :=
  [.validateRequest, .conversationContext, .resolveIdentity, .analyzeRequest, .retrieveMemory,
    .buildPlannerInput, .invokePlanner, .makeDecision]

/-- What `execute` does after the stages. -/
def conclude (request : BrainRequest) (c : BrainContext) : BrainAct BrainResult :=
  match c.decision with
  | none => Act.throw (brainDecisionError "Brain pipeline completed without a decision.")
  | some decision => pure (.succeeded decision request.requestId)

def execute (env : BrainEnv) (stages : List BrainStage) (request : BrainRequest) :
    BrainAct BrainResult := do
  let c ← runStages (BrainStage.run env) stages (.fromRequest request)
  conclude request c

end BrainPipeline

/-! ## core/brain/manager.py -/

/-- What is passed to `process_request`: a request, or something else that may have a `request_id`
and a `user_id`. -/
inductive BrainInput where
  | request (request : BrainRequest)
  | other (requestId userId : Option String)

/-- The pipeline of a manager and its bus, if there is one, by how `publish` of an event ends. -/
structure BrainManager where
  stages : List BrainStage := BrainPipeline.shipped
  eventBus : Option (BrainEvent → Except Exn Unit)

namespace BrainManager

variable (m : BrainManager) (env : BrainEnv)

/-- `getattr(request, "request_id", "unknown") or "unknown"`. -/
def orUnknown : Option String → String
  | some s => if s.isEmpty then "unknown" else s
  | none => "unknown"

def getRequestId : BrainInput → String
  | .request request => request.requestId
  | .other requestId _ => orUnknown requestId

def getUserId : BrainInput → String
  | .request request => request.userId
  | .other _ userId => orUnknown userId

def publish (event : BrainEvent) : BrainAct Unit :=
  match m.eventBus with
  | none => pure ()
  | some answer => do
    Act.emit (.brain event)
    Act.ofExcept (answer event)

/-- `_fail(request_id, public_message, exc)`; of the exception nothing is told but the message. -/
def fail (requestId publicMessage : String) : BrainAct BrainResult := do
  m.publish (.brainRequestFailed requestId publicMessage)
  pure (.failed publicMessage requestId)

/-- The body of the `try`. -/
def attemptRequest (request : BrainRequest) : BrainAct BrainResult := do
  let result ← BrainPipeline.execute env m.stages request
  m.publish (.brainRequestCompleted request.requestId result.success)
  pure result

def processRequest (input : BrainInput) : BrainAct BrainResult :=
  match input with
  | .other .. => m.fail (getRequestId input) "Invalid BrainRequest object."
  | .request request => do
    m.publish (.brainRequestStarted (getRequestId input) (getUserId input))
    let result ← Act.attempt (m.attemptRequest env request)
    match result with
    | .ok result => pure result
    | .error _ => m.fail (getRequestId input) "Brain request processing failed."

end BrainManager

end IraOS
