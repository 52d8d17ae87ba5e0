import IraOS.Identity.Registry
import IraOS.Memory.Search
import Mathlib.Data.String.Basic

/-!
# Requests, and what is made of them

`core/brain/models.py`, `core/brain/context.py`, `core/brain/reasoning.py` and
`core/brain/decision.py`. What the type annotations say of a field is its Lean type, and a check of
a `__post_init__` that is not one of types is a field of the structure or made where the value is
built. The metadata of a request is a dictionary of plain values.

A context is what the stages hand on to one another. It has the request, and a place for what each
stage may put in; it is never changed, and a stage makes a new one from it.

The reasoning engine goes by words. A payload is made one line of text, whatever it was: a string, a
dictionary of which some keys are known, or something else; one that comes to nothing is an error.
The intent is what the metadata say, or else is guessed from words in that line.
-/

set_option autoImplicit false

namespace IraOS

open Lib

/-! ## core/brain/exceptions.py -/

def brainValidationError (message : String) : Exn :=
  ⟨.other "BrainValidationError", lit message⟩

def brainIdentityResolutionError (message : String) : Exn :=
  ⟨.other "BrainIdentityResolutionError", lit message⟩

def brainMemoryError (message : String) : Exn := ⟨.other "BrainMemoryError", lit message⟩

def brainPlannerError (message : String) : Exn := ⟨.other "BrainPlannerError", lit message⟩

def brainDecisionError (message : String) : Exn := ⟨.other "BrainDecisionError", lit message⟩

def brainProcessingError (message : String) : Exn := ⟨.other "BrainProcessingError", lit message⟩

/-! ## core/brain/models.py -/

/-- A dictionary among the values: its entries. -/
abbrev Entries := List (String × PyValue)

def immutableMapping : PyValue → Except Exn Entries
  | .none => .ok []
  | .dict entries => .ok entries
  | _ => .error (brainValidationError "Metadata must be a mapping.")

/-- `_immutable_string_tuple`; an item of a dictionary is a key. -/
def immutableStringTuple (py : Characters) (fieldName : String) :
    PyValue → Except Exn (List String)
  | .none => .ok []
  | .str s => .ok [s]
  | .list xs => .ok (xs.map py.str)
  | .dict entries => .ok (entries.map Prod.fst)
  | _ => .error (brainValidationError (fieldName ++ " must be a string or iterable of strings."))

inductive BrainDecisionType where
  | PLAN_READY | FAILED
  deriving DecidableEq, Repr

structure ConversationTurn where
  role : String
  content : String
  metadata : Entries := []
  roleNotEmpty : role ≠ ""

structure BrainRequest where
  requestId : String
  userId : String
  payload : PyValue
  metadata : PyDict := Dict.empty
  requestIdNotEmpty : requestId ≠ ""
  userIdNotEmpty : userId ≠ ""
  payloadNotNone : payload ≠ .none

structure BrainAnalysis where
  normalizedText : String
  intent : String
  memoryQueryText : String
  memoryTags : List String := []
  metadata : Entries := []

structure BrainIdentityContext where
  identityId : String
  username : String
  displayName : String
  active : Bool
  roles : List Role := []
  metadata : PyDict := Dict.empty

structure BrainPlannerInput where
  goalId : String
  requestId : String
  userId : String
  normalizedRequest : String
  intent : String
  memoryIds : List String := []
  metadata : Entries := []

structure BrainPlanSummary where
  goalId : String
  taskIds : List String
  estimatedSteps : Nat
  createdAt : Int

structure BrainDecision where
  requestId : String
  userId : String
  decisionType : BrainDecisionType
  planSummary : BrainPlanSummary
  memoryCount : Nat
  metadata : Entries := []

inductive BrainResult where
  | succeeded (decision : BrainDecision) (requestId : String)
  | failed (error : String) (requestId : String)

def BrainResult.success : BrainResult → Bool
  | .succeeded .. => true
  | .failed .. => false

/-! ## core/brain/context.py -/

structure BrainContext where
  request : BrainRequest
  identity : Option BrainIdentityContext := none
  conversationContext : List ConversationTurn := []
  retrievedMemory : List SearchResult := []
  analysis : Option BrainAnalysis := none
  plannerInput : Option BrainPlannerInput := none
  plannerOutput : Option BrainPlanSummary := none
  decision : Option BrainDecision := none

namespace BrainContext

def fromRequest (request : BrainRequest) : BrainContext := { request := request }

variable (c : BrainContext)

def withIdentity (identity : BrainIdentityContext) : BrainContext :=
  { c with identity := some identity }

def withConversationContext (turns : List ConversationTurn) : BrainContext :=
  { c with conversationContext := turns }

def withAnalysis (analysis : BrainAnalysis) : BrainContext := { c with analysis := some analysis }

def withRetrievedMemory (results : List SearchResult) : BrainContext :=
  { c with retrievedMemory := results }

def withPlannerInput (input : BrainPlannerInput) : BrainContext :=
  { c with plannerInput := some input }

def withPlannerOutput (output : BrainPlanSummary) : BrainContext :=
  { c with plannerOutput := some output }

def withDecision (decision : BrainDecision) : BrainContext := { c with decision := some decision }

end BrainContext

/-! ## core/brain/reasoning.py -/

def splitWords (s : String) : List String :=
  ((s.toList.splitOnP isSpace).filter fun word => !word.isEmpty).map String.ofList

/-- `f"{key}={payload[key]}"` for the keys in their order. -/
def keyedTexts (py : Characters) (entries : Entries) : List String :=
  ((entries.map Prod.fst).mergeSort fun k k' => decide (k ≤ k')).map fun key =>
    key ++ "=" ++ py.str ((entries.lookup key).getD .none)

namespace ReasoningEngine

variable (py : Characters)

/-- What `normalize_request` makes of a payload, before it looks whether it is empty. -/
def normalizedText : PyValue → String
  | .str s => " ".intercalate (splitWords s)
  | .dict entries => " ".intercalate (keyedTexts py entries)
  | v => strip (py.str v)

def normalizeRequest (payload : PyValue) : Except Exn String :=
  let normalized := normalizedText py payload
  if normalized.isEmpty then
    .error (brainValidationError "BrainRequest.payload must contain usable request content.")
  else .ok normalized

def questionWords : List String := ["what ", "why ", "how ", "when ", "where ", "who "]

def guessIntent (normalizedText : String) : String :=
  if questionWords.any fun word => (py.lower normalizedText).startsWith word then "answer"
  else "coordinate"

def prepareIntent (metadata : PyDict) (normalizedText : String) : String :=
  match metadata.get? "intent" with
  | none => guessIntent py normalizedText
  | some value =>
    let intent := strip (py.str value)
    if intent.isEmpty then guessIntent py normalizedText else intent

def analyze (c : BrainContext) : Except Exn BrainAnalysis := do
  let metadata := c.request.metadata
  let normalizedText ← normalizeRequest py c.request.payload
  let intent := prepareIntent py metadata normalizedText
  let memoryQuery := strip (py.str (metadata.getD "memory_query" (.str normalizedText)))
  let memoryTags ← immutableStringTuple py "BrainAnalysis.memory_tags"
    (metadata.getD "memory_tags" (.list []))
  pure
    { normalizedText := normalizedText
      intent := intent
      memoryQueryText := if memoryQuery.isEmpty then normalizedText else memoryQuery
      memoryTags := memoryTags
      metadata :=
        [("payload_type", .str c.request.payload.typeName),
          ("conversation_turns", .int c.conversationContext.length)] }

/-- `metadata.get("planner_goal_id") or metadata.get("goal_id") or ""`, as a string, stripped. -/
def goalId (metadata : PyDict) : String :=
  let first := metadata.getD "planner_goal_id" .none
  let second := metadata.getD "goal_id" .none
  strip (py.str (if first.truthy then first else if second.truthy then second else .str ""))

def preparePlannerInput (c : BrainContext) : Except Exn BrainPlannerInput :=
  match c.identity with
  | none => .error
      (brainProcessingError "Identity context is required before preparing planner input.")
  | some identity =>
    match c.analysis with
    | none => .error
        (brainProcessingError "Request analysis is required before preparing planner input.")
    | some analysis =>
      let goalId := goalId py c.request.metadata
      if goalId.isEmpty then
        .error (brainValidationError
          "BrainRequest.metadata.goal_id must be provided for planner invocation.")
      else .ok
        { goalId := goalId
          requestId := c.request.requestId
          userId := identity.identityId
          normalizedRequest := analysis.normalizedText
          intent := analysis.intent
          memoryIds := c.retrievedMemory.map fun result => result.record.id
          metadata :=
            [("memory_count", .int c.retrievedMemory.length), ("source", .str "Brain")] }

/-- One item of the conversation so far. -/
def conversationTurn : PyValue → Except Exn ConversationTurn
  | .dict entries =>
    let role := py.str ((entries.lookup "role").getD (.str "unknown"))
    if hrole : role = "" then
      .error (brainValidationError "ConversationTurn.role must not be empty.")
    else do
      let metadata ← immutableMapping ((entries.lookup "metadata").getD (.dict []))
      pure
        { role := role
          content := py.str ((entries.lookup "content").getD (.str ""))
          metadata := metadata
          roleNotEmpty := hrole }
  | _ => .error
      (brainValidationError
        "Conversation context items must be ConversationTurn or mapping values.")

def conversationContext : PyValue → Except Exn (List ConversationTurn)
  | .none => .ok []
  | .list items => items.mapM (conversationTurn py)
  | _ => .error
      (brainValidationError "BrainRequest.metadata.conversation_context must be a sequence.")

end ReasoningEngine

/-! ## core/brain/decision.py -/

def DecisionEngine.decide (c : BrainContext) : Except Exn BrainDecision :=
  match c.identity with
  | none => .error (brainDecisionError "Identity context is required for decision generation.")
  | some identity =>
    match c.plannerInput with
    | none => .error (brainDecisionError "Planner input is required for decision generation.")
    | some input =>
      match c.plannerOutput with
      | none => .error (brainDecisionError "Planner output is required for decision generation.")
      | some output => .ok
        { requestId := c.request.requestId
          userId := identity.identityId
          decisionType := .PLAN_READY
          planSummary := output
          memoryCount := c.retrievedMemory.length
          metadata :=
            [("intent", .str input.intent), ("planner_goal_id", .str input.goalId)] }

end IraOS
