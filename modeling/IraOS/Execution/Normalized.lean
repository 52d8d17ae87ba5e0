import IraOS.Execution.Pipeline
import IraOS.Execution.Results

/-!
# Exceptions that get out of `execute`

What a capability, a policy component, a sink or a confirmation raises is caught on the way, each at
its own place. Three things stand outside of every `try`:

* `ConfirmationProvider.supports`, which is asked when a provider is selected;
* the warning `ConfirmationManager` means to log when no provider supports the level, whose
  keyword `level` is one too many for the logger (`levelGivenTwice`);
* `MutatingCapability.supports_rollback`, which is asked when a mutation has failed.

The first two are the two ways `findProvider` has of raising. `Escapes` says when each of them is
reached and raises, by what is handed to the kernel and by nothing the kernel computes. On a bus
that delivers, nothing else gets out (`execute_error_iff`), so a call is normalized exactly where
none of them is met (`execute_returns_iff`).

## What is assumed, and what it leaves out

Commands have ids and the service has a mutation manager: a command without ids is refused by an
exception on purpose, and a service without the manager cannot take a mutation. The bus delivers. A
bus that raises gets through at many publish statements, and says nothing about whether the pipeline
normalizes what capabilities and components do.

Other tasks may do anything at any await. That makes the condition long: the capability that is
asked about its rollback is the one resolved, the one that fails is the one looked up in the end,
and the policies are asked in the worlds in between. `Enters` and `awaits` are there to say in which
world each of them is.
-/

set_option autoImplicit false

namespace IraOS

open Lib ConfirmationManager

variable {δ : Type}

namespace DefaultExecutionService

open DefaultMutationManager (GoesAhead QueryRaises)
open DefaultProtectedDispatcher (Asks Allows FailsAfter)

structure Mutates (env : Env δ) (command : ExecutionCommand) (w : World δ) (inst : CapabilityRef)
    (info : MutationInfo) : Prop where
  found : (atClassification env w).registry.get? command.capabilityId = some inst
  metadata : (env.objects inst).metadata.mutation = some info
  flagged : info.isMutation = some true

def awaits (info : MutationInfo) : List Await :=
  DefaultMutationManager.awaits info ++ [.publish .mutationStarted]

def ConfirmedFor (env : Env δ) (command : ExecutionCommand) (w : World δ) (info : MutationInfo) :
    Prop :=
  GoesAhead env (DefaultMutationManager.contextOf command (uuidAt w.uuids)) info

inductive Enters (env : Env δ) (command : ExecutionCommand) (w : World δ) : Nat → Prop where
  | read (unmutating : ∀ inst info, ¬ Mutates env command w inst info) :
      Enters env command w w.uuids
  | mutation {inst info} (mutates : Mutates env command w inst info)
      (confirmed : ConfirmedFor env command w info) : Enters env command w (w.uuids + 1)

/-- What gets out of a call: the exception that one of the three places raises, where the call gets
to that place. -/
inductive Escapes (env : Env δ) (command : ExecutionCommand) (w : World δ) : Exn → Prop where
  /-- A mutation is to be confirmed, and no provider is found: one raises before one supports the
  level, or none supports it. -/
  | confirmation {inst info exc} (mutates : Mutates env command w inst info)
      (level : info.confirmationLevel ≠ .NONE)
      (raises : findProvider info.confirmationLevel env.providers = .error exc) :
      Escapes env command w exc
  /-- The policies ask for the user's approval, and no provider is found for USER, in the same two
  ways. -/
  | approval {n result exc} (enters : Enters env command w n) (asks : Asks env command n result)
      (raises : findProvider .USER env.providers = .error exc) : Escapes env command w exc
  /-- A mutation is let through and fails, and its capability raises when it is asked whether it
  can undo that. -/
  | rollbackQuery {inst info result mutating exc} (mutates : Mutates env command w inst info)
      (confirmed : ConfirmedFor env command w info)
      (allows : Allows env command (w.uuids + 1) result)
      (fails : FailsAfter env command ((atClassification env w).passed env (awaits info) 0) result)
      (query : QueryRaises env command inst info mutating exc) : Escapes env command w exc

section Execute

variable {env : Env δ} {command : ExecutionCommand} {w : World δ} {exc : Exn}

theorem Mutates.unique {inst inst' : CapabilityRef} {info info' : MutationInfo}
    (h : Mutates env command w inst info) (h' : Mutates env command w inst' info') :
    inst' = inst ∧ info' = info := by
  obtain rfl := Option.some.inj (h.found.symm.trans h'.found)
  exact ⟨rfl, Option.some.inj (h'.metadata.symm.trans h.metadata)⟩

theorem isMutation_iff {metadata : CapabilityMetadata} :
    DefaultExecutionClassifier.isMutation metadata = true ↔
      ∃ info, metadata.mutation = some info ∧ info.isMutation = some true := by
  unfold DefaultExecutionClassifier.isMutation
  cases metadata.mutation with
  | none => simp
  | some info => cases hm : info.isMutation <;> simp [hm]

theorem classify_cases (env : Env δ) (command : ExecutionCommand) (w : World δ) :
    (∃ inst info, Mutates env command w inst info ∧ DefaultExecutionClassifier.classify env.objects
      (atClassification env w).registry command = (some inst, .MUTATION)) ∨
    ((∀ inst info, ¬ Mutates env command w inst info) ∧
      ∃ found, DefaultExecutionClassifier.classify env.objects
        (atClassification env w).registry command = (found, .READ)) := by
  unfold DefaultExecutionClassifier.classify InMemoryCapabilityRegistry.lookup
  cases hget : (atClassification env w).registry.get? command.capabilityId with
  | none => exact Or.inr ⟨fun _ _ h => (by cases hget.symm.trans h.found), none, rfl⟩
  | some inst =>
    dsimp only
    by_cases hmutation : DefaultExecutionClassifier.isMutation (env.objects inst).metadata = true
    · obtain ⟨info, hmeta, hflag⟩ := isMutation_iff.mp hmutation
      exact Or.inl ⟨inst, info, ⟨hget, hmeta, hflag⟩, by rw [if_pos hmutation]⟩
    · refine Or.inr ⟨fun inst' info h => hmutation ?_, some inst, by rw [if_neg hmutation]⟩
      obtain rfl := Option.some.inj (hget.symm.trans h.found)
      exact isMutation_iff.mpr ⟨info, h.metadata, h.flagged⟩

theorem execute_result (hbus : env.BusDelivers) (hcommand : command.commandId ≠ "")
    (hcapability : command.capabilityId ≠ "") :
    (execute env command w).result = (route env command
      (DefaultExecutionClassifier.classify env.objects (atClassification env w).registry command).2
      (atClassification env w)).result := by
  have hvalidate : validate command = .ok () := by
    simp [validate, hcommand, hcapability]
  unfold execute
  rw [hvalidate, Act.bind_ofExcept, Act.run_bind_of_ok (run_publish_delivers (hbus _) ..)]
  rfl

theorem processMutation_result {inst : CapabilityRef}
    (h : (atClassification env w).registry.get? command.capabilityId = some inst) :
    (route env command .MUTATION (atClassification env w)).result
      = if env.mutationManager then (DefaultMutationManager.processFound env
        (DefaultProtectedDispatcher.dispatch env)
        (DefaultMutationManager.contextOf command (uuidAt w.uuids)) command inst
        ((atClassification env w).passed env [] 1)).result
        else .error ⟨.executionRuntimeError,
          lit "MutationManager is required for MUTATION execution."⟩ := by
  rw [route]
  split
  · rw [Act.bind_emit, DefaultMutationManager.processMutation_found env command _ h]
    rfl
  · rfl

/-- **What gets out of a call** with ids, with a mutation manager, on a bus that delivers. -/
theorem execute_error_iff (hbus : env.BusDelivers) (hmanager : env.mutationManager = true)
    (hcommand : command.commandId ≠ "") (hcapability : command.capabilityId ≠ "") :
    (execute env command w).result = .error exc ↔ Escapes env command w exc := by
  rw [execute_result hbus hcommand hcapability]
  rcases classify_cases env command w with
    ⟨inst, info, hmutates, hclassify⟩ | ⟨hread, found, hclassify⟩
  -- a mutation: its confirmation can raise, then the dispatch, then the question of the rollback
  · rw [hclassify, processMutation_result hmutates.found, if_pos hmanager,
      DefaultMutationManager.processFound_error_iff hbus hmutates.metadata]
    dsimp only
    rw [World.passed_passed, DefaultProtectedDispatcher.dispatch_error_iff hbus,
      DefaultProtectedDispatcher.dispatch_failed_iff hbus]
    constructor
    · rintro (⟨hl, hselect⟩ | ⟨hconfirmed, ⟨⟨result, hasks⟩, hselect⟩ |
        ⟨⟨result, hallows, hfails⟩, mutating, hquery⟩⟩)
      · exact .confirmation hmutates hl hselect
      · exact .approval (.mutation hmutates hconfirmed) hasks hselect
      · exact .rollbackQuery hmutates hconfirmed hallows hfails hquery
    · rintro (⟨hmutates', hl, hselect⟩ | ⟨henters, hasks, hselect⟩ |
        ⟨hmutates', hconfirmed, hallows, hfails, hquery⟩)
      · obtain ⟨rfl, rfl⟩ := hmutates.unique hmutates'
        exact Or.inl ⟨hl, hselect⟩
      · rcases henters with ⟨hread⟩ | ⟨hmutates', hconfirmed⟩
        · exact absurd hmutates (hread _ _)
        · obtain ⟨rfl, rfl⟩ := hmutates.unique hmutates'
          exact Or.inr ⟨hconfirmed, Or.inl ⟨⟨_, hasks⟩, hselect⟩⟩
      · obtain ⟨rfl, rfl⟩ := hmutates.unique hmutates'
        exact Or.inr ⟨hconfirmed, Or.inr ⟨⟨_, hallows, hfails⟩, _, hquery⟩⟩
  -- a read: only the dispatch can
  · have hroute : (route env command .READ (atClassification env w)).result
        = (DefaultProtectedDispatcher.dispatch env command (atClassification env w)).result := rfl
    rw [hclassify, hroute, DefaultProtectedDispatcher.dispatch_error_iff hbus]
    constructor
    · rintro ⟨⟨result, hasks⟩, hselect⟩
      exact .approval (.read hread) hasks hselect
    · rintro (⟨hmutates, _⟩ | ⟨henters, hasks, hselect⟩ | ⟨hmutates, _⟩)
      · exact absurd hmutates (hread _ _)
      · rcases henters with _ | ⟨hmutates, _⟩
        · exact ⟨⟨_, hasks⟩, hselect⟩
        · exact absurd hmutates (hread _ _)
      · exact absurd hmutates (hread _ _)

/-- **A call is normalized** exactly where nothing escapes: on a bus that delivers, a well-formed
command comes to an outcome, and not to an exception, unless one of the exceptions in `Escapes` is
raised, none of which the service, the dispatcher or the mutation manager catches. -/
theorem execute_returns_iff (hbus : env.BusDelivers) (hmanager : env.mutationManager = true)
    (hcommand : command.commandId ≠ "") (hcapability : command.capabilityId ≠ "") :
    (∃ outcome, (execute env command w).result = .ok outcome) ↔
      ∀ exc, ¬ Escapes env command w exc := by
  cases hresult : (execute env command w).result with
  | error exc =>
    have hescapes := (execute_error_iff hbus hmanager hcommand hcapability).mp hresult
    exact iff_of_false (by simp) fun h => h exc hescapes
  | ok outcome =>
    refine iff_of_true ⟨outcome, rfl⟩ fun exc h => ?_
    cases hresult.symm.trans ((execute_error_iff hbus hmanager hcommand hcapability).mpr h)

/-- … a command that is granted and run. -/
theorem execute_returns_ping :
    let env := Env.alone (fun _ => ping) (DefaultPolicyEvaluator.granting "ping" .UNTRUSTED false)
    (∃ outcome, (execute env pingCommand (World.holding "ping" 0 ())).result = .ok outcome) ∧
      ∀ exc, ¬ Escapes env pingCommand (World.holding "ping" 0 ()) exc := by
  intro env
  have hreturns : ∃ outcome, (execute env pingCommand (World.holding "ping" 0 ())).result
      = .ok outcome := ⟨_, rfl⟩
  refine ⟨hreturns, (execute_returns_iff ?_ rfl ?_ ?_).mp hreturns⟩
  · exact Env.alone_busDelivers _ _
  · decide
  · decide

def brokenProvider : ConfirmationProvider where
  supports _ := .error ⟨.other "RuntimeError", lit "not connected"⟩
  requestConfirmation _ _ := .ok true

theorem supports_escapes :
    let env := { Env.alone (fun _ => ping) (DefaultPolicyEvaluator.granting "ping" .UNTRUSTED true)
      with providers := [brokenProvider] }
    env.BusDelivers ∧ env.mutationManager = true ∧
      (execute env pingCommand (World.holding "ping" 0 ())).result
        = .error ⟨.other "RuntimeError", lit "not connected"⟩ ∧
      ¬ ∃ outcome, (execute env pingCommand (World.holding "ping" 0 ())).result = .ok outcome := by
  intro env
  have hraise : (execute env pingCommand (World.holding "ping" 0 ())).result
      = .error ⟨.other "RuntimeError", lit "not connected"⟩ := rfl
  refine ⟨fun _ => rfl, rfl, hraise, ?_⟩
  rintro ⟨outcome, h⟩
  cases hraise.symm.trans h

-- with nobody to ask at all, the denial that was meant is a `TypeError` of the logger's
example : (execute (Env.alone (fun _ => ping) (DefaultPolicyEvaluator.granting "ping" .UNTRUSTED
    true)) pingCommand (World.holding "ping" 0 ())).result = .error levelGivenTwice := rfl

end Execute

end DefaultExecutionService

end IraOS
