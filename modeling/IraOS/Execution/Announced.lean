import IraOS.Execution.Dispatch
import IraOS.Lib.Follows

/-!
# What a dispatch announces

The events of `core/execution/events.py` one dispatch publishes, and the order they come in. An
observer of them is in a `Phase`; `dispatch_follows` keeps the dispatcher to what each phase allows,
and `announces_of_exec` lists the words that lead to an end.

There are four words. A denial is one event; an authorized command has two or three, ending with the
event of its status; and a command that is authorized and then not found, or that cannot be
dispatched, is authorized and failed, without having been dispatched. **Each word ends with one
terminal event, and that is the status of the outcome**: no dispatch that returns has announced two
ends, or an end that is not its own.

The protocol is about the events that reach the subscribers. An event on which the bus raises on the
way to them is not seen and does not move the phase, which is why a failure may follow an
authorization directly. That a dispatch may raise, and then has announced a beginning of a word, is
left open: the results are about dispatches that return.

Security's events and those of a capability's own code pass without moving the phase
(`authorization_unseen`).
-/

set_option autoImplicit false

namespace IraOS

open Lib

variable {δ : Type}

def Event.executionIds : Event → Option (String × String)
  | .executionRequested commandId capabilityId
  | .executionAuthorized commandId capabilityId
  | .executionDispatched commandId capabilityId
  | .executionSucceeded commandId capabilityId _
  | .executionDenied commandId capabilityId _
  | .executionFailed commandId capabilityId _ => some (commandId, capabilityId)
  | _ => none

def Entry.executionEvent : Entry → Option Event
  | .event e => if e.executionIds.isSome then some e else none
  | _ => none

namespace DefaultProtectedDispatcher

inductive Phase where
  | start | authorized | dispatched
  | ended (status : ExecutionOutcomeStatus)

/-- The event that can come next, and where it leads. -/
def Phase.next : Phase → Event → Option Phase
  | .start, .executionDenied .. => some (.ended .DENIED)
  | .start, .executionAuthorized .. => some .authorized
  | .authorized, .executionDispatched .. => some .dispatched
  | .authorized, .executionFailed .. => some (.ended .FAILED)
  | .dispatched, .executionFailed .. => some (.ended .FAILED)
  | .dispatched, .executionSucceeded .. => some (.ended .SUCCEEDED)
  | _, _ => none

def protocol (command : ExecutionCommand) : System Phase Event where
  step φ e :=
    if e.executionIds = some (command.commandId, command.capabilityId) then φ.next e else none

def watched (command : ExecutionCommand) : System Phase Entry :=
  (protocol command).watching Entry.executionEvent

/-- The events of a dispatch that ends with a status: a denial; or an authorization, the dispatch
unless it came to nothing, and the end. -/
inductive Announces (command : ExecutionCommand) : ExecutionOutcomeStatus → List Event → Prop where
  | denied (reason : Text) : Announces command .DENIED
      [.executionDenied command.commandId command.capabilityId reason]
  | undispatched (error : Text) : Announces command .FAILED
      [.executionAuthorized command.commandId command.capabilityId,
        .executionFailed command.commandId command.capabilityId error]
  | failed (error : Text) : Announces command .FAILED
      [.executionAuthorized command.commandId command.capabilityId,
        .executionDispatched command.commandId command.capabilityId,
        .executionFailed command.commandId command.capabilityId error]
  | succeeded (resultData : PyAny) : Announces command .SUCCEEDED
      [.executionAuthorized command.commandId command.capabilityId,
        .executionDispatched command.commandId command.capabilityId,
        .executionSucceeded command.commandId command.capabilityId resultData]

/-! ## The words of the protocol -/

section Words

variable {command : ExecutionCommand} {φ φ' : Phase} {e : Event} {es : List Event}
  {status : ExecutionOutcomeStatus}

theorem protocol_step (h : (protocol command).step φ e = some φ') :
    e.executionIds = some (command.commandId, command.capabilityId) ∧ φ.next e = some φ' := by
  unfold protocol at h
  dsimp only at h
  split at h
  · next hids => exact ⟨hids, h⟩
  · cases h

theorem exec_ended {status' : ExecutionOutcomeStatus}
    (h : (protocol command).exec (.ended status') es = some (.ended status)) :
    es = [] ∧ status' = status := by
  cases es with
  | nil =>
    cases h
    exact ⟨rfl, rfl⟩
  | cons e es =>
    obtain ⟨_, hstep, _⟩ := System.exec_cons_some h
    cases e <;> cases (protocol_step hstep).2

theorem announces_dispatched (h : (protocol command).exec .dispatched es = some (.ended status)) :
    Announces command status
      (.executionAuthorized command.commandId command.capabilityId ::
        .executionDispatched command.commandId command.capabilityId :: es) := by
  cases es with
  | nil => cases h
  | cons e es =>
    obtain ⟨φ, hstep, hrest⟩ := System.exec_cons_some h
    obtain ⟨hids, hnext⟩ := protocol_step hstep
    cases e with
    | executionFailed commandId capabilityId error =>
      cases hnext
      cases hids
      obtain ⟨rfl, rfl⟩ := exec_ended hrest
      exact .failed error
    | executionSucceeded commandId capabilityId resultData =>
      cases hnext
      cases hids
      obtain ⟨rfl, rfl⟩ := exec_ended hrest
      exact .succeeded resultData
    | _ => cases hnext

theorem announces_authorized (h : (protocol command).exec .authorized es = some (.ended status)) :
    Announces command status
      (.executionAuthorized command.commandId command.capabilityId :: es) := by
  cases es with
  | nil => cases h
  | cons e es =>
    obtain ⟨φ, hstep, hrest⟩ := System.exec_cons_some h
    obtain ⟨hids, hnext⟩ := protocol_step hstep
    cases e with
    | executionDispatched commandId capabilityId =>
      cases hnext
      cases hids
      exact announces_dispatched hrest
    | executionFailed commandId capabilityId error =>
      cases hnext
      cases hids
      obtain ⟨rfl, rfl⟩ := exec_ended hrest
      exact .undispatched error
    | _ => cases hnext

theorem announces_of_exec (h : (protocol command).exec .start es = some (.ended status)) :
    Announces command status es := by
  cases es with
  | nil => cases h
  | cons e es =>
    obtain ⟨φ, hstep, hrest⟩ := System.exec_cons_some h
    obtain ⟨hids, hnext⟩ := protocol_step hstep
    cases e with
    | executionAuthorized commandId capabilityId =>
      cases hnext
      cases hids
      exact announces_authorized hrest
    | executionDenied commandId capabilityId reason =>
      cases hnext
      cases hids
      obtain ⟨rfl, rfl⟩ := exec_ended hrest
      exact .denied reason
    | _ => cases hnext

end Words

/-! ## The dispatcher keeps to it -/

section Follows

variable {env : Env δ} {command : ExecutionCommand} {φ φ' : Phase}

theorem publish_follows {site : PublishSite} {e : Event}
    (hids : e.executionIds = some (command.commandId, command.capabilityId))
    (hnext : φ.next e = some φ') :
    Act.Follows (watched command) φ (publish env site e)
      fun r ψ => ψ = φ' ∨ ψ = φ ∧ ∃ exc, r = .error exc where
  run w := by
    have hone : (watched command).exec φ [.event e] = some φ' := by
      rw [watched, System.exec_watching]
      simp [Entry.executionEvent, hids, System.exec_cons, protocol, hnext]
    rw [run_publish]
    -- a bus that raises has handed the event on before, or has not at all
    cases env.bus site with
    | delivers => exact ⟨φ', hone, Or.inl rfl⟩
    | raisesBefore exc => exact ⟨φ, rfl, Or.inr ⟨rfl, exc, rfl⟩⟩
    | raisesAfter exc => exact ⟨φ', hone, Or.inl rfl⟩

theorem authorization_unseen (env : Env δ) (command : ExecutionCommand) :
    Act.EmitsOnly (fun x => ∀ φ, (watched command).step φ x = some φ)
      (authorization env command) := by
  have hblank : ∀ {x : Entry}, x.executionEvent = none →
      ∀ φ, (watched command).step φ x = some φ := by
    intro x hx φ
    simp [watched, System.watching, hx]
  refine .bind (.nothing fun _ => rfl) fun _ => .bind ?_ fun result => ?_
  · refine (SecurityManager.checkPermission_emits ..).mono ?_
    intro x hx
    apply hblank
    cases x with
    | event e => cases e <;> first | rfl | cases hx
    | _ => rfl
  · refine .ite (.ite (.bind (.nothing fun _ => rfl) fun _ => .bind ?_ fun _ => ?_) (.pure _))
      (.ite (.pure _) (.pure _))
    · refine (ConfirmationManager.requestConfirmation_emits ..).mono ?_
      rintro x ⟨answer, rfl⟩
      exact hblank rfl
    · exact .ite (.pure _) (.pure _)

def Ends (command : ExecutionCommand) (r : Except Exn ExecutionOutcome) (φ : Phase) : Prop :=
  ∀ outcome, r = .ok outcome → φ = .ended outcome.status ∧ outcome.commandId = command.commandId

theorem ends_error (exc : Exn) (φ : Phase) : Ends command (.error exc) φ := by
  intro outcome h
  cases h

theorem last_follows {site : PublishSite} {e : Event} {outcome : ExecutionOutcome}
    (hids : e.executionIds = some (command.commandId, command.capabilityId))
    (hnext : φ.next e = some (.ended outcome.status))
    (hcommand : outcome.commandId = command.commandId) :
    Act.Follows (watched command) φ (publish env site e >>= fun _ => pure outcome)
      (Ends command) := by
  refine (publish_follows hids hnext).bind ?_ fun exc ψ _ => ends_error exc ψ
  rintro _ ψ (rfl | ⟨_, exc, hr⟩)
  · refine .pure ?_
    rintro _ ⟨⟩
    exact ⟨rfl, hcommand⟩
  · cases hr

theorem runtime_follows : Act.Follows (watched command) .authorized (runtime env command)
    fun r φ => φ = .dispatched ∨ φ = .authorized ∧ ∃ exc, r = .error exc := by
  refine .bind (.unseen (Q := fun _ φ => φ = .authorized) (.nothing fun _ => rfl) fun _ => rfl) ?_
    fun exc φ h => Or.inr ⟨h, exc, rfl⟩
  rintro w _ rfl
  refine .bind (.ofExcept (Q := fun _ φ => φ = .authorized) rfl) ?_
    fun exc φ h => Or.inr ⟨h, exc, rfl⟩
  rintro inst _ rfl
  have hdispatched : Phase.next .authorized
      (.executionDispatched command.commandId command.capabilityId) = some .dispatched := rfl
  refine (publish_follows rfl hdispatched).bind ?_ ?_
  · rintro _ _ (rfl | ⟨_, exc, hr⟩)
    · exact ⟨fun w => ⟨.dispatched, rfl, Or.inl rfl⟩⟩
    · cases hr
  · rintro exc φ (rfl | ⟨rfl, _⟩)
    · exact Or.inl rfl
    · exact Or.inr ⟨rfl, exc, rfl⟩

theorem dispatchAuthorized_follows :
    Act.Follows (watched command) .start (dispatchAuthorized env command) (Ends command) := by
  have hauthorized : Phase.next .start
      (.executionAuthorized command.commandId command.capabilityId) = some .authorized := rfl
  refine (publish_follows rfl hauthorized).bind ?_ fun exc φ _ => ends_error exc φ
  rintro _ _ (rfl | ⟨_, exc, hr⟩)
  case inr => cases hr
  -- a runtime that raises is caught, and its failure is the one terminal event
  refine (Act.Follows.attempt (P := fun x φ => ∃ ran, x = .ok ran ∧
    (φ = .dispatched ∨ φ = .authorized ∧ ∃ exc, ran = .error exc))
    (runtime_follows.mono fun r φ h => ⟨r, rfl, h⟩)).bind ?_ ?_
  · rintro ran φ ⟨_, ⟨⟩, hran⟩
    cases ran with
    | error exc => rcases hran with rfl | ⟨rfl, _⟩ <;> exact last_follows rfl rfl rfl
    | ok result =>
      rcases hran with rfl | ⟨_, exc, hr⟩
      · exact last_follows rfl rfl rfl
      · cases hr
  · rintro exc φ ⟨_, hr, _⟩
    cases hr

theorem dispatch_follows :
    Act.Follows (watched command) .start (dispatch env command) (Ends command) := by
  refine .bind (.unseen (Q := fun _ φ => φ = .start) (authorization_unseen ..) fun _ => rfl) ?_
    fun exc φ _ => ends_error exc φ
  rintro refusal _ rfl
  cases refusal with
  | some reason => exact last_follows rfl rfl rfl
  | none => exact dispatchAuthorized_follows

end Follows

/-- **One terminal event, that agrees with the outcome.** Whatever the capability, the policies, the
providers and the bus do: a dispatch that returns has published the execution events of one of the
four words, all with the command's ids, and the word says the status. -/
theorem dispatch_announces {env : Env δ} {command : ExecutionCommand} {w w' : World δ}
    {outcome : ExecutionOutcome} {t : List Entry}
    (h : dispatch env command w = ⟨.ok outcome, w', t⟩) :
    Announces command outcome.status (t.filterMap Entry.executionEvent) ∧
      outcome.commandId = command.commandId := by
  obtain ⟨φ, hexec, hends⟩ := dispatch_follows.of_run h
  obtain ⟨rfl, hcommand⟩ := hends outcome rfl
  rw [watched, System.exec_watching] at hexec
  exact ⟨announces_of_exec hexec, hcommand⟩

/-- … a command that is authorized and run. -/
theorem dispatch_announces_ping :
    let env := Env.alone (fun _ => ping) (DefaultPolicyEvaluator.granting "ping" .UNTRUSTED false)
    let run := dispatch env pingCommand (World.holding "ping" 0 ())
    ∃ outcome, run.result = .ok outcome ∧
      Announces pingCommand outcome.status (run.trace.filterMap Entry.executionEvent) := by
  intro env run
  have hrun : dispatch env pingCommand (World.holding "ping" 0 ())
      = ⟨.ok (outcomeOf pingCommand (.ok (.value .none))), run.state, run.trace⟩ := rfl
  exact ⟨_, rfl, (dispatch_announces hrun).1⟩

end DefaultProtectedDispatcher

end IraOS
