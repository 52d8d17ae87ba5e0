import IraOS.Mutation.Manager

/-!
# What a run of the mutation lifecycle is made of

Every step of `process_mutation` emits entries of its own kind (`OwnEntry`) and moves the world only
by waiting, except for the one call of a capability's rollback. `processMutation_cases` puts that
together: a run either never calls the delegate, or is the delegate's run between a part that has
everything the lifecycle owes it behind it (`Reached`) and a part that finishes its outcome.

Each step has the same two lemmas: what it emits (`_emits`), and how it moves the world (`_moves`).
The steps before the delegate emit less than the lifecycle as a whole, and wait at fewer places,
which is what `EarlyEntry` and `EarlyAwait` are for: no early step touches a device, or lets other
tasks act at an execution.

The audit has a lemma of another kind, as its run is known exactly: it never raises, and leaves
nothing or one record handed to every sink (`audit_run`).

Two facts are about status and device rather than about the trace. Recovering and finishing leave
the delegate's status as it was, and touch the device through the capability's own rollback only
(`recover_ok`, `finish_ok`); however a rollback ends, the device is where the capability's code left
it (`rollback_device`).

Callers use `processFound_cases` and the structures it is stated by, and unfold none of the steps.
-/

set_option autoImplicit false

namespace IraOS

open Lib

variable {δ : Type}

namespace DefaultMutationManager

def OwnEntry (inst : CapabilityRef) : Entry → Prop
  | .event e => e.ofMutation = true
  | .resolved i | .rollback i => i = inst
  | .confirmation asker _ _ => asker = .mutation
  | .audit _ | .sink _ _ => True
  | _ => False

def EarlyEntry : Entry → Prop
  | .event (.mutationRequested _ _) | .event (.mutationConfirmed _)
  | .event (.mutationStarted _) => True
  | .confirmation asker _ _ => asker = .mutation
  | _ => False

def RecoveryEntry (inst : CapabilityRef) : Entry → Prop
  | .rollback i => i = inst
  | .event (.mutationRolledBack _ _) | .event (.rollbackFailed _ _) => True
  | _ => False

def EarlyAwait : Await → Prop
  | .publish site => site ∈ [.mutationRequested, .mutationConfirmed, .mutationStarted]
  | .confirmation asker => asker = .mutation
  | _ => False

theorem EarlyEntry.own {x : Entry} (h : EarlyEntry x) (inst : CapabilityRef) : OwnEntry inst x := by
  cases x with
  | event e => cases e <;> first | rfl | exact absurd h id
  | confirmation asker level answer => exact h
  | _ => exact absurd h id

theorem RecoveryEntry.own {inst : CapabilityRef} {x : Entry} (h : RecoveryEntry inst x) :
    OwnEntry inst x := by
  cases x with
  | event e => cases e <;> first | rfl | exact absurd h id
  | rollback i => exact h
  | _ => exact absurd h id

theorem not_isExecution_of_mutation {inst : CapabilityRef} {x : Entry} (h : OwnEntry inst x) :
    x.isExecution = false := by
  cases x with
  | executed inst => exact absurd h id
  | _ => rfl

/-! ## Auditing -/

theorem persist_run (env : Env δ) (context : MutationContext) (record : AuditRecord)
    (w : World δ) :
    ∃ w' t, persist env context record w
        = ⟨.ok (), w', .audit record :: AuditManager.sinkEntries record 0 env.sinks ++ t⟩ ∧
      (t = [] ∨ t = [.event (.auditRecorded context record)]) ∧
      ∀ R, Stable env (fun _ => True) R → R w w' := by
  obtain ⟨res, hr⟩ := AuditManager.record_run env record w
  have hm : ∀ R, Stable env (fun _ => True) R →
      R w (AuditManager.afterSinks env 0 env.sinks w) := fun R h =>
    AuditManager.afterSinks_moves h (fun _ => trivial) ..
  unfold persist
  cases res with
  | error exc =>
    refine ⟨_, [], ?_, Or.inl rfl, hm⟩
    rw [Act.run_bind, Act.run_attempt, Act.run_bind_of_error hr]
    simp
  | ok u =>
    refine ⟨_, (publish env .auditRecorded (.auditRecorded context record)
      (AuditManager.afterSinks env 0 env.sinks w)).trace, ?_, publish_trace ..,
      fun R h => h.trans _ _ _ (hm R h) (h.after (.publish .auditRecorded) trivial _)⟩
    rw [Act.run_bind, Act.run_attempt, Act.run_bind_of_ok hr]
    simp

def AuditTrace (env : Env δ) (context : MutationContext) (info : MutationInfo)
    (status : MutationState) (t : List Entry) : Prop :=
  (info.auditRequired = false ∧ t = []) ∨
    (info.auditRequired = true ∧ ∃ record t', record.status = status ∧
      record.mutationId = context.mutationId ∧
      (t' = [] ∨ t' = [.event (.auditRecorded context record)]) ∧
      t = .audit record :: AuditManager.sinkEntries record 0 env.sinks ++ t')

/-- **An audit never raises.** -/
theorem audit_run (env : Env δ) (context : MutationContext) (command : ExecutionCommand)
    (info : MutationInfo) (status : MutationState) (result : PyAny) (error : Option Text)
    (w : World δ) :
    ∃ w' t, audit env context command info status result error w = ⟨.ok (), w', t⟩ ∧
      AuditTrace env context info status t ∧ ∀ R, Stable env (fun _ => True) R → R w w' := by
  unfold audit
  cases ha : info.auditRequired with
  | false => exact ⟨w, [], rfl, Or.inl ⟨ha, rfl⟩, fun R h => h.refl w⟩
  | true =>
    obtain ⟨w', t', hr, ht, hm⟩ := persist_run env context
      (auditRecord context command status result error ("uuid-" ++ toString w.uuids))
      { w with uuids := w.uuids + 1 }
    refine ⟨w', _, ?_, Or.inr ⟨ha, _, t', rfl, rfl, ht, rfl⟩,
      fun R h => h.trans _ _ _ (h.uuids w) (hm R h)⟩
    rw [if_pos rfl, recordAudit, Act.run_bind_of_ok (run_uuid4 w), hr]
    rfl

theorem AuditTrace.own {env : Env δ} {context : MutationContext} {info : MutationInfo}
    {status : MutationState} {t : List Entry} (h : AuditTrace env context info status t)
    (inst : CapabilityRef) : ∀ x ∈ t, OwnEntry inst x := by
  intro x hx
  rcases h with ⟨_, rfl⟩ | ⟨_, record, t', _, _, ht, rfl⟩
  · exact absurd hx (by simp)
  · rcases List.mem_append.mp hx with hx | hx
    · rcases List.mem_cons.mp hx with rfl | hx
      · trivial
      · obtain ⟨_, rfl⟩ := AuditManager.mem_sinkEntries hx
        trivial
    · rcases ht with rfl | rfl
      · exact absurd hx (by simp)
      · rw [List.mem_singleton] at hx
        subst hx
        rfl

theorem audit_emits (env : Env δ) (context : MutationContext) (command : ExecutionCommand)
    (info : MutationInfo) (status : MutationState) (result : PyAny) (error : Option Text)
    (inst : CapabilityRef) :
    Act.EmitsOnly (OwnEntry inst) (audit env context command info status result error) where
  mem w := by
    obtain ⟨w', t, hr, ht, _⟩ := audit_run env context command info status result error w
    rw [hr]
    exact ht.own inst

theorem audit_moves {env : Env δ} {R : World δ → World δ → Prop}
    (h : Stable env (fun _ => True) R) (context : MutationContext) (command : ExecutionCommand)
    (info : MutationInfo) (status : MutationState) (result : PyAny) (error : Option Text) :
    Act.Moves R (audit env context command info status result error) where
  state w := by
    obtain ⟨w', t, hr, _, hm⟩ := audit_run env context command info status result error w
    rw [hr]
    exact hm R h

/-! ## The steps around the delegate -/

section Steps

variable (env : Env δ) (context : MutationContext) (command : ExecutionCommand)
  (inst : CapabilityRef) (info : MutationInfo)

theorem confirm_emits : Act.EmitsOnly EarlyEntry (confirm env context info) := by
  unfold confirm
  refine .ite (.pure _) (.bind ?_ ?_)
  · apply (ConfirmationManager.requestConfirmation_emits ..).mono
    rintro x ⟨answer, rfl⟩
    rfl
  · intro confirmed
    exact .ite (.bind (publish_emits _ _ trivial) fun _ => .pure _) (.pure _)

theorem prepare_emits : Act.EmitsOnly EarlyEntry (prepare env context command inst) :=
  .bind (publish_emits _ _ trivial) fun _ => .bind (.ofExcept _) fun _ =>
    .bind (confirm_emits ..) fun _ => .pure _

theorem prepare_own : Act.EmitsOnly (OwnEntry inst) (prepare env context command inst) :=
  (prepare_emits ..).mono fun _ h => h.own inst

theorem reject_emits (reason : Text) :
    Act.EmitsOnly (OwnEntry inst) (reject env context command info reason) :=
  .bind (publish_emits _ _ rfl) fun _ => .bind (audit_emits ..) fun _ => .pure _

theorem recover_emits (outcome : ExecutionOutcome) :
    Act.EmitsOnly (RecoveryEntry inst) (recover env context command inst info outcome) := by
  unfold recover
  refine .ite ?_ (.pure _)
  cases (env.objects inst).mutating with
  | none => exact .pure _
  | some mutating =>
    refine .bind (.ofExcept _) fun supports => .ite (.bind (.attempt ?_) ?_) (.pure _)
    · exact .bind (.emit rfl) fun _ => .bind (.modify _) fun _ => .bind (.zoom _ _ _) fun _ =>
        publish_emits _ _ trivial
    · intro attempted
      cases attempted with
      | ok u => exact .pure _
      | error exc => exact .bind (publish_emits _ _ trivial) fun _ => .pure _

theorem conclude_emits (outcome : ExecutionOutcome) :
    Act.EmitsOnly (OwnEntry inst) (conclude env context command info outcome) :=
  .bind (audit_emits ..) fun _ => .bind (.ite (publish_emits _ _ rfl) (.pure _)) fun _ => .pure _

theorem finish_emits (outcome : ExecutionOutcome) :
    Act.EmitsOnly (OwnEntry inst) (finish env context command inst info outcome) :=
  .bind ((recover_emits ..).mono fun _ h => h.own) fun _ => conclude_emits ..

end Steps

section Moves

variable {env : Env δ} {R : World δ → World δ → Prop}

theorem confirm_moves (h : Stable env EarlyAwait R) (context : MutationContext)
    (info : MutationInfo) : Act.Moves R (confirm env context info) := by
  unfold confirm
  refine .ite (h.pure _) (h.bind (ConfirmationManager.requestConfirmation_moves h rfl ..) ?_)
  intro confirmed
  exact .ite (h.bind (h.publish (by simp [EarlyAwait]) _) fun _ => h.pure _) (h.pure _)

theorem reject_moves (h : Stable env (fun _ => True) R) (context : MutationContext)
    (command : ExecutionCommand) (info : MutationInfo) (reason : Text) :
    Act.Moves R (reject env context command info reason) :=
  h.bind (h.publish trivial _) fun _ => h.bind (audit_moves h ..) fun _ => h.pure _

theorem conclude_moves (h : Stable env (fun _ => True) R) (context : MutationContext)
    (command : ExecutionCommand) (info : MutationInfo) (outcome : ExecutionOutcome) :
    Act.Moves R (conclude env context command info outcome) :=
  h.bind (audit_moves h ..) fun _ => h.bind (.ite (h.publish trivial _) (h.pure _)) fun _ =>
    h.pure _

end Moves

/-! ## Before the delegate -/

theorem prepare_moves {env : Env δ} {R : World δ → World δ → Prop} (h : Stable env EarlyAwait R)
    (context : MutationContext) (command : ExecutionCommand) (inst : CapabilityRef) :
    Act.Moves R (prepare env context command inst) :=
  h.bind (h.publish (by simp [EarlyAwait]) _) fun _ => h.bind (h.ofExcept _) fun _ =>
    h.bind (confirm_moves h ..) fun _ => h.pure _

theorem confirm_ok {env : Env δ} {context : MutationContext} {info : MutationInfo} {w w' : World δ}
    {t : List Entry} (h : confirm env context info w = ⟨.ok none, w', t⟩) :
    info.confirmationLevel = .NONE ∨
      .confirmation .mutation info.confirmationLevel true ∈ t := by
  unfold confirm at h
  split at h
  · next hl => exact Or.inl hl
  · obtain ⟨confirmed, _, _, _, hc, h, rfl⟩ := Act.bind_ok h
    cases confirmed with
    | false => exact absurd (Act.pure_ok h).1 (by simp)
    | true =>
      rw [ConfirmationManager.requestConfirmation_ok hc]
      exact Or.inr (by simp)

/-- What a run of the lifecycle has behind it when it calls the delegate, `t` being its trace so
far. -/
structure Reached (env : Env δ) (command : ExecutionCommand) (inst : CapabilityRef)
    (info : MutationInfo) (t : List Entry) : Prop where
  metadata : (env.objects inst).metadata.mutation = some info
  own : ∀ x ∈ t, OwnEntry inst x
  requested : ∃ context, .event (.mutationRequested context command.arguments) ∈ t
  confirmed : info.confirmationLevel = .NONE ∨
    .confirmation .mutation info.confirmationLevel true ∈ t

theorem prepare_ok {env : Env δ} {context : MutationContext} {command : ExecutionCommand}
    {inst : CapabilityRef} {info : MutationInfo} {w w' : World δ} {t : List Entry}
    (h : prepare env context command inst w = ⟨.ok (info, none), w', t⟩) :
    Reached env command inst info t := by
  have hown := (prepare_own env context command inst).of_run h
  obtain ⟨_, _, _, _, hp, h1, rfl⟩ := Act.bind_ok h
  obtain ⟨info', _, _, _, hi, h2, rfl⟩ := Act.bind_ok h1
  obtain ⟨refusal, _, _, _, hc, h3, rfl⟩ := Act.bind_ok h2
  obtain ⟨hpair, _, rfl⟩ := Act.pure_ok h3
  obtain ⟨rfl, rfl⟩ := Prod.mk.injEq .. |>.mp hpair
  obtain ⟨hmeta, _, rfl⟩ := Act.ofExcept_ok hi
  refine ⟨?_, hown, ⟨context, ?_⟩, (confirm_ok hc).imp id fun hx => by simp [hx]⟩
  · unfold mutationMeta at hmeta
    split at hmeta
    · next hm => rw [hm, Except.ok.inj hmeta]
    · exact absurd hmeta (by simp)
  · rw [publish_ok hp]
    simp

/-! ## After the delegate -/

theorem rollback_device (env : Env δ) (context : MutationContext) (command : ExecutionCommand)
    (inst : CapabilityRef) (mutating : MutatingCapability δ) (outcome : ExecutionOutcome)
    (w : World δ) :
    (rollback env context command inst mutating outcome w).state.device
      = (mutating.rollback command.arguments outcome.resultData w.device).state := by
  unfold rollback
  rw [Act.bind_emit, Act.run_bind_of_ok (run_await env .rollback w), Act.run_bind, run_onDevice]
  cases (mutating.rollback command.arguments outcome.resultData
    (w.after env .rollback).device).result with
  | error exc => rfl
  | ok u =>
    dsimp only
    rw [publish_state]
    rfl

theorem recover_ok {env : Env δ} {context : MutationContext} {command : ExecutionCommand}
    {inst : CapabilityRef} {info : MutationInfo} {outcome outcome' : ExecutionOutcome}
    {w w' : World δ} {t : List Entry}
    (h : recover env context command inst info outcome w = ⟨.ok outcome', w', t⟩) :
    outcome'.status = outcome.status ∧
      (w'.device = w.device ∨ outcome.status = .FAILED ∧ ∃ mutating,
        (env.objects inst).mutating = some mutating ∧
        w'.device = (mutating.rollback command.arguments outcome.resultData w.device).state) := by
  unfold recover at h
  split at h
  · next hf =>
    rw [Bool.and_eq_true, ExecutionOutcome.failed_iff] at hf
    cases hm : (env.objects inst).mutating with
    | none =>
      rw [hm] at h
      obtain ⟨rfl, rfl, _⟩ := Act.pure_ok h
      exact ⟨rfl, Or.inl rfl⟩
    | some mutating =>
      rw [hm] at h
      obtain ⟨supports, _, _, _, hs, h₁, _⟩ := Act.bind_ok h
      obtain ⟨_, rfl, _⟩ := Act.ofExcept_ok hs
      split at h₁
      · obtain ⟨x, w₁, _, _, hr, h₂, _⟩ := Act.bind_attempt h₁
        have hd := rollback_device env context command inst mutating outcome w
        rw [hr] at hd
        cases x with
        | ok u =>
          obtain ⟨rfl, rfl, _⟩ := Act.pure_ok h₂
          exact ⟨rfl, Or.inr ⟨hf.1, mutating, rfl, hd⟩⟩
        | error exc =>
          obtain ⟨_, w₂, _, _, hp, h₃, _⟩ := Act.bind_ok h₂
          obtain ⟨rfl, rfl, _⟩ := Act.pure_ok h₃
          have hsame : w₂.device = w₁.device :=
            ((Stable.sameDevice (S := fun _ => True)).publish trivial _).of_run hp
          exact ⟨hf.1.symm, Or.inr ⟨hf.1, mutating, rfl, hsame.trans hd⟩⟩
      · obtain ⟨rfl, rfl, _⟩ := Act.pure_ok h₁
        exact ⟨rfl, Or.inl rfl⟩
  · obtain ⟨rfl, rfl, _⟩ := Act.pure_ok h
    exact ⟨rfl, Or.inl rfl⟩

/-- Finishing changes no status, and no device but through the capability's rollback. -/
theorem finish_ok {env : Env δ} {context : MutationContext} {command : ExecutionCommand}
    {inst : CapabilityRef} {info : MutationInfo} {outcome outcome' : ExecutionOutcome}
    {w w' : World δ} {t : List Entry}
    (h : finish env context command inst info outcome w = ⟨.ok outcome', w', t⟩) :
    outcome'.status = outcome.status ∧
      (w'.device = w.device ∨ outcome.status = .FAILED ∧ ∃ mutating,
        (env.objects inst).mutating = some mutating ∧
        w'.device = (mutating.rollback command.arguments outcome.resultData w.device).state) := by
  obtain ⟨recovered, w₁, _, _, hr, hc, _⟩ := Act.bind_ok h
  have hsame : w'.device = w₁.device :=
    (conclude_moves (R := SameDevice) Stable.sameDevice context command info recovered).of_run hc
  obtain ⟨_, _, _, _, _, h₁, _⟩ := Act.bind_ok hc
  obtain ⟨_, _, _, _, _, h₂, _⟩ := Act.bind_ok h₁
  obtain ⟨rfl, _, _⟩ := Act.pure_ok h₂
  obtain ⟨hs, hd⟩ := recover_ok hr
  exact ⟨hs, hd.imp hsame.trans fun ⟨hf, m, hm, hd⟩ => ⟨hf, m, hm, hsame.trans hd⟩⟩

/-! ## The whole run -/

/-- A run in which the delegate was called, cut at that call: `before` is the trace up to it, from
`w₁` it ran to `w₂`, and what was left was to finish its outcome, if it returned one. -/
structure Delegated (env : Env δ) (delegate : Delegate δ) (context : MutationContext)
    (command : ExecutionCommand) (inst : CapabilityRef) (w : World δ)
    (r : Except Exn ExecutionOutcome) (w' : World δ) (t : List Entry) where
  info : MutationInfo
  before : List Entry
  w₁ : World δ
  result : Except Exn ExecutionOutcome
  w₂ : World δ
  during : List Entry
  after : List Entry
  reached : Reached env command inst info before
  moves : ∀ R, Stable env EarlyAwait R → R w w₁
  run : delegate command w₁ = ⟨result, w₂, during⟩
  trace : t = before ++ (during ++ after)
  rest : (Act.ofExcept result >>= finish env context command inst info) w₂ = ⟨r, w', after⟩

theorem Delegated.after_own {env : Env δ} {delegate : Delegate δ} {context : MutationContext}
    {command : ExecutionCommand} {inst : CapabilityRef} {w w' : World δ}
    {r : Except Exn ExecutionOutcome} {t : List Entry}
    (d : Delegated env delegate context command inst w r w' t) :
    ∀ x ∈ d.after, OwnEntry inst x :=
  (Act.EmitsOnly.bind (.ofExcept _) fun _ => finish_emits ..).of_run d.rest

structure Undelegated (env : Env δ) (inst : CapabilityRef) (w : World δ)
    (r : Except Exn ExecutionOutcome) (w' : World δ) (t : List Entry) : Prop where
  own : ∀ x ∈ t, OwnEntry inst x
  moves : ∀ R, Stable env (fun _ => True) R → R w w'
  denied : ∀ outcome, r = .ok outcome → outcome.status = .DENIED

theorem carryOut_split {env : Env δ} {delegate : Delegate δ} {context : MutationContext}
    {command : ExecutionCommand} {inst : CapabilityRef} {info : MutationInfo} {w w' : World δ}
    {r : Except Exn ExecutionOutcome} {t : List Entry}
    (h : carryOut env delegate context command inst info w = ⟨r, w', t⟩) :
    (∃ exc, r = .error exc ∧
      publish env .mutationStarted (.mutationStarted context) w = ⟨.error exc, w', t⟩) ∨
    ∃ w₁ t₁ result w₂ during after,
      publish env .mutationStarted (.mutationStarted context) w = ⟨.ok (), w₁, t₁⟩ ∧
      delegate command w₁ = ⟨result, w₂, during⟩ ∧ t = t₁ ++ (during ++ after) ∧
      (Act.ofExcept result >>= finish env context command inst info) w₂ = ⟨r, w', after⟩ := by
  rcases Act.bind_cases h with ⟨exc, rfl, hs⟩ | ⟨_, w₁, t₁, t₂, hs, h₁, rfl⟩
  · exact Or.inl ⟨exc, rfl, hs⟩
  right
  rcases Act.bind_cases h₁ with ⟨exc, rfl, hd⟩ | ⟨outcome, w₂, t₃, t₄, hd, h₂, rfl⟩
  · exact ⟨w₁, t₁, .error exc, w', t₂, [], hs, hd, by simp, rfl⟩
  · exact ⟨w₁, t₁, .ok outcome, w₂, t₃, t₄, hs, hd, rfl, h₂⟩

theorem reject_ok {env : Env δ} {context : MutationContext} {command : ExecutionCommand}
    {info : MutationInfo} {reason : Text} {w w' : World δ} {outcome : ExecutionOutcome}
    {t : List Entry}
    (h : reject env context command info reason w = ⟨.ok outcome, w', t⟩) :
    outcome.status = .DENIED := by
  obtain ⟨_, _, _, _, _, h₁, _⟩ := Act.bind_ok h
  obtain ⟨_, _, _, _, _, h₂, _⟩ := Act.bind_ok h₁
  exact (Act.pure_ok h₂).1 ▸ rfl

/-- **A run of the lifecycle is refused or cut short, or it is its delegate's run, framed.** -/
theorem processFound_cases {env : Env δ} {delegate : Delegate δ} {context : MutationContext}
    {command : ExecutionCommand} {inst : CapabilityRef} {w w' : World δ}
    {r : Except Exn ExecutionOutcome} {t : List Entry}
    (h : processFound env delegate context command inst w = ⟨r, w', t⟩) :
    Undelegated env inst w r w' t ∨
      Nonempty (Delegated env delegate context command inst w r w' t) := by
  rcases Act.bind_cases h with ⟨exc, rfl, hp⟩ | ⟨⟨info, refusal⟩, w₁, t₁, t₂, hp, h₂, rfl⟩
  · exact Or.inl
      { own := (prepare_own ..).of_run hp
        moves := fun R hR => (prepare_moves (hR.mono fun _ _ => trivial) ..).of_run hp
        denied := fun _ ho => absurd ho (by simp) }
  have hown := (prepare_own ..).of_run hp
  have hmoves : ∀ R, Stable env EarlyAwait R → R w w₁ := by
    intro R hR
    exact (prepare_moves hR ..).of_run hp
  have hlate : ∀ R, Stable env (fun _ => True) R → R w w₁ := by
    intro R hR
    exact hmoves R (hR.mono fun _ _ => trivial)
  cases refusal with
  | some reason =>
    exact Or.inl
      { own := List.forall_mem_append.mpr ⟨hown, (reject_emits ..).of_run h₂⟩
        moves := fun R hR => hR.trans _ _ _ (hlate R hR) ((reject_moves hR ..).of_run h₂)
        denied := fun _ ho => reject_ok (ho ▸ h₂) }
  | none =>
    have hstart : Act.EmitsOnly (OwnEntry inst) (publish env .mutationStarted
        (.mutationStarted context)) := publish_emits _ _ rfl
    rcases carryOut_split h₂ with
      ⟨exc, rfl, hs⟩ | ⟨w₂, t₃, result, w₃, during, after, hs, hd, rfl, hrest⟩
    · exact Or.inl
        { own := List.forall_mem_append.mpr ⟨hown, hstart.of_run hs⟩
          moves := fun R hR => hR.trans _ _ _ (hlate R hR) ((hR.publish trivial _).of_run hs)
          denied := fun _ ho => absurd ho (by simp) }
    right
    obtain ⟨hm, _, ⟨c, hreq⟩, hconf⟩ := prepare_ok hp
    exact ⟨{
      info := info
      before := t₁ ++ t₃
      w₁ := w₂
      result := result
      w₂ := w₃
      during := during
      after := after
      reached :=
        { metadata := hm
          own := List.forall_mem_append.mpr ⟨hown, hstart.of_run hs⟩
          requested := ⟨c, List.mem_append_left _ hreq⟩
          confirmed := hconf.imp id (List.mem_append_left _) }
      moves := fun R hR => hR.trans _ _ _ (hmoves R hR)
        ((hR.publish (by simp [EarlyAwait]) _).of_run hs)
      run := hd
      trace := by simp
      rest := hrest }⟩

/-! ## The lookup -/

def mutationIdOf (w : World δ) : String := "uuid-" ++ toString w.uuids

theorem processMutation_notFound (env : Env δ) (command : ExecutionCommand)
    (delegate : Delegate δ) {w : World δ} (h : w.registry.get? command.capabilityId = none) :
    processMutation env command delegate w
      = ⟨.ok (buildOutcome command .FAILED none (some (lit "Capability not found."))),
        { w with uuids := w.uuids + 1 }, []⟩ := by
  unfold processMutation
  rw [Act.run_bind_of_ok (run_uuid4 w), Act.run_bind_of_ok (Act.run_get _)]
  dsimp only
  unfold InMemoryCapabilityRegistry.lookup
  rw [h]
  rfl

theorem processMutation_found (env : Env δ) (command : ExecutionCommand) (delegate : Delegate δ)
    {w : World δ} {inst : CapabilityRef} (h : w.registry.get? command.capabilityId = some inst) :
    processMutation env command delegate w
      = (Act.emit (.resolved inst) >>= fun _ => processFound env delegate
          (contextOf command (mutationIdOf w)) command inst)
        { w with uuids := w.uuids + 1 } := by
  unfold processMutation
  rw [Act.run_bind_of_ok (run_uuid4 w), Act.run_bind_of_ok (Act.run_get _)]
  dsimp only
  unfold InMemoryCapabilityRegistry.lookup
  rw [h]
  rfl

theorem processMutation_run (env : Env δ) (command : ExecutionCommand) (delegate : Delegate δ)
    (w : World δ) :
    (w.registry.get? command.capabilityId = none ∧
      processMutation env command delegate w
        = ⟨.ok (buildOutcome command .FAILED none (some (lit "Capability not found."))),
          { w with uuids := w.uuids + 1 }, []⟩) ∨
    ∃ inst r w' t, w.registry.get? command.capabilityId = some inst ∧
      processFound env delegate (contextOf command (mutationIdOf w)) command inst
        { w with uuids := w.uuids + 1 } = ⟨r, w', t⟩ ∧
      processMutation env command delegate w = ⟨r, w', .resolved inst :: t⟩ := by
  cases hl : w.registry.get? command.capabilityId with
  | none => exact Or.inl ⟨rfl, processMutation_notFound env command delegate hl⟩
  | some inst =>
    exact Or.inr ⟨inst, _, _, _, rfl, rfl, processMutation_found env command delegate hl⟩

end DefaultMutationManager

end IraOS
