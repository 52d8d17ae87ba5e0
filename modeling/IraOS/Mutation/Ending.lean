import IraOS.Mutation.Lifecycle

/-!
# How a mutation ends

In any one run the delegate is called at most once, so the one `DelegateRun` it comes to is all
there is to it. Whether the mutation then gets as far as its audit is a condition on the bus, the
confirmation's verdict, the delegate's result and the capability's rollback (`AuditReached`), and
each step of `process_mutation` has one lemma here that says which way it goes and what that leaves
in the trace.

## Conditions, and the steps they are about

The conditions are predicates of what the surroundings answer, never of what the lifecycle computes:

* `Refused` and `GoesAhead` are about step 3, and between them leave out the case in which finding
  a provider, or announcing the answer, raises;
* `CarriedOut` is about the publish that opens step 4, the delegate, and step 5;
* `RollsBack`, `Undone` and `Recovers` are about step 5 alone: whether the capability agrees to
  undo a failure, whether it goes through, and whether the step returns at all.

Step 6, the audit, raises nothing, and step 7 comes after it, so `AuditReached` asks nothing of the
last publish.

## Replacing the delegate

A delegate is a program, and a program may do anything. In one run it does one thing, and the run
cannot tell it from a program that just does that (`processMutation_delegateRun`). So the results
are stated for a `DelegateRun` (a result, entries that are foreign to the mutation, and what it did
to the world) and hold of every delegate, the dispatcher among them.
-/

set_option autoImplicit false

namespace IraOS

open Lib ConfirmationManager

variable {δ : Type}

namespace DefaultMutationManager


/-- What a delegate can leave in the trace: anything but the events and records of the mutation
it is called for. -/
def ForeignEntry : Entry → Prop
  | .event e => e.ofMutation = false
  | .audit _ | .sink _ _ => False
  | _ => True

/-- What one call of a delegate comes to: what it returned or raised, what it left in the trace, and
what it did to the world. -/
structure DelegateRun (δ : Type) where
  result : Except Exn ExecutionOutcome
  effect : δ → δ
  /-- What it does to the world outside the device. -/
  elsewhere : World δ → World δ
  entries : List Entry
  foreign : ∀ x ∈ entries, ForeignEntry x

def DelegateRun.after (b : DelegateRun δ) (w : World δ) : World δ :=
  { b.elsewhere w with device := b.effect w.device }

def DelegateRun.delegate (b : DelegateRun δ) : Delegate δ := fun _ w =>
  ⟨b.result, b.after w, b.entries⟩

theorem DelegateRun.exists_of {delegate : Delegate δ} {command : ExecutionCommand}
    (h : Act.EmitsOnly ForeignEntry (delegate command)) (w : World δ) :
    ∃ b : DelegateRun δ, b.delegate command w = delegate command w :=
  ⟨{ result := (delegate command w).result
     effect := fun _ => (delegate command w).state.device
     elsewhere := fun _ => (delegate command w).state
     entries := (delegate command w).trace
     foreign := h.mem w }, rfl⟩

theorem processFound_delegateRun (env : Env δ) {command : ExecutionCommand}
    {delegate : Delegate δ} (h : Act.EmitsOnly ForeignEntry (delegate command))
    (context : MutationContext) (inst : CapabilityRef) (w : World δ) :
    ∃ b : DelegateRun δ, processFound env b.delegate context command inst w
      = processFound env delegate context command inst w := by
  obtain ⟨b₀, _⟩ := DelegateRun.exists_of h w
  unfold processFound
  simp only [Act.run_bind (prepare env context command inst)]
  generalize prepare env context command inst w = run
  obtain ⟨result, w₁, t₁⟩ := run
  rcases result with exc | ⟨info, _ | reason⟩
  · exact ⟨b₀, rfl⟩
  · obtain ⟨b, hb⟩ := DelegateRun.exists_of h
      (publish env .mutationStarted (.mutationStarted context) w₁).state
    refine ⟨b, ?_⟩
    simp only [carryOut, Act.run_bind (publish env .mutationStarted _),
      Act.run_bind (b.delegate command), Act.run_bind (delegate command), hb]
  · exact ⟨b₀, rfl⟩

/-- **One run of the lifecycle cannot tell a delegate from a `DelegateRun`.** -/
theorem processMutation_delegateRun (env : Env δ) {command : ExecutionCommand}
    {delegate : Delegate δ} (h : Act.EmitsOnly ForeignEntry (delegate command)) (w : World δ) :
    ∃ b : DelegateRun δ,
      processMutation env command b.delegate w = processMutation env command delegate w := by
  cases hl : w.registry.get? command.capabilityId with
  | none =>
    obtain ⟨b, _⟩ := DelegateRun.exists_of h w
    refine ⟨b, ?_⟩
    rw [processMutation_notFound env command _ hl, processMutation_notFound env command _ hl]
  | some inst =>
    obtain ⟨b, hb⟩ := processFound_delegateRun env h
      (contextOf command (mutationIdOf w)) inst { w with uuids := w.uuids + 1 }
    refine ⟨b, ?_⟩
    rw [processMutation_found env command _ hl, processMutation_found env command _ hl,
      Act.bind_emit, Act.bind_emit, hb]

/-! ## The conditions -/

def Refused (env : Env δ) (context : MutationContext) (info : MutationInfo) : Prop :=
  info.confirmationLevel ≠ .NONE ∧
    verdict env.providers context info.confirmationLevel = .ok false

def GoesAhead (env : Env δ) (context : MutationContext) (info : MutationInfo) : Prop :=
  info.confirmationLevel = .NONE ∨
    (verdict env.providers context info.confirmationLevel = .ok true ∧
      env.bus .mutationConfirmed = .delivers)

theorem Refused.not_goesAhead {env : Env δ} {context : MutationContext} {info : MutationInfo}
    (h : Refused env context info) : ¬ GoesAhead env context info := by
  rintro (hl | ⟨hv, _⟩)
  · exact h.1 hl
  · rw [h.2] at hv; exact absurd hv (by simp)

/-- The outcome is a failure, the metadata says that the capability can be undone, and the
capability agrees to it. -/
def RollsBack (env : Env δ) (command : ExecutionCommand) (inst : CapabilityRef)
    (info : MutationInfo) (outcome : ExecutionOutcome) (mutating : MutatingCapability δ) : Prop :=
  outcome.status = .FAILED ∧ info.supportsRollback = true ∧
    (env.objects inst).mutating = some mutating ∧
    mutating.supportsRollback command.arguments = .ok true

def RollbackDone (env : Env δ) (command : ExecutionCommand) (mutating : MutatingCapability δ)
    (outcome : ExecutionOutcome) (d : δ) : Prop :=
  (mutating.rollback command.arguments outcome.resultData d).result = .ok () ∧
    env.bus .mutationRolledBack = .delivers

def Undone (env : Env δ) (command : ExecutionCommand) (inst : CapabilityRef)
    (info : MutationInfo) (outcome : ExecutionOutcome) (d : δ) : Prop :=
  ∃ mutating, RollsBack env command inst info outcome mutating ∧
    RollbackDone env command mutating outcome d

def Recovers (env : Env δ) (command : ExecutionCommand) (inst : CapabilityRef)
    (info : MutationInfo) (outcome : ExecutionOutcome) (d : δ) : Prop :=
  outcome.status = .FAILED → info.supportsRollback = true →
    ∀ mutating, (env.objects inst).mutating = some mutating →
      ∃ answer, mutating.supportsRollback command.arguments = .ok answer ∧
        (answer = true → RollbackDone env command mutating outcome d ∨
          env.bus .rollbackFailed = .delivers)

def CarriedOut (env : Env δ) (b : DelegateRun δ) (command : ExecutionCommand)
    (inst : CapabilityRef) (info : MutationInfo) (d : δ) : Prop :=
  env.bus .mutationStarted = .delivers ∧
    ∃ outcome, b.result = .ok outcome ∧ Recovers env command inst info outcome (b.effect d)

/-- **A mutation gets as far as its audit**: its request is announced, and it is refused and the
refusal is announced, or it goes ahead and everything up to the end of step 5 returns. -/
def AuditReached (env : Env δ) (b : DelegateRun δ) (context : MutationContext)
    (command : ExecutionCommand) (inst : CapabilityRef) (info : MutationInfo) (d : δ) : Prop :=
  env.bus .mutationRequested = .delivers ∧
    ((Refused env context info ∧ env.bus .mutationRejected = .delivers) ∨
      (GoesAhead env context info ∧ CarriedOut env b command inst info d))

/-! ## Preparing -/

theorem confirm_cases (env : Env δ) (context : MutationContext) (info : MutationInfo)
    (w : World δ) :
    (Refused env context info ∧
      ∃ reason w' t, confirm env context info w = ⟨.ok (some reason), w', t⟩) ∨
    (GoesAhead env context info ∧ ∃ w' t, confirm env context info w = ⟨.ok none, w', t⟩) ∨
    (¬ Refused env context info ∧ ¬ GoesAhead env context info ∧
      ∃ exc w' t, confirm env context info w = ⟨.error exc, w', t⟩) := by
  unfold confirm
  by_cases hl : info.confirmationLevel = .NONE
  · exact Or.inr (Or.inl ⟨Or.inl hl, w, [], by rw [if_pos hl]; rfl⟩)
  rw [if_neg hl]
  rcases requestConfirmation_run env .mutation context info.confirmationLevel w with
    ⟨exc, hv, hr⟩ | ⟨answer, w₁, hv, _, hr⟩
  · right; right
    refine ⟨fun h => ?_, fun h => ?_, exc, _, _, Act.run_bind_of_error hr⟩
    · rw [h.2] at hv; exact absurd hv (by simp)
    · rcases h with h | ⟨h, _⟩
      · exact hl h
      · rw [h] at hv; exact absurd hv (by simp)
  rw [Act.run_bind_of_ok hr]
  cases answer with
  | false => exact Or.inl ⟨⟨hl, hv⟩, _, _, _, rfl⟩
  | true =>
    right
    rw [if_pos rfl]
    rcases publish_cases env .mutationConfirmed (.mutationConfirmed context) w₁ with
      ⟨hb, hp⟩ | ⟨hb, exc, t, _, hp⟩
    · rw [Act.run_bind_of_ok hp]
      exact Or.inl ⟨Or.inr ⟨hv, hb⟩, _, _, rfl⟩
    · rw [Act.run_bind_of_error hp]
      refine Or.inr ⟨fun h => ?_, fun h => ?_, _, _, _, rfl⟩
      · rw [h.2] at hv; exact absurd hv (by simp)
      · exact h.elim hl fun h => hb h.2

/-- Everything before the delegate goes the way the confirmation does, if the request was
announced. -/
theorem prepare_cases {env : Env δ} {inst : CapabilityRef} {info : MutationInfo}
    (hm : (env.objects inst).metadata.mutation = some info) (context : MutationContext)
    (command : ExecutionCommand) (w : World δ) :
    (env.bus .mutationRequested = .delivers ∧ Refused env context info ∧ ∃ reason w' t,
      prepare env context command inst w = ⟨.ok (info, some reason), w', t⟩) ∨
    (env.bus .mutationRequested = .delivers ∧ GoesAhead env context info ∧ ∃ w' t,
      prepare env context command inst w = ⟨.ok (info, none), w', t⟩) ∨
    (¬ (env.bus .mutationRequested = .delivers ∧
        (Refused env context info ∨ GoesAhead env context info)) ∧
      ∃ exc w' t, prepare env context command inst w = ⟨.error exc, w', t⟩) := by
  have hi : mutationMeta (env.objects inst) = .ok info := by unfold mutationMeta; rw [hm]
  unfold prepare
  rcases publish_cases env .mutationRequested (.mutationRequested context command.arguments) w
    with ⟨hb, hp⟩ | ⟨hb, exc, t, _, hp⟩
  · rw [Act.run_bind_of_ok hp, hi, Act.run_bind_of_ok (Act.run_ofExcept _ _)]
    rcases confirm_cases env context info (w.after env (.publish .mutationRequested)) with
      ⟨hR, reason, w', t, hc⟩ | ⟨hG, w', t, hc⟩ | ⟨hR, hG, exc, w', t, hc⟩
    · rw [Act.run_bind_of_ok hc]
      exact Or.inl ⟨hb, hR, reason, w', _, rfl⟩
    · rw [Act.run_bind_of_ok hc]
      exact Or.inr (Or.inl ⟨hb, hG, w', _, rfl⟩)
    · rw [Act.run_bind_of_error hc]
      exact Or.inr (Or.inr ⟨fun h => h.2.elim hR hG, exc, w', _, rfl⟩)
  · rw [Act.run_bind_of_error hp]
    exact Or.inr (Or.inr ⟨fun h => hb h.1, exc, _, _, rfl⟩)

/-! ## Rejecting -/

theorem reject_cases (env : Env δ) (context : MutationContext) (command : ExecutionCommand)
    (info : MutationInfo) (reason : Text) (w : World δ) :
    (env.bus .mutationRejected = .delivers ∧ ∃ w' t, AuditTrace env context info .REJECTED t ∧
      reject env context command info reason w
        = ⟨.ok (buildOutcome command .DENIED (some reason) none), w',
          .event (.mutationRejected context reason) :: t⟩) ∨
    (env.bus .mutationRejected ≠ .delivers ∧ ∃ exc w' t,
      (∀ x ∈ t, x = .event (.mutationRejected context reason)) ∧
      reject env context command info reason w = ⟨.error exc, w', t⟩) := by
  unfold reject
  rcases publish_cases env .mutationRejected (.mutationRejected context reason) w with
    ⟨hb, hp⟩ | ⟨hb, exc, t, ht, hp⟩
  · obtain ⟨w', t, ha, htrace, _⟩ := audit_run env context command info .REJECTED (.value .none)
      (some reason) (w.after env (.publish .mutationRejected))
    refine Or.inl ⟨hb, w', t, htrace, ?_⟩
    rw [Act.run_bind_of_ok hp, Act.run_bind_of_ok ha]
    simp
  · exact Or.inr ⟨hb, exc, _, t, ht, Act.run_bind_of_error hp⟩

/-! ## Recovering -/

theorem rollback_cases (env : Env δ) (context : MutationContext) (command : ExecutionCommand)
    (inst : CapabilityRef) (mutating : MutatingCapability δ) (outcome : ExecutionOutcome)
    (w : World δ) :
    (RollbackDone env command mutating outcome w.device ∧ ∃ w' reason,
      rollback env context command inst mutating outcome w
        = ⟨.ok (), w', [.rollback inst, .event (.mutationRolledBack context reason)]⟩) ∨
    (¬ RollbackDone env command mutating outcome w.device ∧ ∃ exc w' t,
      rollback env context command inst mutating outcome w = ⟨.error exc, w', .rollback inst :: t⟩ ∧
      (env.bus .mutationRolledBack = .delivers → t = [])) := by
  unfold rollback RollbackDone
  rw [Act.bind_emit, Act.run_bind_of_ok (run_await env .rollback w), Act.run_bind, run_onDevice,
    World.after_device]
  cases hr : (mutating.rollback command.arguments outcome.resultData w.device).result with
  | error exc => exact Or.inr ⟨fun h => absurd h.1 (by simp), exc, _, [], rfl, fun _ => rfl⟩
  | ok u =>
    dsimp only
    rcases publish_cases env .mutationRolledBack (.mutationRolledBack context
        (Text.ofOption (Text.orElse outcome.error (some (lit "Execution failed")))))
        { w.after env .rollback with
          device := (mutating.rollback command.arguments outcome.resultData w.device).state } with
      ⟨hb, hp⟩ | ⟨hb, exc, t, _, hp⟩
    · rw [hp]
      exact Or.inl ⟨⟨rfl, hb⟩, _, _, rfl⟩
    · rw [hp]
      exact Or.inr ⟨fun h => hb h.2, exc, _, t, rfl, fun h => absurd h hb⟩

theorem RollsBack.recovers_iff {env : Env δ} {command : ExecutionCommand} {inst : CapabilityRef}
    {info : MutationInfo} {outcome : ExecutionOutcome} {mutating : MutatingCapability δ} {d : δ}
    (h : RollsBack env command inst info outcome mutating) :
    Recovers env command inst info outcome d ↔
      RollbackDone env command mutating outcome d ∨ env.bus .rollbackFailed = .delivers := by
  obtain ⟨hf, hs, hm, ha⟩ := h
  constructor
  · intro hrec
    obtain ⟨answer, hanswer, hdone⟩ := hrec hf hs mutating hm
    rw [ha] at hanswer
    exact hdone (Except.ok.inj hanswer).symm
  · intro hdone _ _ mutating' hm'
    obtain rfl : mutating = mutating' := Option.some.inj (hm.symm.trans hm')
    exact ⟨true, ha, fun _ => hdone⟩

theorem RollsBack.undone_iff {env : Env δ} {command : ExecutionCommand} {inst : CapabilityRef}
    {info : MutationInfo} {outcome : ExecutionOutcome} {mutating : MutatingCapability δ} {d : δ}
    (h : RollsBack env command inst info outcome mutating) :
    Undone env command inst info outcome d ↔ RollbackDone env command mutating outcome d := by
  refine ⟨fun ⟨mutating', h', hdone⟩ => ?_, fun hdone => ⟨mutating, h, hdone⟩⟩
  obtain rfl : mutating = mutating' := Option.some.inj (h.2.2.1.symm.trans h'.2.2.1)
  exact hdone

theorem recover_branch (env : Env δ) (context : MutationContext) (command : ExecutionCommand)
    (inst : CapabilityRef) (info : MutationInfo) (outcome : ExecutionOutcome) :
    (∃ mutating, RollsBack env command inst info outcome mutating ∧
      recover env context command inst info outcome
        = attemptRollback env context command inst mutating outcome) ∨
    ((∀ mutating, ¬ RollsBack env command inst info outcome mutating) ∧
      (∀ d, Recovers env command inst info outcome d) ∧
      recover env context command inst info outcome = pure outcome) ∨
    ((∀ d, ¬ Recovers env command inst info outcome d) ∧ ∃ exc,
      recover env context command inst info outcome = Act.throw exc) := by
  unfold recover RollsBack Recovers
  by_cases hf : (outcome.failed && info.supportsRollback) = true
  case neg =>
    rw [if_neg hf]
    rw [Bool.and_eq_true, ExecutionOutcome.failed_iff] at hf
    exact Or.inr (Or.inl ⟨fun _ h => hf ⟨h.1, h.2.1⟩, fun _ h hs => absurd ⟨h, hs⟩ hf, rfl⟩)
  rw [if_pos hf]
  rw [Bool.and_eq_true, ExecutionOutcome.failed_iff] at hf
  cases hm : (env.objects inst).mutating with
  | none => exact Or.inr (Or.inl ⟨by simp, by simp, rfl⟩)
  | some mutating =>
    dsimp only
    cases ha : mutating.supportsRollback command.arguments with
    | error exc =>
      refine Or.inr (Or.inr ⟨fun d h => ?_, exc, rfl⟩)
      obtain ⟨answer, hanswer, _⟩ := h hf.1 hf.2 mutating rfl
      exact absurd (ha.symm.trans hanswer) (by simp)
    | ok answer =>
      cases answer with
      | true => exact Or.inl ⟨mutating, ⟨hf.1, hf.2, rfl, ha⟩, rfl⟩
      | false =>
        refine Or.inr (Or.inl ⟨?_, ?_, rfl⟩)
        · rintro mutating' ⟨_, _, hm', h⟩
          rw [← Option.some.inj hm', ha] at h
          exact absurd h (by simp)
        · intro d _ _ mutating' hm'
          exact ⟨false, Option.some.inj hm' ▸ ha, by simp⟩

/-- **Step 5 returns just where it recovers**, and announces a rollback just where it is done. -/
theorem recover_cases (env : Env δ) (context : MutationContext) (command : ExecutionCommand)
    (inst : CapabilityRef) (info : MutationInfo) (outcome : ExecutionOutcome) (w : World δ) :
    (Recovers env command inst info outcome w.device ∧ ∃ outcome' w' t,
      recover env context command inst info outcome w = ⟨.ok outcome', w', t⟩ ∧
      outcome'.status = outcome.status ∧
      ((Undone env command inst info outcome w.device ∧
          ∃ reason, t = [.rollback inst, .event (.mutationRolledBack context reason)]) ∨
        (¬ Undone env command inst info outcome w.device ∧
          (env.bus .mutationRolledBack = .delivers →
            ∀ c reason, .event (.mutationRolledBack c reason) ∉ t)))) ∨
    (¬ Recovers env command inst info outcome w.device ∧ ∃ exc w' t,
      recover env context command inst info outcome w = ⟨.error exc, w', t⟩) := by
  rcases recover_branch env context command inst info outcome with
    ⟨mutating, h, hr⟩ | ⟨hnot, hrec, hr⟩ | ⟨hrec, exc, hr⟩
  · rw [hr, h.recovers_iff, h.undone_iff]
    unfold attemptRollback
    rcases rollback_cases env context command inst mutating outcome w with
      ⟨hdone, w', reason, hb⟩ | ⟨hdone, exc, w', t, hb, ht⟩
    · rw [Act.run_bind_of_ok (Act.run_attempt_of hb)]
      exact Or.inl ⟨Or.inl hdone, _, _, _, rfl, rfl, Or.inl ⟨hdone, reason, rfl⟩⟩
    · rw [Act.run_bind_of_ok (Act.run_attempt_of hb)]
      dsimp only
      rcases publish_cases env .rollbackFailed
          (.rollbackFailed context (lit "Rollback failed: " ++ exc.message)) w' with
        ⟨hp, hpub⟩ | ⟨hp, exc', t', _, hpub⟩
      · rw [Act.run_bind_of_ok hpub]
        refine Or.inl ⟨Or.inr hp, _, _, _, rfl, h.1.symm, Or.inr ⟨hdone, fun hbus => ?_⟩⟩
        simp [ht hbus]
      · rw [Act.run_bind_of_error hpub]
        exact Or.inr ⟨by simp [hdone, hp], _, _, _, rfl⟩
  · rw [hr]
    exact Or.inl ⟨hrec _, _, _, _, rfl, rfl, Or.inr
      ⟨fun ⟨mutating, h, _⟩ => hnot mutating h, by simp⟩⟩
  · rw [hr]
    exact Or.inr ⟨hrec _, exc, _, _, rfl⟩

/-! ## Concluding -/

theorem complete_cases (env : Env δ) (context : MutationContext) (outcome : ExecutionOutcome)
    (w : World δ) :
    ∃ r w' t, complete env context outcome w = ⟨r, w', t⟩ ∧
      (∀ x ∈ t, x = .event (.mutationCompleted context outcome.resultData)) ∧
      (env.bus .mutationCompleted = .delivers → r = .ok () ∧
        t = if outcome.status = .SUCCEEDED
          then [.event (.mutationCompleted context outcome.resultData)] else []) := by
  unfold complete
  by_cases hs : outcome.succeeded = true
  · rw [if_pos hs, if_pos (ExecutionOutcome.succeeded_iff.mp hs)]
    rcases publish_cases env .mutationCompleted
        (.mutationCompleted context outcome.resultData) w with
      ⟨_, hp⟩ | ⟨hb, exc, t, ht, hp⟩
    · exact ⟨_, _, _, hp, by simp, fun _ => ⟨rfl, rfl⟩⟩
    · exact ⟨_, _, _, hp, ht, fun h => absurd h hb⟩
  · rw [if_neg hs, if_neg (mt ExecutionOutcome.succeeded_iff.mpr hs)]
    exact ⟨_, _, _, rfl, by simp, fun _ => ⟨rfl, rfl⟩⟩

theorem conclude_cases (env : Env δ) (context : MutationContext) (command : ExecutionCommand)
    (info : MutationInfo) (outcome : ExecutionOutcome) (w : World δ) :
    ∃ r w' t t', conclude env context command info outcome w = ⟨r, w', t ++ t'⟩ ∧
      AuditTrace env context info (mapOutcomeToState outcome) t ∧
      (∀ x ∈ t', x = .event (.mutationCompleted context outcome.resultData)) ∧
      (env.bus .mutationCompleted = .delivers → r = .ok outcome ∧
        t' = if outcome.status = .SUCCEEDED
          then [.event (.mutationCompleted context outcome.resultData)] else []) := by
  unfold conclude
  obtain ⟨w₁, t, ha, htrace, _⟩ := audit_run env context command info (mapOutcomeToState outcome)
    outcome.resultData (Text.orElse outcome.error outcome.denialReason) w
  obtain ⟨r, w', t', hc, ht', hdelivers⟩ := complete_cases env context outcome w₁
  rw [Act.run_bind_of_ok ha, Act.run_bind, hc]
  cases r with
  | ok u => exact ⟨_, w', t, t', by simp, htrace, ht', fun h => ⟨rfl, (hdelivers h).2⟩⟩
  | error exc => exact ⟨_, _, t, t', rfl, htrace, ht', fun h => absurd (hdelivers h).1 (by simp)⟩

/-! ## Carrying out -/

/-- A run of steps 4 to 7 that got to its audit, cut into what its steps left in the trace: the
start, the delegate's entries, the recovery's, the audit's and the completion's. -/
structure Carried (env : Env δ) (b : DelegateRun δ) (context : MutationContext)
    (command : ExecutionCommand) (inst : CapabilityRef) (info : MutationInfo) (w : World δ)
    (r : Except Exn ExecutionOutcome) (t : List Entry) where
  outcome : ExecutionOutcome
  recovered : ExecutionOutcome
  recovery : List Entry
  audit : List Entry
  completion : List Entry
  result : b.result = .ok outcome
  status : recovered.status = outcome.status
  trace : t = .event (.mutationStarted context) ::
    (b.entries ++ (recovery ++ (audit ++ completion)))
  recovers : ∀ x ∈ recovery, RecoveryEntry inst x
  rollsBack : (Undone env command inst info outcome (b.effect w.device) ∧
      ∃ reason, recovery = [.rollback inst, .event (.mutationRolledBack context reason)]) ∨
    (¬ Undone env command inst info outcome (b.effect w.device) ∧
      (env.bus .mutationRolledBack = .delivers →
        ∀ c reason, .event (.mutationRolledBack c reason) ∉ recovery))
  audits : AuditTrace env context info (mapOutcomeToState recovered) audit
  completes : ∀ x ∈ completion, x = .event (.mutationCompleted context recovered.resultData)
  returns : env.bus .mutationCompleted = .delivers → r = .ok recovered ∧
    completion = if recovered.status = .SUCCEEDED
      then [.event (.mutationCompleted context recovered.resultData)] else []

/-- **Steps 4 to 7 get to their audit, or raise before it.** -/
theorem carryOut_cases {env : Env δ} {b : DelegateRun δ} {context : MutationContext}
    {command : ExecutionCommand} {inst : CapabilityRef} {info : MutationInfo} {w w' : World δ}
    {r : Except Exn ExecutionOutcome} {t : List Entry}
    (h : carryOut env b.delegate context command inst info w = ⟨r, w', t⟩) :
    (CarriedOut env b command inst info w.device ∧
      Nonempty (Carried env b context command inst info w r t)) ∨
    (¬ CarriedOut env b command inst info w.device ∧ (∃ exc, r = .error exc) ∧
      ∀ x ∈ t, EarlyEntry x ∨ ForeignEntry x ∨ RecoveryEntry inst x) := by
  unfold carryOut at h
  rcases publish_cases env .mutationStarted (.mutationStarted context) w with
    ⟨hb, hp⟩ | ⟨hb, exc, t₁, ht, hp⟩
  case inr =>
    rw [Act.run_bind_of_error hp] at h
    cases h
    exact Or.inr ⟨fun h => hb h.1, ⟨exc, rfl⟩, fun x hx => ht x hx ▸ Or.inl trivial⟩
  have hrun : b.delegate command (w.after env (.publish .mutationStarted))
      = ⟨b.result, b.after (w.after env (.publish .mutationStarted)), b.entries⟩ := rfl
  rw [Act.run_bind_of_ok hp] at h
  cases hres : b.result with
  | error exc =>
    rw [hres] at hrun
    rw [Act.run_bind_of_error hrun] at h
    cases h
    refine Or.inr ⟨fun ⟨_, o, ho, _⟩ => absurd (hres.symm.trans ho) (by simp), ⟨exc, rfl⟩, ?_⟩
    intro x hx
    rcases List.mem_cons.mp hx with rfl | hx
    · exact Or.inl trivial
    · exact Or.inr (Or.inl (b.foreign x hx))
  | ok outcome =>
    rw [hres] at hrun
    rw [Act.run_bind_of_ok hrun, finish] at h
    rcases recover_cases env context command inst info outcome
        (b.after (w.after env (.publish .mutationStarted))) with
      ⟨hrec, recovered, w₂, t₂, hr, hstatus, hback⟩ | ⟨hrec, exc, w₂, t₂, hr⟩
    · obtain ⟨r', w₃, t₃, t₄, hc, haudit, hcomp, hret⟩ :=
        conclude_cases env context command info recovered w₂
      rw [Act.run_bind_of_ok hr, hc] at h
      cases h
      exact Or.inl ⟨⟨hb, outcome, hres, hrec⟩, ⟨{
        outcome := outcome
        recovered := recovered
        recovery := t₂
        audit := t₃
        completion := t₄
        result := hres
        status := hstatus
        trace := rfl
        recovers := (recover_emits ..).of_run hr
        rollsBack := hback
        audits := haudit
        completes := hcomp
        returns := hret }⟩⟩
    · rw [Act.run_bind_of_error hr] at h
      cases h
      refine Or.inr ⟨fun ⟨_, o, ho, hrec'⟩ => ?_, ⟨exc, rfl⟩, fun x hx => ?_⟩
      · rw [hres, Except.ok.injEq] at ho
        exact hrec (ho ▸ hrec')
      · rcases List.mem_cons.mp hx with rfl | hx
        · exact Or.inl trivial
        · have hx : x ∈ b.entries ++ t₂ := hx
          exact Or.inr ((List.mem_append.mp hx).imp (b.foreign x)
            ((recover_emits ..).of_run hr x))

end DefaultMutationManager

end IraOS
