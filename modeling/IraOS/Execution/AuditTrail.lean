import IraOS.Execution.Dispatch
import IraOS.Mutation.Ending

/-!
# What an auditor is left with

Three views of a run's trace: the records the sinks were handed, the statuses that were recorded,
and the endings that were announced on the bus. A mutation delivers its record to every sink, or to
none if it does not get as far as its audit. Where it does, the record and the event stream agree
unless security denied the mutation, which is recorded and not announced, or a rollback went
through, which is announced and recorded as a plain failure.

## Completeness

"Every audited mutation reaches every sink" fails where the delegate raises, where the bus raises
before the audit, and where nobody can be found to confirm: all of these leave `process_mutation`
before `_record_audit`. `audit_delivered_iff` has the condition, `AuditReached`, and it is exact. A
sink that raises is still handed its record; delivery is being handed it.

## Agreement

The trail agrees with the event stream if at most one ending was announced, the one the outcome has,
and the one status recorded is that or `FAILED`. On a bus that delivers the two differ in exactly
the two cases named above (`trail_agrees_iff`).

## Over any delegate, and over the dispatcher

Both results are stated for the lifecycle with any `DelegateRun`. In the kernel the delegate is the
protected dispatcher, whose entries are foreign to every mutation (`dispatch_foreign`), so the
lifecycle that `execute` runs is an instance (`mutation_of_execute`).
-/

set_option autoImplicit false

namespace IraOS

open Lib

variable {δ : Type}

/-! ## Views of a trace -/

def Entry.handed : Entry → Option (Nat × AuditRecord)
  | .sink i record => some (i, record)
  | _ => none

def Entry.recorded : Entry → Option MutationState
  | .audit record => some record.status
  | _ => none

/-- The ending an event announces, if it is one of the events that end a mutation. -/
def Entry.announced : Entry → Option MutationState
  | .event (.mutationCompleted _ _) => some .COMPLETED
  | .event (.mutationRejected _ _) => some .REJECTED
  | .event (.mutationRolledBack _ _) => some .ROLLED_BACK
  | _ => none

@[simp] theorem Entry.handed_event (e : Event) : (Entry.event e).handed = none := rfl

@[simp] theorem Entry.recorded_event (e : Event) : (Entry.event e).recorded = none := rfl

@[simp] theorem Entry.recorded_audit (record : AuditRecord) :
    (Entry.audit record).recorded = some record.status := rfl

theorem filterMap_nil_of {β : Type} {f : Entry → Option β} {p : Entry → Prop} {t : List Entry}
    (ht : ∀ x ∈ t, p x) (hf : ∀ x, p x → f x = none) : t.filterMap f = [] :=
  List.filterMap_eq_nil_iff.mpr fun x hx => hf x (ht x hx)

theorem AuditManager.handed_sinkEntries (record : AuditRecord) (i : Nat)
    (sinks : List AuditSink) : (sinkEntries record i sinks).filterMap Entry.handed
      = (List.range' i sinks.length).map fun j => (j, record) := by
  induction sinks generalizing i with
  | nil => rfl
  | cons sink rest ih => simp [sinkEntries, Entry.handed, List.range'_succ, ih (i + 1)]

namespace DefaultMutationManager

theorem EarlyEntry.blank {x : Entry} (h : EarlyEntry x) :
    x.handed = none ∧ x.recorded = none ∧ x.announced = none := by
  cases x with
  | event e => cases e <;> simp_all [EarlyEntry, Entry.handed, Entry.recorded, Entry.announced]
  | confirmation asker level answer => exact ⟨rfl, rfl, rfl⟩
  | _ => exact absurd h id

theorem ForeignEntry.blank {x : Entry} (h : ForeignEntry x) :
    x.handed = none ∧ x.recorded = none ∧ x.announced = none := by
  cases x with
  | event e =>
    cases e <;> simp_all [ForeignEntry, Event.ofMutation, Entry.handed, Entry.recorded,
      Entry.announced]
  | audit record => exact absurd h id
  | sink i record => exact absurd h id
  | _ => exact ⟨rfl, rfl, rfl⟩

theorem RecoveryEntry.blank {inst : CapabilityRef} {x : Entry} (h : RecoveryEntry inst x) :
    x.handed = none ∧ x.recorded = none := by
  cases x with
  | event e => exact ⟨rfl, rfl⟩
  | rollback inst => exact ⟨rfl, rfl⟩
  | _ => exact absurd h id

theorem AuditTrace.views {env : Env δ} {context : MutationContext} {info : MutationInfo}
    {status : MutationState} {t : List Entry} (h : AuditTrace env context info status t)
    (ha : info.auditRequired = true) :
    (∃ record, record.mutationId = context.mutationId ∧ t.filterMap Entry.handed
      = (List.range env.sinks.length).map fun i => (i, record)) ∧
    t.filterMap Entry.recorded = [status] ∧ t.filterMap Entry.announced = [] := by
  rcases h with ⟨hno, _⟩ | ⟨_, record, t', hstatus, hid, ht', rfl⟩
  · exact absurd (hno.symm.trans ha) (by simp)
  have hs : ∀ x ∈ AuditManager.sinkEntries record 0 env.sinks,
      x.recorded = none ∧ x.announced = none := by
    intro x hx
    obtain ⟨j, rfl⟩ := AuditManager.mem_sinkEntries hx
    exact ⟨rfl, rfl⟩
  have hrec := filterMap_nil_of hs fun _ h => h.1
  have hann := filterMap_nil_of hs fun _ h => h.2
  refine ⟨⟨record, hid, ?_⟩, ?_, ?_⟩
  · rw [List.cons_append, List.filterMap_cons_none rfl, List.filterMap_append,
      AuditManager.handed_sinkEntries, List.range_eq_range']
    rcases ht' with rfl | rfl <;> simp
  · rcases ht' with rfl | rfl <;> simp [hrec, hstatus]
  · rw [List.cons_append, List.filterMap_cons_none rfl, List.filterMap_append, hann]
    rcases ht' with rfl | rfl <;> rfl

/-! ## Completeness -/

/-- Every sink was handed one record of the mutation, all of them the same one, and no sink was
handed anything else. -/
def Delivered (env : Env δ) (mutationId : String) (t : List Entry) : Prop :=
  ∃ record, record.mutationId = mutationId ∧
    t.filterMap Entry.handed = (List.range env.sinks.length).map fun i => (i, record)

theorem blank_handed {inst : CapabilityRef} {x : Entry}
    (h : EarlyEntry x ∨ ForeignEntry x ∨ RecoveryEntry inst x) : x.handed = none := by
  rcases h with h | h | h
  · exact h.blank.1
  · exact h.blank.1
  · exact h.blank.1

theorem Carried.view {env : Env δ} {b : DelegateRun δ} {context : MutationContext}
    {command : ExecutionCommand} {inst : CapabilityRef} {info : MutationInfo} {w : World δ}
    {r : Except Exn ExecutionOutcome} {t : List Entry} {β : Type} {f : Entry → Option β}
    (c : Carried env b context command inst info w r t)
    (hstart : f (.event (.mutationStarted context)) = none)
    (hforeign : ∀ x, ForeignEntry x → f x = none) :
    t.filterMap f
      = c.recovery.filterMap f ++ (c.audit.filterMap f ++ c.completion.filterMap f) := by
  refine (congrArg (List.filterMap f) c.trace).trans ?_
  rw [List.filterMap_cons_none hstart, List.filterMap_append, List.filterMap_append,
    List.filterMap_append, filterMap_nil_of b.foreign hforeign, List.nil_append]

theorem Carried.delivered {env : Env δ} {b : DelegateRun δ} {context : MutationContext}
    {command : ExecutionCommand} {inst : CapabilityRef} {info : MutationInfo} {w : World δ}
    {r : Except Exn ExecutionOutcome} {t : List Entry}
    (c : Carried env b context command inst info w r t) (ha : info.auditRequired = true) :
    Delivered env context.mutationId t := by
  obtain ⟨⟨record, hid, hd⟩, _⟩ := c.audits.views ha
  refine ⟨record, hid, ?_⟩
  have hcompletion : c.completion.filterMap Entry.handed = [] :=
    filterMap_nil_of c.completes (by rintro _ rfl; rfl)
  rw [c.view rfl fun _ h => h.blank.1, filterMap_nil_of c.recovers fun _ h => h.blank.1, hd,
    hcompletion, List.append_nil, List.nil_append]

/-- **A mutation delivers its record to every sink, or nothing to any.** -/
theorem processFound_handed {env : Env δ} {inst : CapabilityRef} {info : MutationInfo}
    (hm : (env.objects inst).metadata.mutation = some info) (ha : info.auditRequired = true)
    (b : DelegateRun δ) (context : MutationContext) (command : ExecutionCommand) (w : World δ) :
    (AuditReached env b context command inst info w.device ∧ Delivered env context.mutationId
        (processFound env b.delegate context command inst w).trace) ∨
    (¬ AuditReached env b context command inst info w.device ∧
      (processFound env b.delegate context command inst w).trace.filterMap Entry.handed = []) := by
  unfold processFound
  rcases prepare_cases hm context command w with
    ⟨hb, hR, reason, w', t, hp⟩ | ⟨hb, hG, w', t, hp⟩ | ⟨hno, exc, w', t, hp⟩
  all_goals
    have hearly : t.filterMap Entry.handed = [] :=
      filterMap_nil_of ((prepare_emits ..).of_run hp) fun _ h => h.blank.1
  · rw [Act.run_bind_of_ok hp]
    dsimp only
    rw [List.filterMap_append, hearly, List.nil_append]
    rcases reject_cases env context command info reason w' with
      ⟨hrej, w'', t', ht', hr⟩ | ⟨hrej, exc, w'', t', ht', hr⟩
    · obtain ⟨⟨record, hid, hd⟩, _⟩ := ht'.views ha
      refine Or.inl ⟨⟨hb, Or.inl ⟨hR, hrej⟩⟩, record, hid, ?_⟩
      rw [hr, List.filterMap_append, hearly, List.nil_append, List.filterMap_cons_none rfl, hd]
    · refine Or.inr ⟨?_, by rw [hr]; exact filterMap_nil_of ht' (by rintro _ rfl; rfl)⟩
      rintro ⟨_, ⟨_, h⟩ | ⟨hG, _⟩⟩
      · exact hrej h
      · exact hR.not_goesAhead hG
  · rw [Act.run_bind_of_ok hp]
    dsimp only
    have hdevice : w'.device = w.device :=
      (prepare_moves (Stable.sameDevice (S := EarlyAwait)) context command inst).of_run hp
    generalize hrun : carryOut env b.delegate context command inst info w' = run
    obtain ⟨r, w'', t'⟩ := run
    rcases carryOut_cases hrun with ⟨hcarried, ⟨c⟩⟩ | ⟨hnot, _, ht'⟩
    · obtain ⟨record, hid, hd⟩ := c.delivered ha
      refine Or.inl ⟨⟨hb, Or.inr ⟨hG, hdevice ▸ hcarried⟩⟩, record, hid, ?_⟩
      rw [List.filterMap_append, hearly, List.nil_append, hd]
    · refine Or.inr ⟨?_, ?_⟩
      · rintro ⟨_, ⟨hR, _⟩ | ⟨_, hcarried⟩⟩
        · exact hR.not_goesAhead hG
        · exact hnot (hdevice ▸ hcarried)
      · rw [List.filterMap_append, hearly, List.nil_append]
        exact filterMap_nil_of ht' fun _ => blank_handed
  · rw [Act.run_bind_of_error hp]
    exact Or.inr ⟨fun h => hno ⟨h.1, h.2.imp And.left And.left⟩, hearly⟩

/-- **Audit completeness, as far as it goes**: the record reaches every sink just where the mutation
gets as far as its audit. What can come between is an exception: of the bus on the way there, of the
confirmation, of the delegate, or of the rollback; where there are no sinks there is nothing to
reach. -/
theorem audit_delivered_iff {env : Env δ} {command : ExecutionCommand} {inst : CapabilityRef}
    {info : MutationInfo} {w : World δ} (hw : w.registry.get? command.capabilityId = some inst)
    (hm : (env.objects inst).metadata.mutation = some info) (ha : info.auditRequired = true)
    (b : DelegateRun δ) :
    Delivered env (mutationIdOf w) (processMutation env command b.delegate w).trace ↔
      AuditReached env b (contextOf command (mutationIdOf w)) command inst info w.device ∨
        env.sinks = [] := by
  rw [processMutation_found env command b.delegate hw, Act.bind_emit]
  rcases processFound_handed hm ha b (contextOf command (mutationIdOf w)) command
      { w with uuids := w.uuids + 1 } with ⟨hreached, record, hid, hd⟩ | ⟨hnot, hd⟩
  · refine iff_of_true ⟨record, hid, ?_⟩ (Or.inl hreached)
    rw [List.filterMap_cons_none rfl]
    exact hd
  · have hnone : Delivered env (mutationIdOf w) (.resolved inst ::
        (processFound env b.delegate (contextOf command (mutationIdOf w)) command inst
          { w with uuids := w.uuids + 1 }).trace) ↔ env.sinks = [] := by
      unfold Delivered
      rw [List.filterMap_cons_none rfl, hd]
      constructor
      · rintro ⟨record, _, h⟩
        rw [eq_comm, List.map_eq_nil_iff, List.range_eq_nil] at h
        exact List.length_eq_zero_iff.mp h
      · intro h
        refine ⟨auditRecord (contextOf command (mutationIdOf w)) command .FAILED (.value .none)
          none "", rfl, ?_⟩
        rw [h]
        rfl
    rw [or_iff_right hnot]
    exact hnone

/-! ### A delegate that raises -/

def erase : Capability Unit where
  metadata :=
    { id := "erase"
      name := "Erase"
      description := ""
      version := "1.0.0"
      mutation := some { supportsRollback := true } }
  execute _ := pure (.value .none)
  mutating := some { supportsRollback := fun _ => .ok true, rollback := fun _ _ => pure () }

def eraseEnv : Env Unit :=
  { Env.alone (fun _ => erase) Dict.empty with sinks := [⟨fun _ => .ok ()⟩] }

def eraseCommand : ExecutionCommand := { commandId := "command", capabilityId := "erase" }

def eraseWorld : World Unit := World.holding "erase" 0 ()

def DelegateRun.ending (result : Except Exn ExecutionOutcome) : DelegateRun Unit where
  result := result
  effect := id
  elsewhere := id
  entries := []
  foreign := fun _ h => absurd h List.not_mem_nil

def erased (status : ExecutionOutcomeStatus) : DelegateRun Unit :=
  .ending (.ok (buildOutcome eraseCommand status none none))

theorem audit_delivered_iff_erase :
    Delivered eraseEnv (mutationIdOf eraseWorld)
        (processMutation eraseEnv eraseCommand (erased .SUCCEEDED).delegate eraseWorld).trace ↔
      AuditReached eraseEnv (erased .SUCCEEDED) (contextOf eraseCommand (mutationIdOf eraseWorld))
          eraseCommand 0 { supportsRollback := true } () ∨
        eraseEnv.sinks = [] :=
  audit_delivered_iff rfl rfl rfl (erased .SUCCEEDED)

theorem raising_delegate_unaudited :
    let b := DelegateRun.ending (.error ⟨.runtimeError, lit "bus is down"⟩)
    eraseEnv.sinks.length = 1 ∧ ¬ Delivered eraseEnv (mutationIdOf eraseWorld)
      (processMutation eraseEnv eraseCommand b.delegate eraseWorld).trace := by
  refine ⟨rfl, ?_⟩
  rintro ⟨record, _, h⟩
  exact absurd h (List.cons_ne_nil _ _).symm

/-! ## Agreement with the event stream -/

def announcedIn (t : List Entry) : List MutationState := t.filterMap Entry.announced

def recordedIn (t : List Entry) : List MutationState := t.filterMap Entry.recorded

/-- At most one ending was announced, the one the outcome has, and one status was recorded, the
announced one or `FAILED`. -/
structure TrailAgrees (status : ExecutionOutcomeStatus) (announced recorded : List MutationState) :
    Prop where
  atMostOne : announced.length ≤ 1
  completed : .COMPLETED ∈ announced → status = .SUCCEEDED
  rejected : .REJECTED ∈ announced → status = .DENIED
  rolledBack : .ROLLED_BACK ∈ announced → status = .FAILED
  record : ∃ s, recorded = [s] ∧ (s = .COMPLETED ↔ .COMPLETED ∈ announced) ∧
    (s = .REJECTED ↔ .REJECTED ∈ announced) ∧ (s = .ROLLED_BACK ↔ .ROLLED_BACK ∈ announced) ∧
    (announced = [] → s = .FAILED)

theorem agrees_iff (status : ExecutionOutcomeStatus) (announced : List MutationState)
    (s : MutationState) :
    TrailAgrees status announced [s] ↔ announced.length ≤ 1 ∧
      (.COMPLETED ∈ announced → status = .SUCCEEDED) ∧
      (.REJECTED ∈ announced → status = .DENIED) ∧
      (.ROLLED_BACK ∈ announced → status = .FAILED) ∧ (s = .COMPLETED ↔ .COMPLETED ∈ announced) ∧
      (s = .REJECTED ↔ .REJECTED ∈ announced) ∧ (s = .ROLLED_BACK ↔ .ROLLED_BACK ∈ announced) ∧
      (announced = [] → s = .FAILED) := by
  constructor
  · rintro ⟨h₁, h₂, h₃, h₄, s', hs, h⟩
    obtain rfl : s = s' := by simpa using hs
    exact ⟨h₁, h₂, h₃, h₄, h⟩
  · rintro ⟨h₁, h₂, h₃, h₄, h⟩
    exact ⟨h₁, h₂, h₃, h₄, s, rfl, h⟩

theorem RecoveryEntry.announces_nothing {inst : CapabilityRef} {x : Entry}
    (h : RecoveryEntry inst x)
    (hx : ∀ c reason, x ≠ .event (.mutationRolledBack c reason)) : x.announced = none := by
  cases x with
  | event e =>
    cases e with
    | mutationRolledBack c reason => exact absurd rfl (hx c reason)
    | rollbackFailed c error => rfl
    | _ => exact absurd h id
  | rollback inst => rfl
  | _ => exact absurd h id

theorem Carried.recordedIn {env : Env δ} {b : DelegateRun δ} {context : MutationContext}
    {command : ExecutionCommand} {inst : CapabilityRef} {info : MutationInfo} {w : World δ}
    {r : Except Exn ExecutionOutcome} {t : List Entry}
    (c : Carried env b context command inst info w r t) (ha : info.auditRequired = true) :
    recordedIn t = [mapOutcomeToState c.recovered] := by
  have hcompletion : c.completion.filterMap Entry.recorded = [] :=
    filterMap_nil_of c.completes (by rintro _ rfl; rfl)
  rw [DefaultMutationManager.recordedIn, c.view rfl fun _ h => h.blank.2.1,
    filterMap_nil_of c.recovers fun _ h => h.blank.2, (c.audits.views ha).2.1, hcompletion,
    List.append_nil, List.nil_append]

theorem Carried.announcedIn {env : Env δ} (hbus : env.BusDelivers) {b : DelegateRun δ}
    {context : MutationContext} {command : ExecutionCommand} {inst : CapabilityRef}
    {info : MutationInfo} {w : World δ} {r : Except Exn ExecutionOutcome} {t : List Entry}
    (c : Carried env b context command inst info w r t) (ha : info.auditRequired = true) :
    (Undone env command inst info c.outcome (b.effect w.device) ∧
        announcedIn t = [.ROLLED_BACK]) ∨
      (¬ Undone env command inst info c.outcome (b.effect w.device) ∧
        announcedIn t = if c.outcome.status = .SUCCEEDED then [.COMPLETED] else []) := by
  have hcompletion := (c.returns (hbus _)).2
  rw [c.status] at hcompletion
  rw [DefaultMutationManager.announcedIn, c.view rfl fun _ h => h.blank.2.2,
    (c.audits.views ha).2.2, List.nil_append, hcompletion]
  rcases c.rollsBack with ⟨hundone, reason, hr⟩ | ⟨hundone, hr⟩
  · left
    obtain ⟨mutating, ⟨hf, _⟩, _⟩ := id hundone
    refine ⟨hundone, ?_⟩
    rw [hr, hf]
    rfl
  · right
    have hnone : c.recovery.filterMap Entry.announced = [] :=
      List.filterMap_eq_nil_iff.mpr fun x hx => (c.recovers x hx).announces_nothing
        fun c' reason h => hr (hbus _) c' reason (h ▸ hx)
    refine ⟨hundone, ?_⟩
    rw [hnone]
    split <;> rfl

/-- **How an audited mutation ends**: refused, or carried out, with what it announced and what it
recorded. -/
theorem processFound_endings {env : Env δ} (hbus : env.BusDelivers) {inst : CapabilityRef}
    {info : MutationInfo} (hm : (env.objects inst).metadata.mutation = some info)
    (ha : info.auditRequired = true) {b : DelegateRun δ} {context : MutationContext}
    {command : ExecutionCommand} {w w' : World δ} {outcome : ExecutionOutcome} {t : List Entry}
    (h : processFound env b.delegate context command inst w = ⟨.ok outcome, w', t⟩) :
    (Refused env context info ∧ outcome.status = .DENIED ∧ announcedIn t = [.REJECTED] ∧
      recordedIn t = [.REJECTED]) ∨
    (¬ Refused env context info ∧ ∃ d, b.result = .ok d ∧ outcome.status = d.status ∧
      recordedIn t = [mapOutcomeToState d] ∧
      ((Undone env command inst info d (b.effect w.device) ∧ announcedIn t = [.ROLLED_BACK]) ∨
        (¬ Undone env command inst info d (b.effect w.device) ∧
          announcedIn t = if d.status = .SUCCEEDED then [.COMPLETED] else []))) := by
  obtain ⟨prepared, w₁, t₁, t₂, hp, h₂, rfl⟩ := Act.bind_ok h
  have hearly := (prepare_emits ..).of_run hp
  have hann : announcedIn (t₁ ++ t₂) = announcedIn t₂ := by
    unfold announcedIn
    rw [List.filterMap_append, filterMap_nil_of hearly fun _ h => h.blank.2.2, List.nil_append]
  have hrec : recordedIn (t₁ ++ t₂) = recordedIn t₂ := by
    unfold recordedIn
    rw [List.filterMap_append, filterMap_nil_of hearly fun _ h => h.blank.2.1, List.nil_append]
  rw [hann, hrec]
  rcases prepare_cases hm context command w with
    ⟨_, hR, reason, w', t, hp'⟩ | ⟨_, hG, w', t, hp'⟩ | ⟨_, exc, w', t, hp'⟩
  · cases hp.symm.trans hp'
    left
    rcases reject_cases env context command info reason w₁ with
      ⟨_, w₂, t₃, ht₃, hr⟩ | ⟨hb, _⟩
    · cases h₂.symm.trans hr
      obtain ⟨_, hrecorded, hannounced⟩ := ht₃.views ha
      refine ⟨hR, rfl, ?_, ?_⟩
      · have h : (Entry.event (.mutationRejected context reason)).announced = some .REJECTED := rfl
        rw [announcedIn, List.filterMap_cons_some h, hannounced]
      · exact (List.filterMap_cons_none rfl).trans hrecorded
    · exact absurd (hbus _) hb
  · cases hp.symm.trans hp'
    right
    have hdevice : w₁.device = w.device :=
      (prepare_moves (Stable.sameDevice (S := EarlyAwait)) context command inst).of_run hp
    refine ⟨fun hR => hR.not_goesAhead hG, ?_⟩
    rcases carryOut_cases h₂ with ⟨_, ⟨c⟩⟩ | ⟨_, ⟨exc, he⟩, _⟩
    · have hr := c.recordedIn ha
      have hback := c.announcedIn hbus ha
      have hout : outcome = c.recovered := Except.ok.inj (c.returns (hbus _)).1
      rw [hdevice] at hback
      have hstate : mapOutcomeToState c.recovered = mapOutcomeToState c.outcome := by
        unfold mapOutcomeToState ExecutionOutcome.succeeded ExecutionOutcome.denied
        rw [c.status]
      exact ⟨c.outcome, c.result, (congrArg _ hout).trans c.status, hstate ▸ hr, hback⟩
    · exact absurd he (by simp)
  · cases hp.symm.trans hp'

/-- **The trail agrees with the event stream just where** the confirmation was refused, or the
delegate came to an outcome that is neither a denial nor a failure that was rolled back. Both of
these are told on the bus in one way and put on record in another. -/
theorem trail_agrees_iff {env : Env δ} (hbus : env.BusDelivers) {command : ExecutionCommand}
    {inst : CapabilityRef} {info : MutationInfo} {w w' : World δ}
    (hw : w.registry.get? command.capabilityId = some inst)
    (hm : (env.objects inst).metadata.mutation = some info) (ha : info.auditRequired = true)
    (b : DelegateRun δ) {outcome : ExecutionOutcome} {t : List Entry}
    (h : processMutation env command b.delegate w = ⟨.ok outcome, w', t⟩) :
    TrailAgrees outcome.status (announcedIn t) (recordedIn t) ↔
      Refused env (contextOf command (mutationIdOf w)) info ∨ ∃ d, b.result = .ok d ∧
        d.status ≠ .DENIED ∧ ¬ Undone env command inst info d (b.effect w.device) := by
  rw [processMutation_found env command b.delegate hw] at h
  obtain ⟨_, _, t₁, t₂, hemit, hfound, rfl⟩ := Act.bind_ok h
  obtain ⟨rfl, rfl⟩ := Act.emit_ok hemit
  have hann : announcedIn ([.resolved inst] ++ t₂) = announcedIn t₂ :=
    List.filterMap_cons_none rfl
  have hrec : recordedIn ([.resolved inst] ++ t₂) = recordedIn t₂ := List.filterMap_cons_none rfl
  rw [hann, hrec]
  rcases processFound_endings hbus hm ha hfound with
    ⟨hR, hs, ha', hr⟩ | ⟨hR, d, hd, hs, hr, hback⟩
  · rw [ha', hr, hs]
    exact iff_of_true ((agrees_iff ..).mpr (by decide)) (Or.inl hR)
  · have hcond : (Refused env (contextOf command (mutationIdOf w)) info ∨ ∃ d', b.result = .ok d' ∧
        d'.status ≠ .DENIED ∧ ¬ Undone env command inst info d' (b.effect w.device)) ↔
        d.status ≠ .DENIED ∧ ¬ Undone env command inst info d (b.effect w.device) := by
      rw [or_iff_right hR]
      refine ⟨?_, fun hd' => ⟨d, hd, hd'⟩⟩
      rintro ⟨d', hd', h'⟩
      rw [hd, Except.ok.injEq] at hd'
      exact hd' ▸ h'
    rw [hcond, hr, hs, agrees_iff]
    unfold mapOutcomeToState ExecutionOutcome.succeeded ExecutionOutcome.denied
    rcases hback with ⟨hundone, ha'⟩ | ⟨hundone, ha'⟩
    · obtain ⟨_, ⟨hf, _⟩, _⟩ := id hundone
      rw [ha', hf]
      exact iff_of_false (by decide) fun h => h.2 hundone
    · rw [ha', and_iff_left hundone]
      cases d.status <;> decide

def eraseRun (status : ExecutionOutcomeStatus) : Run (World Unit) Exn Entry ExecutionOutcome :=
  processMutation eraseEnv eraseCommand (erased status).delegate eraseWorld

theorem trail_agrees_iff_erase :
    TrailAgrees .SUCCEEDED (announcedIn (eraseRun .SUCCEEDED).trace)
        (recordedIn (eraseRun .SUCCEEDED).trace) ↔
      Refused eraseEnv (contextOf eraseCommand (mutationIdOf eraseWorld))
          { supportsRollback := true } ∨
        ∃ d, (erased .SUCCEEDED).result = .ok d ∧ d.status ≠ .DENIED ∧
          ¬ Undone eraseEnv eraseCommand 0 { supportsRollback := true } d () :=
  trail_agrees_iff (fun _ => rfl) rfl rfl rfl (erased .SUCCEEDED)
    (show eraseRun .SUCCEEDED = ⟨.ok (buildOutcome eraseCommand .SUCCEEDED none none), _, _⟩
      from rfl)

theorem rolledBack_recorded_failed :
    (eraseRun .FAILED).result = .ok (buildOutcome eraseCommand .FAILED none none) ∧
      announcedIn (eraseRun .FAILED).trace = [.ROLLED_BACK] ∧
      recordedIn (eraseRun .FAILED).trace = [.FAILED] ∧
      ¬ TrailAgrees .FAILED (announcedIn (eraseRun .FAILED).trace)
        (recordedIn (eraseRun .FAILED).trace) := by
  have ha : announcedIn (eraseRun .FAILED).trace = [.ROLLED_BACK] := rfl
  have hr : recordedIn (eraseRun .FAILED).trace = [.FAILED] := rfl
  refine ⟨rfl, ha, hr, ?_⟩
  rw [ha, hr, agrees_iff]
  decide

/-! ## The dispatcher as a delegate -/

theorem dispatch_foreign (env : Env δ) (command : ExecutionCommand) :
    Act.EmitsOnly ForeignEntry (DefaultProtectedDispatcher.dispatch env command) where
  mem w x hx := by
    have hown : ∀ x, DefaultProtectedDispatcher.OwnEntry x → ForeignEntry x := by
      intro x h
      cases x with
      | event e => exact h
      | permission _ _ => trivial
      | confirmation _ _ _ => trivial
      | _ => exact absurd h id
    generalize hrun : DefaultProtectedDispatcher.dispatch env command w = run at hx
    obtain ⟨r, w', t⟩ := run
    rcases DefaultProtectedDispatcher.dispatch_cases hrun with hu | ⟨⟨e⟩⟩
    · exact hown x (hu.own x hx)
    · have hx : x ∈ e.before ++ .executed e.inst :: e.after := e.trace ▸ hx
      rcases List.mem_append.mp hx with hx | hx
      · exact hown x (e.own x (List.mem_append_left _ hx))
      · rcases List.mem_cons.mp hx with rfl | hx
        · trivial
        · exact hown x (e.own x (List.mem_append_right _ hx))

/-- **The lifecycle `execute` runs is one over a `DelegateRun`**, so all of the above is about
it. -/
theorem mutation_of_execute (env : Env δ) (command : ExecutionCommand) (w : World δ) :
    ∃ b : DelegateRun δ, processMutation env command b.delegate w
      = processMutation env command (DefaultProtectedDispatcher.dispatch env) w :=
  processMutation_delegateRun env (dispatch_foreign env command) w

end DefaultMutationManager

end IraOS
