import IraOS.Execution.Service

/-!
# What a run of the protected dispatcher is made of

`dispatch_cases`: a run either never reaches a capability, and then it has touched no device, or it
is `Executed` — authorized first, looked up once, run once — and everything that is asked about the
one execution is a field of that.

The structure `Executed` cuts a run at its execution: the trace before it, which has the
authorization in it; the world in which the capability was looked up; and the trace after it, in
which nothing is executed any more. It is what the results on authorization, on instances and on
audit trails start from, and none of them unfolds the dispatcher.

The runtime below has three ways to end, and they differ in what has happened: it may raise before
it has found a capability, raise because the capability did, or return. `runtime_cases` tells them
apart by whether a capability was run. What a capability raises is made into one class by the
executor (`normalize`), so a report does not depend on what was raised.

Where nothing gets in the way (the bus delivers, the command is authorized and its capability
registered) the outcome is known exactly (`dispatch_run`).
-/

set_option autoImplicit false

namespace IraOS

open Lib

variable {δ : Type}

namespace DefaultProtectedDispatcher

def OwnEntry : Entry → Prop
  | .event e => e.ofMutation = false
  | .permission _ _ => True
  | .confirmation asker _ _ => asker = .security
  | _ => False

def EarlyAwait : Await → Prop
  | .publish site => site ∈ [.permissionRequested, .policyEvaluationCompleted, .permissionGranted,
      .permissionDenied, .deny, .executionAuthorized]
  | .confirmation asker => asker = .security
  | _ => False

theorem not_isExecution_of_own {x : Entry} (h : OwnEntry x) :
    x.isExecution = false := by
  cases x with
  | executed inst => exact absurd h id
  | _ => rfl

/-! ## Authorization -/

theorem approve_emits (env : Env δ) (command : ExecutionCommand) (result : PermissionResult) :
    Act.EmitsOnly OwnEntry (approve env command result) := by
  unfold approve
  refine .ite (.ite (.bind (.nothing fun _ => rfl) fun _ => .bind ?_ ?_) (.pure _))
    (.ite (.pure _) (.pure _))
  · exact (ConfirmationManager.requestConfirmation_emits ..).mono fun x ⟨_, hx⟩ => hx ▸ rfl
  · intro confirmed
    exact .ite (.pure _) (.pure _)

theorem ownEntry_of_security {x : Entry} (h : SecurityManager.OwnEntry x) : OwnEntry x := by
  cases x with
  | event e => cases e <;> simp_all [SecurityManager.OwnEntry, OwnEntry, Event.ofPermission,
      Event.ofMutation]
  | permission _ _ => trivial
  | _ => exact absurd h id

theorem authorization_emits (env : Env δ) (command : ExecutionCommand) :
    Act.EmitsOnly OwnEntry (authorization env command) :=
  .bind (.nothing fun _ => rfl) fun _ =>
    .bind ((SecurityManager.checkPermission_emits ..).mono fun _ => ownEntry_of_security) fun _ =>
      approve_emits ..

section Moves

variable {env : Env δ} {R : World δ → World δ → Prop}

theorem approve_moves (h : Stable env EarlyAwait R) (command : ExecutionCommand)
    (result : PermissionResult) : Act.Moves R (approve env command result) :=
  .ite (.ite (h.bind h.uuid4 fun _ => h.bind
    (ConfirmationManager.requestConfirmation_moves h rfl ..) fun _ => .ite (h.pure _) (h.pure _))
    (h.pure _)) (.ite (h.pure _) (h.pure _))

theorem authorization_moves (h : Stable env EarlyAwait R) (command : ExecutionCommand) :
    Act.Moves R (authorization env command) := by
  have hs : Stable env SecurityManager.OwnAwait R := by
    apply h.mono
    intro p hp
    cases p with
    | publish site =>
      simp only [SecurityManager.OwnAwait, EarlyAwait, List.mem_cons] at hp ⊢
      tauto
    | _ => exact absurd hp id
  exact h.bind h.uuid4 fun _ => h.bind (SecurityManager.checkPermission_moves hs _) fun _ =>
    approve_moves h ..

end Moves

/-- What has to be behind an execution: the policies grant it outright, or they ask for approval
and the user gave it. -/
def Authorized (policies : DefaultPolicyEvaluator.Policies) (command : ExecutionCommand)
    (t : List Entry) : Prop :=
  (.permission command.capabilityId .GRANTED ∈ t ∧
    Permits policies command.capabilityId (trustLevelOf command) false) ∨
  (List.Sublist
      [.permission command.capabilityId .REQUIRES_APPROVAL, .confirmation .security .USER true] t ∧
    Permits policies command.capabilityId (trustLevelOf command) true)

/-- **Going ahead is authorized.** -/
theorem authorization_ok {env : Env δ} {policies : DefaultPolicyEvaluator.Policies}
    (hsec : env.security = .ofPolicies policies) {command : ExecutionCommand} {w w' : World δ}
    {t : List Entry} (h : authorization env command w = ⟨.ok none, w', t⟩) :
    Authorized policies command t := by
  obtain ⟨permissionId, _, t₀, _, _, h₁, rfl⟩ := Act.bind_ok h
  obtain ⟨result, _, t₁, t₂, hc, h₂, rfl⟩ := Act.bind_ok h₁
  obtain ⟨hmem, hg, hcases⟩ := SecurityManager.checkPermission_ok hsec rfl hc
  unfold approve at h₂
  rcases hcases with hs | ⟨hs, hp⟩ | ⟨hs, hp⟩
  · simp only [hs, hg, reduceCtorEq, decide_false, if_false, Bool.false_eq_true] at h₂
    exact absurd (Act.pure_ok h₂).1 (by simp)
  · right
    refine ⟨?_, hp⟩
    simp only [hs, if_true] at h₂
    split at h₂
    · obtain ⟨_, _, t₃, _, _, h₃, rfl⟩ := Act.bind_ok h₂
      obtain ⟨confirmed, _, t₄, _, hq, h₄, rfl⟩ := Act.bind_ok h₃
      cases confirmed with
      | false => exact absurd (Act.pure_ok h₄).1 (by simp)
      | true =>
        rw [ConfirmationManager.requestConfirmation_ok hq, ← hs]
        refine List.Sublist.trans ?_ (List.sublist_append_right t₀ _)
        refine List.Sublist.append (List.singleton_sublist.mpr hmem) ?_
        exact (List.singleton_sublist.mpr (by simp)).trans (List.sublist_append_right t₃ _)
    · exact absurd (Act.pure_ok h₂).1 (by simp)
  · exact Or.inl ⟨hs ▸ List.mem_append_right _ (List.mem_append_left _ hmem), hp⟩

/-! ## The runtime -/

def capabilityRun (objects : Objects δ) (command : ExecutionCommand) (inst : CapabilityRef)
    (d : δ) : Run δ Exn Empty PyAny :=
  (objects inst).execute (contextOf objects command inst) d

def normalize (result : Except Exn PyAny) : Except Exn PyAny :=
  result.mapError fun exc =>
    ⟨.executionFailedError, lit ("Capability execution failed: " ++ exc.cls.name)⟩

theorem executor_run (env : Env δ) (command : ExecutionCommand) (inst : CapabilityRef)
    (w : World δ) :
    RuntimeExecutor.execute env inst (contextOf env.objects command inst) w
      = ⟨normalize (capabilityRun env.objects command inst w.device).result,
        { w.after env .execution with
          device := (capabilityRun env.objects command inst w.device).state },
        [.executed inst]⟩ := rfl

/-- The runtime raises before it reaches a capability, the device untouched, or it runs the one it
looked up, on the device as it stands. -/
theorem runtime_cases {env : Env δ} {command : ExecutionCommand} {w w' : World δ}
    {r : Except Exn PyAny} {t : List Entry} (h : runtime env command w = ⟨r, w', t⟩) :
    ((∃ exc, r = .error exc) ∧ w'.device = w.device ∧ ∀ x ∈ t, OwnEntry x) ∨
    ∃ inst t₁, w.registry.get? command.capabilityId = some inst ∧ (∀ x ∈ t₁, OwnEntry x) ∧
      t = t₁ ++ [.executed inst] ∧
      w'.device = (capabilityRun env.objects command inst w.device).state ∧
      r = normalize (capabilityRun env.objects command inst w.device).result := by
  rcases Act.bind_cases h with ⟨exc, rfl, hg⟩ | ⟨_, _, _, _, hg, h₁, rfl⟩
  · exact absurd hg (by simp)
  obtain ⟨rfl, rfl, rfl⟩ := Act.get_ok hg
  rcases Act.bind_cases h₁ with ⟨exc, rfl, hl⟩ | ⟨inst, _, _, _, hl, h₂, rfl⟩
  · rw [Act.run_ofExcept, Run.mk.injEq] at hl
    obtain ⟨_, rfl, rfl⟩ := hl
    exact Or.inl ⟨⟨exc, rfl⟩, rfl, by simp⟩
  obtain ⟨hlook, rfl, rfl⟩ := Act.ofExcept_ok hl
  have hinst := InMemoryCapabilityRegistry.lookup_ok hlook
  rcases Act.bind_cases h₂ with ⟨exc, rfl, hp⟩ | ⟨_, _, t₁, _, hp, h₃, rfl⟩
  · have hd := congrArg (fun run => run.state.device) hp
    rw [publish_state] at hd
    refine Or.inl ⟨⟨exc, rfl⟩, hd.symm, ?_⟩
    intro x hx
    have hown : Act.EmitsOnly OwnEntry (publish env .executionDispatched
        (.executionDispatched command.commandId command.capabilityId)) := publish_emits _ _ rfl
    exact hown.of_run hp x (by simpa using hx)
  have hd := congrArg (fun run => run.state.device) hp
  rw [publish_state] at hd
  rw [executor_run, Run.mk.injEq] at h₃
  obtain ⟨hr, rfl, rfl⟩ := h₃
  refine Or.inr ⟨inst, t₁, hinst, ?_, rfl, ?_, ?_⟩
  · intro x hx
    rw [publish_ok hp, List.mem_singleton] at hx
    exact hx ▸ rfl
  · exact congrArg (fun d => (capabilityRun env.objects command inst d).state) hd.symm
  · rw [← hr]
    exact congrArg (fun d => normalize (capabilityRun env.objects command inst d).result) hd.symm

/-! ## The whole run -/

def outcomeOf (command : ExecutionCommand) : Except Exn PyAny → ExecutionOutcome
  | .ok result =>
    { commandId := command.commandId
      capabilityId := command.capabilityId
      status := .SUCCEEDED
      resultData := result }
  | .error exc =>
    { commandId := command.commandId
      capabilityId := command.capabilityId
      status := .FAILED
      error := some (lit "Runtime execution failed: " ++ exc.message) }

def eventOf (command : ExecutionCommand) : Except Exn PyAny → Event
  | .ok result => .executionSucceeded command.commandId command.capabilityId result
  | .error exc => .executionFailed command.commandId command.capabilityId
      (lit "Runtime execution failed: " ++ exc.message)

theorem report_run (env : Env δ) (command : ExecutionCommand) (ran : Except Exn PyAny) :
    ∃ site, report env command ran
      = (publish env site (eventOf command ran) >>= fun _ => pure (outcomeOf command ran)) := by
  cases ran with
  | ok result => exact ⟨.executionSucceeded, rfl⟩
  | error exc => exact ⟨.executionFailed, rfl⟩

theorem report_cases {env : Env δ} {command : ExecutionCommand} {ran : Except Exn PyAny}
    {w w' : World δ} {r : Except Exn ExecutionOutcome} {t : List Entry}
    (h : report env command ran w = ⟨r, w', t⟩) :
    (∀ x ∈ t, OwnEntry x) ∧ w'.device = w.device ∧
      ∀ outcome, r = .ok outcome →
        outcome = outcomeOf command ran ∧ t = [.event (eventOf command ran)] := by
  obtain ⟨site, hr⟩ := report_run env command ran
  rw [hr] at h
  have hown : OwnEntry (.event (eventOf command ran)) := by cases ran <;> rfl
  have hs : Stable env (fun _ => True) SameDevice := Stable.sameDevice
  refine ⟨(Act.EmitsOnly.bind (publish_emits _ _ hown) fun _ => .pure _).of_run h,
    (hs.bind (hs.publish trivial _) fun _ => hs.pure _).of_run h, ?_⟩
  rintro outcome rfl
  obtain ⟨_, _, _, _, hp, h₁, rfl⟩ := Act.bind_ok h
  obtain ⟨rfl, _, rfl⟩ := Act.pure_ok h₁
  exact ⟨rfl, by rw [publish_ok hp, List.append_nil]⟩

/-- A run that reached no capability: nothing was executed and the device is untouched. -/
structure Unexecuted (w : World δ) (r : Except Exn ExecutionOutcome) (w' : World δ)
    (t : List Entry) : Prop where
  own : ∀ x ∈ t, OwnEntry x
  device : w'.device = w.device
  failed : ∀ outcome, r = .ok outcome → outcome.status = .DENIED ∨
    (outcome.status = .FAILED ∧ outcome.resultData = .value .none)

/-- A run that reached a capability, cut at its execution: `before` is the trace up to it and `w₁`
the world in which `inst` was looked up. -/
structure Executed (env : Env δ) (command : ExecutionCommand) (w : World δ)
    (r : Except Exn ExecutionOutcome) (w' : World δ) (t : List Entry) where
  inst : CapabilityRef
  before : List Entry
  w₁ : World δ
  after : List Entry
  own : ∀ x ∈ before ++ after, OwnEntry x
  authorized : ∃ w₀ t₀, authorization env command w = ⟨.ok none, w₀, t₀⟩ ∧ t₀ <+: before
  moves : ∀ R, Stable env EarlyAwait R → R w w₁
  lookup : w₁.registry.get? command.capabilityId = some inst
  trace : t = before ++ .executed inst :: after
  device : w'.device = (capabilityRun env.objects command inst w.device).state
  outcome : ∀ outcome, r = .ok outcome →
    outcome = outcomeOf command
      (normalize (capabilityRun env.objects command inst w.device).result)

theorem publishDenial_cases {env : Env δ} {command : ExecutionCommand} {reason : Text}
    {w w' : World δ} {r : Except Exn ExecutionOutcome} {t : List Entry}
    (h : publishDenial env command reason w = ⟨r, w', t⟩) : Unexecuted w r w' t where
  own := by
    have he : Act.EmitsOnly OwnEntry (publishDenial env command reason) :=
      .bind (publish_emits _ _ rfl) fun _ => .pure _
    exact he.of_run h
  device := by
    have hs : Stable env (fun _ => True) SameDevice := Stable.sameDevice
    exact (hs.bind (hs.publish trivial _) fun _ => hs.pure _).of_run h
  failed := by
    rintro outcome rfl
    obtain ⟨_, _, _, _, _, h₁, _⟩ := Act.bind_ok h
    exact Or.inl ((Act.pure_ok h₁).1 ▸ rfl)

theorem dispatchAuthorized_cases {env : Env δ} {command : ExecutionCommand} {w w' : World δ}
    {r : Except Exn ExecutionOutcome} {t : List Entry}
    (h : dispatchAuthorized env command w = ⟨r, w', t⟩) :
    Unexecuted w r w' t ∨ ∃ inst before w₁ after, (∀ x ∈ before ++ after, OwnEntry x) ∧
      (∀ R, Stable env EarlyAwait R → R w w₁) ∧
      w₁.registry.get? command.capabilityId = some inst ∧
      t = before ++ .executed inst :: after ∧
      w'.device = (capabilityRun env.objects command inst w.device).state ∧
      ∀ outcome, r = .ok outcome → outcome = outcomeOf command
        (normalize (capabilityRun env.objects command inst w.device).result) := by
  have hpub : Act.EmitsOnly OwnEntry (publish env .executionAuthorized
      (.executionAuthorized command.commandId command.capabilityId)) := publish_emits _ _ rfl
  have hwait : ∀ R, Stable env EarlyAwait R → Act.Moves R (publish env .executionAuthorized
      (.executionAuthorized command.commandId command.capabilityId)) := by
    intro R hR
    exact hR.publish (by simp [EarlyAwait]) _
  rcases Act.bind_cases h with ⟨exc, rfl, hp⟩ | ⟨_, w₁, t₁, t₂, hp, h₁, rfl⟩
  · left
    refine ⟨hpub.of_run hp, (hwait SameDevice Stable.sameDevice).of_run hp, ?_⟩
    intro outcome ho
    exact absurd ho (by simp)
  have hown₁ := hpub.of_run hp
  have hd₁ : w₁.device = w.device := (hwait SameDevice Stable.sameDevice).of_run hp
  obtain ⟨ran, w₂, t₃, t₄, hr, h₂, rfl⟩ := Act.bind_attempt h₁
  obtain ⟨hown₄, hd₂, hout⟩ := report_cases h₂
  rcases runtime_cases hr with ⟨⟨exc, rfl⟩, hd₃, hown₃⟩ | ⟨inst, t₅, hlook, hown₅, rfl, hd₃, rfl⟩
  · left
    refine ⟨?_, hd₂.trans (hd₃.trans hd₁), ?_⟩
    · simp only [List.forall_mem_append]
      exact ⟨hown₁, hown₃, hown₄⟩
    · intro outcome ho
      rw [(hout outcome ho).1]
      exact Or.inr ⟨rfl, rfl⟩
  · right
    refine ⟨inst, t₁ ++ t₅, w₁, t₄, ?_, fun R hR => (hwait R hR).of_run hp, hlook, by simp, ?_, ?_⟩
    · simp only [List.forall_mem_append]
      exact ⟨⟨hown₁, hown₅⟩, hown₄⟩
    · rw [hd₂, hd₃, hd₁]
    · intro outcome ho
      rw [(hout outcome ho).1, hd₁]

/-- **A dispatch executes nothing, or one capability, authorized and looked up first.** -/
theorem dispatch_cases {env : Env δ} {command : ExecutionCommand} {w w' : World δ}
    {r : Except Exn ExecutionOutcome} {t : List Entry}
    (h : dispatch env command w = ⟨r, w', t⟩) :
    Unexecuted w r w' t ∨ Nonempty (Executed env command w r w' t) := by
  have hdev : Stable env EarlyAwait SameDevice := Stable.sameDevice
  rcases Act.bind_cases h with ⟨exc, rfl, ha⟩ | ⟨refusal, w₀, t₀, t₁, ha, h₁, rfl⟩
  · left
    refine ⟨(authorization_emits ..).of_run ha, (authorization_moves hdev _).of_run ha, ?_⟩
    intro outcome ho
    exact absurd ho (by simp)
  have hown := (authorization_emits ..).of_run ha
  have hd₀ : w₀.device = w.device := (authorization_moves hdev _).of_run ha
  have hfront : ∀ {r t}, Unexecuted w₀ r w' t → Unexecuted w r w' (t₀ ++ t) := fun hu =>
    ⟨List.forall_mem_append.mpr ⟨hown, hu.own⟩, hu.device.trans hd₀, hu.failed⟩
  cases refusal with
  | some reason => exact Or.inl (hfront (publishDenial_cases h₁))
  | none =>
    rcases dispatchAuthorized_cases h₁ with
      hu | ⟨inst, before, w₁, after, hown₁, hmoves, hlook, rfl, hd, hout⟩
    · exact Or.inl (hfront hu)
    · right
      refine ⟨{
        inst := inst
        before := t₀ ++ before
        w₁ := w₁
        after := after
        own := ?_
        authorized := ⟨w₀, t₀, ha, List.prefix_append ..⟩
        moves := fun R hR => hR.trans _ _ _ ((authorization_moves hR _).of_run ha) (hmoves R hR)
        lookup := hlook
        trace := by simp
        device := hd₀ ▸ hd
        outcome := hd₀ ▸ hout }⟩
      rw [List.append_assoc]
      exact List.forall_mem_append.mpr ⟨hown, hown₁⟩

/-! ## A dispatch nothing gets in the way of -/

theorem runtime_run {env : Env δ} {command : ExecutionCommand} {w : World δ} {inst : CapabilityRef}
    (hbus : env.BusDelivers) (hlook : w.registry.get? command.capabilityId = some inst) :
    ∃ w', runtime env command w
      = ⟨normalize (capabilityRun env.objects command inst w.device).result, w',
        [.event (.executionDispatched command.commandId command.capabilityId),
          .executed inst]⟩ := by
  have hl : RuntimeDispatcher.dispatch (requestOf command) w.registry = .ok inst :=
    InMemoryCapabilityRegistry.lookup_of_get? hlook
  have hp := run_publish_delivers (hbus .executionDispatched)
    (.executionDispatched command.commandId command.capabilityId) w
  have hx := executor_run env command inst (w.after env (.publish .executionDispatched))
  refine ⟨(RuntimeExecutor.execute env inst (contextOf env.objects command inst)
    (w.after env (.publish .executionDispatched))).state, ?_⟩
  unfold runtime
  rw [Act.bind_get, hl, Act.run_bind_of_ok (Act.run_ofExcept (.ok inst) w),
    Act.run_bind_of_ok hp, hx]
  rfl

/-- **On a bus that delivers, an authorized command of a registered capability is run and
reported**: the outcome is made of how the capability ended, and of nothing else. -/
theorem dispatch_run {env : Env δ} {command : ExecutionCommand} {w w₀ : World δ} {t₀ : List Entry}
    {inst : CapabilityRef} (hbus : env.BusDelivers)
    (ha : authorization env command w = ⟨.ok none, w₀, t₀⟩)
    (hlook : (w₀.after env (.publish .executionAuthorized)).registry.get? command.capabilityId
      = some inst) :
    let ran := normalize (capabilityRun env.objects command inst w₀.device).result
    ∃ w', dispatch env command w
      = ⟨.ok (outcomeOf command ran), w',
        t₀ ++ [.event (.executionAuthorized command.commandId command.capabilityId),
          .event (.executionDispatched command.commandId command.capabilityId), .executed inst,
          .event (eventOf command ran)]⟩ := by
  intro ran
  obtain ⟨w₁, hr⟩ : ∃ w₁, runtime env command (w₀.after env (.publish .executionAuthorized))
      = ⟨ran, w₁, _⟩ := runtime_run hbus hlook
  obtain ⟨site, hrep⟩ := report_run env command ran
  have hpub := run_publish_delivers (hbus .executionAuthorized)
    (.executionAuthorized command.commandId command.capabilityId) w₀
  have hend : report env command ran w₁ = ⟨.ok (outcomeOf command ran),
      w₁.after env (.publish site), [.event (eventOf command ran)]⟩ := by
    rw [hrep, Act.run_bind_of_ok (run_publish_delivers (hbus site) _ w₁)]
    rfl
  have hauth : dispatchAuthorized env command w₀ = ⟨.ok (outcomeOf command ran),
      w₁.after env (.publish site),
      [.event (.executionAuthorized command.commandId command.capabilityId),
        .event (.executionDispatched command.commandId command.capabilityId), .executed inst,
        .event (eventOf command ran)]⟩ := by
    unfold dispatchAuthorized
    rw [Act.run_bind_of_ok hpub, Act.run_bind_of_ok (Act.run_attempt_of hr), hend]
    rfl
  refine ⟨w₁.after env (.publish site), ?_⟩
  unfold dispatch
  rw [Act.run_bind_of_ok ha]
  dsimp only
  rw [hauth]

end DefaultProtectedDispatcher

end IraOS
