import IraOS.Execution.AuditTrail
import IraOS.Execution.Pipeline

/-!
# What the pipeline comes to on a bus that delivers

With no event lost, how the policy components, the providers and the capabilities answer decides how
each step ends. Here is, step by step, by which answers a step raises, refuses or goes ahead, and
what the world is then: the other tasks can change the registry while a call waits, so that what is
run need not be what was found, and a world is given by the awaits passed.

## Results instead of traces

The decompositions in `Execution.Dispatch` and `Mutation.Lifecycle` say what a run can look like.
The lemmas here are equations and equivalences: a step with these answers has this result. They are
what an exact condition for a whole call is put together from, which is done in
`Execution.Normalized`.

## Where the world is

A step that waits hands the others a turn, so the registry after it is a function of the awaits it
has passed (`Env.along`), and the next uuid of how many have been drawn. `World.passed` is the world
by these two; the device is not in it, as nothing here but an execution touches one. Which awaits a
step passes depends on its result: a check that asks for approval passes one more publish than one
that denies.

The conditions (`Asks`, `Allows`, `Refuses`, `Fails`, `QueryRaises`) are predicates of the command,
the uuid it draws and the answers, and each of them is settled by looking at the components.
-/

set_option autoImplicit false

namespace IraOS

open Lib ConfirmationManager

variable {δ : Type}


/-- The registry after this task has waited at each of `ps` in turn, the others having made their
calls. -/
def Env.along (env : Env δ) (ps : List Await) (caps : InMemoryCapabilityRegistry.Capabilities) :
    InMemoryCapabilityRegistry.Capabilities :=
  ps.foldl (fun caps p => RegistryOp.applyAll env.objects caps (env.others p)) caps

theorem Env.along_append (env : Env δ) (ps qs : List Await)
    (caps : InMemoryCapabilityRegistry.Capabilities) :
    env.along (ps ++ qs) caps = env.along qs (env.along ps caps) := List.foldl_append ..

/-- The world after this task has waited at each of `ps` and drawn `k` uuids. -/
def World.passed (env : Env δ) (ps : List Await) (k : Nat) (w : World δ) : World δ :=
  { w with registry := env.along ps w.registry, uuids := w.uuids + k }

theorem World.after_passed (env : Env δ) (ps : List Await) (k : Nat) (p : Await) (w : World δ) :
    (w.passed env ps k).after env p = w.passed env (ps ++ [p]) k := by
  simp [passed, after, Env.along]

theorem World.passed_passed (env : Env δ) (ps qs : List Await) (k l : Nat) (w : World δ) :
    (w.passed env ps k).passed env qs l = w.passed env (ps ++ qs) (k + l) := by
  simp [passed, Env.along_append, Nat.add_assoc]

def uuidAt (n : Nat) : String := "uuid-" ++ toString n

/-! ## Security -/

/-- What the policy components answer to a request, one after the other; the first that raises
decides. -/
def SecurityComponents.answer (security : SecurityComponents) (request : PermissionRequest) :
    Except Exn PermissionResult := do
  security.validate request
  let decision ← security.evaluate request
  security.authorize decision

theorem SecurityComponents.answer_ok {security : SecurityComponents} {request : PermissionRequest}
    {result : PermissionResult} (h : security.answer request = .ok result) :
    ∃ decision, security.validate request = .ok () ∧ security.evaluate request = .ok decision ∧
      security.authorize decision = .ok result := by
  unfold answer at h
  cases hvalidate : security.validate request with
  | error exc =>
    rw [hvalidate] at h
    cases h
  | ok _ =>
    cases hevaluate : security.evaluate request with
    | error exc =>
      rw [hvalidate, hevaluate] at h
      cases h
    | ok decision =>
      rw [hvalidate, hevaluate] at h
      exact ⟨decision, rfl, rfl, h⟩

namespace SecurityManager

def awaits (result : PermissionResult) : List Await :=
  [.publish .permissionRequested, .publish .policyEvaluationCompleted,
    .publish (if result.granted then .permissionGranted else .permissionDenied)]

variable {env : Env δ} {request : PermissionRequest} {w : World δ}

theorem checkPermission_of_answer (hbus : env.BusDelivers) {result : PermissionResult}
    (h : env.security.answer request = .ok result) :
    ∃ t, checkPermission env (.request request) w
      = ⟨.ok result, w.passed env (awaits result) 0, t⟩ := by
  obtain ⟨decision, hvalidate, hevaluate, hauthorize⟩ := SecurityComponents.answer_ok h
  have houtcome : ∀ w' : World δ, ∃ e, publishOutcome env decision result w'
      = ⟨.ok (), w'.after env
        (.publish (if result.granted then .permissionGranted else .permissionDenied)),
        [.event e]⟩ := by
    intro w'
    unfold publishOutcome
    split
    · exact ⟨_, run_publish_delivers (hbus _) ..⟩
    · exact ⟨_, run_publish_delivers (hbus _) ..⟩
  obtain ⟨e, he⟩ := houtcome
    ((w.after env (.publish .permissionRequested)).after env (.publish .policyEvaluationCompleted))
  have hpipeline : ∃ t, pipeline env (.request request) w
      = ⟨.ok result, w.passed env (awaits result) 0, t⟩ := by
    rw [pipeline, hvalidate, Act.bind_ofExcept,
      Act.run_bind_of_ok (run_publish_delivers (hbus _) ..), hevaluate, Act.bind_ofExcept,
      Act.run_bind_of_ok (run_publish_delivers (hbus _) ..), hauthorize,
      Act.bind_ofExcept, Act.run_bind_of_ok he]
    exact ⟨_, rfl⟩
  obtain ⟨t, hrun⟩ := hpipeline
  unfold checkPermission
  rw [Act.run_bind_of_ok (Act.run_attempt_of hrun)]
  exact ⟨_, rfl⟩

theorem checkPermission_of_raise (hbus : env.BusDelivers) {exc : Exn}
    (h : env.security.answer request = .error exc) :
    ∃ result w' t, checkPermission env (.request request) w = ⟨.ok result, w', t⟩ ∧
      result.state = .DENIED ∧ result.granted = false := by
  generalize hrun : pipeline env (.request request) w = run
  obtain ⟨x, w₁, t⟩ := run
  cases x with
  | ok result =>
    -- a pipeline that gets through has an answer of all three components
    exfalso
    rw [pipeline] at hrun
    obtain ⟨_, hvalidate, hrun⟩ := Act.bind_ofExcept_ok hrun
    obtain ⟨_, _, _, _, _, hrun, _⟩ := Act.bind_ok hrun
    obtain ⟨decision, hevaluate, hrun⟩ := Act.bind_ofExcept_ok hrun
    obtain ⟨_, _, _, _, _, hrun, _⟩ := Act.bind_ok hrun
    obtain ⟨result', hauthorize, _⟩ := Act.bind_ofExcept_ok hrun
    unfold SecurityComponents.answer at h
    rw [hvalidate, hevaluate] at h
    cases hauthorize.symm.trans h
  | error exc' =>
    unfold checkPermission
    rw [Act.run_bind_of_ok (Act.run_attempt_of hrun)]
    unfold settle deny
    rw [Act.run_bind_of_ok (Act.run_bind_of_ok (run_publish_delivers (hbus .deny) ..))]
    exact ⟨_, _, _, rfl, rfl, rfl⟩

end SecurityManager

/-! ## Confirmation -/

namespace ConfirmationManager

variable {env : Env δ} {asker : Asker} {context : MutationContext} {level : ConfirmationLevel}
  {w : World δ}

theorem verdict_error_iff {providers : List ConfirmationProvider} {exc : Exn} :
    verdict providers context level = .error exc ↔
      level ≠ .NONE ∧ findProvider level providers = .error exc := by
  unfold verdict
  by_cases hl : level = .NONE
  · simp [hl]
  · rw [if_neg hl]
    cases findProvider level providers with
    | error exc' => simp [hl, bind, Except.bind]
    | ok provider => simp [hl, bind, Except.bind, pure, Except.pure]

theorem requestConfirmation_result : (requestConfirmation env asker context level w).result
    = verdict env.providers context level := by
  rcases requestConfirmation_run env asker context level w with ⟨_, hv, hr⟩ | ⟨_, _, hv, _, hr⟩
  · rw [hr, hv]
  · rw [hr, hv]

theorem requestConfirmation_state (hl : level ≠ .NONE)
    (hv : verdict env.providers context level = .ok true) :
    (requestConfirmation env asker context level w).state = w.after env (.confirmation asker) := by
  unfold requestConfirmation ask
  unfold verdict at hv
  rw [if_neg hl] at hv ⊢
  cases hfind : findProvider level env.providers with
  | error exc =>
    rw [hfind] at hv
    cases hv
  | ok provider => rfl

end ConfirmationManager

/-! ## The dispatcher -/

namespace DefaultProtectedDispatcher

structure Asks (env : Env δ) (command : ExecutionCommand) (n : Nat) (result : PermissionResult) :
    Prop where
  answer : env.security.answer (permissionRequest command (uuidAt n)) = .ok result
  state : result.state = .REQUIRES_APPROVAL
  manager : env.confirmationManager = true

/-- A command whose permission is the `n`th uuid is let through with `result`: the components grant
it, or they ask for approval and the user gives it. -/
inductive Allows (env : Env δ) (command : ExecutionCommand) (n : Nat) :
    PermissionResult → Prop where
  | granted {result}
      (answer : env.security.answer (permissionRequest command (uuidAt n)) = .ok result)
      (state : result.state ≠ .REQUIRES_APPROVAL) (granted : result.granted = true) :
      Allows env command n result
  | approved {result} (asks : Asks env command n result)
      (given : verdict env.providers (approvalContext command (uuidAt (n + 1))) .USER = .ok true) :
      Allows env command n result

def awaits (result : PermissionResult) : List Await :=
  SecurityManager.awaits result ++
    if result.state = .REQUIRES_APPROVAL then [.confirmation .security] else []

section Authorization

variable {env : Env δ} {command : ExecutionCommand} {w : World δ} {result : PermissionResult}
  {exc : Exn}

theorem Allows.answer {n : Nat} (h : Allows env command n result) :
    env.security.answer (permissionRequest command (uuidAt n)) = .ok result := by
  cases h with
  | granted answer _ _ => exact answer
  | approved asks _ => exact asks.answer

theorem approve_asking (command : ExecutionCommand) (w : World δ)
    (hstate : result.state = .REQUIRES_APPROVAL) (hmanager : env.confirmationManager = true) :
    (approve env command result w).result =
        (verdict env.providers (approvalContext command (uuidAt w.uuids)) .USER).map
          (fun confirmed => if confirmed then none
            else some (lit "User denied required security approval.")) ∧
      (approve env command result w).state =
        (requestConfirmation env .security (approvalContext command (uuidAt w.uuids)) .USER
          { w with uuids := w.uuids + 1 }).state := by
  unfold approve
  rw [if_pos hstate, if_pos hmanager, Act.run_bind_of_ok (run_uuid4 w)]
  change ((requestConfirmation env .security (approvalContext command (uuidAt w.uuids)) .USER
    >>= fun confirmed => if confirmed then pure none else _) _).result = _ ∧
    ((requestConfirmation env .security (approvalContext command (uuidAt w.uuids)) .USER
    >>= fun confirmed => if confirmed then pure none else _) _).state = _
  rw [Act.run_bind, requestConfirmation_result]
  cases verdict env.providers (approvalContext command (uuidAt w.uuids)) .USER with
  | error exc => exact ⟨rfl, rfl⟩
  | ok confirmed => cases confirmed <;> exact ⟨rfl, rfl⟩

theorem approve_unasked (env : Env δ) (command : ExecutionCommand) (w : World δ)
    (hstate : result.state ≠ .REQUIRES_APPROVAL) :
    (approve env command result w).state = w ∧
      ((approve env command result w).result = .ok none ∧ result.granted = true ∨
        (∃ reason, (approve env command result w).result = .ok (some reason)) ∧
          result.granted = false) := by
  unfold approve
  rw [if_neg hstate]
  cases hgranted : result.granted <;> simp

theorem approve_unmanaged (hstate : result.state = .REQUIRES_APPROVAL)
    (hmanager : env.confirmationManager = false) :
    ∃ reason, (approve env command result w).result = .ok (some reason) := by
  unfold approve
  rw [if_pos hstate, hmanager]
  exact ⟨_, rfl⟩

theorem authorization_of_answer (hbus : env.BusDelivers)
    (h : env.security.answer (permissionRequest command (uuidAt w.uuids)) = .ok result) :
    let run := approve env command result (w.passed env (SecurityManager.awaits result) 1)
    ∃ t, authorization env command w = ⟨run.result, run.state, t⟩ := by
  intro run
  have hcheck : ∃ t, SecurityManager.checkPermission env
      (.request (permissionRequest command ("uuid-" ++ toString w.uuids)))
      { w with uuids := w.uuids + 1 }
      = ⟨.ok result, w.passed env (SecurityManager.awaits result) 1, t⟩ :=
    SecurityManager.checkPermission_of_answer hbus h
  obtain ⟨t, hcheck⟩ := hcheck
  unfold authorization
  rw [Act.run_bind_of_ok (run_uuid4 w), Act.run_bind_of_ok hcheck]
  exact ⟨_, rfl⟩

theorem authorization_of_raise (hbus : env.BusDelivers)
    (h : env.security.answer (permissionRequest command (uuidAt w.uuids)) = .error exc) :
    ∃ reason, (authorization env command w).result = .ok (some reason) := by
  have hcheck : ∃ result w' t, SecurityManager.checkPermission env
      (.request (permissionRequest command ("uuid-" ++ toString w.uuids)))
      { w with uuids := w.uuids + 1 } = ⟨.ok result, w', t⟩ ∧
        result.state = .DENIED ∧ result.granted = false :=
    SecurityManager.checkPermission_of_raise hbus h
  obtain ⟨result, w', t, hcheck, hstate, hgranted⟩ := hcheck
  unfold authorization
  rw [Act.run_bind_of_ok (run_uuid4 w), Act.run_bind_of_ok hcheck]
  unfold approve
  simp [hstate, hgranted]

structure Refuses (env : Env δ) (command : ExecutionCommand) (n : Nat) : Prop where
  disallows : ∀ result, ¬ Allows env command n result
  selects : ∀ result exc, Asks env command n result → findProvider .USER env.providers ≠ .error exc

theorem Refuses.of_answer {n : Nat}
    (hanswer : env.security.answer (permissionRequest command (uuidAt n)) = .ok result)
    (hallows : ¬ Allows env command n result)
    (hselects : ∀ exc, Asks env command n result → findProvider .USER env.providers ≠ .error exc) :
    Refuses env command n where
  disallows result' h := by
    obtain rfl := Except.ok.inj (h.answer.symm.trans hanswer)
    exact hallows h
  selects result' exc h := by
    obtain rfl := Except.ok.inj (h.answer.symm.trans hanswer)
    exact hselects exc h

theorem Refuses.of_raise {n : Nat}
    (hanswer : env.security.answer (permissionRequest command (uuidAt n)) = .error exc) :
    Refuses env command n where
  disallows result h := by cases hanswer.symm.trans h.answer
  selects result _ h := by cases hanswer.symm.trans h.answer

theorem authorization_asked (hbus : env.BusDelivers) (h : Asks env command w.uuids result) :
    let context := approvalContext command (uuidAt (w.uuids + 1))
    (∃ exc, verdict env.providers context .USER = .error exc ∧
      (authorization env command w).result = .error exc) ∨
    (verdict env.providers context .USER = .ok true ∧
      (authorization env command w).result = .ok none ∧
      (authorization env command w).state = w.passed env (awaits result) 2) ∨
    (verdict env.providers context .USER = .ok false ∧
      ∃ reason, (authorization env command w).result = .ok (some reason)) := by
  intro context
  obtain ⟨t, hrun⟩ := authorization_of_answer hbus h.answer
  have hasking := approve_asking command (w.passed env (SecurityManager.awaits result) 1)
    h.state h.manager
  rw [hrun]
  obtain ⟨hresult, hstate⟩ : _ = (verdict env.providers context .USER).map _ ∧
    _ = (requestConfirmation env .security context .USER
      (w.passed env (SecurityManager.awaits result) 2)).state := hasking
  rw [hresult, hstate]
  cases hverdict : verdict env.providers context .USER with
  | error exc => exact Or.inl ⟨exc, rfl, rfl⟩
  | ok confirmed =>
    cases confirmed with
    | false => exact Or.inr (Or.inr ⟨rfl, _, rfl⟩)
    | true =>
      refine Or.inr (Or.inl ⟨rfl, rfl, ?_⟩)
      rw [requestConfirmation_state (by simp) hverdict, awaits, if_pos h.state]
      exact World.after_passed ..

/-- **What an authorization comes to**, by what the components and the providers answer. -/
theorem authorization_cases (hbus : env.BusDelivers) (command : ExecutionCommand) (w : World δ) :
    (∃ result exc, Asks env command w.uuids result ∧
      findProvider .USER env.providers = .error exc ∧
      (authorization env command w).result = .error exc) ∨
    (∃ result k, Allows env command w.uuids result ∧
      (authorization env command w).result = .ok none ∧
      (authorization env command w).state = w.passed env (awaits result) k) ∨
    (Refuses env command w.uuids ∧
      ∃ reason, (authorization env command w).result = .ok (some reason)) := by
  cases hanswer : env.security.answer (permissionRequest command (uuidAt w.uuids)) with
  | error exc => exact Or.inr (Or.inr ⟨.of_raise hanswer, authorization_of_raise hbus hanswer⟩)
  | ok result =>
    by_cases hasks : Asks env command w.uuids result
    -- the user is asked, and the first provider that supports the level answers or raises
    · rcases authorization_asked hbus hasks with
        ⟨exc, hverdict, hresult⟩ | ⟨hverdict, hresult, hstate⟩ | ⟨hverdict, hresult⟩
      · exact Or.inl ⟨result, exc, hasks, (verdict_error_iff.mp hverdict).2, hresult⟩
      · exact Or.inr (Or.inl ⟨result, 2, .approved hasks hverdict, hresult, hstate⟩)
      · refine Or.inr (Or.inr ⟨.of_answer hanswer ?_ ?_, hresult⟩)
        · rintro (⟨_, hstate, _⟩ | ⟨_, hgiven⟩)
          · exact hstate hasks.state
          · cases hverdict.symm.trans hgiven
        · intro exc _ hselect
          cases hverdict.symm.trans (verdict_error_iff.mpr ⟨by simp, hselect⟩)
    · obtain ⟨t, hrun⟩ := authorization_of_answer hbus hanswer
      rw [hrun]
      have hrefuses : (¬ Allows env command w.uuids result) → Refuses env command w.uuids :=
        fun h => .of_answer hanswer h fun exc hasks' => absurd hasks' hasks
      by_cases hstate : result.state = .REQUIRES_APPROVAL
      -- an approval is required, and there is nobody to ask for it
      · have hmanager : env.confirmationManager = false :=
          Bool.eq_false_iff.mpr fun h => hasks ⟨hanswer, hstate, h⟩
        refine Or.inr (Or.inr ⟨hrefuses ?_, approve_unmanaged hstate hmanager⟩)
        rintro (⟨_, hstate', _⟩ | ⟨hasks', _⟩)
        · exact hstate' hstate
        · exact hasks hasks'
      · obtain ⟨hstill, hresult⟩ := approve_unasked env command
          (w.passed env (SecurityManager.awaits result) 1) hstate
        rcases hresult with ⟨hresult, hgranted⟩ | ⟨hresult, hgranted⟩
        · refine Or.inr (Or.inl ⟨result, 1, .granted hanswer hstate hgranted, hresult, ?_⟩)
          rw [hstill, awaits, if_neg hstate, List.append_nil]
        · refine Or.inr (Or.inr ⟨hrefuses ?_, hresult⟩)
          rintro (⟨_, _, hgranted'⟩ | ⟨hasks', _⟩)
          · cases hgranted.symm.trans hgranted'
          · exact hasks hasks'

theorem Allows.selects {n : Nat} {result' : PermissionResult} (h : Allows env command n result)
    (hasks : Asks env command n result') : findProvider .USER env.providers ≠ .error exc := by
  obtain rfl := Except.ok.inj (h.answer.symm.trans hasks.answer)
  intro hselect
  rcases h with ⟨_, hstate, _⟩ | ⟨_, hgiven⟩
  · exact hstate hasks.state
  · cases hgiven.symm.trans (verdict_error_iff.mpr ⟨by simp, hselect⟩)

end Authorization

section Runtime

variable {env : Env δ} {command : ExecutionCommand} {w : World δ} {exc : Exn}

def Fails (objects : Objects δ) (command : ExecutionCommand)
    (caps : InMemoryCapabilityRegistry.Capabilities) (d : δ) : Prop :=
  ∀ inst, caps.get? command.capabilityId = some inst →
    ∃ exc, (capabilityRun objects command inst d).result = .error exc

theorem runtime_cases_delivered (hbus : env.BusDelivers) (command : ExecutionCommand)
    (w : World δ) :
    (Fails env.objects command w.registry w.device ∧
      ∃ exc, (runtime env command w).result = .error exc) ∨
    (¬ Fails env.objects command w.registry w.device ∧
      ∃ data, (runtime env command w).result = .ok data) := by
  cases hlook : w.registry.get? command.capabilityId with
  | none =>
    -- unregistered since it was classified
    refine Or.inl ⟨fun inst h => (by cases hlook.symm.trans h), ?_⟩
    have hlookup : RuntimeDispatcher.dispatch (requestOf command) w.registry
        = .error ⟨.capabilityNotFoundError,
          lit ("Capability '" ++ command.capabilityId ++ "' not found.")⟩ := by
      change InMemoryCapabilityRegistry.lookup w.registry command.capabilityId = _
      rw [InMemoryCapabilityRegistry.lookup, hlook]
    unfold runtime
    rw [Act.bind_get, hlookup]
    exact ⟨_, rfl⟩
  | some inst =>
    obtain ⟨w', hrun⟩ := runtime_run hbus hlook
    rw [hrun]
    cases hresult : (capabilityRun env.objects command inst w.device).result with
    | error exc =>
      refine Or.inl ⟨fun inst' h => ?_, _, rfl⟩
      obtain rfl := Option.some.inj (hlook.symm.trans h)
      exact ⟨exc, hresult⟩
    | ok data =>
      refine Or.inr ⟨fun h => ?_, _, rfl⟩
      obtain ⟨exc, hraise⟩ := h inst hlook
      cases hresult.symm.trans hraise

theorem dispatchAuthorized_result (hbus : env.BusDelivers) (command : ExecutionCommand)
    (w : World δ) :
    ∃ outcome, (dispatchAuthorized env command w).result = .ok outcome ∧
      (outcome.status = .FAILED ↔ Fails env.objects command
        (env.along [.publish .executionAuthorized] w.registry) w.device) := by
  have hrun := runtime_cases_delivered hbus command (w.after env (.publish .executionAuthorized))
  unfold dispatchAuthorized
  rw [Act.run_bind_of_ok (run_publish_delivers (hbus _) ..), Act.run_bind, Act.run_attempt]
  dsimp only
  generalize runtime env command (w.after env (.publish .executionAuthorized)) = run at hrun
  obtain ⟨site, hreport⟩ := report_run env command run.result
  rw [hreport, Act.run_bind_of_ok (run_publish_delivers (hbus _) ..)]
  refine ⟨outcomeOf command run.result, rfl, ?_⟩
  rcases hrun with ⟨hfails, exc, hresult⟩ | ⟨hfails, data, hresult⟩
  · rw [hresult]
    exact iff_of_true rfl hfails
  · rw [hresult]
    exact iff_of_false (by simp [outcomeOf]) hfails

theorem publishDenial_result (hbus : env.BusDelivers) (command : ExecutionCommand) (reason : Text)
    (w : World δ) :
    ∃ outcome, (publishDenial env command reason w).result = .ok outcome ∧
      outcome.status = .DENIED := by
  unfold publishDenial
  rw [Act.run_bind_of_ok (run_publish_delivers (hbus _) ..)]
  exact ⟨_, rfl, rfl⟩

def FailsAfter (env : Env δ) (command : ExecutionCommand) (w : World δ)
    (result : PermissionResult) : Prop :=
  Fails env.objects command
    (env.along (awaits result ++ [.publish .executionAuthorized]) w.registry) w.device

/-- **What a dispatch comes to.** -/
theorem dispatch_cases_delivered (hbus : env.BusDelivers) (command : ExecutionCommand)
    (w : World δ) :
    (∃ result exc, Asks env command w.uuids result ∧
      findProvider .USER env.providers = .error exc ∧
      (dispatch env command w).result = .error exc) ∨
    (∃ result outcome, Allows env command w.uuids result ∧
      (dispatch env command w).result = .ok outcome ∧
      (outcome.status = .FAILED ↔ FailsAfter env command w result)) ∨
    (Refuses env command w.uuids ∧
      ∃ outcome, (dispatch env command w).result = .ok outcome ∧ outcome.status = .DENIED) := by
  rcases authorization_cases hbus command w with ⟨result, exc, hasks, hselect, hraise⟩ |
    ⟨result, k, hallows, hresult, hstate⟩ | ⟨hrefuses, reason, hresult⟩
  · exact Or.inl ⟨result, exc, hasks, hselect, Act.result_bind_error.mpr (Or.inl hraise)⟩
  · obtain ⟨outcome, hdispatch, hfailed⟩ := dispatchAuthorized_result hbus command
      (w.passed env (awaits result) k)
    refine Or.inr (Or.inl ⟨result, outcome, hallows, ?_, ?_⟩)
    · exact Act.result_bind_ok.mpr ⟨none, hresult, hstate ▸ hdispatch⟩
    · rw [hfailed, FailsAfter, Env.along_append]
      rfl
  · obtain ⟨outcome, hdenial, hdenied⟩ := publishDenial_result hbus command reason
      (authorization env command w).state
    exact Or.inr (Or.inr ⟨hrefuses, outcome,
      Act.result_bind_ok.mpr ⟨some reason, hresult, hdenial⟩, hdenied⟩)

theorem dispatch_error_iff (hbus : env.BusDelivers) :
    (dispatch env command w).result = .error exc ↔
      (∃ result, Asks env command w.uuids result) ∧
        findProvider .USER env.providers = .error exc := by
  rcases dispatch_cases_delivered hbus command w with ⟨result, exc', hasks, hselect, hraise⟩ |
    ⟨result, outcome, hallows, hresult, _⟩ | ⟨hrefuses, outcome, hresult, _⟩
  · rw [hraise, hselect]
    exact ⟨fun h => ⟨⟨result, hasks⟩, by cases h; rfl⟩, fun h => by cases h.2; rfl⟩
  · rw [hresult]
    exact ⟨fun h => (by cases h), fun ⟨⟨_, hasks⟩, h⟩ => absurd h (hallows.selects hasks)⟩
  · rw [hresult]
    exact ⟨fun h => (by cases h), fun ⟨⟨_, hasks⟩, h⟩ => absurd h (hrefuses.selects _ _ hasks)⟩

theorem dispatch_failed_iff (hbus : env.BusDelivers) :
    (∃ outcome, (dispatch env command w).result = .ok outcome ∧ outcome.status = .FAILED) ↔
      ∃ result, Allows env command w.uuids result ∧ FailsAfter env command w result := by
  rcases dispatch_cases_delivered hbus command w with ⟨result, exc', hasks, hselect, hraise⟩ |
    ⟨result, outcome, hallows, hresult, hfailed⟩ | ⟨hrefuses, outcome, hresult, hdenied⟩
  · rw [hraise]
    exact ⟨fun ⟨_, h, _⟩ => (by cases h), fun ⟨_, h, _⟩ => absurd hselect (h.selects hasks)⟩
  · rw [hresult]
    constructor
    · rintro ⟨_, ⟨⟩, h⟩
      exact ⟨result, hallows, hfailed.mp h⟩
    · rintro ⟨result', hallows', h⟩
      obtain rfl := Except.ok.inj (hallows.answer.symm.trans hallows'.answer)
      exact ⟨outcome, rfl, hfailed.mpr h⟩
  · rw [hresult]
    constructor
    · rintro ⟨_, ⟨⟩, h⟩
      cases hdenied.symm.trans h
    · rintro ⟨result, h, _⟩
      exact absurd h (hrefuses.disallows result)

end Runtime

end DefaultProtectedDispatcher

/-! ## The mutation manager -/

namespace DefaultMutationManager

def awaits (info : MutationInfo) : List Await :=
  .publish .mutationRequested ::
    if info.confirmationLevel = .NONE then []
    else [.confirmation .mutation, .publish .mutationConfirmed]

/-- The capability is asked whether it can undo a failed outcome, and raises. -/
structure QueryRaises (env : Env δ) (command : ExecutionCommand) (inst : CapabilityRef)
    (info : MutationInfo) (mutating : MutatingCapability δ) (exc : Exn) : Prop where
  rolls : info.supportsRollback = true
  capability : (env.objects inst).mutating = some mutating
  raises : mutating.supportsRollback command.arguments = .error exc

section Results

variable {env : Env δ} {context : MutationContext} {command : ExecutionCommand}
  {inst : CapabilityRef} {info : MutationInfo} {w : World δ} {exc : Exn}

theorem confirm_error_iff (hbus : env.BusDelivers) (context : MutationContext) (w : World δ) :
    (confirm env context info w).result = .error exc ↔
      info.confirmationLevel ≠ .NONE ∧
        findProvider info.confirmationLevel env.providers = .error exc := by
  unfold confirm
  by_cases hl : info.confirmationLevel = .NONE
  · simp [hl]
  · rw [if_neg hl, Act.result_bind_error, requestConfirmation_result, verdict_error_iff]
    refine or_iff_left ?_
    rintro ⟨confirmed, _, h⟩
    cases confirmed with
    | false => cases h
    | true =>
      rw [if_pos rfl, Act.run_bind_of_ok (run_publish_delivers (hbus _) ..)] at h
      cases h

theorem confirm_none (hbus : env.BusDelivers) (h : GoesAhead env context info) :
    (confirm env context info w).result = .ok none ∧ (confirm env context info w).state =
      w.passed env (if info.confirmationLevel = .NONE then []
        else [.confirmation .mutation, .publish .mutationConfirmed]) 0 := by
  unfold confirm
  by_cases hl : info.confirmationLevel = .NONE
  · rw [if_pos hl, if_pos hl]
    exact ⟨rfl, rfl⟩
  · have hv := (h.resolve_left hl).1
    obtain ⟨t, hasked⟩ : ∃ t, requestConfirmation env .mutation context info.confirmationLevel w
        = ⟨.ok true, w.after env (.confirmation .mutation), t⟩ := by
      rw [← requestConfirmation_state hl hv, ← hv, ← requestConfirmation_result]
      exact ⟨_, rfl⟩
    rw [if_neg hl, if_neg hl, Act.run_bind_of_ok hasked, if_pos rfl,
      Act.run_bind_of_ok (run_publish_delivers (hbus _) ..)]
    exact ⟨rfl, rfl⟩

theorem confirm_some (h : Refused env context info) :
    ∃ reason, (confirm env context info w).result = .ok (some reason) := by
  unfold confirm
  rw [if_neg h.1]
  refine ⟨_, Act.result_bind_ok.mpr ⟨false, ?_, rfl⟩⟩
  rw [requestConfirmation_result, h.2]

theorem goesAhead_or (hbus : env.BusDelivers) (context : MutationContext) (info : MutationInfo) :
    GoesAhead env context info ∨ Refused env context info ∨
      ∃ exc, info.confirmationLevel ≠ .NONE ∧
        findProvider info.confirmationLevel env.providers = .error exc := by
  by_cases hl : info.confirmationLevel = .NONE
  · exact Or.inl (Or.inl hl)
  · cases hv : verdict env.providers context info.confirmationLevel with
    | error exc => exact Or.inr (Or.inr ⟨exc, verdict_error_iff.mp hv⟩)
    | ok confirmed =>
      cases confirmed with
      | false => exact Or.inr (Or.inl ⟨hl, hv⟩)
      | true => exact Or.inl (Or.inr ⟨hv, hbus _⟩)

theorem GoesAhead.selects (h : GoesAhead env context info) (hl : info.confirmationLevel ≠ .NONE) :
    findProvider info.confirmationLevel env.providers ≠ .error exc := by
  intro hselect
  cases (h.resolve_left hl).1.symm.trans (verdict_error_iff.mpr ⟨hl, hselect⟩)

theorem Refused.selects (h : Refused env context info) :
    findProvider info.confirmationLevel env.providers ≠ .error exc := by
  intro hselect
  cases h.2.symm.trans (verdict_error_iff.mpr ⟨h.1, hselect⟩)

theorem prepare_of_confirm (hbus : env.BusDelivers) (context : MutationContext)
    (command : ExecutionCommand) (w : World δ)
    (hm : (env.objects inst).metadata.mutation = some info) :
    let run := confirm env context info (w.after env (.publish .mutationRequested))
    (prepare env context command inst w).result = run.result.map (Prod.mk info) ∧
      (prepare env context command inst w).state = run.state := by
  intro run
  have hinfo : mutationMeta (env.objects inst) = .ok info := by
    unfold mutationMeta
    rw [hm]
  unfold prepare
  rw [Act.run_bind_of_ok (run_publish_delivers (hbus _) ..), hinfo, Act.bind_ofExcept,
    Act.run_bind_pure]
  exact ⟨rfl, rfl⟩

theorem reject_result (hbus : env.BusDelivers) (reason : Text) :
    (reject env context command info reason w).result
      = .ok (buildOutcome command .DENIED (some reason) none) := by
  rcases reject_cases env context command info reason w with ⟨_, _, _, _, hrun⟩ | ⟨hne, _⟩
  · rw [hrun]
  · exact absurd (hbus _) hne

theorem attemptRollback_result (hbus : env.BusDelivers) (context : MutationContext)
    (command : ExecutionCommand) (inst : CapabilityRef) (mutating : MutatingCapability δ)
    (outcome : ExecutionOutcome) (w : World δ) :
    ∃ outcome', (attemptRollback env context command inst mutating outcome w).result
      = .ok outcome' := by
  unfold attemptRollback
  rw [Act.run_bind, Act.run_attempt]
  dsimp only
  cases (rollback env context command inst mutating outcome w).result with
  | ok _ => exact ⟨_, rfl⟩
  | error exc =>
    dsimp only
    rw [Act.run_bind_of_ok (run_publish_delivers (hbus _) ..)]
    exact ⟨_, rfl⟩

theorem recover_error_iff (hbus : env.BusDelivers) (context : MutationContext)
    (outcome : ExecutionOutcome) (w : World δ) :
    (recover env context command inst info outcome w).result = .error exc ↔
      outcome.status = .FAILED ∧ ∃ mutating, QueryRaises env command inst info mutating exc := by
  unfold recover
  by_cases hf : (outcome.failed && info.supportsRollback) = true
  case neg =>
    -- no rollback is tried, so nobody asks the capability whether it can
    rw [if_neg hf]
    rw [Bool.and_eq_true, ExecutionOutcome.failed_iff] at hf
    exact ⟨fun h => (by cases h), fun ⟨hfailed, _, h⟩ => absurd ⟨hfailed, h.rolls⟩ hf⟩
  rw [if_pos hf]
  rw [Bool.and_eq_true, ExecutionOutcome.failed_iff] at hf
  cases hm : (env.objects inst).mutating with
  | none => exact ⟨fun h => (by cases h), fun ⟨_, _, h⟩ => (by cases hm.symm.trans h.capability)⟩
  | some mutating =>
    dsimp only
    have hraises : (mutating.supportsRollback command.arguments = .error exc) ↔
        outcome.status = .FAILED ∧ ∃ mutating, QueryRaises env command inst info mutating exc := by
      refine ⟨fun h => ⟨hf.1, mutating, hf.2, hm, h⟩, ?_⟩
      rintro ⟨_, mutating', h⟩
      obtain rfl := Option.some.inj (hm.symm.trans h.capability)
      exact h.raises
    rw [← hraises, Act.result_bind_error]
    refine or_iff_left ?_
    rintro ⟨answer, _, h⟩
    cases answer with
    | false => cases h
    | true =>
      obtain ⟨outcome', hresult⟩ := attemptRollback_result hbus context command inst mutating
        outcome w
      cases hresult.symm.trans h

theorem finish_error_iff (hbus : env.BusDelivers) {outcome : ExecutionOutcome} :
    (finish env context command inst info outcome w).result = .error exc ↔
      outcome.status = .FAILED ∧ ∃ mutating, QueryRaises env command inst info mutating exc := by
  rw [← recover_error_iff hbus context outcome w, finish, Act.result_bind_error]
  refine or_iff_left ?_
  rintro ⟨recovered, _, h⟩
  obtain ⟨r, _, _, _, hrun, _, _, hreturns⟩ := conclude_cases env context command info recovered
    (recover env context command inst info outcome w).state
  rw [hrun, (hreturns (hbus _)).1] at h
  cases h

theorem carryOut_error_iff (hbus : env.BusDelivers) {delegate : Delegate δ} :
    (carryOut env delegate context command inst info w).result = .error exc ↔
      let run := delegate command (w.after env (.publish .mutationStarted))
      run.result = .error exc ∨ (∃ outcome, run.result = .ok outcome ∧ outcome.status = .FAILED) ∧
        ∃ mutating, QueryRaises env command inst info mutating exc := by
  unfold carryOut
  rw [Act.run_bind_of_ok (run_publish_delivers (hbus _) ..), Act.result_bind_error]
  simp only [finish_error_iff hbus, ← and_assoc, exists_and_right]

/-- The delegate is called where the mutation goes ahead; what it raises is raised, and so is the
question whether to undo what it failed at. -/
theorem processFound_error_iff (hbus : env.BusDelivers) {delegate : Delegate δ}
    (hm : (env.objects inst).metadata.mutation = some info) :
    (processFound env delegate context command inst w).result = .error exc ↔
      (info.confirmationLevel ≠ .NONE ∧
        findProvider info.confirmationLevel env.providers = .error exc) ∨
      GoesAhead env context info ∧
        let run := delegate command (w.passed env (awaits info ++ [.publish .mutationStarted]) 0)
        run.result = .error exc ∨
          (∃ outcome, run.result = .ok outcome ∧ outcome.status = .FAILED) ∧
            ∃ mutating, QueryRaises env command inst info mutating exc := by
  obtain ⟨hresult, hstate⟩ := prepare_of_confirm hbus context command w hm
  rcases goesAhead_or hbus context info with hgoes | hrefused | ⟨exc', hl, hselect⟩
  -- confirmed, or no confirmation needed
  · obtain ⟨hnone, hpassed⟩ := confirm_none hbus hgoes
      (w := w.after env (.publish .mutationRequested))
    rw [hnone] at hresult
    rw [hpassed] at hstate
    have hrun : (processFound env delegate context command inst w).result = (carryOut env delegate
        context command inst info (w.passed env (awaits info) 0)).result := by
      unfold processFound
      rw [Act.run_bind, hresult, hstate]
      rfl
    rw [hrun, carryOut_error_iff hbus, World.after_passed]
    simp only [hgoes, true_and]
    exact (or_iff_right fun h => hgoes.selects h.1 h.2).symm
  · obtain ⟨reason, hsome⟩ := confirm_some hrefused
      (w := w.after env (.publish .mutationRequested))
    rw [hsome] at hresult
    have hrun : (processFound env delegate context command inst w).result
        = .ok (buildOutcome command .DENIED (some reason) none) := by
      unfold processFound
      rw [Act.run_bind, hresult]
      exact reject_result hbus reason
    rw [hrun]
    refine iff_of_false (by simp) ?_
    rintro (⟨_, h⟩ | ⟨h, _⟩)
    · exact hrefused.selects h
    · exact hrefused.not_goesAhead h
  -- the confirmation raises: nothing runs, and there is no outcome to normalize
  · have hraise := (confirm_error_iff hbus context
      (w.after env (.publish .mutationRequested))).mpr ⟨hl, hselect⟩
    rw [hraise] at hresult
    have hrun : (processFound env delegate context command inst w).result = .error exc' :=
      Act.result_bind_error.mpr (Or.inl hresult)
    rw [hrun, hselect]
    constructor
    · intro h
      exact Or.inl ⟨hl, by cases h; rfl⟩
    · rintro (⟨_, h⟩ | ⟨h, _⟩)
      · cases h
        rfl
      · exact absurd hselect (h.selects hl)

end Results

end DefaultMutationManager

end IraOS
