import IraOS.Security.Manager

/-!
# One check, one decision announced

A check announces its outcome inside the `try` whose handler announces a denial. So there are two
publish statements at which one check can announce a decision, and the second follows the first just
if the bus raises on the way back from the subscribers: they have then heard of a grant, or of a
denial, before they hear of the denial that is returned.

`Reaches` is how far a check has to get for that, in terms of what the three components and the bus
answer, and `Settles` is what the outcome's own publish has to do then.

## What is asked for, and where it holds

`FailsClosed` has two halves. That a grant is returned only when everything went well and the
policies say GRANTED depends on the authorizer, which is a component like any other and may grant
what the policies did not; the one that the module wires does not (`settles_default_iff`). That one
decision is announced, the one returned, depends on the bus. `failsClosed_iff` has the two together,
for any request, any behaviour of the components and any bus.

A check that raises announces whatever it has announced and returns nothing; that is not a breach,
as there is no decision then that the announcement could differ from.

## The proof

The pipeline is cut before its last publish (`approach`). Up to there nothing is announced, and from
there on there are three cases: it raised on the way, it announced and returned, or it announced and
the bus raised behind it. Each has one lemma, and the handlers are looked at once
(`checkPermission_of_error`).
-/

set_option autoImplicit false

namespace IraOS

open Lib

variable {δ : Type}

def Entry.decision? : Entry → Option Bool
  | .event (.permissionGranted ..) => some true
  | .event (.permissionDenied ..) => some false
  | _ => none

def decisionsIn (t : List Entry) : List Bool := t.filterMap Entry.decision?

@[simp] theorem decisionsIn_nil : decisionsIn [] = [] := rfl

@[simp] theorem decisionsIn_append (t t' : List Entry) :
    decisionsIn (t ++ t') = decisionsIn t ++ decisionsIn t' := List.filterMap_append

namespace SecurityManager

/-- **Fail closed, and say so once.** A check that returns a grant had every step return and the
policies decide GRANTED, and a check that returns has announced one decision, the one it returns. -/
structure FailsClosed (env : Env δ) (request : AnyRequest) (w : World δ) : Prop where
  granted : ∀ result, (checkPermission env request w).result = .ok result →
    result.granted = true → (pipeline env request w).result = .ok result ∧
      ∃ r decision, request = .request r ∧ env.security.evaluate r = .ok decision ∧
        decision.state = .GRANTED
  announced : ∀ result, (checkPermission env request w).result = .ok result →
    decisionsIn (checkPermission env request w).trace = [result.granted]

/-! ## When it does -/

/-- A check gets to its outcome, with `result` made of the evaluator's `decision`: the components
return, and the publishes on the way go out. -/
structure Reaches (env : Env δ) (r : PermissionRequest) (decision : PermissionDecision)
    (result : PermissionResult) : Prop where
  valid : env.security.validate r = .ok ()
  requested : env.bus .permissionRequested = .delivers
  evaluated : env.security.evaluate r = .ok decision
  completed : env.bus .policyEvaluationCompleted = .delivers
  authorized : env.security.authorize decision = .ok result

theorem Reaches.unique {env : Env δ} {r : PermissionRequest}
    {decision decision' : PermissionDecision} {result result' : PermissionResult}
    (h : Reaches env r decision result) (h' : Reaches env r decision' result') :
    decision' = decision ∧ result' = result := by
  obtain rfl : decision' = decision := Except.ok.inj (h'.evaluated.symm.trans h.evaluated)
  exact ⟨rfl, Except.ok.inj (h'.authorized.symm.trans h.authorized)⟩

def outcomeSite (result : PermissionResult) : PublishSite :=
  if result.granted then .permissionGranted else .permissionDenied

/-- What an outcome needs: one that goes out is no grant of what was not GRANTED, and the bus does
not raise behind it, or raises on the denial too, so that the check does not return. -/
structure Settles (env : Env δ) (decision : PermissionDecision) (result : PermissionResult) :
    Prop where
  faithful : env.bus (outcomeSite result) = .delivers → result.granted = true →
    decision.state = .GRANTED
  once : ∀ exc, env.bus (outcomeSite result) = .raisesAfter exc → env.bus .deny ≠ .delivers

theorem settles_default_iff {env : Env δ} {decision : PermissionDecision} :
    Settles env decision (DefaultPermissionAuthorizer.authorize decision) ↔
      ∀ exc, env.bus (outcomeSite (DefaultPermissionAuthorizer.authorize decision))
        = .raisesAfter exc → env.bus .deny ≠ .delivers := by
  constructor
  · intro h
    exact h.once
  · intro h
    refine ⟨?_, h⟩
    intro _ hgranted
    simpa [DefaultPermissionAuthorizer.authorize] using hgranted

/-! ## The pipeline -/

def approach (env : Env δ) (r : PermissionRequest) :
    Kernel δ (PermissionDecision × PermissionResult) := do
  Act.ofExcept (env.security.validate r)
  publish env .permissionRequested (.permissionRequested r.permissionId r.capabilityId)
  let decision ← Act.ofExcept (env.security.evaluate r)
  publish env .policyEvaluationCompleted
    (.policyEvaluationCompleted r.permissionId r.capabilityId decision.state)
  let result ← Act.ofExcept (env.security.authorize decision)
  pure (decision, result)

theorem pipeline_request (env : Env δ) (r : PermissionRequest) :
    pipeline env (.request r) = (approach env r >>= fun reached =>
      publishOutcome env reached.1 reached.2 >>= fun _ => pure reached.2) := by
  unfold pipeline approach
  simp only [Act.bind_assoc, Act.pure_bind]

theorem approach_quiet (env : Env δ) (r : PermissionRequest) :
    Act.EmitsOnly (fun x => x.decision? = none) (approach env r) :=
  .bind (.ofExcept _) fun _ => .bind (publish_emits _ _ rfl) fun _ => .bind (.ofExcept _) fun _ =>
    .bind (publish_emits _ _ rfl) fun _ => .bind (.ofExcept _) fun _ => .pure _

theorem decisionsIn_approach {env : Env δ} {r : PermissionRequest} {w w' : World δ}
    {reached : Except Exn (PermissionDecision × PermissionResult)} {t : List Entry}
    (h : approach env r w = ⟨reached, w', t⟩) : decisionsIn t = [] :=
  List.filterMap_eq_nil_iff.mpr ((approach_quiet env r).of_run h)

theorem approach_ok_iff {env : Env δ} {r : PermissionRequest} {w : World δ}
    {decision : PermissionDecision} {result : PermissionResult} :
    (approach env r w).result = .ok (decision, result) ↔ Reaches env r decision result := by
  constructor
  · intro h
    obtain ⟨_, hvalid, h⟩ := Act.result_bind_ok.mp h
    obtain ⟨_, hrequested, h⟩ := Act.result_bind_ok.mp h
    obtain ⟨d, hevaluated, h⟩ := Act.result_bind_ok.mp h
    obtain ⟨_, hcompleted, h⟩ := Act.result_bind_ok.mp h
    obtain ⟨res, hauthorized, h⟩ := Act.result_bind_ok.mp h
    obtain ⟨rfl, rfl⟩ := Prod.mk.inj (Except.ok.inj h)
    exact ⟨hvalid, publish_ok_iff.mp hrequested, hevaluated, publish_ok_iff.mp hcompleted,
      hauthorized⟩
  · intro h
    apply Act.result_bind_ok.mpr
    refine ⟨(), h.valid, Act.result_bind_ok.mpr ⟨(), publish_ok_iff.mpr h.requested, ?_⟩⟩
    refine Act.result_bind_ok.mpr ⟨decision, h.evaluated, ?_⟩
    refine Act.result_bind_ok.mpr ⟨(), publish_ok_iff.mpr h.completed, ?_⟩
    exact Act.result_bind_ok.mpr ⟨result, h.authorized, rfl⟩

def outcomeEvent (decision : PermissionDecision) (result : PermissionResult) : Event :=
  if result.granted then
    .permissionGranted result.permissionId result.capabilityId decision.trustLevel
  else
    .permissionDenied result.permissionId result.capabilityId
      (Text.ofOption (Text.orElse result.denialReason (some (lit "Permission denied."))))

theorem publishOutcome_eq (env : Env δ) (decision : PermissionDecision)
    (result : PermissionResult) : publishOutcome env decision result =
      publish env (outcomeSite result) (outcomeEvent decision result) := by
  unfold publishOutcome outcomeSite outcomeEvent
  split <;> rfl

@[simp] theorem decisionsIn_outcomeEvent (decision : PermissionDecision)
    (result : PermissionResult) :
    decisionsIn [.event (outcomeEvent decision result)] = [result.granted] := by
  unfold outcomeEvent
  cases result.granted <;> rfl

/-- The pipeline raises before it gets to an outcome; or it gets to one, and the bus decides how it
goes on. Whatever was announced by then is the outcome. -/
theorem pipeline_cases (env : Env δ) (request : AnyRequest) (w : World δ) :
    (∃ exc w' t, pipeline env request w = ⟨.error exc, w', t⟩ ∧ decisionsIn t = [] ∧
      ∀ r decision result, request = .request r → ¬ Reaches env r decision result) ∨
    ∃ r decision result w' t, request = .request r ∧ Reaches env r decision result ∧
      ((env.bus (outcomeSite result) = .delivers ∧ decisionsIn t = [result.granted] ∧
          pipeline env request w = ⟨.ok result, w', t⟩) ∨
        (∃ exc, env.bus (outcomeSite result) = .raisesBefore exc ∧ decisionsIn t = [] ∧
          pipeline env request w = ⟨.error exc, w', t⟩) ∨
        ∃ exc, env.bus (outcomeSite result) = .raisesAfter exc ∧
          decisionsIn t = [result.granted] ∧ pipeline env request w = ⟨.error exc, w', t⟩) := by
  cases request with
  | other p c => exact Or.inl ⟨_, _, _, rfl, rfl, by simp⟩
  | request r =>
    rw [pipeline_request]
    rcases hway : approach env r w with ⟨_ | ⟨decision, result⟩, w₁, t₁⟩
    · refine Or.inl ⟨_, w₁, t₁, Act.run_bind_of_error hway, decisionsIn_approach hway, ?_⟩
      rintro _ decision result ⟨⟩ h
      have hok := (approach_ok_iff (w := w)).mpr h
      rw [hway] at hok
      cases hok
    · have hreaches : Reaches env r decision result := by
        apply approach_ok_iff.mp
        rw [hway]
      have hquiet := decisionsIn_approach hway
      rw [Act.run_bind_of_ok hway, publishOutcome_eq, Act.run_bind, run_publish]
      refine Or.inr ⟨r, decision, result, w₁.after env (.publish (outcomeSite result)), ?_⟩
      cases hbus : env.bus (outcomeSite result) with
      | delivers =>
        exact ⟨_, rfl, hreaches, Or.inl ⟨rfl, by simp [hquiet], rfl⟩⟩
      | raisesBefore exc =>
        exact ⟨_, rfl, hreaches, Or.inr (Or.inl ⟨exc, rfl, by simp [hquiet], rfl⟩)⟩
      | raisesAfter exc =>
        exact ⟨_, rfl, hreaches, Or.inr (Or.inr ⟨exc, rfl, by simp [hquiet], rfl⟩)⟩


theorem checkPermission_of_ok {env : Env δ} {request : AnyRequest} {w w' : World δ}
    {result : PermissionResult} {t : List Entry}
    (h : pipeline env request w = ⟨.ok result, w', t⟩) :
    checkPermission env request w =
      ⟨.ok result, w', t ++ [.permission request.capabilityId result.state]⟩ := by
  unfold checkPermission
  rw [Act.run_bind_of_ok (Act.run_attempt_of h)]
  rfl

/-- After an exception the check returns a denial, announced behind what was announced before; or
it raises, if the bus does. -/
theorem checkPermission_of_error {env : Env δ} {request : AnyRequest} {w w' : World δ} {exc : Exn}
    {t : List Entry} (h : pipeline env request w = ⟨.error exc, w', t⟩) :
    (env.bus .deny = .delivers ∧ ∃ result w'' t', checkPermission env request w =
        ⟨.ok result, w'', t'⟩ ∧ result.granted = false ∧
          decisionsIn t' = decisionsIn t ++ [false]) ∨
      (env.bus .deny ≠ .delivers ∧
        ∀ result, (checkPermission env request w).result ≠ .ok result) := by
  unfold checkPermission
  rw [Act.run_bind_of_ok (Act.run_attempt_of h)]
  simp only [settle, deny, Act.bind_assoc, Act.pure_bind]
  rw [Act.run_bind, run_publish]
  cases hbus : env.bus .deny with
  | delivers => exact Or.inl ⟨rfl, _, _, _, rfl, rfl, by
      simp [decisionsIn, Entry.decision?, Act.bind_emit]⟩
  | raisesBefore exc => exact Or.inr ⟨by simp, by simp⟩
  | raisesAfter exc => exact Or.inr ⟨by simp, by simp⟩


theorem failsClosed_of_error {env : Env δ} {request : AnyRequest} {w w' : World δ} {exc : Exn}
    {t : List Entry} (h : pipeline env request w = ⟨.error exc, w', t⟩)
    (hquiet : decisionsIn t = []) : FailsClosed env request w := by
  rcases checkPermission_of_error h with ⟨_, denied, w'', t', hrun, hdenied, hsaid⟩ | ⟨_, hraises⟩
  · constructor
    · intro result hresult hgranted
      rw [hrun] at hresult
      cases hresult
      rw [hdenied] at hgranted
      cases hgranted
    · intro result hresult
      rw [hrun] at hresult ⊢
      cases hresult
      show decisionsIn t' = [denied.granted]
      simp [hsaid, hquiet, hdenied]
  · exact ⟨fun result hresult => absurd hresult (hraises result),
      fun result hresult => absurd hresult (hraises result)⟩

theorem failsClosed_of_ok {env : Env δ} {r : PermissionRequest} {decision : PermissionDecision}
    {result : PermissionResult} {w w' : World δ} {t : List Entry}
    (hreaches : Reaches env r decision result)
    (h : pipeline env (.request r) w = ⟨.ok result, w', t⟩)
    (hsaid : decisionsIn t = [result.granted]) :
    FailsClosed env (.request r) w ↔ (result.granted = true → decision.state = .GRANTED) := by
  have hrun := checkPermission_of_ok h
  constructor
  · intro hfails hgranted
    obtain ⟨_, r', decision', hr, hevaluated, hstate⟩ :=
      hfails.granted result (by rw [hrun]) hgranted
    cases hr
    rw [hreaches.evaluated] at hevaluated
    cases hevaluated
    exact hstate
  · intro hfaithful
    constructor
    · intro result' hresult hgranted
      rw [hrun] at hresult
      cases hresult
      exact ⟨by rw [h], r, decision, rfl, hreaches.evaluated, hfaithful hgranted⟩
    · intro result' hresult
      rw [hrun] at hresult ⊢
      cases hresult
      show decisionsIn (t ++ [_]) = [result.granted]
      rw [decisionsIn_append, hsaid]
      rfl

theorem failsClosed_of_announced {env : Env δ} {request : AnyRequest} {w w' : World δ} {exc : Exn}
    {t : List Entry} {granted : Bool} (h : pipeline env request w = ⟨.error exc, w', t⟩)
    (hsaid : decisionsIn t = [granted]) :
    FailsClosed env request w ↔ env.bus .deny ≠ .delivers := by
  rcases checkPermission_of_error h with
    ⟨hdeny, denied, w'', t', hrun, _, htwice⟩ | ⟨hdeny, hraises⟩
  · refine iff_of_false ?_ (absurd hdeny)
    intro hfails
    have honce := hfails.announced denied (by rw [hrun])
    rw [hrun] at honce
    have htwo := htwice.symm.trans honce
    simp [hsaid] at htwo
  · refine iff_of_true ?_ hdeny
    exact ⟨fun result hresult => absurd hresult (hraises result),
      fun result hresult => absurd hresult (hraises result)⟩

/-- **Decisions fail closed and are announced once, just where the outcome settles**: for any
request, any behaviour of the three components, and any bus. What does not get to an outcome, be it
malformed or stopped on the way by a component or the bus, fails closed by itself. -/
theorem failsClosed_iff (env : Env δ) (request : AnyRequest) (w : World δ) :
    FailsClosed env request w ↔ ∀ r decision result, request = .request r →
      Reaches env r decision result → Settles env decision result := by
  rcases pipeline_cases env request w with
    ⟨exc, w', t, hrun, hquiet, hshort⟩ | ⟨r, decision, result, w', t, rfl, hreaches, hbus⟩
  · refine iff_of_true (failsClosed_of_error hrun hquiet) ?_
    intro r decision result hr hreaches
    exact absurd hreaches (hshort r decision result hr)
  · have hone : (∀ r' decision' result', AnyRequest.request r = .request r' →
        Reaches env r' decision' result' → Settles env decision' result') ↔
          Settles env decision result := by
      constructor
      · intro h
        exact h r decision result rfl hreaches
      · rintro h r' decision' result' ⟨⟩ hreaches'
        obtain ⟨rfl, rfl⟩ := hreaches.unique hreaches'
        exact h
    rw [hone]
    rcases hbus with ⟨hbus, hsaid, hrun⟩ | ⟨exc, hbus, hquiet, hrun⟩ | ⟨exc, hbus, hsaid, hrun⟩
    · rw [failsClosed_of_ok hreaches hrun hsaid]
      constructor
      · intro hfaithful
        exact ⟨fun _ => hfaithful, by simp [hbus]⟩
      · intro hsettles
        exact hsettles.faithful hbus
    · exact iff_of_true (failsClosed_of_error hrun hquiet) ⟨by simp [hbus], by simp [hbus]⟩
    · rw [failsClosed_of_announced hrun hsaid]
      constructor
      · intro hdeny
        exact ⟨by simp [hbus], fun _ _ => hdeny⟩
      · intro hsettles
        exact hsettles.once exc hbus

/-! ## A middleware that raises on the way back -/

def pingPolicy : PermissionPolicy where
  policyId := "p"
  name := "ping"
  description := ""
  requirements := [{ capabilityId := "ping", requiredTrustLevel := .UNTRUSTED }]

def pingRequest : PermissionRequest where
  permissionId := "1"
  capabilityId := "ping"
  context := some { requestId := "1", capabilityId := "ping" }

/-- The wired components with one policy loaded, and a bus that raises once, behind the subscribers'
hearing of the grant. -/
def raisingBehindGrant : Env Unit where
  objects _ :=
    { metadata := { id := "ping", name := "Ping", description := "", version := "1.0.0" }
      execute := fun _ => pure (.value .none) }
  bus site := if site = .permissionGranted then .raisesAfter ⟨.runtimeError, []⟩ else .delivers
  others _ := []
  providers := []
  sinks := []
  security := .ofPolicies (Dict.empty.set "p" pingPolicy)

/-- The grant is announced, and then the denial that is returned. -/
theorem granted_then_denied :
    decisionsIn (checkPermission raisingBehindGrant (.request pingRequest)
        { registry := Dict.empty, device := () }).trace = [true, false] ∧
      ¬ FailsClosed raisingBehindGrant (.request pingRequest)
        { registry := Dict.empty, device := () } := by
  have htwo : decisionsIn (checkPermission raisingBehindGrant (.request pingRequest)
      { registry := Dict.empty, device := () }).trace = [true, false] := rfl
  refine ⟨htwo, ?_⟩
  intro h
  have hone := h.announced _ rfl
  rw [htwo] at hone
  cases hone

end SecurityManager

end IraOS
