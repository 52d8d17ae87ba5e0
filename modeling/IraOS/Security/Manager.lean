import IraOS.Core.Frame
import IraOS.Security.Policy

/-!
# SecurityManager

`check_permission` (`core/security/manager.py`): one `try` around validation, evaluation,
authorization and three publishes, and one way out of it, a denial.

Whoever calls the manager cites three lemmas and never unfolds the pipeline: what a check can emit
(`checkPermission_emits`), how it moves the world (`checkPermission_moves`), and what a state other
than DENIED took (`checkPermission_ok`).

The request is whatever the caller passes. The source takes anything: an object that is no
`PermissionRequest` is denied with a reason, under the ids it happens to have, so `AnyRequest` has
such an object too. The handlers of the `try` announce a denial themselves, and that publish is
outside of any `try`: a bus that raises there gets through to the caller.

The three components are parameters (`SecurityComponents`), as they are in the constructor.
`SecurityComponents.ofPolicies` are those the module wires, over the policies loaded; what they are
is in `Security.Policy`. How many decisions a check announces is a question of its own, and is
answered in `Security.Decisions`.
-/

set_option autoImplicit false

namespace IraOS

open Lib

variable {δ : Type}

/-- What `check_permission` accepts: a `PermissionRequest`, or any other object, with the ids it
happens to have. -/
inductive AnyRequest where
  | request (r : PermissionRequest)
  | other (permissionId capabilityId : Option String)

namespace AnyRequest

def permissionId : AnyRequest → String
  | .request r => r.permissionId
  | .other permissionId _ => permissionId.getD "unknown"

def capabilityId : AnyRequest → String
  | .request r => r.capabilityId
  | .other _ capabilityId => capabilityId.getD "unknown"

end AnyRequest

/-- The components `SecurityModule` wires, over the loaded policies. -/
def SecurityComponents.ofPolicies (policies : DefaultPolicyEvaluator.Policies) :
    SecurityComponents where
  validate := DefaultPermissionValidator.validate
  evaluate := DefaultPolicyEvaluator.evaluate policies
  authorize decision := .ok (DefaultPermissionAuthorizer.authorize decision)

namespace SecurityManager

/-- The last of the numbered steps: the outcome announced, by the event class its state calls
for. -/
def publishOutcome (env : Env δ) (decision : PermissionDecision) (result : PermissionResult) :
    Kernel δ Unit :=
  if result.granted then
    publish env .permissionGranted
      (.permissionGranted result.permissionId result.capabilityId decision.trustLevel)
  else
    publish env .permissionDenied
      (.permissionDenied result.permissionId result.capabilityId
        (Text.ofOption (Text.orElse result.denialReason (some (lit "Permission denied.")))))

def pipeline (env : Env δ) : AnyRequest → Kernel δ PermissionResult
  | .other _ _ =>
    Act.throw ⟨.permissionValidationError, lit "Request is not a PermissionRequest."⟩
  | .request request => do
    Act.ofExcept (env.security.validate request)
    publish env .permissionRequested
      (.permissionRequested request.permissionId request.capabilityId)
    let decision ← Act.ofExcept (env.security.evaluate request)
    publish env .policyEvaluationCompleted
      (.policyEvaluationCompleted request.permissionId request.capabilityId decision.state)
    let result ← Act.ofExcept (env.security.authorize decision)
    publishOutcome env decision result
    pure result

def deny (env : Env δ) (permissionId capabilityId : String) (reason : Text) :
    Kernel δ PermissionResult := do
  publish env .deny (.permissionDenied permissionId capabilityId reason)
  pure
    { permissionId := permissionId
      capabilityId := capabilityId
      granted := false
      state := .DENIED
      denialReason := some reason }

def settle (env : Env δ) (request : AnyRequest) :
    Except Exn PermissionResult → Kernel δ PermissionResult
  | .ok result => pure result
  | .error exc =>
    deny env request.permissionId request.capabilityId
      (if exc.cls.isSecurityError then exc.message else lit "Permission check failed.")

def checkPermission (env : Env δ) (request : AnyRequest) : Kernel δ PermissionResult := do
  let attempted ← Act.attempt (pipeline env request)
  let result ← settle env request attempted
  Act.emit (.permission request.capabilityId result.state)
  pure result

/-! ## What a check does -/

def OwnEntry : Entry → Prop
  | .event e => e.ofPermission = true
  | .permission _ _ => True
  | _ => False

theorem pipeline_emits (env : Env δ) (request : AnyRequest) :
    Act.EmitsOnly OwnEntry (pipeline env request) := by
  cases request with
  | other p c => exact Act.EmitsOnly.throw _
  | request r =>
    exact .bind (.ofExcept _) fun _ => .bind (publish_emits _ _ rfl) fun _ =>
      .bind (.ofExcept _) fun _ => .bind (publish_emits _ _ rfl) fun _ =>
      .bind (.ofExcept _) fun _ =>
      .bind (.ite (publish_emits _ _ rfl) (publish_emits _ _ rfl)) fun _ => .pure _

theorem settle_emits (env : Env δ) (request : AnyRequest)
    (attempted : Except Exn PermissionResult) :
    Act.EmitsOnly OwnEntry (settle env request attempted) := by
  cases attempted with
  | ok result => exact .pure _
  | error exc => exact .bind (publish_emits _ _ rfl) fun _ => .pure _

theorem checkPermission_emits (env : Env δ) (request : AnyRequest) :
    Act.EmitsOnly OwnEntry (checkPermission env request) :=
  .bind (.attempt (pipeline_emits env request)) fun _ => .bind (settle_emits _ _ _) fun _ =>
    .bind (.emit trivial) fun _ => .pure _

def OwnAwait : Await → Prop
  | .publish site => site ∈ [.permissionRequested, .policyEvaluationCompleted, .permissionGranted,
      .permissionDenied, .deny]
  | _ => False

section Moves

variable {env : Env δ} {R : World δ → World δ → Prop} (h : Stable env OwnAwait R)

include h

theorem pipeline_moves (request : AnyRequest) : Act.Moves R (pipeline env request) := by
  cases request with
  | other p c => exact h.throw _
  | request r =>
    exact h.bind (h.ofExcept _) fun _ => h.bind (h.publish (by simp [OwnAwait]) _) fun _ =>
      h.bind (h.ofExcept _) fun _ => h.bind (h.publish (by simp [OwnAwait]) _) fun _ =>
      h.bind (h.ofExcept _) fun _ =>
      h.bind (.ite (h.publish (by simp [OwnAwait]) _) (h.publish (by simp [OwnAwait]) _))
        fun _ => h.pure _

theorem checkPermission_moves (request : AnyRequest) :
    Act.Moves R (checkPermission env request) := by
  refine h.bind (Act.Moves.attempt (pipeline_moves h request)) fun attempted => h.bind ?_
    fun _ => h.bind (h.emit _) fun _ => h.pure _
  cases attempted with
  | ok result => exact h.pure _
  | error exc => exact h.bind (h.publish (by simp [OwnAwait]) _) fun _ => h.pure _

end Moves

/-! ## What an answer other than DENIED took -/

theorem pipeline_ok {env : Env δ} {r : PermissionRequest} {w w' : World δ}
    {result : PermissionResult} {t : List Entry}
    (h : pipeline env (.request r) w = ⟨.ok result, w', t⟩) :
    ∃ decision, env.security.evaluate r = .ok decision ∧
      env.security.authorize decision = .ok result := by
  obtain ⟨_, _, _, _, _, h, _⟩ := Act.bind_ok h
  obtain ⟨_, _, _, _, _, h, _⟩ := Act.bind_ok h
  obtain ⟨decision, _, _, _, hd, h, _⟩ := Act.bind_ok h
  obtain ⟨_, _, _, _, _, h, _⟩ := Act.bind_ok h
  obtain ⟨result', _, _, _, hr, h, _⟩ := Act.bind_ok h
  obtain ⟨_, _, _, _, _, h, _⟩ := Act.bind_ok h
  exact ⟨decision, (Act.ofExcept_ok hd).1, (Act.pure_ok h).1 ▸ (Act.ofExcept_ok hr).1⟩

theorem settle_ok {env : Env δ} {request : AnyRequest} {attempted : Except Exn PermissionResult}
    {w w' : World δ} {result : PermissionResult} {t : List Entry}
    (h : settle env request attempted w = ⟨.ok result, w', t⟩) :
    attempted = .ok result ∨ (result.state = .DENIED ∧ result.granted = false) := by
  cases attempted with
  | ok result' => exact Or.inl (congrArg _ (Act.pure_ok h).1)
  | error exc =>
    obtain ⟨_, _, _, _, _, h, _⟩ := Act.bind_ok h
    exact Or.inr ((Act.pure_ok h).1 ▸ ⟨rfl, rfl⟩)

/-- **A check that returns a state other than DENIED had the policies answer so**, and its last
entry says what it returned. -/
theorem checkPermission_ok {env : Env δ} {policies : DefaultPolicyEvaluator.Policies}
    (hsec : env.security = .ofPolicies policies) {r : PermissionRequest}
    {context : SecurityContext} (hc : r.context = some context) {w w' : World δ}
    {result : PermissionResult} {t : List Entry}
    (h : checkPermission env (.request r) w = ⟨.ok result, w', t⟩) :
    .permission r.capabilityId result.state ∈ t ∧
      result.granted = decide (result.state = .GRANTED) ∧
      (result.state = .DENIED ∨
        (result.state = .REQUIRES_APPROVAL ∧
          Permits policies r.capabilityId context.trustLevel true) ∨
        (result.state = .GRANTED ∧
          Permits policies r.capabilityId context.trustLevel false)) := by
  obtain ⟨attempted, _, _, _, ha, h1, rfl⟩ := Act.bind_ok h
  obtain ⟨result', _, _, _, hr, h2, rfl⟩ := Act.bind_ok h1
  obtain ⟨_, _, _, _, he, h3, rfl⟩ := Act.bind_ok h2
  obtain ⟨rfl, _, rfl⟩ := Act.pure_ok h3
  obtain ⟨_, rfl⟩ := Act.emit_ok he
  refine ⟨by simp [AnyRequest.capabilityId], ?_⟩
  rcases settle_ok hr with rfl | ⟨hs, hg⟩
  · obtain ⟨decision, hd, haut⟩ := pipeline_ok (Act.attempt_ok ha)
    rw [hsec] at hd haut
    simp only [SecurityComponents.ofPolicies, Except.ok.injEq] at hd haut
    subst haut
    obtain ⟨context', hc', hcases⟩ := evaluate_cases hd
    rw [hc, Option.some.injEq] at hc'
    subst hc'
    exact ⟨rfl, hcases⟩
  · exact ⟨by rw [hg, hs]; rfl, Or.inl hs⟩

end SecurityManager

end IraOS
