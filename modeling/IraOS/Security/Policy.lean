import IraOS.Core.Models

/-!
# Deny by default

`core/security/policy.py`, `validator.py` and `authorizer.py`: the three components
`SecurityManager` drives, as the functions they are.

What the evaluator is *for* is `Permits`: some loaded requirement covers the capability and the
request's trust reaches it. `evaluate_cases` says that whatever the search over all policies lets
through, it lets through on such a requirement.

The evaluator searches the policies in the order of their first loading, and within a policy its
requirements in theirs, and takes the first that names the capability. A capability that no
requirement names is denied, which is the default the title speaks of. Levels of trust are compared
by their places in a list. A requirement's level is a member of the enumeration, and a request's is
too, so the comparison never fails; a request without a context does, as every branch reads its
level first.

Nothing in this module depends on the bus or on other tasks: the components do not wait.
-/

set_option autoImplicit false

namespace IraOS

open Lib

/-! ## DefaultPolicyEvaluator -/

namespace DefaultPolicyEvaluator

abbrev Policies := Dict String PermissionPolicy

def loadPolicy (policies : Policies) (policy : PermissionPolicy) : Except Exn Policies :=
  if policy.policyId.isEmpty then
    .error ⟨.policyEvaluationError, lit "Policy must have a valid policy_id."⟩
  else .ok (policies.set policy.policyId policy)

def findRequirement (policies : Policies) (capabilityId : String) :
    Option PermissionRequirement :=
  policies.values.findSome? fun policy =>
    policy.requirements.find? fun req => req.capabilityId == capabilityId

def order : TrustLevel → Nat
  | .UNTRUSTED => 0
  | .LOW => 1
  | .MEDIUM => 2
  | .HIGH => 3
  | .CRITICAL => 4

def trustSufficient (provided required : TrustLevel) : Bool :=
  decide (order required ≤ order provided)

def evaluate (policies : Policies) (request : PermissionRequest) :
    Except Exn PermissionDecision :=
  let requirement := findRequirement policies request.capabilityId
  -- every branch reads `request.context.trust_level` first
  match request.context with
  | none => .error ⟨.attributeError, lit "'NoneType' object has no attribute 'trust_level'"⟩
  | some context =>
    let decision (state : PermissionState) : PermissionDecision :=
      { permissionId := request.permissionId
        capabilityId := request.capabilityId
        state := state
        trustLevel := context.trustLevel }
    match requirement with
    | none => .ok { decision .DENIED with
        denialReason := some (lit ("No policy found for capability '" ++ request.capabilityId ++
          "'. Deny-by-Default enforced.")) }
    | some requirement =>
      if !trustSufficient context.trustLevel requirement.requiredTrustLevel then
        .ok { decision .DENIED with
          denialReason := some (lit ("Insufficient trust level. Required: " ++
            requirement.requiredTrustLevel.value ++ ", provided: " ++
            context.trustLevel.value ++ ".")) }
      else if requirement.requiresUserApproval then
        .ok { decision .REQUIRES_APPROVAL with requiresUserApproval := true }
      else .ok (decision .GRANTED)

end DefaultPolicyEvaluator

/-! ## DefaultPermissionValidator, DefaultPermissionAuthorizer -/

def DefaultPermissionValidator.validate (request : PermissionRequest) : Except Exn Unit :=
  if request.permissionId.isEmpty then
    .error ⟨.permissionValidationError, lit "PermissionRequest.permission_id must be provided."⟩
  else if request.capabilityId.isEmpty then
    .error ⟨.permissionValidationError, lit "PermissionRequest.capability_id must be provided."⟩
  else if request.context.isNone then
    .error ⟨.permissionValidationError, lit "PermissionRequest.context must be provided."⟩
  else .ok ()

def DefaultPermissionAuthorizer.authorize (decision : PermissionDecision) : PermissionResult :=
  { permissionId := decision.permissionId
    capabilityId := decision.capabilityId
    granted := decide (decision.state = .GRANTED)
    state := decision.state
    denialReason := decision.denialReason }

/-! ## What a policy set permits -/

open DefaultPolicyEvaluator

/-- Some loaded policy has a requirement for `capabilityId` that `provided` is enough for, and that
asks for a user's approval exactly when `approval` says so. -/
def Permits (policies : Policies) (capabilityId : String) (provided : TrustLevel)
    (approval : Bool) : Prop :=
  ∃ policy ∈ policies.values, ∃ req ∈ policy.requirements,
    req.capabilityId = capabilityId ∧ order req.requiredTrustLevel ≤ order provided ∧
      req.requiresUserApproval = approval

theorem findRequirement_some {policies : Policies} {id : String} {req : PermissionRequirement}
    (h : findRequirement policies id = some req) :
    ∃ policy ∈ policies.values, req ∈ policy.requirements ∧ req.capabilityId = id := by
  obtain ⟨policy, hp, hf⟩ := List.exists_of_findSome?_eq_some h
  exact ⟨policy, hp, List.mem_of_find?_eq_some hf, by simpa using List.find?_some hf⟩

/-- What the evaluator can answer, and what was found each time. -/
theorem evaluate_cases {policies : Policies} {request : PermissionRequest}
    {decision : PermissionDecision} (h : evaluate policies request = .ok decision) :
    ∃ context, request.context = some context ∧
      (decision.state = .DENIED ∨
        (decision.state = .REQUIRES_APPROVAL ∧
          Permits policies request.capabilityId context.trustLevel true) ∨
        (decision.state = .GRANTED ∧
          Permits policies request.capabilityId context.trustLevel false)) := by
  unfold evaluate at h
  cases hc : request.context with
  | none => rw [hc] at h; exact absurd h (by simp)
  | some context =>
    rw [hc] at h
    refine ⟨context, rfl, ?_⟩
    cases hf : findRequirement policies request.capabilityId with
    | none =>
      simp only [hf, Except.ok.injEq] at h
      exact Or.inl (h ▸ rfl)
    | some req =>
      simp only [hf] at h
      obtain ⟨policy, hp, hr, hid⟩ := findRequirement_some hf
      by_cases ht : order req.requiredTrustLevel ≤ order context.trustLevel
      · simp only [trustSufficient, ht, decide_true, Bool.not_true, Bool.false_eq_true,
          if_false] at h
        cases ha : req.requiresUserApproval with
        | true =>
          simp only [ha, if_true, Except.ok.injEq] at h
          exact Or.inr (Or.inl ⟨h ▸ rfl, policy, hp, req, hr, hid, ht, ha⟩)
        | false =>
          simp only [ha, Bool.false_eq_true, if_false, Except.ok.injEq] at h
          exact Or.inr (Or.inr ⟨h ▸ rfl, policy, hp, req, hr, hid, ht, ha⟩)
      · simp only [trustSufficient, ht, decide_false, Bool.not_false, if_true,
          Except.ok.injEq] at h
        exact Or.inl (h ▸ rfl)

end IraOS
