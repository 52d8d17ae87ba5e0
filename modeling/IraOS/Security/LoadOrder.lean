import IraOS.Lib.FirstMatch
import IraOS.Security.Policy

/-!
# The order in which policies are loaded

The evaluator keeps its policies in the order in which their ids were first loaded, and takes the
first requirement it finds for a capability. So a policy loaded earlier hides what a later one says
of the same capability, and who loads first decides. Where the policies that speak of a capability
come to the same state for a request, the order makes no difference to it, and only there
(`evaluate_loadOrder_iff`).

The theorem is about one request and every order of the same policies. Policies with an empty id are
refused when they are loaded, so they can have no say; and within a policy the first requirement for
the capability decides, whatever others the policy has. What is compared is the state a requirement
comes to at the request's level of trust, and not the requirement: two policies that ask for
different levels agree on a request that meets both, or neither, and need the same approval.

That policies have distinct ids is a hypothesis. Loading a second policy under an id replaces the
first and keeps its place, so with two of one id not even the policies loaded are the same in every
order.

The general fact is `findSome?_perm_iff`, about any scan for a first match.
-/

set_option autoImplicit false

namespace IraOS

open Lib

namespace DefaultPolicyEvaluator

/-- Load each of the policies into a new evaluator, by one `load_policy` after another. A call that
raises loads nothing. -/
def loadAll (policies : List PermissionPolicy) : Policies :=
  policies.foldl (fun loaded policy => (loadPolicy loaded policy).toOption.getD loaded) Dict.empty

/-- The state the evaluator decides on, or what it raises. The reason it gives is left out, since it
names the levels compared. -/
def stateOf (policies : Policies) (request : PermissionRequest) : Except Exn PermissionState :=
  (evaluate policies request).map PermissionDecision.state

def requirement? (capabilityId : String) (policy : PermissionPolicy) :
    Option PermissionRequirement :=
  if policy.policyId.isEmpty then none
  else policy.requirements.find? fun req => req.capabilityId == capabilityId

def stateAt (level : TrustLevel) (req : PermissionRequirement) : PermissionState :=
  if !trustSufficient level req.requiredTrustLevel then .DENIED
  else if req.requiresUserApproval then .REQUIRES_APPROVAL
  else .GRANTED

/-! ## What is loaded -/

theorem values_foldl {policies : List PermissionPolicy} {loaded : Policies}
    (hdistinct : (policies.map PermissionPolicy.policyId).Nodup)
    (hnew : ∀ policy ∈ policies, loaded.get? policy.policyId = none) :
    (policies.foldl (fun loaded policy => (loadPolicy loaded policy).toOption.getD loaded)
        loaded).values =
      loaded.values ++ policies.filter fun policy => !policy.policyId.isEmpty := by
  induction policies generalizing loaded with
  | nil => simp
  | cons policy rest ih =>
    rw [List.map_cons, List.nodup_cons] at hdistinct
    have hrest : ∀ p ∈ rest, loaded.get? p.policyId = none := by
      intro p hp
      exact hnew p (List.mem_cons_of_mem _ hp)
    rw [List.foldl_cons]
    by_cases hempty : policy.policyId.isEmpty = true
    · have hskip : (loadPolicy loaded policy).toOption.getD loaded = loaded := by
        simp [loadPolicy, hempty, Except.toOption]
      rw [hskip, ih hdistinct.2 hrest]
      simp [hempty]
    · have hset : (loadPolicy loaded policy).toOption.getD loaded =
          loaded.set policy.policyId policy := by
        simp [loadPolicy, hempty, Except.toOption]
      have hfree := hnew policy List.mem_cons_self
      rw [hset, ih hdistinct.2, Dict.values_set_of_absent hfree]
      · simp [hempty]
      · -- the others have other ids
        intro p hp
        have hne : p.policyId ≠ policy.policyId := by
          intro heq
          apply hdistinct.1
          rw [← heq]
          exact List.mem_map_of_mem hp
        rw [Dict.get?_set_ne hne]
        exact hrest p hp

theorem findRequirement_loadAll {policies : List PermissionPolicy}
    (hdistinct : (policies.map PermissionPolicy.policyId).Nodup) (capabilityId : String) :
    findRequirement (loadAll policies) capabilityId =
      policies.findSome? (requirement? capabilityId) := by
  unfold findRequirement loadAll
  rw [values_foldl hdistinct (by simp)]
  show ([] ++ List.filter _ policies).findSome? _ = _
  rw [List.nil_append]
  clear hdistinct
  induction policies with
  | nil => rfl
  | cons policy rest ih =>
    by_cases hempty : policy.policyId.isEmpty = true
    · simp [requirement?, hempty, ih]
    · simp [requirement?, hempty, ih, List.findSome?_cons]

/-! ## What is decided -/

theorem stateOf_eq (policies : Policies) (request : PermissionRequest) :
    stateOf policies request = match request.context with
      | none => .error ⟨.attributeError, lit "'NoneType' object has no attribute 'trust_level'"⟩
      | some context => .ok ((findRequirement policies request.capabilityId).elim .DENIED
          (stateAt context.trustLevel)) := by
  unfold stateOf evaluate
  cases request.context with
  | none => rfl
  | some context =>
    cases findRequirement policies request.capabilityId with
    | none => rfl
    | some req =>
      simp only [Option.elim, stateAt]
      split
      · rfl
      · split <;> rfl

theorem stateOf_loadAll {policies order : List PermissionPolicy} {request : PermissionRequest}
    {context : SecurityContext} (hdistinct : (policies.map PermissionPolicy.policyId).Nodup)
    (horder : order.Perm policies) (hcontext : request.context = some context) :
    stateOf (loadAll order) request =
      .ok ((order.findSome? (requirement? request.capabilityId)).elim .DENIED
        (stateAt context.trustLevel)) := by
  have hdistinct' : (order.map PermissionPolicy.policyId).Nodup :=
    (horder.map _).nodup_iff.mpr hdistinct
  rw [stateOf_eq, hcontext, findRequirement_loadAll hdistinct']

/-- **The load order makes no difference to a request just if the policies agree on it**: all that
can decide about the capability come to the same state at the request's trust. Policies have
different ids, so none is replaced by loading another, and the first one that has a requirement
decides. -/
theorem evaluate_loadOrder_iff {policies : List PermissionPolicy}
    (hdistinct : (policies.map PermissionPolicy.policyId).Nodup) (request : PermissionRequest) :
    (∀ first second : List PermissionPolicy, first.Perm policies → second.Perm policies →
        stateOf (loadAll first) request = stateOf (loadAll second) request) ↔
      ∀ context, request.context = some context →
        ∀ p ∈ policies, ∀ q ∈ policies, ∀ req req',
          requirement? request.capabilityId p = some req →
          requirement? request.capabilityId q = some req' →
          stateAt context.trustLevel req = stateAt context.trustLevel req' := by
  cases hcontext : request.context with
  | none =>
    -- without a context every order raises the same
    simp [stateOf_eq, hcontext]
  | some context =>
    simp only [Option.some.injEq, forall_eq']
    rw [← findSome?_perm_iff (d := PermissionState.DENIED)]
    constructor
    · intro h first second hfirst hsecond
      have hsame := h first second hfirst hsecond
      rw [stateOf_loadAll hdistinct hfirst hcontext, stateOf_loadAll hdistinct hsecond hcontext]
        at hsame
      exact Except.ok.inj hsame
    · intro h first second hfirst hsecond
      rw [stateOf_loadAll hdistinct hfirst hcontext, stateOf_loadAll hdistinct hsecond hcontext]
      exact congrArg Except.ok (h first second hfirst hsecond)

/-! ## Two policies about one capability -/

def pingAt (policyId : String) (level : TrustLevel) : PermissionPolicy where
  policyId := policyId
  name := policyId
  description := ""
  requirements := [{ capabilityId := "ping", requiredTrustLevel := level }]

def untrustedPing : PermissionRequest where
  permissionId := "1"
  capabilityId := "ping"
  context := some { requestId := "1", capabilityId := "ping" }

theorem evaluate_loadOrder_agreeing : stateOf (loadAll [pingAt "open" .UNTRUSTED,
      pingAt "public" .UNTRUSTED]) untrustedPing =
    stateOf (loadAll [pingAt "public" .UNTRUSTED, pingAt "open" .UNTRUSTED]) untrustedPing := by
  refine (evaluate_loadOrder_iff (by decide) untrustedPing).mpr ?_ _ _ (.refl _) (.swap _ _ _)
  rintro context ⟨⟩ p hp q hq req req' hreq hreq'
  simp only [List.mem_cons, List.not_mem_nil, or_false] at hp hq
  rcases hp with rfl | rfl <;> rcases hq with rfl | rfl <;> cases hreq <;> cases hreq' <;> rfl

theorem evaluate_loadOrder_conflicting :
    stateOf (loadAll [pingAt "open" .UNTRUSTED, pingAt "closed" .HIGH]) untrustedPing
        = .ok .GRANTED ∧
      stateOf (loadAll [pingAt "closed" .HIGH, pingAt "open" .UNTRUSTED]) untrustedPing
        = .ok .DENIED ∧
      ¬ ∀ policies : List PermissionPolicy, (policies.map PermissionPolicy.policyId).Nodup →
        ∀ first second : List PermissionPolicy, first.Perm policies → second.Perm policies →
          ∀ request : PermissionRequest,
            stateOf (loadAll first) request = stateOf (loadAll second) request := by
  have hgranted : stateOf (loadAll [pingAt "open" .UNTRUSTED, pingAt "closed" .HIGH])
      untrustedPing = .ok .GRANTED := rfl
  have hdenied : stateOf (loadAll [pingAt "closed" .HIGH, pingAt "open" .UNTRUSTED])
      untrustedPing = .ok .DENIED := rfl
  refine ⟨hgranted, hdenied, ?_⟩
  intro h
  have hsame := h [pingAt "open" .UNTRUSTED, pingAt "closed" .HIGH] (by decide) _ _ (.refl _)
    (.swap _ _ _) untrustedPing
  have hconflict := hgranted.symm.trans (hsame.trans hdenied)
  cases hconflict

end DefaultPolicyEvaluator

end IraOS
