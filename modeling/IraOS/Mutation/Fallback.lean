import IraOS.Mutation.Confirmation

/-!
# The provider that denies by default

`MutationModule` builds its `ConfirmationManager` with one provider registered already, which
supports every level and denies (`core/mutation/providers.py`). The manager asks the first provider
that supports a level, so this one answers for all that are registered after it: as a fallback it
would have to come last.

The documentation of the provider says that it is there for want of another. `fallbackAnswer` is
that purpose, as a function of the providers that were registered later: the first of them that
supports the level answers, and without one the request is denied. Registered last, the provider is
exactly such a fallback (`verdict_last`). Registered first, it denies everything that asks for a
confirmation at all (`verdict_wiredWith`), and the two agree just where the fallback's answer is a
denial anyway (`answers_as_fallback_iff`).

With this provider there is always one that supports the level, so the warning that raises in
`Mutation.Confirmation` is never reached by a manager the module has built.
-/

set_option autoImplicit false

namespace IraOS

open Lib

variable {δ : Type}

def DenyByDefaultProvider : ConfirmationProvider where
  supports _ := .ok true
  requestConfirmation _ _ := .ok false

namespace ConfirmationManager

def registerProvider (providers : List ConfirmationProvider) (provider : ConfirmationProvider) :
    List ConfirmationProvider := providers ++ [provider]

def buildConfirmationManager : List ConfirmationProvider :=
  registerProvider [] DenyByDefaultProvider

def wiredWith (further : List ConfirmationProvider) : List ConfirmationProvider :=
  further.foldl registerProvider buildConfirmationManager

def handles (level : ConfirmationLevel) (provider : ConfirmationProvider) : Bool :=
  (provider.supports level).toOption.getD false

/-- What a fallback is for: the first of the further providers that supports the level answers, and
one that raises has denied; where there is none, the request is denied. -/
def fallbackAnswer (further : List ConfirmationProvider) (context : MutationContext)
    (level : ConfirmationLevel) : Bool :=
  match further.find? (handles level) with
  | some provider => answerOf provider context level
  | none => false

/-! ## Who is asked -/

theorem foldl_registerProvider (further providers : List ConfirmationProvider) :
    further.foldl registerProvider providers = providers ++ further := by
  induction further generalizing providers with
  | nil => simp
  | cons provider rest ih => simp [ih, registerProvider]

theorem wiredWith_eq (further : List ConfirmationProvider) :
    wiredWith further = DenyByDefaultProvider :: further := by
  unfold wiredWith
  rw [foldl_registerProvider]
  rfl

theorem verdict_wiredWith (further : List ConfirmationProvider) (context : MutationContext)
    {level : ConfirmationLevel} (hlevel : level ≠ .NONE) :
    verdict (wiredWith further) context level = .ok false := by
  rw [wiredWith_eq, verdict, if_neg hlevel]
  rfl

/-- Registered last, it answers for the levels that no other provider supports. -/
theorem findProvider_last {further : List ConfirmationProvider} {level : ConfirmationLevel}
    (hsupports : ∀ provider ∈ further, ∃ answer, provider.supports level = .ok answer) :
    findProvider level (further ++ [DenyByDefaultProvider]) =
      .ok ((further.find? (handles level)).getD DenyByDefaultProvider) := by
  induction further with
  | nil => rfl
  | cons provider rest ih =>
    obtain ⟨answer, hanswer⟩ := hsupports provider List.mem_cons_self
    have hhandles : handles level provider = answer := by
      simp [handles, hanswer, Except.toOption]
    rw [List.cons_append, findProvider, hanswer, List.find?_cons, hhandles]
    cases answer with
    | true => rfl
    | false => exact ih fun p hp => hsupports p (List.mem_cons_of_mem _ hp)

/-- Registered last, it is the fallback it is documented as. -/
theorem verdict_last {further : List ConfirmationProvider} {level : ConfirmationLevel}
    (hsupports : ∀ provider ∈ further, ∃ answer, provider.supports level = .ok answer)
    (context : MutationContext) (hlevel : level ≠ .NONE) :
    verdict (further ++ [DenyByDefaultProvider]) context level =
      .ok (fallbackAnswer further context level) := by
  unfold verdict fallbackAnswer
  rw [if_neg hlevel, findProvider_last hsupports]
  cases further.find? (handles level) <;> rfl

theorem requestConfirmation_wired {env : Env δ} {further : List ConfirmationProvider}
    (hwired : env.providers = wiredWith further) (asker : Asker) (context : MutationContext)
    {level : ConfirmationLevel} (hlevel : level ≠ .NONE) (w : World δ) :
    (requestConfirmation env asker context level w).result = .ok false := by
  have hverdict := verdict_wiredWith further context hlevel
  rw [← hwired] at hverdict
  rcases requestConfirmation_run env asker context level w with
    ⟨exc, hexc, _⟩ | ⟨answer, w', hanswer, _, hrun⟩
  · rw [hverdict] at hexc
    cases hexc
  · rw [hverdict] at hanswer
    rw [hrun, ← Except.ok.inj hanswer]

/-- **The wired manager answers as its fallback should just where that is a denial anyway**: no
further provider supports the level, or the first that does denies or raises. The provider that is
to be asked when there is no other is registered first and supports every level, so it is asked
always. -/
theorem answers_as_fallback_iff {env : Env δ} {further : List ConfirmationProvider}
    (hwired : env.providers = wiredWith further) (asker : Asker) (context : MutationContext)
    {level : ConfirmationLevel} (hlevel : level ≠ .NONE) (w : World δ) :
    (requestConfirmation env asker context level w).result =
        .ok (fallbackAnswer further context level) ↔
      ∀ provider, further.find? (handles level) = some provider →
        provider.requestConfirmation context level ≠ .ok true := by
  rw [requestConfirmation_wired hwired asker context hlevel w, Except.ok.injEq]
  unfold fallbackAnswer
  cases further.find? (handles level) with
  | none => simp
  | some provider =>
    simp only [Option.some.injEq, forall_eq']
    show false = answerOf provider context level ↔ _
    unfold answerOf
    cases provider.requestConfirmation context level with
    | error exc => simp
    | ok answer => cases answer <;> simp

/-! ## A provider that confirms -/

def providerFor (level : ConfirmationLevel) (answer : Bool) : ConfirmationProvider where
  supports asked := .ok (decide (asked = level))
  requestConfirmation _ _ := .ok answer

def pinEnv (answer : Bool) : Env Unit where
  objects _ :=
    { metadata := { id := "ping", name := "Ping", description := "", version := "1.0.0" }
      execute := fun _ => pure (.value .none) }
  bus _ := .delivers
  others _ := []
  providers := wiredWith [providerFor .PIN answer]
  sinks := []
  security := { validate := fun _ => .ok (), evaluate := fun _ => .error ⟨.runtimeError, []⟩,
                authorize := fun _ => .error ⟨.runtimeError, []⟩ }

def pinContext : MutationContext where
  mutationId := "m"
  workflowId := none
  executionId := "e"
  capabilityId := "ping"
  userId := none

theorem denial_as_fallback :
    (requestConfirmation (pinEnv false) .mutation pinContext .PIN
        { registry := Dict.empty, device := () }).result =
      .ok (fallbackAnswer [providerFor .PIN false] pinContext .PIN) := by
  refine (answers_as_fallback_iff rfl .mutation pinContext (by decide) _).mpr ?_
  intro provider hprovider
  obtain rfl := Option.some.inj hprovider
  simp [providerFor]

theorem confirmation_denied :
    fallbackAnswer [providerFor .PIN true] pinContext .PIN = true ∧
      (requestConfirmation (pinEnv true) .mutation pinContext .PIN
        { registry := Dict.empty, device := () }).result ≠
          .ok (fallbackAnswer [providerFor .PIN true] pinContext .PIN) := by
  refine ⟨rfl, ?_⟩
  intro h
  have hdenied : (Except.ok false : Except Exn Bool) = .ok true := h
  cases hdenied

end ConfirmationManager

end IraOS
