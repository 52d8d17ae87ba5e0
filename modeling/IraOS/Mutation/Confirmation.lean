import IraOS.Core.Frame

/-!
# ConfirmationManager

`core/mutation/confirmation.py`: the first registered provider that supports a level answers for it.
A provider that raises while it is asked has refused, and the caller never hears of the exception; a
`supports` that raises is the caller's problem.

## When nobody supports the level

Where no provider supports the level, the request is meant to be denied ("we fail closed"). It is
not answered at all: the warning that comes before the `return False` passes `level=` on to
`Logger._log`, which has a parameter of that name and has been given it by position already. So the
caller gets a `TypeError`, whatever the logger's own level is, and the two ways of finding nobody to
ask, a `supports` that raises and a list that ends, come to the same thing here.

`findProvider` is the loop, with that exception for its end, and every result that is about a
request to the manager takes the two together: it gets an answer just where a provider is found.

## The level NONE

A request for the level NONE is granted before anybody is asked. That is not a confirmation, and it
leaves no entry of a provider's having been awaited.

`verdict` is what a request comes to, by the providers and the context alone. Everything else that a
request does is to wait, once, if somebody is asked (`requestConfirmation_run`).
-/

set_option autoImplicit false

namespace IraOS

open Lib

variable {δ : Type}

namespace ConfirmationManager

/-- What `logger.warning(…, level=level.value)` raises: `warning` hands `_log` its own level by
position, and the keyword then gives the same parameter a second value. -/
def levelGivenTwice : Exn :=
  ⟨.typeError, lit "Logger._log() got multiple values for argument 'level'"⟩

/-- The loop of `request_confirmation`: the first provider that supports the level. The loop that
comes to its end without one has only the warning left, and the warning raises. -/
def findProvider (level : ConfirmationLevel) :
    List ConfirmationProvider → Except Exn ConfirmationProvider
  | [] => .error levelGivenTwice
  | provider :: rest => do
    if ← provider.supports level then return provider
    findProvider level rest

/-- A provider's answer to the request; one that raises has denied. -/
def answerOf (provider : ConfirmationProvider) (context : MutationContext)
    (level : ConfirmationLevel) : Bool :=
  match provider.requestConfirmation context level with
  | .ok answer => answer
  | .error _ => false

def ask (env : Env δ) (asker : Asker) (context : MutationContext) (level : ConfirmationLevel) :
    Kernel δ Bool :=
  if level = .NONE then pure true
  else do
    let provider ← Act.ofExcept (findProvider level env.providers)
    await env (.confirmation asker)
    pure (answerOf provider context level)

def requestConfirmation (env : Env δ) (asker : Asker) (context : MutationContext)
    (level : ConfirmationLevel) : Kernel δ Bool := do
  let answer ← ask env asker context level
  Act.emit (.confirmation asker level answer)
  pure answer

/-- What a request comes to, by the providers alone: nothing in it waits. -/
def verdict (providers : List ConfirmationProvider) (context : MutationContext)
    (level : ConfirmationLevel) : Except Exn Bool :=
  if level = .NONE then .ok true
  else do
    let provider ← findProvider level providers
    return answerOf provider context level

/-- A request comes to its verdict: it raises, with nothing done, or is one entry with its answer,
and no more than the registry can have changed. -/
theorem requestConfirmation_run (env : Env δ) (asker : Asker) (context : MutationContext)
    (level : ConfirmationLevel) (w : World δ) :
    (∃ exc, verdict env.providers context level = .error exc ∧
      requestConfirmation env asker context level w = ⟨.error exc, w, []⟩) ∨
    ∃ answer w', verdict env.providers context level = .ok answer ∧
      (w' = w ∨ w' = w.after env (.confirmation asker)) ∧
      requestConfirmation env asker context level w
        = ⟨.ok answer, w', [.confirmation asker level answer]⟩ := by
  unfold requestConfirmation ask verdict
  by_cases hl : level = .NONE
  · refine Or.inr ⟨true, w, if_pos hl, Or.inl rfl, ?_⟩
    simp [hl, Act.run_bind]
  · simp only [if_neg hl]
    cases findProvider level env.providers with
    | error exc => exact Or.inl ⟨exc, rfl, rfl⟩
    | ok provider => exact Or.inr ⟨answerOf provider context level, _, rfl, Or.inr rfl, rfl⟩

theorem requestConfirmation_emits (env : Env δ) (asker : Asker) (context : MutationContext)
    (level : ConfirmationLevel) :
    Act.EmitsOnly (fun x => ∃ answer, x = .confirmation asker level answer)
      (requestConfirmation env asker context level) where
  mem w x hx := by
    rcases requestConfirmation_run env asker context level w with
      ⟨_, _, h⟩ | ⟨answer, _, _, _, h⟩
    · rw [h] at hx; exact absurd hx (by simp)
    · rw [h, List.mem_singleton] at hx; exact ⟨answer, hx⟩

theorem requestConfirmation_moves {env : Env δ} {S : Await → Prop} {R : World δ → World δ → Prop}
    (h : Stable env S R) {asker : Asker} (hs : S (.confirmation asker)) (context : MutationContext)
    (level : ConfirmationLevel) : Act.Moves R (requestConfirmation env asker context level) where
  state w := by
    rcases requestConfirmation_run env asker context level w with ⟨_, _, hr⟩ | ⟨_, _, _, hw, hr⟩
    · rw [hr]; exact h.refl w
    · rw [hr]
      rcases hw with rfl | rfl
      · exact h.refl _
      · exact h.after _ hs w

theorem requestConfirmation_ok {env : Env δ} {asker : Asker} {context : MutationContext}
    {level : ConfirmationLevel} {w w' : World δ} {answer : Bool} {t : List Entry}
    (h : requestConfirmation env asker context level w = ⟨.ok answer, w', t⟩) :
    t = [.confirmation asker level answer] := by
  rcases requestConfirmation_run env asker context level w with ⟨_, _, hr⟩ | ⟨_, _, _, _, hr⟩
  · rw [hr] at h; exact absurd h (by simp)
  · rw [hr] at h; cases h; rfl

end ConfirmationManager

end IraOS
