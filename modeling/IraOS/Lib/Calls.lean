import IraOS.Lib.Tasks

/-!
# Calls of cooperative tasks

Tasks that make calls: an idle task's next turn begins one, and the task is idle again when the call
is over. What a task has done in its last call stands in the log after the entry that made the call,
between the entries of the others.

`R pre call done p` is what is to hold of a call that was made when the log was `pre`, once its task
has done `done` and waits at `p`. If the turn a call begins with and every turn it goes on with
respect `R`, the last call of every task does, whoever took turns in between (`exec_calls`). A
prefix of a run is a run, and every call is the last one of its task for a while.

The log at the time the call was made is an argument of `R` because an answer may depend on it: what
a lookup gives is decided by the calls made so far, by whomever. What other tasks do after that is
in the log as well, but not in `done`, and `R` cannot be broken by it (`LastCall.others`).

`R` speaks of unfinished calls too. A property of finished calls alone would not go through the
induction, since a call that is half done has to say how it may still end.
-/

set_option autoImplicit false

namespace Lib.Tasks

variable {σ π ρ τ κ : Type}

/-- What task `i` did in a stretch of the log. -/
def own (i : Nat) (log : List (Nat × τ)) : List τ :=
  log.filterMap fun x => if x.1 = i then some x.2 else none

@[simp] theorem own_nil (i : Nat) : own i ([] : List (Nat × τ)) = [] := rfl

theorem own_append (i : Nat) (l l' : List (Nat × τ)) : own i (l ++ l') = own i l ++ own i l' :=
  List.filterMap_append

@[simp] theorem own_self (i : Nat) (actions : List τ) :
    own i (actions.map (Prod.mk i)) = actions := by
  unfold own
  rw [List.filterMap_map]
  simp

theorem own_other {i j : Nat} (h : j ≠ i) (actions : List τ) :
    own i (actions.map (Prod.mk j)) = [] := by
  unfold own
  rw [List.filterMap_map]
  simp [h]

/-- The last call that task `i` has made: where in the log it was made, what the task has done
since, and where it waits. -/
def LastCall (called : κ → τ) (R : List (Nat × τ) → κ → List τ → π → Prop) (i : Nat)
    (log : List (Nat × τ)) (p : π) : Prop :=
  ∃ pre call post, log = pre ++ (i, called call) :: post ∧ R pre call (own i post) p

namespace LastCall

variable {called : κ → τ} {R : List (Nat × τ) → κ → List τ → π → Prop} {i : Nat}
  {log : List (Nat × τ)} {p p' : π}

theorem begin {call : κ} {actions : List τ} (h : R log call actions p) :
    LastCall called R i (log ++ (called call :: actions).map (Prod.mk i)) p := by
  refine ⟨log, call, actions.map (Prod.mk i), rfl, ?_⟩
  rw [own_self]
  exact h

theorem others (h : LastCall called R i log p) {j : Nat} (hj : j ≠ i) (actions : List τ) :
    LastCall called R i (log ++ actions.map (Prod.mk j)) p := by
  obtain ⟨pre, call, post, rfl, hR⟩ := h
  refine ⟨pre, call, post ++ actions.map (Prod.mk j), by simp, ?_⟩
  rw [own_append, own_other hj, List.append_nil]
  exact hR

theorem more (h : LastCall called R i log p) {actions : List τ}
    (hR : ∀ pre call done, R pre call done p → R pre call (done ++ actions) p') :
    LastCall called R i (log ++ actions.map (Prod.mk i)) p' := by
  obtain ⟨pre, call, post, rfl, hdone⟩ := h
  refine ⟨pre, call, post ++ actions.map (Prod.mk i), by simp, ?_⟩
  rw [own_append, own_self]
  exact hR _ _ _ hdone

end LastCall

/-- Every task is idle and has not made a call, or its last one is as `R` has it. -/
def CallsKept (called : κ → τ) (R : List (Nat × τ) → κ → List τ → π → Prop) (idle : π)
    (s : State σ π τ) : Prop :=
  ∀ i, (s.pcs i = idle ∧ own i s.log = []) ∨ LastCall called R i s.log (s.pcs i)

variable {turn : Nat → σ → π → ρ → Option (Turn σ π τ)} {called : κ → τ}
  {R : List (Nat × τ) → κ → List τ → π → Prop} {idle : π} {J : State σ π τ → Prop}

theorem CallsKept.take {s : State σ π τ} (h : CallsKept called R idle s) {i : Nat}
    {t : Turn σ π τ}
    (hbegin : s.pcs i = idle → ∃ call actions, t.actions = called call :: actions ∧
      R s.log call actions t.pc)
    (hgo : s.pcs i ≠ idle → ∀ pre call done, R pre call done (s.pcs i) →
      R pre call (done ++ t.actions) t.pc) :
    CallsKept called R idle (s.take i t) := by
  intro j
  by_cases hj : j = i
  · subst hj
    rw [take_pcs_self]
    refine Or.inr ?_
    by_cases hidle : s.pcs j = idle
    · obtain ⟨call, actions, hactions, hR⟩ := hbegin hidle
      show LastCall called R j (s.log ++ t.actions.map (Prod.mk j)) t.pc
      rw [hactions]
      exact LastCall.begin hR
    · rcases h j with ⟨hpc, _⟩ | hlast
      · exact absurd hpc hidle
      · exact hlast.more (hgo hidle)
  · rw [take_pcs_ne hj]
    rcases h j with ⟨hpc, hown⟩ | hlast
    · refine Or.inl ⟨hpc, ?_⟩
      show own j (s.log ++ t.actions.map (Prod.mk i)) = []
      rw [own_append, hown, own_other (Ne.symm hj)]
      rfl
    · exact Or.inr (hlast.others (Ne.symm hj) t.actions)

/-- **The rule for calls.** What begins well and goes on well is well at every moment, where the
invariant `J` of the whole may be used. -/
theorem exec_calls (hJ : ∀ s i r t, J s → turn i s.shared (s.pcs i) r = some t → J (s.take i t))
    (hbegin : ∀ s i r t, J s → turn i s.shared idle r = some t →
      ∃ call actions, t.actions = called call :: actions ∧ R s.log call actions t.pc)
    (hgo : ∀ s i r t pre call done, J s → s.pcs i ≠ idle → R pre call done (s.pcs i) →
      turn i s.shared (s.pcs i) r = some t → R pre call (done ++ t.actions) t.pc)
    {ls : List (Nat × ρ)} {s s' : State σ π τ} (hs : J s) (hcalls : CallsKept called R idle s)
    (he : (system turn).exec s ls = some s') : J s' ∧ CallsKept called R idle s' := by
  refine System.exec_invariant (P := fun s => J s ∧ CallsKept called R idle s) ?_ ⟨hs, hcalls⟩ he
  rintro s ⟨i, r⟩ s' ⟨hJs, hkept⟩ hstep
  obtain ⟨t, ht, rfl⟩ := step_some hstep
  refine ⟨hJ s i r t hJs ht, hkept.take ?_ ?_⟩
  · intro hidle
    rw [hidle] at ht
    exact hbegin s i r t hJs ht
  · intro hidle pre call done hR
    exact hgo s i r t pre call done hJs hidle hR ht

end Lib.Tasks
