import IraOS.Lib.System
import Mathlib.Logic.Function.Basic

/-!
# Cooperative tasks

Any number of tasks over one shared state. A task runs from one wait to the next without being
interrupted (a *turn*), and in between any other task may take its turns: so a state says where each
task waits, and a label says which one goes on and with what reply. What the tasks did is kept in
one log, each action under its task.

This is what an event loop with `async` functions is: control changes hands at an `await` that
really waits, and nowhere else. There is no preemption, so what a program does between two of its
waits is one atomic turn, and a program is modelled by listing the places where it may wait and what
it does from each of them to the next. The reply is what the wait gives back, and is chosen by the
label: whether a hook raises, what a capability returns, what the bus makes of an event.

A task changes nobody's place but its own, so a property of one task's place and log needs looking
at that task's turns only (`exec_local`); what the others do to the shared state in the meantime
comes in through the guard. What is said of the shared state itself goes by `exec_turns`, which is
the run rule of `Lib.System` with the step already taken apart into a turn.

Tasks are numbered by all of `Nat` and start wherever the initial state has them; tasks that take no
turn are as good as not there (`exec_untouched`), so no bound on their number is ever stated.
-/

set_option autoImplicit false

namespace Lib

/-- One turn of a task: the shared state it leaves behind, the place where the task waits next, and
what it did on the way there. -/
structure Turn (σ π τ : Type) where
  shared : σ
  pc : π
  actions : List τ

namespace Tasks

/-- Everything there is at one moment: the shared state, the place of every task, and what all of
them have done so far, in the order in which they did it. -/
structure State (σ π τ : Type) where
  shared : σ
  pcs : Nat → π
  log : List (Nat × τ)

variable {σ π ρ τ : Type}

def State.take (s : State σ π τ) (i : Nat) (t : Turn σ π τ) : State σ π τ where
  shared := t.shared
  pcs := Function.update s.pcs i t.pc
  log := s.log ++ t.actions.map (Prod.mk i)

/-- The system of tasks whose turns are given by `turn`. Task `i`, waiting at its place, gets a
reply and takes a turn, if one is possible with that reply. -/
def system (turn : Nat → σ → π → ρ → Option (Turn σ π τ)) :
    System (State σ π τ) (Nat × ρ) where
  step s l := (turn l.1 s.shared (s.pcs l.1) l.2).map (s.take l.1)

/-- What task `i` did, in order, out of the log of them all. -/
def State.logOf (s : State σ π τ) (i : Nat) : List τ :=
  s.log.filterMap fun x => if x.1 = i then some x.2 else none

/-! ## One turn -/

@[simp] theorem take_pcs_self (s : State σ π τ) (i : Nat) (t : Turn σ π τ) :
    (s.take i t).pcs i = t.pc := Function.update_self ..

theorem take_pcs_ne {s : State σ π τ} {i j : Nat} (h : j ≠ i) (t : Turn σ π τ) :
    (s.take i t).pcs j = s.pcs j := Function.update_of_ne h ..

@[simp] theorem take_logOf_self (s : State σ π τ) (i : Nat) (t : Turn σ π τ) :
    (s.take i t).logOf i = s.logOf i ++ t.actions := by
  unfold State.logOf State.take
  rw [List.filterMap_append, List.filterMap_map]
  simp

theorem take_logOf_ne {s : State σ π τ} {i j : Nat} (h : i ≠ j) (t : Turn σ π τ) :
    (s.take i t).logOf j = s.logOf j := by
  unfold State.logOf State.take
  rw [List.filterMap_append, List.filterMap_map]
  simp [h]

variable {turn : Nat → σ → π → ρ → Option (Turn σ π τ)}

theorem step_some {s s' : State σ π τ} {i : Nat} {r : ρ}
    (h : (system turn).step s (i, r) = some s') :
    ∃ t, turn i s.shared (s.pcs i) r = some t ∧ s' = s.take i t := by
  obtain ⟨t, ht, rfl⟩ := Option.map_eq_some_iff.mp h
  exact ⟨t, ht, rfl⟩

theorem step_of {s : State σ π τ} {i : Nat} {r : ρ} {t : Turn σ π τ}
    (h : turn i s.shared (s.pcs i) r = some t) :
    (system turn).step s (i, r) = some (s.take i t) := by
  show (turn i s.shared (s.pcs i) r).map (s.take i) = some (s.take i t)
  rw [h]
  rfl

/-! ## Whole runs -/

theorem exec_turns {C : State σ π τ → Nat × ρ → Prop} {P : State σ π τ → Prop}
    (h : ∀ s i r t, P s → C s (i, r) → turn i s.shared (s.pcs i) r = some t → P (s.take i t))
    {ls : List (Nat × ρ)} {s s' : State σ π τ} (hs : P s) (hm : (system turn).Meets C s ls)
    (he : (system turn).exec s ls = some s') : P s' := by
  refine System.exec_induct ?_ hs hm he
  intro s l s' hP hC hstep
  obtain ⟨i, r⟩ := l
  obtain ⟨t, ht, rfl⟩ := step_some hstep
  exact h s i r t hP hC ht

/-- **The local rule.** What a task's own guarded turns keep true of its place and its log stays
true in every guarded run of them all. -/
theorem exec_local {C : State σ π τ → Nat × ρ → Prop} {P : π → List τ → Prop} {i : Nat}
    (h : ∀ s r t, C s (i, r) → P (s.pcs i) (s.logOf i) →
      turn i s.shared (s.pcs i) r = some t → P t.pc (s.logOf i ++ t.actions))
    {ls : List (Nat × ρ)} {s s' : State σ π τ} (hs : P (s.pcs i) (s.logOf i))
    (hm : (system turn).Meets C s ls) (he : (system turn).exec s ls = some s') :
    P (s'.pcs i) (s'.logOf i) := by
  refine exec_turns (P := fun s => P (s.pcs i) (s.logOf i)) ?_ hs hm he
  intro s j r t hP hC ht
  by_cases hj : j = i
  · subst hj
    rw [take_pcs_self, take_logOf_self]
    exact h s r t hC hP ht
  · rw [take_pcs_ne (Ne.symm hj), take_logOf_ne hj]
    exact hP

/-- A task that takes no turn in a run stays where it is. -/
theorem exec_untouched {ls : List (Nat × ρ)} {s s' : State σ π τ} {i : Nat}
    (h : ∀ l ∈ ls, l.1 ≠ i) (he : (system turn).exec s ls = some s') : s'.pcs i = s.pcs i := by
  induction ls generalizing s with
  | nil =>
    rw [System.exec_nil, Option.some.injEq] at he
    rw [he]
  | cons l ls ih =>
    obtain ⟨s₁, hstep, he⟩ := System.exec_cons_some he
    obtain ⟨t, _, rfl⟩ := step_some hstep
    rw [ih (fun l' hl' => h l' (List.mem_cons_of_mem _ hl')) he]
    exact take_pcs_ne (Ne.symm (h l List.mem_cons_self)) t

end Tasks

end Lib
