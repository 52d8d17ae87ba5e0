import IraOS.Lib.Act
import IraOS.Lib.System

/-!
# Programs that keep to a protocol

A protocol is a `System` over what an observer keeps of a trace, its phase: an entry moves it to the
next one, or is out of turn. `Follows T φ m Q` judges a program from a phase on: whatever state it
runs from, nothing it emits is out of turn, and `Q` holds of how it ends and of the phase it ends
in. There is one rule for each way a program is put together.

It is a Hoare triple whose assertions are about the observer instead of the state: `φ` is the
precondition, `Q` the postcondition for returning and for raising alike. A program that raises half
way leaves the protocol in the phase it was in, and `Q` may say which phases that can be.

Entries that the protocol is not about pass without moving it (`System.watching`), so programs that
emit many kinds of entries are judged by several protocols, one at a time, and a part that emits
nothing of a protocol's kind is done with by `Follows.unseen`.

Here the phase is the observer's alone. Where the program's state shows the phase as well, and the
two are to agree, `Lib.Tracks` says more.
-/

set_option autoImplicit false

namespace Lib

variable {σ ε τ α β Φ L : Type}

/-- The protocol as it is for entries some of which carry a label: those move it, and the others
pass unseen. -/
def System.watching (T : System Φ L) (label : τ → Option L) : System Φ τ where
  step φ x :=
    match label x with
    | some l => T.step φ l
    | none => some φ

theorem System.exec_watching (T : System Φ L) (label : τ → Option L) (φ : Φ) (t : List τ) :
    (T.watching label).exec φ t = T.exec φ (t.filterMap label) := by
  induction t generalizing φ with
  | nil => rfl
  | cons x t ih =>
    cases hx : label x with
    | none =>
      have hstep : (T.watching label).step φ x = some φ := by simp [watching, hx]
      rw [exec_cons_of hstep, ih, List.filterMap_cons_none hx]
    | some l =>
      have hstep : (T.watching label).step φ x = T.step φ l := by simp [watching, hx]
      rw [exec_cons, hstep, List.filterMap_cons_some hx, exec_cons]
      exact congrArg _ (funext ih)

namespace Act

structure Follows (T : System Φ τ) (φ : Φ) (m : Act σ ε τ α) (Q : Except ε α → Φ → Prop) :
    Prop where
  run : ∀ s, ∃ φ', T.exec φ (m s).trace = some φ' ∧ Q (m s).result φ'

namespace Follows

variable {T : System Φ τ} {φ : Φ} {Q : Except ε α → Φ → Prop} {R : Except ε β → Φ → Prop}

theorem of_run {m : Act σ ε τ α} (h : Follows T φ m Q) {s s' : σ} {r : Except ε α} {t : List τ}
    (hr : m s = ⟨r, s', t⟩) : ∃ φ', T.exec φ t = some φ' ∧ Q r φ' := by
  have hrun := h.run s
  rwa [hr] at hrun

/-- A program that emits nothing the protocol moves at: the phase it ends in is the one it began
in. -/
theorem unseen {m : Act σ ε τ α} (h : EmitsOnly (fun x => ∀ φ, T.step φ x = some φ) m)
    (hQ : ∀ r, Q r φ) : Follows T φ m Q where
  run s := by
    refine ⟨φ, ?_, hQ _⟩
    have hall := h.mem s
    generalize (m s).trace = t at hall
    induction t with
    | nil => rfl
    | cons x t ih =>
      rw [System.exec_cons_of (hall x List.mem_cons_self φ)]
      exact ih fun y hy => hall y (List.mem_cons_of_mem _ hy)

theorem pure {a : α} (h : Q (.ok a) φ) : Follows T φ (pure a : Act σ ε τ α) Q where
  run _ := ⟨φ, rfl, h⟩

theorem ofExcept {x : Except ε α} (h : Q x φ) : Follows T φ (ofExcept x : Act σ ε τ α) Q where
  run _ := ⟨φ, rfl, h⟩

theorem attempt {m : Act σ ε τ α} {P : Except ε (Except ε α) → Φ → Prop}
    (h : Follows T φ m fun r => P (.ok r)) : Follows T φ (attempt m) P where
  run s := h.run s

theorem mono {Q' : Except ε α → Φ → Prop} {m : Act σ ε τ α} (h : Follows T φ m Q)
    (hQ : ∀ r φ', Q r φ' → Q' r φ') : Follows T φ m Q' where
  run s := by
    obtain ⟨φ', hexec, hq⟩ := h.run s
    exact ⟨φ', hexec, hQ _ _ hq⟩

/-- In sequence: the second half from whatever phase the first returns in; and where the first
raises, that is the end. -/
theorem bind {m : Act σ ε τ α} {f : α → Act σ ε τ β} (hm : Follows T φ m Q)
    (hf : ∀ a φ', Q (.ok a) φ' → Follows T φ' (f a) R)
    (herr : ∀ e φ', Q (.error e) φ' → R (.error e) φ') : Follows T φ (m >>= f) R where
  run s := by
    obtain ⟨φ', hexec, hq⟩ := hm.run s
    rw [run_bind]
    cases hres : (m s).result with
    | error e =>
      rw [hres] at hq
      exact ⟨φ', hexec, herr e φ' hq⟩
    | ok a =>
      rw [hres] at hq
      obtain ⟨φ'', hexec', hr⟩ := (hf a φ' hq).run (m s).state
      refine ⟨φ'', ?_, hr⟩
      rw [System.exec_append, hexec, Option.bind_some, hexec']

end Follows

end Act

end Lib
