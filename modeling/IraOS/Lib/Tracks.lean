import IraOS.Lib.Follows

/-!
# Programs that keep to a protocol their state shows

Where the phase of a protocol can be read off from the program's own state, keeping to the protocol
says more than that nothing is out of turn: what the observer takes the phase to be and what the
state shows are the same at the end, if they were at the beginning. `Tracks T view φ m Q` judges a
program from the states that show `φ` on. The rules are those of `Follows`, and one for an entry
that goes with a write.

That last rule (`Tracks.write`) is where the work of a proof is. A program that writes its state and
announces the change does so in two steps; the two belong together as one step of the protocol, and
between them the observer and the state do not agree. So there is no rule for a write by itself that
changes what the state shows, and none for an announcement by itself that moves the phase: a program
in which one of them can happen without the other is not judged by `Tracks`.

An attempt keeps what was written and announced before the exception, so what follows it starts from
whatever phase the attempt ended in.
-/

set_option autoImplicit false

namespace Lib

variable {σ ε τ α β Φ : Type}

namespace Act

/-- From a state that shows `φ`, `m` keeps to `T`, and the phase it ends in is the one its state
shows then; `Q` holds of it and of how `m` ends. -/
structure Tracks (T : System Φ τ) (view : σ → Φ) (φ : Φ) (m : Act σ ε τ α)
    (Q : Except ε α → Φ → Prop) : Prop where
  run : ∀ s, view s = φ →
    T.exec φ (m s).trace = some (view (m s).state) ∧ Q (m s).result (view (m s).state)

namespace Tracks

variable {T : System Φ τ} {view : σ → Φ} {φ : Φ} {Q : Except ε α → Φ → Prop}
  {R : Except ε β → Φ → Prop}

theorem pure {a : α} (h : Q (.ok a) φ) : Tracks T view φ (pure a : Act σ ε τ α) Q where
  run s hs := by
    subst hs
    exact ⟨rfl, h⟩

theorem throw {e : ε} (h : Q (.error e) φ) : Tracks T view φ (throw e : Act σ ε τ α) Q where
  run s hs := by
    subst hs
    exact ⟨rfl, h⟩

theorem ofExcept {x : Except ε α} (h : Q x φ) :
    Tracks T view φ (ofExcept x : Act σ ε τ α) Q where
  run s hs := by
    subst hs
    exact ⟨rfl, h⟩

theorem get {f : σ → Act σ ε τ α} (h : ∀ s, view s = φ → Tracks T view φ (f s) Q) :
    Tracks T view φ (get >>= f) Q where
  run s hs := (h s hs).run s hs

theorem modify {g : σ → σ} {P : Except ε Unit → Φ → Prop} (hg : ∀ s, view (g s) = view s)
    (h : P (.ok ()) φ) : Tracks T view φ (modify g : Act σ ε τ Unit) P where
  run s hs := by
    subst hs
    show some (view s) = some (view (g s)) ∧ P (.ok ()) (view (g s))
    rw [hg]
    exact ⟨rfl, h⟩

theorem emit {x : τ} {P : Except ε Unit → Φ → Prop} (hx : T.step φ x = some φ)
    (h : P (.ok ()) φ) : Tracks T view φ (emit x : Act σ ε τ Unit) P where
  run s hs := by
    subst hs
    refine ⟨?_, h⟩
    show T.exec (view s) [x] = some (view s)
    rw [System.exec_cons_of hx]
    rfl

/-- A write, and the entry that makes it known. -/
theorem write {g : σ → σ} {x : τ} {φ' : Φ} {P : Except ε Unit → Φ → Prop}
    (hg : ∀ s, view s = φ → view (g s) = φ') (hx : T.step φ x = some φ') (h : P (.ok ()) φ') :
    Tracks T view φ (Act.modify g >>= fun _ => Act.emit x : Act σ ε τ Unit) P where
  run s hs := by
    have hg := hg s hs
    show T.exec φ [x] = some (view (g s)) ∧ P (.ok ()) (view (g s))
    rw [hg, System.exec_cons_of hx]
    exact ⟨rfl, h⟩

theorem mono {Q' : Except ε α → Φ → Prop} {m : Act σ ε τ α} (h : Tracks T view φ m Q)
    (hQ : ∀ r φ', Q r φ' → Q' r φ') : Tracks T view φ m Q' where
  run s hs := ⟨(h.run s hs).1, hQ _ _ (h.run s hs).2⟩

/-- In sequence: the second half from whatever phase the first returns in; and where the first
raises, that is the end. -/
theorem bind {m : Act σ ε τ α} {f : α → Act σ ε τ β} (hm : Tracks T view φ m Q)
    (hf : ∀ a φ', Q (.ok a) φ' → Tracks T view φ' (f a) R)
    (herr : ∀ e φ', Q (.error e) φ' → R (.error e) φ') : Tracks T view φ (m >>= f) R where
  run s hs := by
    obtain ⟨hexec, hq⟩ := hm.run s hs
    rw [run_bind]
    cases hres : (m s).result with
    | error e =>
      rw [hres] at hq
      exact ⟨hexec, herr e _ hq⟩
    | ok a =>
      rw [hres] at hq
      obtain ⟨hexec', hr⟩ := (hf a _ hq).run (m s).state rfl
      refine ⟨?_, hr⟩
      rw [System.exec_append, hexec, Option.bind_some, hexec']

theorem bind_of_ok {m : Act σ ε τ α} {f : α → Act σ ε τ β} {χ : Φ}
    (hm : Tracks T view φ m fun r ψ => (∃ a, r = .ok a) ∧ ψ = χ)
    (hf : ∀ a, Tracks T view χ (f a) R) : Tracks T view φ (m >>= f) R := by
  refine hm.bind ?_ ?_
  · rintro a ψ ⟨_, rfl⟩
    exact hf a
  · rintro e ψ ⟨⟨a, ha⟩, _⟩
    cases ha

theorem bind_attempt {m : Act σ ε τ α} {f : Except ε α → Act σ ε τ β}
    (hm : Tracks T view φ m Q) (hf : ∀ x φ', Q x φ' → Tracks T view φ' (f x) R) :
    Tracks T view φ (attempt m >>= f) R where
  run s hs := by
    obtain ⟨hexec, hq⟩ := hm.run s hs
    obtain ⟨hexec', hr⟩ := (hf _ _ hq).run (m s).state rfl
    refine ⟨?_, hr⟩
    show T.exec φ ((m s).trace ++ (f (m s).result (m s).state).trace) = _
    rw [System.exec_append, hexec, Option.bind_some, hexec']
    rfl

end Tracks

end Act

end Lib
