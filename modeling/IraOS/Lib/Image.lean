import IraOS.Lib.Act

/-!
# A program read on another store

One thing may be modelled twice: once with a store that has what the proofs want of it, and once
with the store as it comes. `f` reads a state of the first as a state of the second, and `g` a
result of the first as a result of the second; `g` may look at the state the program has left, since
an answer that is a reference says only there what it stands for.

`Image f g m n s` says that `m` does from `f s` what `n` does from `s`: it raises what `n` raises,
and else ends with the image of what `n` ends with. There is a rule for each way a program is put
together, and one for a step that only the second has, which cannot fail there (`skip`).

* It is about one state `s` at a time. Which states are meant is a hypothesis of whoever states
  the correspondence, and a rule may use what is known of the state it is at.
* It is a functional simulation, and the equation is between runs: what is proved of a run of `m`
  from `f s` holds of the reading of the run of `n` from `s`, its result and its state alike.
* Traces are equal. A program that is observed through different entries has to be compared in
  another way.
-/

set_option autoImplicit false

namespace Lib

namespace Act

variable {σ σ' ε τ α α' β β' : Type}

structure Image (f : σ → σ') (g : σ → α → β) (m : Act σ' ε τ β) (n : Act σ ε τ α) (s : σ) :
    Prop where
  run : m (f s) = ⟨(n s).result.map (g (n s).state), f (n s).state, (n s).trace⟩

namespace Image

variable {f : σ → σ'} {g : σ → α → β} {s : σ}

theorem pure {b : β} {a : α} (h : b = g s a) :
    Image f g (pure b : Act σ' ε τ β) (pure a) s := ⟨by rw [h]; rfl⟩

theorem throw (e : ε) : Image f g (throw e : Act σ' ε τ β) (throw e) s := ⟨rfl⟩

theorem ofExcept {x' : Except ε β} {x : Except ε α} (h : x' = x.map (g s)) :
    Image f g (ofExcept x' : Act σ' ε τ β) (ofExcept x) s := ⟨by rw [h]; rfl⟩

theorem modify {h' : σ' → σ'} {h : σ → σ} (hs : h' (f s) = f (h s)) :
    Image f (fun _ u => u) (modify h' : Act σ' ε τ Unit) (modify h) s :=
  ⟨by rw [run_modify, hs]; rfl⟩

/-- In sequence: the second halves are compared from where the first ones end, and may go by how
those ended. -/
theorem bind {g₁ : σ → α → α'} {g₂ : σ → β → β'} {m : Act σ' ε τ α'} {n : Act σ ε τ α}
    {k' : α' → Act σ' ε τ β'} {k : α → Act σ ε τ β} (h : Image f g₁ m n s)
    (hk : ∀ a s₁ t, n s = ⟨.ok a, s₁, t⟩ → Image f g₂ (k' (g₁ s₁ a)) (k a) s₁) :
    Image f g₂ (m >>= k') (n >>= k) s := by
  constructor
  have hm := h.run
  generalize hn : n s = run at hm
  obtain ⟨result, s₁, t⟩ := run
  cases result with
  | error e =>
    rw [run_bind_of_error hm, run_bind_of_error hn]
    rfl
  | ok a =>
    rw [run_bind_of_ok hm, run_bind_of_ok hn, (hk a s₁ t hn).run]

theorem bind_get {k' : σ' → Act σ' ε τ β} {k : σ → Act σ ε τ α}
    (h : Image f g (k' (f s)) (k s) s) : Image f g (Act.get >>= k') (Act.get >>= k) s := ⟨h.run⟩

/-- The second program may look at its state where the first does not. -/
theorem get_left {k' : σ' → Act σ' ε τ β} {n : Act σ ε τ α} (h : Image f g (k' (f s)) n s) :
    Image f g (Act.get >>= k') n s := ⟨h.run⟩

theorem bind_modify {h' : σ' → σ'} {h : σ → σ} {k' : Unit → Act σ' ε τ β} {k : Unit → Act σ ε τ α}
    (hs : h' (f s) = f (h s)) (hk : Image f g (k' ()) (k ()) (h s)) :
    Image f g (Act.modify h' >>= k') (Act.modify h >>= k) s :=
  bind (modify hs) fun u s₁ t hrun => by
    cases hrun
    exact hk

/-- A step that only the second program has, and that always returns there. -/
theorem skip {x : Except ε β'} {b : β'} {k' : β' → Act σ' ε τ β} {n : Act σ ε τ α} (hx : x = .ok b)
    (h : Image f g (k' b) n s) : Image f g (Act.ofExcept x >>= k') n s := by
  subst hx
  exact ⟨h.run⟩

theorem ite {c : Prop} [Decidable c] {m m' : Act σ' ε τ β} {n n' : Act σ ε τ α}
    (hthen : c → Image f g m n s) (helse : ¬ c → Image f g m' n' s) :
    Image f g (if c then m else m') (if c then n else n') s := by
  split
  · next h => exact hthen h
  · next h => exact helse h

end Image

end Act

end Lib
