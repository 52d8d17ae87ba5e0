import Mathlib.Data.List.Basic

/-!
# Actions: state, raising, and a trace

An `Act σ ε τ α` runs on a state `σ`, ends by returning an `α` or raising an `ε`, and leaves behind
the entries of type `τ` an observer saw on the way. Unlike `ExceptT ε (StateM σ)` read as a
transaction, **a raise rolls nothing back**: the state and the trace of everything that happened
before it stay, which is what a coroutine that raises half way through does.

## Why a run is a record and not a tuple of monads

The three things a run leaves behind are read apart in nearly every proof: what a caller gets, what
is stored afterwards, and what was published, logged or executed on the way. `Run` has a field for
each, so a statement names the one it is about, and the equation of a run (`m s = ⟨r, s', t⟩`) is
the one form in which a program's behaviour enters a proof.

## The two ways to reason about a program

Two predicates carry the proofs over a program's text, one bind at a time:

* `EmitsOnly p m` — every entry `m` ever emits satisfies `p`;
* `Moves R m` — every run of `m` takes its state along `R`. `Still` is the case where nothing is
  written at all, and `Atomic` says that a program that raises has written nothing.

Both are bounds: they hold of every run and say nothing of a particular one. Each has one rule per
primitive and one for `>>=`, so a proof follows the text of the program it is about.

What needs the run itself and not just a bound on it goes by inversion (`bind_ok`, `bind_cases`):
the equation of a sequence's run comes apart into the equations of its two halves. Going the other
way, `run_bind_of_ok` and `run_bind_of_error` put a run together when its first half is known. No
proof unfolds `>>=` itself.
-/

set_option autoImplicit false

namespace Lib

theorem bind_eq_ok {ε α β : Type} {x : Except ε α} {f : α → Except ε β} {b : β} :
    (x >>= f) = .ok b ↔ ∃ a, x = .ok a ∧ f a = .ok b := by
  cases x <;> simp [bind, Except.bind]

/-- Where a loop of conversions succeeds, every item of the result comes from an item of the list
that was converted, by a conversion that succeeded. -/
theorem exists_of_mem_mapM {ε α β : Type} {f : α → Except ε β} {xs : List α} {ys : List β}
    (h : xs.mapM f = .ok ys) {y : β} (hy : y ∈ ys) : ∃ x ∈ xs, f x = .ok y := by
  induction xs generalizing ys with
  | nil =>
    injection h with h
    rw [← h] at hy
    cases hy
  | cons x xs ih =>
    rw [List.mapM_cons] at h
    obtain ⟨y₀, hfirst, hrest⟩ := bind_eq_ok.mp h
    obtain ⟨ys₀, htail, heq⟩ := bind_eq_ok.mp hrest
    injection heq with heq
    subst heq
    rcases List.mem_cons.mp hy with rfl | hy
    · exact ⟨x, by simp, hfirst⟩
    · obtain ⟨x', hx', hf⟩ := ih htail hy
      exact ⟨x', List.mem_cons_of_mem _ hx', hf⟩

/-- What a finished run leaves behind: how it ended, the state it ended in, and the entries that
were seen while it ran, in order. All three are there whether it returned or raised. -/
structure Run (σ ε τ α : Type) where
  result : Except ε α
  state : σ
  trace : List τ

/-- A computation over a state `σ` that may raise `ε` and is observed through entries `τ`. It is a
plain function of the state, so it can be evaluated on a concrete one. -/
def Act (σ ε τ α : Type) : Type := σ → Run σ ε τ α

namespace Act

variable {σ σ' ε τ τ' α β : Type}

instance : Monad (Act σ ε τ) where
  pure a := fun s => ⟨.ok a, s, []⟩
  bind m f := fun s =>
    match (m s).result with
    | .ok a =>
        let r := f a (m s).state
        ⟨r.result, r.state, (m s).trace ++ r.trace⟩
    | .error e => ⟨.error e, (m s).state, (m s).trace⟩

def throw (e : ε) : Act σ ε τ α := fun s => ⟨.error e, s, []⟩

/-- `try: m`, with what it raised, if anything, handed back as a value for the program to branch on.
What `m` wrote and emitted before it raised is kept. -/
def attempt (m : Act σ ε τ α) : Act σ ε τ (Except ε α) := fun s =>
  ⟨.ok (m s).result, (m s).state, (m s).trace⟩

def emit (x : τ) : Act σ ε τ Unit := fun s => ⟨.ok (), s, [x]⟩

def get : Act σ ε τ σ := fun s => ⟨.ok s, s, []⟩

def modify (f : σ → σ) : Act σ ε τ Unit := fun s => ⟨.ok (), f s, []⟩

def ofExcept (x : Except ε α) : Act σ ε τ α := fun s => ⟨x, s, []⟩

/-- Run an action of a component on the part of the state it lives in. Its own trace is not seen:
use `focus` where the entries of a component are entries of the whole. -/
def zoom (view : σ → σ') (put : σ' → σ → σ) (m : Act σ' ε τ' α) : Act σ ε τ α := fun s =>
  ⟨(m (view s)).result, put (m (view s)).state s, []⟩

/-- `zoom`, with the component's trace seen, each entry as what `tag` makes of it. -/
def focus (view : σ → σ') (put : σ' → σ → σ) (tag : τ' → τ) (m : Act σ' ε τ' α) :
    Act σ ε τ α := fun s =>
  ⟨(m (view s)).result, put (m (view s)).state s, (m (view s)).trace.map tag⟩

/-! ## Running the primitives -/

@[simp] theorem run_pure (a : α) (s : σ) : (pure a : Act σ ε τ α) s = ⟨.ok a, s, []⟩ := rfl

@[simp] theorem run_throw (e : ε) (s : σ) :
    (throw e : Act σ ε τ α) s = ⟨.error e, s, []⟩ := rfl

@[simp] theorem run_attempt (m : Act σ ε τ α) (s : σ) :
    attempt m s = ⟨.ok (m s).result, (m s).state, (m s).trace⟩ := rfl

theorem run_attempt_of {m : Act σ ε τ α} {s s' : σ} {x : Except ε α} {t : List τ}
    (h : m s = ⟨x, s', t⟩) : attempt m s = ⟨.ok x, s', t⟩ := by
  rw [run_attempt, h]

@[simp] theorem run_emit (x : τ) (s : σ) :
    (emit x : Act σ ε τ Unit) s = ⟨.ok (), s, [x]⟩ := rfl

@[simp] theorem run_get (s : σ) : (get : Act σ ε τ σ) s = ⟨.ok s, s, []⟩ := rfl

@[simp] theorem run_modify (f : σ → σ) (s : σ) :
    (modify f : Act σ ε τ Unit) s = ⟨.ok (), f s, []⟩ := rfl

@[simp] theorem run_ofExcept (x : Except ε α) (s : σ) :
    (ofExcept x : Act σ ε τ α) s = ⟨x, s, []⟩ := rfl

@[simp] theorem run_zoom (view : σ → σ') (put : σ' → σ → σ) (m : Act σ' ε τ' α) (s : σ) :
    (zoom view put m : Act σ ε τ α) s
      = ⟨(m (view s)).result, put (m (view s)).state s, []⟩ := rfl

@[simp] theorem run_focus (view : σ → σ') (put : σ' → σ → σ) (tag : τ' → τ)
    (m : Act σ' ε τ' α) (s : σ) : (focus view put tag m : Act σ ε τ α) s
      = ⟨(m (view s)).result, put (m (view s)).state s, (m (view s)).trace.map tag⟩ := rfl

theorem run_bind (m : Act σ ε τ α) (f : α → Act σ ε τ β) (s : σ) :
    (m >>= f) s = match (m s).result with
      | .ok a =>
          let r := f a (m s).state
          ⟨r.result, r.state, (m s).trace ++ r.trace⟩
      | .error e => ⟨.error e, (m s).state, (m s).trace⟩ := rfl

theorem run_bind_of_ok {m : Act σ ε τ α} {f : α → Act σ ε τ β} {s s' : σ} {a : α} {t : List τ}
    (h : m s = ⟨.ok a, s', t⟩) :
    (m >>= f) s = ⟨(f a s').result, (f a s').state, t ++ (f a s').trace⟩ := by
  rw [run_bind, h]

theorem run_bind_of_error {m : Act σ ε τ α} {f : α → Act σ ε τ β} {s s' : σ} {e : ε}
    {t : List τ} (h : m s = ⟨.error e, s', t⟩) : (m >>= f) s = ⟨.error e, s', t⟩ := by
  rw [run_bind, h]

theorem run_bind_pure (m : Act σ ε τ α) (f : α → β) (s : σ) :
    (m >>= fun a => pure (f a)) s = ⟨(m s).result.map f, (m s).state, (m s).trace⟩ := by
  rw [run_bind]
  cases (m s).result <;> simp [Except.map]

theorem bind_assoc {γ : Type} (m : Act σ ε τ α) (f : α → Act σ ε τ β) (g : β → Act σ ε τ γ) :
    m >>= f >>= g = m >>= fun a => f a >>= g := by
  funext s
  simp only [run_bind]
  cases (m s).result with
  | error e => rfl
  | ok a =>
    cases hf : (f a (m s).state).result with
    | error e => simp [hf]
    | ok b => simp [hf]

theorem pure_bind (a : α) (f : α → Act σ ε τ β) : (pure a >>= f : Act σ ε τ β) = f a := rfl

/-! ## Inversion -/

/-- **Inversion.** A run of a sequence raised in its first half, and then the second half was never
begun, or the first half returned and the run is the two halves' runs one after the other. -/
theorem bind_cases {m : Act σ ε τ α} {f : α → Act σ ε τ β} {s s' : σ} {r : Except ε β}
    {t : List τ} (h : (m >>= f) s = ⟨r, s', t⟩) :
    (∃ e, r = .error e ∧ m s = ⟨.error e, s', t⟩) ∨
      ∃ a s₁ t₁ t₂, m s = ⟨.ok a, s₁, t₁⟩ ∧ f a s₁ = ⟨r, s', t₂⟩ ∧ t = t₁ ++ t₂ := by
  rw [run_bind] at h
  generalize m s = run at h
  obtain ⟨result, s₁, t₁⟩ := run
  cases result with
  | error e =>
    cases h
    exact Or.inl ⟨e, rfl, rfl⟩
  | ok a =>
    cases h
    exact Or.inr ⟨a, s₁, t₁, _, rfl, rfl, rfl⟩

/-- The case of `bind_cases` that proofs use most: a sequence that returned did so in both halves,
and the trace is the one of the first followed by that of the second. -/
theorem bind_ok {m : Act σ ε τ α} {f : α → Act σ ε τ β} {s s' : σ} {b : β} {t : List τ}
    (h : (m >>= f) s = ⟨.ok b, s', t⟩) :
    ∃ a s₁ t₁ t₂, m s = ⟨.ok a, s₁, t₁⟩ ∧ f a s₁ = ⟨.ok b, s', t₂⟩ ∧ t = t₁ ++ t₂ := by
  rcases bind_cases h with ⟨e, he, _⟩ | h
  · exact absurd he (by simp)
  · exact h

theorem pure_ok {a b : α} {s s' : σ} {t : List τ}
    (h : (pure a : Act σ ε τ α) s = ⟨.ok b, s', t⟩) : a = b ∧ s = s' ∧ t = [] := by
  cases h; exact ⟨rfl, rfl, rfl⟩

theorem ofExcept_ok {x : Except ε α} {a : α} {s s' : σ} {t : List τ}
    (h : (ofExcept x : Act σ ε τ α) s = ⟨.ok a, s', t⟩) : x = .ok a ∧ s = s' ∧ t = [] := by
  cases h; exact ⟨rfl, rfl, rfl⟩

theorem trace_nil [IsEmpty τ] (t : List τ) : t = [] :=
  List.eq_nil_iff_forall_not_mem.mpr fun x => isEmptyElim x

theorem bind_ok_silent [IsEmpty τ] {m : Act σ ε τ α} {f : α → Act σ ε τ β} {s s' : σ} {b : β}
    {t : List τ} (h : (m >>= f) s = ⟨.ok b, s', t⟩) :
    ∃ a s₁, m s = ⟨.ok a, s₁, []⟩ ∧ f a s₁ = ⟨.ok b, s', []⟩ := by
  obtain ⟨a, s₁, t₁, t₂, hm, hf, _⟩ := bind_ok h
  obtain rfl := trace_nil t₁
  obtain rfl := trace_nil t₂
  exact ⟨a, s₁, hm, hf⟩

theorem bind_ofExcept_ok {x : Except ε α} {f : α → Act σ ε τ β} {s s' : σ} {b : β} {t : List τ}
    (h : (ofExcept x >>= f) s = ⟨.ok b, s', t⟩) : ∃ a, x = .ok a ∧ f a s = ⟨.ok b, s', t⟩ := by
  cases x with
  | error e => cases h
  | ok a => exact ⟨a, rfl, h⟩

theorem emit_ok {x : τ} {u : Unit} {s s' : σ} {t : List τ}
    (h : (emit x : Act σ ε τ Unit) s = ⟨.ok u, s', t⟩) : s = s' ∧ t = [x] := by
  cases h; exact ⟨rfl, rfl⟩

theorem get_ok {a s s' : σ} {t : List τ} (h : (get : Act σ ε τ σ) s = ⟨.ok a, s', t⟩) :
    a = s ∧ s' = s ∧ t = [] := by
  cases h; exact ⟨rfl, rfl, rfl⟩

theorem attempt_ok {m : Act σ ε τ α} {x : Except ε α} {s s' : σ} {t : List τ}
    (h : attempt m s = ⟨.ok x, s', t⟩) : m s = ⟨x, s', t⟩ := by
  cases h; rfl

theorem bind_get {f : σ → Act σ ε τ β} {s : σ} : (get >>= f) s = f s s := rfl

theorem bind_ofExcept {a : α} {f : α → Act σ ε τ β} {s : σ} :
    (ofExcept (.ok a) >>= f) s = f a s := rfl

theorem bind_modify {g : σ → σ} {f : Unit → Act σ ε τ β} {s : σ} :
    (modify g >>= f) s = f () (g s) := rfl

theorem bind_emit {x : τ} {f : Unit → Act σ ε τ β} {s : σ} :
    (emit x >>= f) s = ⟨(f () s).result, (f () s).state, x :: (f () s).trace⟩ := rfl

theorem bind_emit_cases {x : τ} {f : Unit → Act σ ε τ β} {s s' : σ} {r : Except ε β}
    {t : List τ} (h : (emit x >>= f) s = ⟨r, s', t⟩) :
    ∃ t', f () s = ⟨r, s', t'⟩ ∧ t = x :: t' := by
  rw [bind_emit] at h
  generalize f () s = run at h
  cases h
  exact ⟨_, rfl, rfl⟩

theorem bind_attempt {m : Act σ ε τ α} {f : Except ε α → Act σ ε τ β} {s s' : σ}
    {r : Except ε β} {t : List τ} (h : (attempt m >>= f) s = ⟨r, s', t⟩) :
    ∃ x s₁ t₁ t₂, m s = ⟨x, s₁, t₁⟩ ∧ f x s₁ = ⟨r, s', t₂⟩ ∧ t = t₁ ++ t₂ := by
  rcases bind_cases h with ⟨e, _, he⟩ | ⟨x, s₁, t₁, t₂, hm, hf, ht⟩
  · exact absurd he (by simp)
  · exact ⟨x, s₁, t₁, t₂, attempt_ok hm, hf, ht⟩

/-- Where the second half leaves the state alone, the state a sequence ends in is the one its first
half ends in, whether that returned or raised. -/
theorem state_bind_of_still {m : Act σ ε τ α} {f : α → Act σ ε τ β}
    (hf : ∀ a s, (f a s).state = s) (s : σ) : ((m >>= f) s).state = (m s).state := by
  rw [run_bind]
  cases (m s).result with
  | error e => rfl
  | ok a => exact hf a (m s).state

/-! ## How a sequence ends -/

theorem result_bind_error {m : Act σ ε τ α} {f : α → Act σ ε τ β} {s : σ} {e : ε} :
    ((m >>= f) s).result = .error e ↔ (m s).result = .error e ∨
      ∃ a, (m s).result = .ok a ∧ (f a (m s).state).result = .error e := by
  rw [run_bind]
  cases (m s).result <;> simp

theorem result_bind_ok {m : Act σ ε τ α} {f : α → Act σ ε τ β} {s : σ} {b : β} :
    ((m >>= f) s).result = .ok b ↔
      ∃ a, (m s).result = .ok a ∧ (f a (m s).state).result = .ok b := by
  rw [run_bind]
  cases (m s).result <;> simp

/-! ## What a program can emit -/

/-- Every entry `m` emits, from whatever state it is started in and however it ends, satisfies
`p`. -/
structure EmitsOnly (p : τ → Prop) (m : Act σ ε τ α) : Prop where
  mem : ∀ s, ∀ x ∈ (m s).trace, p x

namespace EmitsOnly

variable {p : τ → Prop}

theorem of_run {m : Act σ ε τ α} (h : EmitsOnly p m) {s s' : σ} {r : Except ε α} {t : List τ}
    (hr : m s = ⟨r, s', t⟩) : ∀ x ∈ t, p x := by
  have := h.mem s
  rwa [hr] at this

theorem nothing {m : Act σ ε τ α} (h : ∀ s, (m s).trace = []) : EmitsOnly p m where
  mem s _ hx := absurd (h s ▸ hx) List.not_mem_nil

theorem pure (a : α) : EmitsOnly p (pure a : Act σ ε τ α) := nothing fun _ => rfl

theorem throw (e : ε) : EmitsOnly p (throw e : Act σ ε τ α) := nothing fun _ => rfl

theorem modify (f : σ → σ) : EmitsOnly p (modify f : Act σ ε τ Unit) := nothing fun _ => rfl

theorem ofExcept (x : Except ε α) : EmitsOnly p (ofExcept x : Act σ ε τ α) := nothing fun _ => rfl

theorem zoom (view : σ → σ') (put : σ' → σ → σ) (m : Act σ' ε τ' α) :
    EmitsOnly p (zoom view put m : Act σ ε τ α) := nothing fun _ => rfl

theorem emit {x : τ} (hx : p x) : EmitsOnly p (emit x : Act σ ε τ Unit) where
  mem s y hy := by
    rw [run_emit, List.mem_singleton] at hy
    exact hy ▸ hx

theorem attempt {m : Act σ ε τ α} (h : EmitsOnly p m) : EmitsOnly p (attempt m) where
  mem s x hx := h.mem s x hx

theorem bind {m : Act σ ε τ α} {f : α → Act σ ε τ β} (hm : EmitsOnly p m)
    (hf : ∀ a, EmitsOnly p (f a)) : EmitsOnly p (m >>= f) where
  mem s x hx := by
    rw [run_bind] at hx
    cases hres : (m s).result with
    | error e => rw [hres] at hx; exact hm.mem s x hx
    | ok a =>
      rw [hres] at hx
      rcases List.mem_append.mp hx with hx | hx
      · exact hm.mem s x hx
      · exact (hf a).mem _ x hx

theorem ite {c : Prop} [Decidable c] {m n : Act σ ε τ α} (hm : EmitsOnly p m)
    (hn : EmitsOnly p n) : EmitsOnly p (if c then m else n) := by
  split
  · exact hm
  · exact hn

theorem mono {q : τ → Prop} {m : Act σ ε τ α} (h : EmitsOnly p m) (hpq : ∀ x, p x → q x) :
    EmitsOnly q m where
  mem s x hx := hpq x (h.mem s x hx)

end EmitsOnly

/-! ## Where a program can take its state -/

/-- Every run of `m` takes its state along `R`, however it ends. `R` is any relation between the
state before and the state after: an order, an equality of some field, or "nothing has changed". -/
structure Moves (R : σ → σ → Prop) (m : Act σ ε τ α) : Prop where
  state : ∀ s, R s (m s).state

namespace Moves

variable {R : σ → σ → Prop}

theorem of_run {m : Act σ ε τ α} (h : Moves R m) {s s' : σ} {r : Except ε α} {t : List τ}
    (hr : m s = ⟨r, s', t⟩) : R s s' := by
  have := h.state s
  rwa [hr] at this

theorem attempt {m : Act σ ε τ α} (h : Moves R m) : Moves R (attempt m) := ⟨h.state⟩

theorem bind (ht : ∀ a b c, R a b → R b c → R a c) {m : Act σ ε τ α}
    {f : α → Act σ ε τ β} (hm : Moves R m) (hf : ∀ a, Moves R (f a)) :
    Moves R (m >>= f) where
  state s := by
    rw [run_bind]
    cases hres : (m s).result with
    | error e => exact hm.state s
    | ok a => exact ht _ _ _ (hm.state s) ((hf a).state _)

theorem ite {c : Prop} [Decidable c] {m n : Act σ ε τ α} (hm : Moves R m) (hn : Moves R n) :
    Moves R (if c then m else n) := by
  split
  · exact hm
  · exact hn

theorem bind_still {m : Act σ ε τ α} {f : α → Act σ ε τ β} (hm : Moves (fun s s' => s' = s) m)
    (hf : ∀ a, Moves (fun s s' => s' = s) (f a)) : Moves (fun s s' => s' = s) (m >>= f) :=
  hm.bind (fun _ _ _ h h' => h'.trans h) hf

end Moves

/-- `m` only reads: no run of it changes the state, however it ends. An abbreviation, so every rule
about `Moves` is a rule about it. -/
abbrev Still (m : Act σ ε τ α) : Prop := Moves (fun s s' => s' = s) m

namespace Still

theorem pure (a : α) : Still (pure a : Act σ ε τ α) := ⟨fun _ => rfl⟩

theorem throw (e : ε) : Still (throw e : Act σ ε τ α) := ⟨fun _ => rfl⟩

theorem get : Still (get : Act σ ε τ σ) := ⟨fun _ => rfl⟩

theorem ofExcept (x : Except ε α) : Still (ofExcept x : Act σ ε τ α) := ⟨fun _ => rfl⟩

theorem bind {m : Act σ ε τ α} {f : α → Act σ ε τ β} (hm : Still m) (hf : ∀ a, Still (f a)) :
    Still (m >>= f) := Moves.bind_still hm hf

theorem ite {c : Prop} [Decidable c] {m n : Act σ ε τ α} (hm : Still m) (hn : Still n) :
    Still (if c then m else n) := Moves.ite hm hn

end Still

/-- A program that raises leaves the state as it was. This is what an operation with all of its
checks before its first write has, and it is proved by the order of the two (`Atomic.bind`). -/
structure Atomic (m : Act σ ε τ α) : Prop where
  state : ∀ {s s' : σ} {e : ε} {t : List τ}, m s = ⟨.error e, s', t⟩ → s' = s

namespace Atomic

theorem of_still {m : Act σ ε τ α} (h : Moves (fun s s' => s' = s) m) : Atomic m :=
  ⟨fun hr => h.of_run hr⟩

theorem of_returns {m : Act σ ε τ α} (h : ∀ s, ∃ a, (m s).result = .ok a) : Atomic m where
  state := by
    intro s s' e t hr
    obtain ⟨a, ha⟩ := h s
    rw [hr] at ha
    cases ha

/-- Checks that only read, and then what they were for: atomic if the second half is. -/
theorem bind {m : Act σ ε τ α} {f : α → Act σ ε τ β} (hm : Moves (fun s s' => s' = s) m)
    (hf : ∀ a, Atomic (f a)) : Atomic (m >>= f) where
  state := by
    intro s s' e t hr
    rcases bind_cases hr with ⟨_, _, hraise⟩ | ⟨a, s₁, t₁, t₂, hret, hrest, _⟩
    · exact hm.of_run hraise
    · exact ((hf a).state hrest).trans (hm.of_run hret)

theorem ite {c : Prop} [Decidable c] {m n : Act σ ε τ α} (hm : Atomic m) (hn : Atomic n) :
    Atomic (if c then m else n) := by
  split
  · exact hm
  · exact hn

end Atomic

end Act

end Lib
