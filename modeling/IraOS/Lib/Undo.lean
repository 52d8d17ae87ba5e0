import IraOS.Lib.System

/-!
# Actions that can be taken back

An `Undoable` acts on a state and records what it needs to undo what it did; undoing takes a state,
which need not be the one the action left, and the record. Undone last first, a list of actions is
taken back where each one is, and the relation for that is not equality: an undone state may differ
from the one before in what nobody looks at. `Reverses` is the law of one action, up to a relation
and from states with an invariant, and `Reverses.unwind` is what it comes to for a list of them.

## Why a relation

Undoing the creation of a record removes it, and a counter that names records has moved on; undoing
a deletion writes the record back, and it is last in the dictionary where it was first. Equality is
too much to ask of either. The relation says which differences are not looked at, and it has to be
such that undoing the action before works from any related state too: that is why `undo` in
`Reverses` starts from whatever is related to the state the action left.

## Why a guard

Actions with nothing to undo them by (no record, or one that does not say what it ought to) are
ruled out by the guard `G`. An exact condition on single actions becomes one on runs by the rules of
`Lib.System`, as acting one after the other is a system too (`Undoable.system`).

The product of two (`Undoable.prod`) is for programs whose stores have nothing to do with each
other: each half is reversed by itself, however the actions alternate.
-/

set_option autoImplicit false

namespace Lib

/-- Actions `A` on states `S` that leave a record `R` to undo them by; `none` where an action, or
the undoing of it, does not succeed. -/
structure Undoable (S A R : Type) where
  exec : S → A → Option (R × S)
  undo : S → A → R → Option S

namespace Undoable

variable {S S' A A' R R' : Type} (u : Undoable S A R) (v : Undoable S' A' R')

/-- Act one after the other, and keep a log of the actions with what they recorded, the last
first. -/
def run : S → List A → Option (List (A × R) × S)
  | s, [] => some ([], s)
  | s, a :: as =>
    (u.exec s a).bind fun (r, s₁) => (run s₁ as).map fun (log, s₂) => (log ++ [(a, r)], s₂)

def unwind : S → List (A × R) → Option S
  | s, [] => some s
  | s, (a, r) :: log => (u.undo s a r).bind fun s' => unwind s' log

def system : System S A := ⟨fun s a => (u.exec s a).map Prod.snd⟩

variable {u v}

theorem unwind_append (s : S) (log log' : List (A × R)) :
    u.unwind s (log ++ log') = (u.unwind s log).bind fun s' => u.unwind s' log' := by
  induction log generalizing s with
  | nil => rfl
  | cons entry log ih =>
    obtain ⟨a, r⟩ := entry
    rw [List.cons_append, unwind, unwind, Option.bind_assoc]
    exact congrArg _ (funext fun s' => ih s')

theorem run_cons {s s₂ : S} {a : A} {as : List A} {log : List (A × R)}
    (h : u.run s (a :: as) = some (log, s₂)) :
    ∃ r s₁ log', u.exec s a = some (r, s₁) ∧ u.run s₁ as = some (log', s₂) ∧
      log = log' ++ [(a, r)] := by
  unfold run at h
  obtain ⟨⟨r, s₁⟩, hexec, h⟩ := Option.bind_eq_some_iff.mp h
  obtain ⟨⟨log', s₂'⟩, hrun, h⟩ := Option.map_eq_some_iff.mp h
  cases h
  exact ⟨r, s₁, log', hexec, hrun, rfl⟩

/-- From a state with `I`, an action that meets `G` keeps `I` and is undone: taken back from
whatever is `Rel` to the state it left, it leads to what is `Rel` to the state before. -/
structure Reverses (u : Undoable S A R) (G : S → A → Prop) (I : S → Prop) (Rel : S → S → Prop) :
    Prop where
  keeps : ∀ {s s₁ a r}, I s → G s a → u.exec s a = some (r, s₁) → I s₁
  refl : ∀ {s}, I s → Rel s s
  inverse : ∀ {s s₁ s₂ a r}, I s → G s a → u.exec s a = some (r, s₁) → Rel s₁ s₂ →
    ∃ s₃, u.undo s₂ a r = some s₃ ∧ Rel s s₃

/-- **Last in, first out**: a run is taken back by unwinding its log, of any length. -/
theorem Reverses.unwind {G : S → A → Prop} {I : S → Prop} {Rel : S → S → Prop}
    (h : u.Reverses G I Rel) {s s₁ : S} {as : List A} {log : List (A × R)} (hs : I s)
    (hmeets : u.system.Meets G s as) (hrun : u.run s as = some (log, s₁)) :
    ∃ s₂, u.unwind s₁ log = some s₂ ∧ Rel s s₂ := by
  induction as generalizing s log with
  | nil =>
    cases hrun
    exact ⟨_, rfl, h.refl hs⟩
  | cons a as ih =>
    obtain ⟨r, s', log', hexec, hrest, rfl⟩ := run_cons hrun
    have hstep : u.system.step s a = some s' := by
      simp [system, hexec]
    obtain ⟨s₂, hunwind, hrel⟩ := ih (h.keeps hs hmeets.1 hexec) (hmeets.2 s' hstep) hrest
    obtain ⟨s₃, hundo, hrel'⟩ := h.inverse hs hmeets.1 hexec hrel
    refine ⟨s₃, ?_, hrel'⟩
    rw [unwind_append, hunwind, Option.bind_some, Undoable.unwind, hundo]
    rfl

/-! ## Two side by side -/

variable (u v)

/-- An action of the one or of the other, each on its own half of the state. A record of the other
one's action undoes nothing. -/
def prod : Undoable (S × S') (A ⊕ A') (R ⊕ R') where
  exec s
    | .inl a => (u.exec s.1 a).map fun (r, s₁) => (.inl r, (s₁, s.2))
    | .inr a => (v.exec s.2 a).map fun (r, s₁) => (.inr r, (s.1, s₁))
  undo s
    | .inl a, .inl r => (u.undo s.1 a r).map fun s₁ => (s₁, s.2)
    | .inr a, .inr r => (v.undo s.2 a r).map fun s₁ => (s.1, s₁)
    | _, _ => none

def Either (G : S → A → Prop) (G' : S' → A' → Prop) (s : S × S') : A ⊕ A' → Prop
  | .inl a => G s.1 a
  | .inr a => G' s.2 a

variable {u v}

theorem Reverses.prod {G : S → A → Prop} {I : S → Prop} {Rel : S → S → Prop}
    {G' : S' → A' → Prop} {I' : S' → Prop} {Rel' : S' → S' → Prop}
    (h : u.Reverses G I Rel) (h' : v.Reverses G' I' Rel') :
    (u.prod v).Reverses (Either G G') (fun s => I s.1 ∧ I' s.2)
      (fun s s' => Rel s.1 s'.1 ∧ Rel' s.2 s'.2) where
  keeps := by
    rintro s s₁ a r hs hG hexec
    cases a with
    | inl a =>
      obtain ⟨_, hown, hq⟩ := Option.map_eq_some_iff.mp hexec
      cases hq
      exact ⟨h.keeps hs.1 hG hown, hs.2⟩
    | inr a =>
      obtain ⟨_, hown, hq⟩ := Option.map_eq_some_iff.mp hexec
      cases hq
      exact ⟨hs.1, h'.keeps hs.2 hG hown⟩
  refl hs := ⟨h.refl hs.1, h'.refl hs.2⟩
  inverse := by
    rintro s s₁ s₂ a r hs hG hexec hrel
    cases a with
    | inl a =>
      obtain ⟨_, hown, hq⟩ := Option.map_eq_some_iff.mp hexec
      cases hq
      obtain ⟨s₃, hundo, hrel₃⟩ := h.inverse hs.1 hG hown hrel.1
      refine ⟨(s₃, s₂.2), ?_, hrel₃, hrel.2⟩
      simp [Undoable.prod, hundo]
    | inr a =>
      obtain ⟨_, hown, hq⟩ := Option.map_eq_some_iff.mp hexec
      cases hq
      obtain ⟨s₃, hundo, hrel₃⟩ := h'.inverse hs.2 hG hown hrel.2
      refine ⟨(s₂.1, s₃), ?_, hrel.1, hrel₃⟩
      simp [Undoable.prod, hundo]

end Undoable

end Lib
