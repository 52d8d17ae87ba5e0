import IraOS.Lib.System

/-!
# Machines that answer, and a queue with keys

A `Machine` answers every operation and moves on. Two of them side by side, given the same
operations, are a `System`, and that one does what the other does is a guard of its steps: they
answer alike (`SameReply`).

This is refinement for things that are used by calling them: nobody sees the state of either, and
the implementation refines the specification for a list of operations if all the answers agree. The
usual proof relates the two states and shows that related states answer alike and stay related.
Where an operation can break the relation, `throughout_iff` gives the exact lists for which it holds
on: those in which no operation does so in the state in which it is called.

`fifo` is what a queue of keyed items should do. The items are a list, the first to come in front,
and several of them may have one key; taking one out by its key takes out all of them, as somebody
who removes an item under a key does not expect to meet the key again.
-/

set_option autoImplicit false

namespace Lib

structure Machine (S O R : Type) where
  apply : S → O → R × S

namespace Machine

variable {S S' O R : Type}

def beside (M : Machine S O R) (N : Machine S' O R) : System (S × S') O where
  step s op := some ((M.apply s.1 op).2, (N.apply s.2 op).2)

def SameReply (M : Machine S O R) (N : Machine S' O R) (s : S × S') (op : O) : Prop :=
  (M.apply s.1 op).1 = (N.apply s.2 op).1

variable {M : Machine S O R} {N : Machine S' O R} {P : S × S' → Prop} {C : S × S' → O → Prop}
  {s : S × S'}

theorem meets_sameReply (hreply : ∀ s op, P s → M.SameReply N s op) {ops : List O}
    (h : ∀ past t, past <+: ops → (M.beside N).exec s past = some t → P t) :
    (M.beside N).Meets (M.SameReply N) s ops :=
  System.meets_of_throughout hreply h

/-- **How long they fit.** Where an operation leads from states that fit to states that fit just if
it meets the guard, the states fit all along just if all operations do. -/
theorem throughout_iff
    (hstep : ∀ s op, P s → (P ((M.apply s.1 op).2, (N.apply s.2 op).2) ↔ C s op)) (hs : P s)
    {ops : List O} :
    (∀ past t, past <+: ops → (M.beside N).exec s past = some t → P t) ↔
      (M.beside N).Meets C s ops := by
  refine (System.meets_iff_throughout (R := fun _ => True) ?_ ?_ ?_ hs trivial).symm
  · intro s op hstuck
    cases hstuck
  · intro _ _ _ _ _ _
    trivial
  · intro s op s' hs _ hnext
    obtain rfl := Option.some.inj hnext
    exact hstep s op hs

end Machine

namespace Fifo

variable {α κ : Type}

inductive Op (α κ : Type) where
  | enqueue (item : α)
  | dequeue
  | remove (key : κ)

inductive Reply (α : Type) where
  | done
  | taken (item : Option α)
  | removed (any : Bool)

variable [DecidableEq κ] (key : α → κ)

def apply (items : List α) : Op α κ → Reply α × List α
  | .enqueue item => (.done, items ++ [item])
  | .dequeue => (.taken items.head?, items.tail)
  | .remove k =>
    (.removed (decide (∃ item ∈ items, key item = k)), items.filter fun item => key item ≠ k)

end Fifo

/-- First in, first out, where `remove` takes out every item of a key. -/
def fifo {α κ : Type} [DecidableEq κ] (key : α → κ) :
    Machine (List α) (Fifo.Op α κ) (Fifo.Reply α) where
  apply := Fifo.apply key

end Lib
