import IraOS.Lib.System

/-!
# What is seen of a run

An observer collects something at each step of a run, from the state the step is taken in and its
label. **What holds of the collection and of the state reached is shown one step at a time**
(`exec_seen`). The case that matters most is that of a trail: what has been seen are the steps of an
abstract relation, from where the run began to a view of the state it has reached.

This is a simulation, with the abstract side left to be a relation and what is seen for its labels.
One step of the run may be seen as no step of the relation, as one, or as several; `Trail` is a list
of them that fits together. To show that a program refines an abstract one it is enough to say what
is seen of each of its steps, and that the relation takes it from the view before to the view after.
-/

set_option autoImplicit false

namespace Lib

/-! ## Trails -/

inductive Trail {A V : Type} (R : A → V → A → Prop) : A → List V → A → Prop
  | nil (a : A) : Trail R a [] a
  | cons {a b c : A} {v : V} {vs : List V} (hv : R a v b) (h : Trail R b vs c) :
      Trail R a (v :: vs) c

namespace Trail

variable {A V : Type} {R : A → V → A → Prop} {a b c : A} {v : V} {vs us : List V}

theorem append (h : Trail R a vs b) (h' : Trail R b us c) : Trail R a (vs ++ us) c := by
  induction h with
  | nil => exact h'
  | cons hv _ ih => exact .cons hv (ih h')

theorem single (hv : R a v b) : Trail R a [v] b := .cons hv (.nil b)

theorem snoc (h : Trail R a vs b) (hv : R b v c) : Trail R a (vs ++ [v]) c := h.append (single hv)

end Trail

/-! ## Observers -/

namespace System

variable {S L β : Type} (T : System S L)

/-- What `look` sees of a run: what it sees of each step, one after another, up to a step that is
not enabled. -/
def seen (look : S → L → List β) : S → List L → List β
  | _, [] => []
  | s, l :: ls => look s l ++ (T.step s l).elim [] fun s' => seen look s' ls

variable {T} {look : S → L → List β}

theorem seen_cons {s s' : S} {l : L} (h : T.step s l = some s') (ls : List L) :
    T.seen look s (l :: ls) = look s l ++ T.seen look s' ls := by
  rw [seen, h]
  rfl

/-- **The run rule for an observer**: what every step keeps of what has been seen and the state,
every run keeps. -/
theorem exec_seen {P : List β → S → Prop}
    (hstep : ∀ seen s l s', P seen s → T.step s l = some s' → P (seen ++ look s l) s')
    {past : List β} {ls : List L} {s t : S} (hs : P past s) (he : T.exec s ls = some t) :
    P (past ++ T.seen look s ls) t := by
  induction ls generalizing past s with
  | nil =>
    rw [exec_nil, Option.some.injEq] at he
    simpa [seen, he] using hs
  | cons l ls ih =>
    obtain ⟨s', h1, h2⟩ := exec_cons_some he
    rw [seen_cons h1, ← List.append_assoc]
    exact ih (hstep past s l s' hs h1) h2

end System

end Lib
