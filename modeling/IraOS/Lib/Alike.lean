import IraOS.Lib.Leaves

/-!
# Tables that differ in their leaves

Two tables with the same keys in the same order on every level, whose leaves are related path by
path. Whatever is done to both of them without looking at a leaf leaves them so: reading a key,
writing related values, writing a leaf along a path.

This is the relation of a noninterference proof: the leaves under some paths may differ, the others
are the same, and the shape, which decides what a program goes through, is the same throughout. The
relation between leaves takes the path as an argument, because which leaves may differ is said by
where they are and not by what they are.

A leaf on the one side is a leaf on the other. A table against a leaf would not do: whether a path
is cut off by a leaf shows, whatever the leaf is.
-/

set_option autoImplicit false

namespace Lib

namespace Nested

variable {κ α : Type}

mutual

/-- The two have the same keys in the same order on every level, and `R p` relates their leaves at
each path `p`. -/
inductive Alike : (List κ → α → α → Prop) → Nested κ α → Nested κ α → Prop
  | leaf {R : List κ → α → α → Prop} {a a' : α} (h : R [] a a') : Alike R (.leaf a) (.leaf a')
  | table {R : List κ → α → α → Prop} {es es' : List (κ × Nested κ α)}
      (h : AlikeEntries R es es') : Alike R (.table es) (.table es')

inductive AlikeEntries : (List κ → α → α → Prop) → List (κ × Nested κ α) →
    List (κ × Nested κ α) → Prop
  | nil {R : List κ → α → α → Prop} : AlikeEntries R [] []
  | cons {R : List κ → α → α → Prop} {k : κ} {v v' : Nested κ α} {es es' : List (κ × Nested κ α)}
      (hv : Alike (fun p => R (k :: p)) v v') (h : AlikeEntries R es es') :
      AlikeEntries R ((k, v) :: es) ((k, v') :: es')

end

mutual

theorem Alike.refl {R : List κ → α → α → Prop} (hR : ∀ p a, R p a a) : ∀ v, Alike R v v
  | .leaf a => .leaf (hR [] a)
  | .table es => .table (AlikeEntries.refl hR es)

theorem AlikeEntries.refl {R : List κ → α → α → Prop} (hR : ∀ p a, R p a a) :
    ∀ es, AlikeEntries R es es
  | [] => .nil
  | (k, v) :: es => .cons (Alike.refl (fun p a => hR (k :: p) a) v) (AlikeEntries.refl hR es)

end

inductive AlikeOption (R : List κ → α → α → Prop) :
    Option (Nested κ α) → Option (Nested κ α) → Prop
  | none : AlikeOption R none none
  | some {v v' : Nested κ α} (h : Alike R v v') : AlikeOption R (some v) (some v')

mutual

theorem Alike.mono {R R' : List κ → α → α → Prop} (hR : ∀ p a a', R p a a' → R' p a a')
    {v v' : Nested κ α} : Alike R v v' → Alike R' v v'
  | .leaf h => .leaf (hR [] _ _ h)
  | .table h => .table (h.mono hR)

theorem AlikeEntries.mono {R R' : List κ → α → α → Prop} (hR : ∀ p a a', R p a a' → R' p a a')
    {es es' : List (κ × Nested κ α)} : AlikeEntries R es es' → AlikeEntries R' es es'
  | .nil => .nil
  | .cons hv h => .cons (hv.mono fun p => hR (_ :: p)) (h.mono hR)

end

mutual

theorem Alike.eq {R : List κ → α → α → Prop} (hR : ∀ p a a', R p a a' → a = a')
    {v v' : Nested κ α} : Alike R v v' → v = v'
  | .leaf h => congrArg leaf (hR [] _ _ h)
  | .table h => congrArg table (h.eq fun k p => hR (k :: p))

theorem AlikeEntries.eq {R : List κ → α → α → Prop} (hR : ∀ k p a a', R (k :: p) a a' → a = a')
    {es es' : List (κ × Nested κ α)} : AlikeEntries R es es' → es = es'
  | .nil => rfl
  | .cons hv h => by rw [hv.eq fun p => hR _ p, h.eq hR]

end

variable {R : List κ → α → α → Prop} {es es' : List (κ × Nested κ α)} {v v' : Nested κ α} {k : κ}

theorem AlikeOption.cases {o o' : Option (Nested κ α)} (h : AlikeOption R o o') :
    (o = Option.none ∧ o' = Option.none) ∨
      ∃ v v', o = Option.some v ∧ o' = Option.some v' ∧ Alike R v v' := by
  cases h with
  | none => exact Or.inl ⟨rfl, rfl⟩
  | some h => exact Or.inr ⟨_, _, rfl, rfl, h⟩

variable [DecidableEq κ]

theorem AlikeEntries.lookup (h : AlikeEntries R es es') (k : κ) :
    AlikeOption (fun p => R (k :: p)) (es.lookup k) (es'.lookup k) := by
  induction es generalizing es' with
  | nil =>
    cases h
    exact .none
  | cons e es ih =>
    cases h with
    | @cons _ j _ _ _ _ hv h =>
      rw [Dict.lookup_cons_ite, Dict.lookup_cons_ite]
      by_cases hk : k = j
      · subst hk
        simpa using .some hv
      · simpa [hk] using ih h

theorem AlikeEntries.put (h : AlikeEntries R es es') (hv : Alike (fun p => R (k :: p)) v v') :
    AlikeEntries R (Dict.put k v es) (Dict.put k v' es') := by
  induction es generalizing es' with
  | nil =>
    cases h
    exact .cons hv .nil
  | cons e es ih =>
    cases h with
    | @cons _ j _ _ _ _ hw h =>
      unfold Dict.put
      by_cases hk : j = k
      · subst hk
        simpa using .cons hv h
      · simpa [hk] using .cons hw (ih h)

/-- Related leaves, written at one path. -/
theorem AlikeEntries.assign {a a' : α} {p : List κ} (h : AlikeEntries R es es')
    (ha : R p a a') : AlikeEntries R (Nested.assign a p es) (Nested.assign a' p es') := by
  induction p generalizing R es es' with
  | nil => exact h
  | cons k rest ih =>
    cases rest with
    | nil => exact h.put (.leaf ha)
    | cons j rest =>
      rcases (h.lookup k).cases with ⟨hes, hes'⟩ | ⟨v, v', hes, hes', hv⟩
      · rw [assign_cons_none hes, assign_cons_none hes']
        exact h.put (.table (ih .nil ha))
      · cases hv with
        | leaf _ =>
          rw [assign_cons_leaf hes, assign_cons_leaf hes']
          exact h
        | table hbelow =>
          rw [assign_cons_table hes, assign_cons_table hes']
          exact h.put (.table (ih hbelow ha))

end Nested

end Lib
