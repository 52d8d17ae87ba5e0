import Mathlib.Data.List.Infix
import IraOS.Container.Models
import IraOS.Lib.Separator

/-!
# Validation

`core/container/validation.py`. The walk recurses along the registry, which may be cyclic, so it is
cut off at a number of levels, and `none` is a walk that is still under way there.

The walk tells a circular dependency from every other failure by looking for a phrase in the text of
what it caught, a text with names in it and with the texts of other failures. Two facts say how far
that goes:

* a text with no cycle behind it has the phrase just where one of the names it is made of has it
  (`saysCircular_missingMessage` and the two after it), as the fixed words between them keep the
  pieces apart;
* so the walk finds out what there is to find out (`Shows`), unless some interface is reported by
  a name with the phrase in it (`Misnamed`), and then it may take the failure for a cycle
  (`validateNode_finds`).

## Misnamed interfaces

`Misnamed` speaks of the registry alone. An interface is misnamed if it cannot be built, for want of
something and not because of a cycle, and the message that says so has the phrase in one of the
names in it. Which parameter the message is about is a matter of order: the loop stops at the first
one that it cannot get past, so the parameters before it are part of the condition (`Reaches`).

A failure's message contains the message of the failure below it, so a name far down in the graph
can be the one that misleads. It can mislead only about an interface that fails, however: where
there is a default, what was caught is dropped — unless it reads like a cycle, and then it is raised
again.

## The walk and the graph

The walk has no cache, and goes through the same interface as often as it is needed. Both it and the
resolver are compared with the verdict of the graph; the induction here is on the levels left, which
are enough as long as there are as many as registered interfaces not in the chain.
-/

set_option autoImplicit false

namespace IraOS

open Lib

namespace Validator

/-- `"Circular dependency detected" in str(e)`. -/
def saysCircular (e : String) : Bool := decide (circularPhrase.toList <:+: e.toList)

def missingMessage (interface : PyType) : String :=
  "Missing dependency: No registration found for " ++ interface.name

def unannotatedMessage (p : Parameter) (target : Target) : String :=
  "Parameter '" ++ p.name ++ "' in " ++ target.name ++ " lacks type annotation."

def unresolvedMessage (p : Parameter) (t : PyType) (target : Target) (cause : String) : String :=
  "Cannot resolve parameter '" ++ p.name ++ "' of type " ++ t.str ++ " for " ++
    target.name ++ ". Cause: " ++ cause

variable (registry : ServiceRegistry)

def validateParameters (walk : PyType → Option (Except String Unit)) (target : Target) :
    List Parameter → Option (Except String Unit)
  | [] => some (.ok ())
  | p :: rest =>
    match p.annotation with
    | none => some (.error (unannotatedMessage p target))
    | some t =>
      if registry.contains t = false ∧ p.hasDefault = true then
        validateParameters walk target rest
      else
        match walk t with
        | none => none
        | some (.ok ()) => validateParameters walk target rest
        | some (.error e) =>
          if saysCircular e = true then some (.error e)
          else if p.hasDefault = true then validateParameters walk target rest
          else some (.error (unresolvedMessage p t target e))

def validateNode : Nat → PyType → ResolutionChain → Option (Except String Unit)
  | 0, _, _ => none
  | fuel + 1, interface, chain =>
    if interface ∈ chain then some (.error (chain.circularMessage interface))
    else
      match registry.get? interface with
      | none => some (.error (missingMessage interface))
      | some descriptor =>
        match descriptor.target? with
        | none => some (.ok ())
        | some target =>
          validateParameters registry (fun t => validateNode fuel t (interface :: chain)) target
            target.parameters

def errorOf : Except String Unit → List String
  | .ok () => []
  | .error e => [e]

def validate (fuel : Nat) : Option (List String) :=
  (registry.keys.mapM fun interface => validateNode registry fuel interface []).map
    (List.flatMap errorOf)

/-! ## Telling a circular dependency by its text -/

section Phrase

theorem saysCircular_circularMessage (chain : ResolutionChain) (interface : PyType) :
    saysCircular (chain.circularMessage interface) = true := by
  rw [saysCircular, decide_eq_true_iff]
  refine ⟨[], (": " ++ chain.str interface).toList, ?_⟩
  simp [ResolutionChain.circularMessage]

theorem circularPhrase_ne_nil : circularPhrase.toList ≠ [] := by decide +kernel

variable (p : Parameter) (t : PyType) (target : Target)

theorem saysCircular_eq_true {e : String} :
    saysCircular e = true ↔ circularPhrase.toList <:+: e.toList := by
  rw [saysCircular, decide_eq_true_iff]

theorem saysCircular_missingMessage (interface : PyType) :
    saysCircular (missingMessage interface) = true ↔ saysCircular interface.name = true := by
  have hfound : Separates circularPhrase.toList
      "Missing dependency: No registration found for ".toList := by decide +kernel
  rw [saysCircular_eq_true, saysCircular_eq_true]
  unfold missingMessage
  rw [String.toList_append]
  exact hfound.infix_right_iff circularPhrase_ne_nil

theorem saysCircular_unannotatedMessage :
    saysCircular (unannotatedMessage p target) = true ↔
      saysCircular p.name = true ∨ saysCircular target.name = true := by
  have hparameter : Separates circularPhrase.toList "Parameter '".toList := by decide +kernel
  have hin : Separates circularPhrase.toList "' in ".toList := by decide +kernel
  have hlacks : Separates circularPhrase.toList " lacks type annotation.".toList := by
    decide +kernel
  rw [saysCircular_eq_true, saysCircular_eq_true, saysCircular_eq_true]
  unfold unannotatedMessage
  rw [String.toList_append, String.toList_append, String.toList_append, String.toList_append,
    hlacks.infix_left_iff circularPhrase_ne_nil, hin.infix_sides_iff,
    hparameter.infix_right_iff circularPhrase_ne_nil]

theorem saysCircular_unresolvedMessage (cause : String) :
    saysCircular (unresolvedMessage p t target cause) = true ↔
      (saysCircular p.name = true ∨ saysCircular t.str = true ∨ saysCircular target.name = true) ∨
        saysCircular cause = true := by
  have hcannot : Separates circularPhrase.toList "Cannot resolve parameter '".toList := by
    decide +kernel
  have hof : Separates circularPhrase.toList "' of type ".toList := by decide +kernel
  have hfor : Separates circularPhrase.toList " for ".toList := by decide +kernel
  have hdot : Separates circularPhrase.toList ". Cause: ".toList := by decide +kernel
  simp only [saysCircular_eq_true]
  unfold unresolvedMessage
  simp only [String.toList_append]
  rw [hdot.infix_sides_iff, hfor.infix_sides_iff, hof.infix_sides_iff,
    hcannot.infix_right_iff circularPhrase_ne_nil]
  simp only [or_assoc]

end Phrase

/-! ## More levels tell no less -/

section Levels

variable {registry : ServiceRegistry} {target : Target} {n m : Nat} {r : Except String Unit}

theorem validateParameters_mono {walk walk' : PyType → Option (Except String Unit)}
    (hwalk : ∀ t r, walk t = some r → walk' t = some r) {rest : List Parameter}
    (h : validateParameters registry walk target rest = some r) :
    validateParameters registry walk' target rest = some r := by
  induction rest with
  | nil => exact h
  | cons p rest ih =>
    rw [validateParameters] at h ⊢
    cases hp : p.annotation with
    | none =>
      rw [hp] at h
      exact h
    | some t =>
      rw [hp] at h
      simp only at h ⊢
      split
      · next hskip =>
        rw [if_pos hskip] at h
        exact ih h
      next hskip =>
      rw [if_neg hskip] at h
      cases ht : walk t with
      | none =>
        rw [ht] at h
        cases h
      | some found =>
        rw [ht] at h
        rw [hwalk t found ht]
        cases found with
        | ok => exact ih h
        | error e =>
          simp only at h ⊢
          split
          · next hcircular =>
            rw [if_pos hcircular] at h
            exact h
          next hcircular =>
          rw [if_neg hcircular] at h
          split
          · next hdefault =>
            rw [if_pos hdefault] at h
            exact ih h
          · next hdefault =>
            rw [if_neg hdefault] at h
            exact h

theorem validateNode_succ {interface : PyType} {chain : ResolutionChain}
    (h : validateNode registry n interface chain = some r) :
    validateNode registry (n + 1) interface chain = some r := by
  induction n generalizing interface chain r with
  | zero => cases h
  | succ n ih =>
    rw [validateNode] at h ⊢
    split
    · next hmem =>
      rw [if_pos hmem] at h
      exact h
    next hmem =>
    rw [if_neg hmem] at h
    cases hd : registry.get? interface with
    | none =>
      rw [hd] at h
      exact h
    | some d =>
      simp only [hd] at h ⊢
      cases ht : d.target? with
      | none =>
        rw [ht] at h
        exact h
      | some target =>
        simp only [ht] at h ⊢
        exact validateParameters_mono (fun t r => ih) h

theorem validateNode_mono {interface : PyType} {chain : ResolutionChain} (hnm : n ≤ m)
    (h : validateNode registry n interface chain = some r) :
    validateNode registry m interface chain = some r := by
  induction hnm with
  | refl => exact h
  | step _ ih => exact validateNode_succ ih

end Levels

/-! ## Names with the phrase in them -/

/-- The loop over the parameters gets past this one: its type can be built, or cannot for want of
something other than a way out of a cycle, and then there is a default. -/
def Past (p : Parameter) : Prop :=
  ∃ t c, p.annotation = some t ∧ Settles registry.graph t c ∧ (c = true ∨ p.hasDefault = true)

/-- The loop gets as far as this parameter. -/
def Reaches (target : Target) (p : Parameter) : Prop :=
  ∃ before after, target.parameters = before ++ p :: after ∧ ∀ q ∈ before, Past registry q

/-- An interface that cannot be built, with no cycle in the way, and is reported so by a name that
has the phrase in it: its own, if it is not registered; that of the first parameter that is not
annotated, or of the target it is a parameter of; or one of the three that report the first
parameter that cannot be filled. -/
inductive Misnamed : PyType → Prop
  | missing {interface} (unregistered : registry.get? interface = none)
      (phrase : saysCircular interface.name = true) : Misnamed interface
  | unannotated {interface d target p} (registered : registry.get? interface = some d)
      (built : d.target? = some target) (reached : Reaches registry target p)
      (bare : p.annotation = none)
      (phrase : saysCircular p.name = true ∨ saysCircular target.name = true) : Misnamed interface
  | unresolved {interface d target p t} (registered : registry.get? interface = some d)
      (built : d.target? = some target) (reached : Reaches registry target p)
      (named : p.annotation = some t) (required : p.hasDefault = false)
      (fails : Settles registry.graph t false)
      (phrase : saysCircular p.name = true ∨ saysCircular t.str = true ∨
        saysCircular target.name = true) : Misnamed interface

section Reached

variable {registry : ServiceRegistry} {interface t : PyType} {d : ServiceDescriptor}
  {target : Target} {p : Parameter} {before after rest : List Parameter}

theorem remaining_of_past (hd : registry.get? interface = some d) (ht : d.target? = some target)
    (hsplit : target.parameters = before ++ rest) (hbefore : ∀ q ∈ before, Past registry q) :
    Remaining registry.graph interface (rest.map fun p => ⟨p.annotation, p.hasDefault⟩) := by
  have hstart := Remaining.start (ServiceRegistry.graph_built hd ht)
  rw [Target.needs, hsplit] at hstart
  clear hsplit
  induction before with
  | nil => exact hstart
  | cons q before ih =>
    obtain ⟨t, c, hannotation, hsettles, hpast⟩ := hbefore q List.mem_cons_self
    rw [List.cons_append, List.map_cons, hannotation] at hstart
    exact ih (fun q' hq' => hbefore q' (List.mem_cons_of_mem _ hq')) (hstart.next hsettles hpast)

theorem Reaches.remaining (h : Reaches registry target p) (hd : registry.get? interface = some d)
    (ht : d.target? = some target) :
    ∃ needs, Remaining registry.graph interface (⟨p.annotation, p.hasDefault⟩ :: needs) := by
  obtain ⟨before, after, hsplit, hbefore⟩ := h
  exact ⟨_, remaining_of_past hd ht hsplit hbefore⟩

theorem Reaches.of_mem {q : Parameter} (hsplit : target.parameters = before ++ rest)
    (hbefore : ∀ q ∈ before, Past registry q) (hq : q ∈ before) : Reaches registry target q := by
  obtain ⟨first, last, rfl⟩ := List.append_of_mem hq
  refine ⟨first, last ++ rest, ?_, ?_⟩
  · rw [hsplit, List.append_assoc, List.cons_append]
  · intro q' hq'
    exact hbefore q' (List.mem_append_left _ hq')

theorem Misnamed.settles (h : Misnamed registry interface) :
    Settles registry.graph interface false := by
  cases h with
  | missing unregistered _ => exact .of_missing (ServiceRegistry.graph_missing unregistered)
  | unannotated registered built reached bare _ =>
    obtain ⟨needs, hr⟩ := reached.remaining registered built
    rw [bare] at hr
    exact hr.settles_unknown
  | unresolved registered built reached named required fails _ =>
    obtain ⟨needs, hr⟩ := reached.remaining registered built
    rw [named, required] at hr
    exact hr.settles_fatal fails

end Reached

/-! ## What the walk finds -/

/-- How the walk tells what it has found. -/
inductive Shows : Except String Unit → Option Bool → Prop
  | ok : Shows (.ok ()) (some true)
  | circular {e : String} (h : saysCircular e = true) : Shows (.error e) none
  | failed {e : String} (h : saysCircular e = false) : Shows (.error e) (some false)

/-- The walk of `interface` comes back with `r`, which tells what there is to find out, or tells of
a cycle, and somewhere an interface is misnamed. -/
inductive Finds (interface : PyType) : Option (Except String Unit) → Prop
  | shown {r v} (shows : Shows r v) (verdict : Verdict registry.graph interface v) :
      Finds interface (some r)
  | misled {e misnamed} (circular : saysCircular e = true)
      (reported : Misnamed registry misnamed) : Finds interface (some (.error e))

section Walk

variable {registry : ServiceRegistry} {interface : PyType} {d : ServiceDescriptor}
  {target : Target}

theorem validateParameters_finds {walk : PyType → Option (Except String Unit)}
    (hd : registry.get? interface = some d) (ht : d.target? = some target)
    (hwalk : ∀ t fallback needs, Remaining registry.graph interface (⟨some t, fallback⟩ :: needs) →
      Finds registry t (walk t))
    {before rest : List Parameter} (hsplit : target.parameters = before ++ rest)
    (hbefore : ∀ q ∈ before, Past registry q) :
    Finds registry interface (validateParameters registry walk target rest) := by
  induction rest generalizing before with
  | nil => exact .shown .ok (remaining_of_past hd ht hsplit hbefore).settles_nil
  | cons p rest ih =>
    have hr := remaining_of_past hd ht hsplit hbefore
    have hreached : Reaches registry target p := ⟨before, rest, hsplit, hbefore⟩
    have hnext : Past registry p →
        Finds registry interface (validateParameters registry walk target rest) := by
      intro hpast
      have hsplit' : target.parameters = (before ++ [p]) ++ rest := by simp [hsplit]
      refine ih hsplit' ?_
      intro q hq
      rcases List.mem_append.mp hq with hq | hq
      · exact hbefore q hq
      · rw [List.mem_singleton.mp hq]
        exact hpast
    rw [List.map_cons] at hr
    rw [validateParameters]
    cases hp : p.annotation with
    | none =>
      rw [hp] at hr
      cases hsays : saysCircular (unannotatedMessage p target) with
      | true =>
        exact .misled hsays (.unannotated hd ht hreached hp
          ((saysCircular_unannotatedMessage p target).mp hsays))
      | false => exact .shown (.failed hsays) hr.settles_unknown
    | some t =>
      rw [hp] at hr
      simp only
      split
      · next hskip =>
        have hmissing : registry.get? t = none := by
          simpa [Dict.contains] using hskip.1
        exact hnext ⟨t, false, hp, .of_missing (ServiceRegistry.graph_missing hmissing),
          Or.inr hskip.2⟩
      generalize hwalked : walk t = walked
      have hfinds := hwalk t _ _ hr
      rw [hwalked] at hfinds
      cases hfinds with
      | misled circular reported =>
        simp only [if_pos circular]
        exact .misled circular reported
      | shown shows verdict =>
        cases shows with
        | ok => exact hnext ⟨t, true, hp, verdict, Or.inl rfl⟩
        | circular h =>
          simp only [if_pos h]
          exact .shown (.circular h) (hr.not_settles verdict)
        | @failed e h =>
          simp only [h, Bool.false_eq_true, if_false]
          cases hdefault : p.hasDefault with
          | true => exact hnext ⟨t, false, hp, verdict, Or.inr hdefault⟩
          | false =>
            rw [hdefault] at hr
            cases hsays : saysCircular (unresolvedMessage p t target e) with
            | false => exact .shown (.failed hsays) (hr.settles_fatal verdict)
            | true =>
              have hnames := ((saysCircular_unresolvedMessage p t target e).mp hsays).resolve_right
                (by rw [h]; exact Bool.false_ne_true)
              exact .misled hsays (.unresolved hd ht hreached hp hdefault verdict hnames)

/-- **The walk comes to an end on every registry**, and finds what there is to find, unless it is
misled. -/
theorem validateNode_finds {fuel : Nat} {chain : ResolutionChain}
    (hfuel : unvisited registry.keys chain < fuel) (habove : Above registry.graph chain interface) :
    Finds registry interface (validateNode registry fuel interface chain) := by
  induction fuel generalizing interface chain with
  | zero => exact absurd hfuel (Nat.not_lt_zero _)
  | succ fuel ih =>
    rw [validateNode]
    split
    · next hmem =>
      exact .shown (.circular (saysCircular_circularMessage chain interface))
        (habove.not_settles hmem)
    next hmem =>
    cases hd : registry.get? interface with
    | none =>
      cases hsays : saysCircular (missingMessage interface) with
      | true => exact .misled hsays (.missing hd ((saysCircular_missingMessage interface).mp hsays))
      | false =>
        exact .shown (.failed hsays) (Settles.of_missing (ServiceRegistry.graph_missing hd))
    | some d =>
      cases ht : d.target? with
      | none =>
        simp only [ht]
        exact .shown .ok (Settles.of_leaf (ServiceRegistry.graph_leaf hd ht))
      | some target =>
        simp only [ht]
        have hkey : interface ∈ registry.keys := Dict.mem_keys_iff.mpr ⟨d, hd⟩
        have hfewer := unvisited_cons_lt hkey hmem
        have hstart : target.parameters = [] ++ target.parameters := rfl
        refine validateParameters_finds hd ht ?_ hstart (by simp)
        intro t fallback needs hr
        exact ih (by omega) (habove.cons hr)

theorem validateParameters_past {walk : PyType → Option (Except String Unit)}
    {before rest : List Parameter} (hbefore : ∀ q ∈ before, Past registry q)
    (hwalk : ∀ q ∈ before, ∀ t, q.annotation = some t → Finds registry t (walk t)) :
    validateParameters registry walk target (before ++ rest)
        = validateParameters registry walk target rest ∨
      ∃ e, validateParameters registry walk target (before ++ rest) = some (.error e) ∧
        saysCircular e = true := by
  induction before with
  | nil => exact Or.inl rfl
  | cons q before ih =>
    obtain ⟨t, c, hq, hsettles, hpast⟩ := hbefore q List.mem_cons_self
    have ih := ih (fun q' hq' => hbefore q' (List.mem_cons_of_mem _ hq'))
      (fun q' hq' => hwalk q' (List.mem_cons_of_mem _ hq'))
    rw [List.cons_append, validateParameters, hq]
    simp only
    split
    · exact ih
    generalize hwalked : walk t = walked
    have hfinds := hwalk q List.mem_cons_self t hq
    rw [hwalked] at hfinds
    cases hfinds with
    | misled circular _ =>
      simp only [if_pos circular]
      exact Or.inr ⟨_, rfl, circular⟩
    | shown shows verdict =>
      cases shows with
      | ok => exact ih
      | circular h => exact absurd hsettles (verdict c)
      | failed h =>
        have hdefault : q.hasDefault = true :=
          hpast.resolve_left fun hc => by cases Settles.unique verdict (hc ▸ hsettles)
        simp only [h, Bool.false_eq_true, if_false, if_pos hdefault]
        exact ih

/-- **A misnamed interface is reported as a cycle**, though there is none in its way. -/
theorem Misnamed.walked (h : Misnamed registry interface) {fuel : Nat}
    (hfuel : registry.size < fuel) :
    ∃ e, validateNode registry fuel interface [] = some (.error e) ∧ saysCircular e = true := by
  obtain ⟨fuel, rfl⟩ : ∃ n, fuel = n + 1 := ⟨fuel - 1, by omega⟩
  -- the walks of the parameters, from the one level further down
  have hwalk : ∀ {d target p t}, registry.get? interface = some d → d.target? = some target →
      Reaches registry target p → p.annotation = some t →
      Finds registry t (validateNode registry fuel t [interface]) := by
    intro d target p t hd ht hreached hp
    obtain ⟨needs, hr⟩ := hreached.remaining hd ht
    rw [hp] at hr
    have hkey : interface ∈ registry.keys := Dict.mem_keys_iff.mpr ⟨d, hd⟩
    have hfewer := unvisited_cons_lt hkey List.not_mem_nil
    have hle := unvisited_le registry.keys []
    rw [Dict.length_keys] at hle
    exact validateNode_finds (by omega) (Above.nil.cons hr)
  -- the loop is misled on the way to the parameter, or it gets there
  have hloop : ∀ {d target p}, registry.get? interface = some d → d.target? = some target →
      (hreached : Reaches registry target p) →
      (∀ after, ∃ e, validateParameters registry
        (fun t => validateNode registry fuel t [interface]) target (p :: after)
          = some (.error e) ∧ saysCircular e = true) →
      ∃ e, validateNode registry (fuel + 1) interface [] = some (.error e) ∧
        saysCircular e = true := by
    intro d target p hd ht hreached hthere
    obtain ⟨before, after, hsplit, hbefore⟩ := hreached
    rw [validateNode, if_neg List.not_mem_nil, hd]
    simp only [ht]
    rw [hsplit]
    have hwalks : ∀ q ∈ before, ∀ t, q.annotation = some t →
        Finds registry t (validateNode registry fuel t [interface]) :=
      fun q hq t ht' => hwalk hd ht (.of_mem hsplit hbefore hq) ht'
    rcases validateParameters_past hbefore hwalks with heq | hmisled
    · rw [heq]
      exact hthere after
    · exact hmisled
  cases h with
  | missing unregistered phrase =>
    refine ⟨missingMessage interface, ?_, (saysCircular_missingMessage interface).mpr phrase⟩
    rw [validateNode, if_neg List.not_mem_nil, unregistered]
  | @unannotated d target p registered built reached bare phrase =>
    refine hloop registered built reached fun after => ⟨unannotatedMessage p target, ?_,
      (saysCircular_unannotatedMessage p target).mpr phrase⟩
    rw [validateParameters, bare]
  | @unresolved d target p t registered built reached named required fails phrase =>
    refine hloop registered built reached fun after => ?_
    rw [validateParameters, named]
    simp only [required, Bool.false_eq_true, and_false, if_false]
    generalize hwalked : validateNode registry fuel t [interface] = walked
    have hfinds := hwalk registered built reached named
    rw [hwalked] at hfinds
    cases hfinds with
    | misled circular _ =>
      simp only [if_pos circular]
      exact ⟨_, rfl, circular⟩
    | shown shows verdict =>
      cases shows with
      | ok => cases Settles.unique fails verdict
      | circular h => exact absurd fails (verdict false)
      | failed h =>
        simp only [h, Bool.false_eq_true, if_false]
        exact ⟨_, rfl, (saysCircular_unresolvedMessage p t target _).mpr (Or.inl phrase)⟩

theorem validateNode_reraises {fuel : Nat} {chain : ResolutionChain} {t : PyType} {p : Parameter}
    {rest : List Parameter} {e : String} (hfresh : interface ∉ chain)
    (hd : registry.get? interface = some d) (ht : d.target? = some target)
    (hparameters : target.parameters = p :: rest) (hp : p.annotation = some t)
    (hwalked : p.hasDefault = true → registry.contains t = true)
    (hwalk : validateNode registry fuel t (interface :: chain) = some (.error e))
    (hcircular : saysCircular e = true) :
    validateNode registry (fuel + 1) interface chain = some (.error e) := by
  have hskip : ¬ (registry.contains t = false ∧ p.hasDefault = true) := by
    rintro ⟨hmissing, hdefault⟩
    rw [hwalked hdefault] at hmissing
    cases hmissing
  rw [validateNode, if_neg hfresh, hd]
  simp only [ht]
  rw [hparameters, validateParameters, hp]
  simp only [if_neg hskip]
  rw [hwalk]
  simp only [if_pos hcircular]

end Walk

end Validator

end IraOS
