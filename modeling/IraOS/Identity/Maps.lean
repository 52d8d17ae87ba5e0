import IraOS.Identity.Registry
import IraOS.Lib.Act

/-!
# The registry's two dictionaries

The methods of `IdentityRegistry` (`core/identity/registry.py`) statement by statement, on two
dictionaries that nothing ties together: what an operation has written when it raises stays written,
and a username that is forgotten in one of them stays in the other. No operation raises after it has
written, and what they write keeps the two together (`after_bijection`): each of them does to the
dictionaries what it does to a registry that cannot be out of step (`run_maps`).

So this is the lower of two levels. `Identity.Registry` has a registry whose two dictionaries agree
by construction, and everything above it uses that one; here is the code, and that the other is what
it does. A statement that was left out, a check after the first write, or an old username that was
not given up would show here, as an operation for which the equation fails.

The lock is held through each operation, so a history of them is a sequence.
-/

set_option autoImplicit false

namespace IraOS

open Lib

structure IdentityMaps where
  byId : Dict String Identity := .empty
  byUsername : Dict String Identity := .empty

abbrev MapsAct := Act IdentityMaps Exn Empty

namespace IdentityMaps

/-! ## core/identity/registry.py -/

def setId (identity : Identity) : MapsAct Unit :=
  Act.modify fun maps => { maps with byId := maps.byId.set identity.id identity }

def setUsername (identity : Identity) : MapsAct Unit :=
  Act.modify fun maps =>
    { maps with byUsername := maps.byUsername.set identity.username identity }

def popId (identityId : String) : MapsAct Unit :=
  Act.modify fun maps => { maps with byId := maps.byId.erase identityId }

def popUsername (username : String) : MapsAct Unit :=
  Act.modify fun maps => { maps with byUsername := maps.byUsername.erase username }

def registrationError (message : String) : Exn := ⟨.identityRegistrationError, lit message⟩

def register (identity : Identity) : MapsAct Unit := do
  let maps ← Act.get
  if maps.byId.contains identity.id then
    Act.throw (registrationError ("Identity with ID '" ++ identity.id ++ "' already exists."))
  else if maps.byUsername.contains identity.username then
    Act.throw (registrationError
      ("Identity with username '" ++ identity.username ++ "' already exists."))
  else
    setId identity
    setUsername identity

def remove (identityId : String) : MapsAct Unit := do
  let maps ← Act.get
  popId identityId
  match maps.byId.get? identityId with
  | none => pure ()
  | some identity => popUsername identity.username

def replace (identity : Identity) : MapsAct Unit := do
  let maps ← Act.get
  match maps.byId.get? identity.id with
  | none => Act.throw (registrationError
      ("Identity with ID '" ++ identity.id ++ "' does not exist to replace."))
  | some existing =>
    if existing.username ≠ identity.username then
      if maps.byUsername.contains identity.username then
        Act.throw (registrationError ("Username '" ++ identity.username ++ "' is already taken."))
      else
        popUsername existing.username
    setId identity
    setUsername identity

def clear : MapsAct Unit := Act.modify fun _ => {}

/-! ## Histories -/

def run : IdentityRegistry.Op → MapsAct Unit
  | .register identity => register identity
  | .replace identity => replace identity
  | .remove identityId => remove identityId
  | .clear => clear

def after (history : List IdentityRegistry.Op) : IdentityMaps :=
  history.foldl (fun maps op => (run op maps).state) {}

/-- **One set of identities**: both dictionaries have the same ones, each under its own id and its
own username, and no username twice. -/
structure Bijection (maps : IdentityMaps) : Prop where
  same : ∀ i, i ∈ maps.byId.values ↔ i ∈ maps.byUsername.values
  ownId : ∀ k i, maps.byId.get? k = some i → i.id = k
  ownUsername : ∀ u i, maps.byUsername.get? u = some i → i.username = u
  unique : ∀ i ∈ maps.byId.values, ∀ j ∈ maps.byId.values, i.username = j.username → i = j

theorem bijection_of_filed {maps : IdentityMaps} (h : Filed maps.byId maps.byUsername) :
    Bijection maps where
  same i := by
    rw [Dict.mem_values_iff, Dict.mem_values_iff]
    constructor
    · rintro ⟨k, hk⟩
      obtain rfl := h.own k i hk
      exact ⟨i.username, h.name_of hk⟩
    · rintro ⟨u, hu⟩
      exact ⟨i.id, ((h.sync u i).mp hu).1⟩
  ownId := h.own
  ownUsername u i hu := ((h.sync u i).mp hu).2
  unique i hi j hj hname := by
    obtain ⟨k, hk⟩ := Dict.mem_values_iff.mp hi
    obtain ⟨k', hk'⟩ := Dict.mem_values_iff.mp hj
    obtain rfl := h.own k i hk
    obtain rfl := h.own k' j hk'
    have hi' := h.name_of hk
    rw [hname, h.name_of hk'] at hi'
    exact (Option.some.inj hi').symm

/-! ## What an operation does -/

def ofRegistry (r : IdentityRegistry) : IdentityMaps := ⟨r.byId, r.byUsername⟩

structure Leaves (r : IdentityRegistry) (answer : Except Exn IdentityRegistry)
    (left : Run IdentityMaps Exn Empty Unit) : Prop where
  result : left.result = answer.map fun _ => ()
  state : left.state = ofRegistry (answer.toOption.getD r)

theorem contains_of_some {d : Dict String Identity} {k : String} {i : Identity}
    (h : d.get? k = some i) : d.contains k = true := Dict.contains_iff.mpr ⟨i, h⟩

theorem contains_of_none {d : Dict String Identity} {k : String} (h : d.get? k = none) :
    d.contains k = false := by
  rw [Dict.contains, h]
  rfl

section Operations

variable (r : IdentityRegistry)

theorem register_leaves (identity : Identity) :
    Leaves r (r.register identity) (register identity (ofRegistry r)) := by
  unfold IdentityRegistry.register register ofRegistry
  rw [Act.bind_get]
  split
  · next hid =>
    rw [contains_of_some hid]
    exact ⟨rfl, rfl⟩
  · next hid =>
    rw [contains_of_none hid]
    split
    · next hname =>
      rw [contains_of_some hname]
      exact ⟨rfl, rfl⟩
    · next hname =>
      rw [contains_of_none hname]
      exact ⟨rfl, rfl⟩

theorem remove_of_none (maps : IdentityMaps) {identityId : String}
    (h : maps.byId.get? identityId = none) : remove identityId maps = ⟨.ok (), maps, []⟩ := by
  unfold remove
  rw [Act.bind_get, popId, Act.bind_modify, h, Dict.erase_of_absent h]
  rfl

theorem remove_of_some (maps : IdentityMaps) {identityId : String} {old : Identity}
    (h : maps.byId.get? identityId = some old) : remove identityId maps =
      ⟨.ok (), ⟨maps.byId.erase identityId, maps.byUsername.erase old.username⟩, []⟩ := by
  unfold remove
  rw [Act.bind_get, popId, Act.bind_modify, h]
  rfl

theorem remove_leaves (identityId : String) :
    Leaves r (.ok (r.remove identityId)) (remove identityId (ofRegistry r)) := by
  unfold IdentityRegistry.remove
  split
  · next hid =>
    rw [remove_of_none (ofRegistry r) hid]
    exact ⟨rfl, rfl⟩
  · next hid =>
    rw [remove_of_some (ofRegistry r) hid]
    exact ⟨rfl, rfl⟩

theorem replace_of_none (maps : IdentityMaps) {identity : Identity}
    (h : maps.byId.get? identity.id = none) : replace identity maps =
      ⟨.error (registrationError
        ("Identity with ID '" ++ identity.id ++ "' does not exist to replace.")), maps, []⟩ := by
  unfold replace
  rw [Act.bind_get, h]
  rfl

theorem replace_of_some (maps : IdentityMaps) {identity existing : Identity}
    (h : maps.byId.get? identity.id = some existing) : replace identity maps =
      if existing.username = identity.username then
        ⟨.ok (), ⟨maps.byId.set identity.id identity,
          maps.byUsername.set identity.username identity⟩, []⟩
      else if maps.byUsername.contains identity.username then
        ⟨.error (registrationError
          ("Username '" ++ identity.username ++ "' is already taken.")), maps, []⟩
      else
        ⟨.ok (), ⟨maps.byId.set identity.id identity,
          (maps.byUsername.erase existing.username).set identity.username identity⟩, []⟩ := by
  unfold replace
  rw [Act.bind_get, h]
  by_cases hname : existing.username = identity.username
  · rw [if_pos hname]
    dsimp only
    rw [if_neg (not_not.mpr hname)]
    rfl
  · rw [if_neg hname]
    dsimp only
    rw [if_pos hname]
    split <;> rfl

theorem replace_leaves (identity : Identity) :
    Leaves r (r.replace identity) (replace identity (ofRegistry r)) := by
  unfold IdentityRegistry.replace
  split
  · next hid =>
    rw [replace_of_none (ofRegistry r) hid]
    exact ⟨rfl, rfl⟩
  · next existing hid =>
    rw [replace_of_some (ofRegistry r) hid]
    split
    · exact ⟨rfl, rfl⟩
    · split
      · next htaken =>
        have hcontains : (ofRegistry r).byUsername.contains identity.username = true :=
          contains_of_some htaken
        rw [hcontains]
        exact ⟨rfl, rfl⟩
      · next hfree =>
        have hcontains : (ofRegistry r).byUsername.contains identity.username = false :=
          contains_of_none hfree
        rw [hcontains]
        exact ⟨rfl, rfl⟩

end Operations

/-- **An operation does to the dictionaries of a registry what it does to the registry**, and leaves
them alone if it raises. -/
theorem run_maps (r : IdentityRegistry) (op : IdentityRegistry.Op) :
    (run op (ofRegistry r)).state = ofRegistry (r.apply op) ∧
      ∀ exc, (run op (ofRegistry r)).result = .error exc →
        (run op (ofRegistry r)).state = ofRegistry r := by
  have hleaves : ∀ {answer : Except Exn IdentityRegistry} {left : Run IdentityMaps Exn Empty Unit},
      Leaves r answer left → left.state = ofRegistry (answer.toOption.getD r) ∧
        ∀ exc, left.result = .error exc → left.state = ofRegistry r := by
    intro answer left h
    refine ⟨h.state, ?_⟩
    intro exc hraised
    rw [h.result] at hraised
    rw [h.state]
    cases answer with
    | error exc => rfl
    | ok r' => cases hraised
  cases op with
  | register identity => exact hleaves (register_leaves r identity)
  | replace identity => exact hleaves (replace_leaves r identity)
  | remove identityId => exact hleaves (remove_leaves r identityId)
  | clear => exact ⟨rfl, fun _ h => by cases h⟩

theorem after_eq (history : List IdentityRegistry.Op) :
    after history = ofRegistry (IdentityRegistry.after history) := by
  have hfold : ∀ r : IdentityRegistry, history.foldl (fun maps op => (run op maps).state)
      (ofRegistry r) = ofRegistry (history.foldl IdentityRegistry.apply r) := by
    induction history with
    | nil => exact fun _ => rfl
    | cons op rest ih =>
      intro r
      rw [List.foldl_cons, (run_maps r op).1, ih]
      rfl
  exact hfold .empty

/-- **The dictionaries hold one set of identities after every history of operations**, and the next
operation, if it raises, leaves both as they are. So a username that resolves, resolves to the
identity that has it, and every identity is found under its own id and its own username. -/
theorem after_bijection (history : List IdentityRegistry.Op) :
    Bijection (after history) ∧ ∀ op exc, (run op (after history)).result = .error exc →
      (run op (after history)).state = after history := by
  rw [after_eq]
  refine ⟨bijection_of_filed (IdentityRegistry.after history).filed, ?_⟩
  intro op
  exact (run_maps _ op).2

end IdentityMaps

end IraOS
