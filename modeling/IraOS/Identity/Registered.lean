import IraOS.Identity.Authentication

/-!
# Whose identity is current

`authenticate` asks the registry whether there is an identity of the given id, and takes everything
else — whether it is active, under what username, with which roles — from the object its caller
hands it. So after a call that succeeds the current identity is the registered one exactly when the
caller's object was (`current_is_registered_iff`): **an object kept from before a deactivation still
authenticates, with the roles it had then**.

The statement is about every history of the registry and every object. `CurrentRegistered` is what
one would expect of the call: that the identity which is current afterwards is the active one the
registry has under that id, equal to it in every field. Identities are values, and two objects with
the same fields are the same here.
-/

set_option autoImplicit false

namespace IraOS

open Lib AuthenticationManager

/-- The registry of `w` has an active identity of that id, and the task's current identity is that
very one. -/
def CurrentRegistered (w : IdentityWorld) (task : Nat) (identityId : String) : Prop :=
  ∃ registered, w.identities.get identityId = some registered ∧ registered.id = identityId ∧
    registered.active = true ∧ (w.contexts task).currentIdentity = some registered

/-- **The current identity is the registered one exactly when the caller's object is.** Whatever the
history of the registry and whatever the object, an `authenticate` that succeeds has taken the
object as it was handed in; of the registry it knows only that there is an identity of that id. -/
theorem current_is_registered_iff {m : AuthenticationManager} {task : Nat}
    {history : List IdentityRegistry.Op} {w w' : IdentityWorld} {identity : Identity}
    {deviceId : Option String} {uuid : String} {elapsed : Nat} {session : Session}
    {t : List IdentityEvent}
    (h : m.authenticate task identity deviceId uuid elapsed
      { w with identities := IdentityRegistry.after history } = ⟨.ok session, w', t⟩) :
    CurrentRegistered w' task identity.id ↔
      (IdentityRegistry.after history).get identity.id = some identity := by
  obtain ⟨hactive, _, _, rfl⟩ := authenticate_ok h
  unfold CurrentRegistered IdentityWorld.push
  rw [IdentityWorld.setContext_contexts_self]
  constructor
  · rintro ⟨registered, hget, _, _, hcurrent⟩
    cases hcurrent
    exact hget
  · intro hget
    exact ⟨identity, hget, rfl, hactive, rfl⟩

/-! ## One owner, demoted and deactivated -/

def owner : Identity := .named "1" "ada" [.OWNER]

def demoted : Identity := { owner with roles := [.GUEST], active := false }

def afterAuthenticating (history : List IdentityRegistry.Op) :
    Run IdentityWorld Exn IdentityEvent Session :=
  plain.authenticate 0 owner none "s1" 0
    { IdentityWorld.start .empty with identities := IdentityRegistry.after history }

theorem current_is_registered_iff_owner :
    CurrentRegistered (afterAuthenticating [.register owner]).state 0 "1" ↔
      (IdentityRegistry.after [.register owner]).get "1" = some owner := by
  have hrun : plain.authenticate 0 owner none "s1" 0
      { IdentityWorld.start .empty with identities := IdentityRegistry.after [.register owner] }
      = ⟨.ok (plain.newSession owner none "s1" (IdentityWorld.start .empty)),
        (afterAuthenticating [.register owner]).state, []⟩ := rfl
  exact current_is_registered_iff hrun

/-- The registry knows an inactive guest; the object from before authenticates as an owner. -/
theorem stale_owner_authenticates :
    let history := [IdentityRegistry.Op.register owner, .replace demoted]
    let run := afterAuthenticating history
    run.result.isOk = true ∧
      (run.state.identities.get "1").map Identity.active = some false ∧
      (run.state.identities.get "1").map Identity.roles = some [.GUEST] ∧
      ((run.state.contexts 0).currentIdentity.map Identity.roles) = some [.OWNER] ∧
      ¬ CurrentRegistered run.state 0 "1" := by
  refine ⟨rfl, rfl, rfl, rfl, ?_⟩
  rintro ⟨registered, hget, _, hactive, _⟩
  have hinactive : (some demoted).map Identity.active = some false := rfl
  have hsame : (IdentityRegistry.after [.register owner, .replace demoted]).get "1"
      = some demoted := rfl
  have hq : some demoted = some registered := hsame.symm.trans hget
  rw [hq, Option.map_some, hactive] at hinactive
  cases hinactive

end IraOS
