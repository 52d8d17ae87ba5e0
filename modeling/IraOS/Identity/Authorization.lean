import IraOS.Identity.Models
import IraOS.Lib.Tasks
import Mathlib.Data.Finset.Basic
import Mathlib.Data.Finset.Insert
import Mathlib.Data.Finset.Lattice.Basic

/-!
# Authorization

`core/identity/permissions.py`, `core/identity/policies.py`, `core/identity/authorization.py` and
the operations of `core/identity/manager.py` that go through to it. A policy is a function of a role
that may raise, as the base class does.

`grant` and `revoke` hold the manager's lock while the bus is awaited. The lock is reentrant and
belongs to the thread, so the tasks of one event loop pass it: between the change and the bus's
answer any of them may go on, and what they do is a turn of `Tasks`.

A change is written before its event is published, in the turn in which it was asked for. What the
bus then answers decides how the call ends and undoes nothing: a `grant` that failed has granted. A
change that finds nothing to do publishes nothing and returns at once, and so does one of a manager
without a bus, with the entry written.

An identity that is asked about has an entry from then on, an empty one to begin with, so a question
writes to the dictionary too; nobody can see that (`ExplicitGrants.held`). Roles are asked in their
order, and the first for which the policy raises ends the question.
-/

set_option autoImplicit false

namespace IraOS

open Lib

inductive Permission where
  | READ_MEMORY | WRITE_MEMORY | OPEN_APPLICATION | CONTROL_DEVICE | SEND_MESSAGE | MAKE_CALL
  | READ_FILES | WRITE_FILES | VOICE_OUTPUT | MICROPHONE | CAMERA | LOCATION | PAYMENTS | NETWORK
  | SYSTEM
  deriving DecidableEq, Repr

def Permission.name : Permission → String
  | .READ_MEMORY => "READ_MEMORY"
  | .WRITE_MEMORY => "WRITE_MEMORY"
  | .OPEN_APPLICATION => "OPEN_APPLICATION"
  | .CONTROL_DEVICE => "CONTROL_DEVICE"
  | .SEND_MESSAGE => "SEND_MESSAGE"
  | .MAKE_CALL => "MAKE_CALL"
  | .READ_FILES => "READ_FILES"
  | .WRITE_FILES => "WRITE_FILES"
  | .VOICE_OUTPUT => "VOICE_OUTPUT"
  | .MICROPHONE => "MICROPHONE"
  | .CAMERA => "CAMERA"
  | .LOCATION => "LOCATION"
  | .PAYMENTS => "PAYMENTS"
  | .NETWORK => "NETWORK"
  | .SYSTEM => "SYSTEM"

/-- An event names one permission. -/
theorem Permission.name_injective : Function.Injective Permission.name := by
  intro p q h
  cases p <;> cases q <;> first | rfl | exact absurd h (by decide)

def Permission.all : Finset Permission :=
  {.READ_MEMORY, .WRITE_MEMORY, .OPEN_APPLICATION, .CONTROL_DEVICE, .SEND_MESSAGE, .MAKE_CALL,
    .READ_FILES, .WRITE_FILES, .VOICE_OUTPUT, .MICROPHONE, .CAMERA, .LOCATION, .PAYMENTS, .NETWORK,
    .SYSTEM}

abbrev Identity.PermissionPolicy := Role → Except Exn (Finset Permission)

def Identity.PermissionPolicy.base : Identity.PermissionPolicy :=
  fun _ => .error ⟨.notImplementedError, []⟩

def DefaultPermissionPolicy.mapping : Role → Finset Permission
  | .OWNER => Permission.all
  | .ADMIN =>
    {.READ_MEMORY, .WRITE_MEMORY, .OPEN_APPLICATION, .READ_FILES, .WRITE_FILES, .NETWORK, .SYSTEM}
  | .ASSISTANT =>
    {.READ_MEMORY, .WRITE_MEMORY, .OPEN_APPLICATION, .SEND_MESSAGE, .VOICE_OUTPUT, .NETWORK}
  | .GUEST => {.READ_MEMORY, .OPEN_APPLICATION}
  | .AUTOMATION =>
    {.READ_MEMORY, .WRITE_MEMORY, .CONTROL_DEVICE, .READ_FILES, .WRITE_FILES, .NETWORK}
  | .DEVELOPER => Permission.all

def DefaultPermissionPolicy.permissions : Identity.PermissionPolicy :=
  fun role => .ok (DefaultPermissionPolicy.mapping role)

inductive PermissionEvent where
  | permissionGranted (identityId permission : String)
  | permissionRevoked (identityId permission : String)
  deriving DecidableEq

abbrev ExplicitGrants := Dict String (Finset Permission)

structure AuthorizationManager where
  policy : Identity.PermissionPolicy := DefaultPermissionPolicy.permissions
  hasBus : Bool

/-! ## Deciding -/

def ExplicitGrants.getExplicitGrants (g : ExplicitGrants) (identityId : String) :
    ExplicitGrants × Finset Permission :=
  match g.get? identityId with
  | some permissions => (g, permissions)
  | none => (g.set identityId ∅, ∅)

def ExplicitGrants.held (g : ExplicitGrants) (identityId : String) : Finset Permission :=
  g.getD identityId ∅

namespace AuthorizationManager

variable (m : AuthorizationManager)

def rolePermissions (roles : List Role) : Except Exn (Finset Permission) :=
  roles.foldlM (fun permissions role => do
    let more ← m.policy role
    pure (permissions ∪ more)) ∅

def getEffectivePermissions (g : ExplicitGrants) (identity : Identity) :
    ExplicitGrants × Except Exn (Finset Permission) :=
  match m.rolePermissions identity.roles with
  | .error e => (g, .error e)
  | .ok permissions =>
    let grants := g.getExplicitGrants identity.id
    (grants.1, .ok (permissions ∪ grants.2))

def hasPermission (g : ExplicitGrants) (identity : Identity) (permission : Permission) :
    ExplicitGrants × Except Exn Bool :=
  if identity.active = false then (g, .ok false)
  else
    let effective := m.getEffectivePermissions g identity
    (effective.1, effective.2.map fun permissions => decide (permission ∈ permissions))

def lacks (identity : Identity) (permission : Permission) : Exn :=
  ⟨.other "AuthorizationError",
    lit ("Identity '" ++ identity.id ++ "' lacks permission '" ++ permission.name ++ "'")⟩

def authorize (g : ExplicitGrants) (identity : Identity) (permission : Permission) :
    ExplicitGrants × Except Exn Unit :=
  let answer := m.hasPermission g identity permission
  (answer.1, answer.2.bind fun held =>
    if held = true then .ok () else .error (lacks identity permission))

end AuthorizationManager

/-! ## The operations, as turns -/

inductive AuthorizationRequest where
  | getEffectivePermissions (identity : Identity)
  | hasPermission (identity : Identity) (permission : Permission)
  | authorize (identity : Identity) (permission : Permission)
  | grant (identity : Identity) (permission : Permission)
  | revoke (identity : Identity) (permission : Permission)

inductive AuthorizationAnswer where
  | none
  | bool (held : Bool)
  | permissions (permissions : Finset Permission)

inductive GrantPlace where
  | idle
  | publishing (request : AuthorizationRequest)

inductive GrantReply where
  | call (request : AuthorizationRequest)
  | published (answer : Except Exn Unit)

/-- What is seen of a call, in the order in which it is done. `raised` is what the bus answers an
event with when it does not take it; nothing is seen of a bus that does. -/
inductive GrantAction where
  | called (request : AuthorizationRequest)
  | event (event : PermissionEvent)
  | raised (e : Exn)
  | logged (level text : String)
  | answered (request : AuthorizationRequest) (result : Except Exn AuthorizationAnswer)

abbrev GrantTurn := Turn ExplicitGrants GrantPlace GrantAction

namespace AuthorizationManager

variable (m : AuthorizationManager)

/-- What `IdentityManager` logs once the call below it has ended. -/
def logEntry (request : AuthorizationRequest) (result : Except Exn AuthorizationAnswer) :
    List GrantAction :=
  match request, result with
  | .authorize identity permission, .error _ =>
    [.logged "WARNING" ("Authorization failed for identity " ++ identity.id ++ " on permission " ++
      permission.name)]
  | .grant identity permission, .ok _ =>
    [.logged "INFO" ("Granted permission " ++ permission.name ++ " to identity " ++ identity.id)]
  | .revoke identity permission, .ok _ =>
    [.logged "INFO" ("Revoked permission " ++ permission.name ++ " from identity " ++
      identity.id)]
  | _, _ => []

def finish (request : AuthorizationRequest) (result : Except Exn AuthorizationAnswer) :
    List GrantAction :=
  logEntry request result ++ [.answered request result]

def atOnce (request : AuthorizationRequest) (result : Except Exn AuthorizationAnswer)
    (g : ExplicitGrants) : GrantTurn where
  shared := g
  pc := .idle
  actions := .called request :: finish request result

/-- What `grant` and `revoke` share: where there is something to do the entry is written and the
event handed to the bus, both in this turn. -/
def switch (g : ExplicitGrants) (request : AuthorizationRequest) (identity : Identity)
    (due : Finset Permission → Bool) (write : Finset Permission → Finset Permission)
    (event : PermissionEvent) : GrantTurn :=
  let grants := g.getExplicitGrants identity.id
  if due grants.2 = true then
    let written := grants.1.set identity.id (write grants.2)
    if m.hasBus = true then
      { shared := written, pc := .publishing request, actions := [.called request, .event event] }
    else atOnce request (.ok .none) written
  else atOnce request (.ok .none) grants.1

/-- `grant(identity, permission)`, up to where it awaits the bus. -/
def grant (g : ExplicitGrants) (identity : Identity) (permission : Permission) : GrantTurn :=
  m.switch g (.grant identity permission) identity (fun grants => decide (permission ∉ grants))
    (insert permission) (.permissionGranted identity.id permission.name)

/-- `revoke(identity, permission)`, up to where it awaits the bus. -/
def revoke (g : ExplicitGrants) (identity : Identity) (permission : Permission) : GrantTurn :=
  m.switch g (.revoke identity permission) identity (fun grants => decide (permission ∈ grants))
    (fun grants => grants.erase permission) (.permissionRevoked identity.id permission.name)

def begin (g : ExplicitGrants) : AuthorizationRequest → GrantTurn
  | .getEffectivePermissions identity =>
    let effective := m.getEffectivePermissions g identity
    atOnce (.getEffectivePermissions identity) (effective.2.map .permissions) effective.1
  | .hasPermission identity permission =>
    let answer := m.hasPermission g identity permission
    atOnce (.hasPermission identity permission) (answer.2.map .bool) answer.1
  | .authorize identity permission =>
    let answer := m.authorize g identity permission
    atOnce (.authorize identity permission) (answer.2.map fun _ => .none) answer.1
  | .grant identity permission => m.grant g identity permission
  | .revoke identity permission => m.revoke g identity permission

/-- The rest of a call that has waited for the bus. There is no `except` around the `await`, so what
the bus raises comes out of the call; the change stays made. -/
def heard (request : AuthorizationRequest) : Except Exn Unit → List GrantAction
  | .ok _ => finish request (.ok .none)
  | .error e => .raised e :: finish request (.error e)

def turn (_ : Nat) (g : ExplicitGrants) : GrantPlace → GrantReply → Option GrantTurn
  | .idle, .call request => some (m.begin g request)
  | .publishing request, .published answer =>
    some { shared := g, pc := .idle, actions := heard request answer }
  | _, _ => none

/-- Any number of tasks that use one manager. -/
abbrev system : System (Tasks.State ExplicitGrants GrantPlace GrantAction) (Nat × GrantReply) :=
  Tasks.system m.turn

def start : Tasks.State ExplicitGrants GrantPlace GrantAction :=
  ⟨Dict.empty, fun _ => .idle, []⟩

end AuthorizationManager

end IraOS
