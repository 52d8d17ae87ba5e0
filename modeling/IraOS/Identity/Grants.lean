import IraOS.Identity.Authorization
import IraOS.Lib.Calls
import IraOS.Lib.Trace

/-!
# What the authorization manager answers for

Over any number of tasks, in whatever order they take their turns and however the bus answers them:
**a permission is held just if it has been granted since it was last revoked**, every answer the
manager gives is the right one for the calls made so far, and the events about one permission of one
identity are the changes it went through, each once and in order (`permissions_accounted`).

## Two kinds of answers

A question is answered in the turn it is asked in, from what is held at that moment. A change that
has something to do is made in the turn it is asked for as well, but its answer waits for the bus,
and others take their turns meanwhile. So `Carried` says of every call what it has done since it was
made: it is there that **a `grant` or a `revoke` fails just with what the bus has raised on its own
event**, and with nothing else.

## What is compared with what

`Granted` is read off the log of calls: some call granted the permission, and no call has revoked it
since. It does not matter how those calls ended, since a change that the bus would not hear of is
made all the same. The events are compared with the changes by `Leads`: each changes something, and
they join up, so two grants in a row are one event.

## The proof

`Settled` is what a turn keeps by itself: the entries are what the calls have made of them, every
answer given was right, and the events join up. `Carried` is about single calls and goes by the rule
for calls (`Lib.Calls`). Both look at a turn through one lemma for changes (`begin_switched`) and
one for questions (`begin_asked`).

Nothing is said about an identity that is registered anew under an old id: what was granted to the
id is what is found.
-/

set_option autoImplicit false

namespace IraOS

open Lib

/-! ## What is asked, what is announced -/

structure GrantChange where
  identityId : String
  permission : Permission
  granted : Bool
  deriving DecidableEq

def GrantChange.event (c : GrantChange) : PermissionEvent :=
  if c.granted = true then .permissionGranted c.identityId c.permission.name
  else .permissionRevoked c.identityId c.permission.name

def AuthorizationRequest.change : AuthorizationRequest → Option GrantChange
  | .grant identity permission => some ⟨identity.id, permission, true⟩
  | .revoke identity permission => some ⟨identity.id, permission, false⟩
  | _ => none

def GrantAction.change : GrantAction → Option GrantChange
  | .called request => request.change
  | _ => none

abbrev GrantLog := List (Nat × GrantAction)

def changes (log : GrantLog) : List GrantChange := log.filterMap fun x => x.2.change

/-- It has been granted, and not revoked since. -/
def Granted (log : GrantLog) (identityId : String) (permission : Permission) : Prop :=
  Since ⟨identityId, permission, true⟩ ⟨identityId, permission, false⟩ (changes log)

def GrantAction.announces (identityId : String) (permission : Permission) :
    GrantAction → Option (Bool × Bool)
  | .event (.permissionGranted i name) =>
    if i = identityId ∧ name = permission.name then some (false, true) else none
  | .event (.permissionRevoked i name) =>
    if i = identityId ∧ name = permission.name then some (true, false) else none
  | _ => none

def announcements (log : GrantLog) (identityId : String) (permission : Permission) :
    List (Bool × Bool) :=
  log.filterMap fun x => x.2.announces identityId permission

namespace AuthorizationManager

variable (m : AuthorizationManager)

/-! ## The right answer -/

/-- By one of its roles, or by a grant of its own. -/
def Entitled (granted : String → Permission → Prop) (identity : Identity)
    (permission : Permission) : Prop :=
  (∃ role ∈ identity.roles, ∃ permissions,
    m.policy role = .ok permissions ∧ permission ∈ permissions) ∨
      granted identity.id permission

def PolicyRaises (identity : Identity) (e : Exn) : Prop :=
  ∃ role ∈ identity.roles, m.policy role = .error e

/-- The answer is the one to give where these are the permissions granted, and this is what the task
has done so far. A change is turned down by the bus alone: its exception is the last thing the task
has heard. -/
def Justified (granted : String → Permission → Prop) (done : List GrantAction) :
    AuthorizationRequest → Except Exn AuthorizationAnswer → Prop
  | .getEffectivePermissions identity, .ok (.permissions permissions) =>
    ∀ permission, permission ∈ permissions ↔ m.Entitled granted identity permission
  | .getEffectivePermissions identity, .error e => m.PolicyRaises identity e
  | .hasPermission identity permission, .ok (.bool held) =>
    held = true ↔ identity.active = true ∧ m.Entitled granted identity permission
  | .hasPermission identity _, .error e => identity.active = true ∧ m.PolicyRaises identity e
  | .authorize identity permission, .ok .none =>
    identity.active = true ∧ m.Entitled granted identity permission
  | .authorize identity permission, .error e =>
    (e = lacks identity permission ∧
      ¬ (identity.active = true ∧ m.Entitled granted identity permission)) ∨
    (identity.active = true ∧ m.PolicyRaises identity e)
  | .grant .., .ok .none => True
  | .grant .., .error e => m.hasBus = true ∧ done.getLast? = some (.raised e)
  | .revoke .., .ok .none => True
  | .revoke .., .error e => m.hasBus = true ∧ done.getLast? = some (.raised e)
  | _, _ => False

def AllJustified (log : GrantLog) : Prop :=
  Guarded (fun pre x => ∀ request result, x.2 = .answered request result →
    m.Justified (Granted pre) (Tasks.own x.1 pre) request result) log

def Already (log : GrantLog) (c : GrantChange) : Prop :=
  Granted log c.identityId c.permission ↔ c.granted = true

/-- A call that was made when the log was `pre`, by what its task has done since and by where it
waits. A call ends in the turn it is made in, without the bus; or it is for a change that is to be
announced, and then it hands the bus that one event, waits, and ends as the bus has answered. -/
inductive Carried (pre : GrantLog) (request : AuthorizationRequest) :
    List GrantAction → GrantPlace → Prop
  | atOnce (result : Except Exn AuthorizationAnswer)
      (h : ∀ c, request.change = some c →
        result = .ok .none ∧ (m.hasBus = true → Already pre c)) :
      Carried pre request (finish request result) .idle
  | announcing {c : GrantChange} (hbus : m.hasBus = true) (hc : request.change = some c)
      (hdue : ¬ Already pre c) : Carried pre request [.event c.event] (.publishing request)
  | announced {c : GrantChange} (hbus : m.hasBus = true) (hc : request.change = some c)
      (hdue : ¬ Already pre c) (answer : Except Exn Unit) :
      Carried pre request (.event c.event :: heard request answer) .idle

/-- The part of what holds at any moment that a turn keeps by itself: the entries are those the
calls have made, each answer was right when it was given, and the events join up. -/
structure Settled (s : Tasks.State ExplicitGrants GrantPlace GrantAction) : Prop where
  held : ∀ id p, p ∈ s.shared.held id ↔ Granted s.log id p
  justified : m.AllJustified s.log
  announced : m.hasBus = true → ∀ id p,
    Leads false (announcements s.log id p) (decide (p ∈ s.shared.held id))
  silent : m.hasBus = false → ∀ id p, announcements s.log id p = []
  /-- Only a change that was made waits for the bus. -/
  waiting : ∀ i request, s.pcs i = .publishing request →
    m.hasBus = true ∧ request.change.isSome = true

structure Accounted (s : Tasks.State ExplicitGrants GrantPlace GrantAction) : Prop extends
    m.Settled s where
  calls : Tasks.CallsKept GrantAction.called m.Carried .idle s

end AuthorizationManager


namespace ExplicitGrants

variable {g : ExplicitGrants} {id : String} {p : Permission}

theorem held_set {id' : String} {ps : Finset Permission} :
    ExplicitGrants.held (g.set id ps) id' = if id' = id then ps else g.held id' := by
  unfold ExplicitGrants.held Dict.getD
  rw [Dict.get?_set]
  split <;> rfl

@[simp] theorem getExplicitGrants_snd : (g.getExplicitGrants id).2 = g.held id := by
  unfold getExplicitGrants ExplicitGrants.held Dict.getD
  cases g.get? id <;> rfl

@[simp] theorem held_getExplicitGrants (id' : String) :
    (g.getExplicitGrants id).1.held id' = g.held id' := by
  unfold getExplicitGrants
  cases h : g.get? id with
  | some ps => rfl
  | none =>
    show ExplicitGrants.held (g.set id ∅) id' = g.held id'
    rw [held_set]
    split
    · next heq =>
      rw [heq]
      unfold ExplicitGrants.held Dict.getD
      rw [h]
      rfl
    · rfl

end ExplicitGrants

namespace AuthorizationManager

variable {m : AuthorizationManager} {g : ExplicitGrants} {identity : Identity}

/-! ## Deciding -/

theorem foldRoles_ok {roles : List Role} {before after : Finset Permission}
    (h : roles.foldlM (fun permissions role => do
      let more ← m.policy role
      pure (permissions ∪ more)) before = .ok after) (p : Permission) :
    p ∈ after ↔ p ∈ before ∨ ∃ role ∈ roles, ∃ ps, m.policy role = .ok ps ∧ p ∈ ps := by
  induction roles generalizing before with
  | nil =>
    cases h
    simp
  | cons role rest ih =>
    rw [List.foldlM_cons] at h
    cases hrole : m.policy role with
    | error e =>
      rw [hrole] at h
      cases h
    | ok more =>
      rw [hrole] at h
      rw [ih h, Finset.mem_union]
      simp [hrole, or_assoc]

theorem foldRoles_error {roles : List Role} {before : Finset Permission} {e : Exn}
    (h : roles.foldlM (fun permissions role => do
      let more ← m.policy role
      pure (permissions ∪ more)) before = .error e) : ∃ role ∈ roles, m.policy role = .error e := by
  induction roles generalizing before with
  | nil => cases h
  | cons role rest ih =>
    rw [List.foldlM_cons] at h
    cases hrole : m.policy role with
    | error e' =>
      rw [hrole] at h
      cases h
      exact ⟨role, List.mem_cons_self, hrole⟩
    | ok more =>
      rw [hrole] at h
      obtain ⟨r, hr, hraises⟩ := ih h
      exact ⟨r, List.mem_cons_of_mem _ hr, hraises⟩

section Answers

variable {granted : String → Permission → Prop} {done : List GrantAction}
  (hg : ∀ id p, p ∈ g.held id ↔ granted id p)

theorem held_getEffectivePermissions (id : String) :
    (m.getEffectivePermissions g identity).1.held id = g.held id := by
  unfold getEffectivePermissions
  cases m.rolePermissions identity.roles with
  | error e => rfl
  | ok permissions => exact ExplicitGrants.held_getExplicitGrants id

theorem held_hasPermission {p : Permission} (id : String) :
    (m.hasPermission g identity p).1.held id = g.held id := by
  unfold hasPermission
  split
  · rfl
  · exact held_getEffectivePermissions id

theorem held_authorize {p : Permission} (id : String) :
    (m.authorize g identity p).1.held id = g.held id := held_hasPermission id

include hg

theorem getEffectivePermissions_ok {ps : Finset Permission}
    (h : (m.getEffectivePermissions g identity).2 = .ok ps) (p : Permission) :
    p ∈ ps ↔ m.Entitled granted identity p := by
  unfold getEffectivePermissions at h
  cases hroles : m.rolePermissions identity.roles with
  | error e =>
    rw [hroles] at h
    cases h
  | ok permissions =>
    rw [hroles] at h
    injection h with h
    rw [ExplicitGrants.getExplicitGrants_snd] at h
    have hrole := foldRoles_ok hroles p
    rw [← h, Finset.mem_union, hrole, hg]
    simp [Entitled]

omit hg in
theorem getEffectivePermissions_error {e : Exn}
    (h : (m.getEffectivePermissions g identity).2 = .error e) : m.PolicyRaises identity e := by
  unfold getEffectivePermissions at h
  cases hroles : m.rolePermissions identity.roles with
  | error e' =>
    rw [hroles] at h
    injection h with h
    exact h ▸ foldRoles_error hroles
  | ok permissions =>
    rw [hroles] at h
    cases h

theorem hasPermission_ok {p : Permission} {held : Bool}
    (h : (m.hasPermission g identity p).2 = .ok held) :
    held = true ↔ identity.active = true ∧ m.Entitled granted identity p := by
  unfold hasPermission at h
  split at h
  · next hactive =>
    injection h with h
    simp [← h, hactive]
  · next hactive =>
    simp only at h
    cases heff : (m.getEffectivePermissions g identity).2 with
    | error e =>
      rw [heff] at h
      cases h
    | ok ps =>
      rw [heff] at h
      injection h with h
      rw [← h, decide_eq_true_iff, getEffectivePermissions_ok hg heff]
      simp [Bool.eq_true_of_not_eq_false hactive]

omit hg in
theorem hasPermission_error {p : Permission} {e : Exn}
    (h : (m.hasPermission g identity p).2 = .error e) :
    identity.active = true ∧ m.PolicyRaises identity e := by
  unfold hasPermission at h
  split at h
  · cases h
  · next hactive =>
    simp only at h
    cases heff : (m.getEffectivePermissions g identity).2 with
    | error e' =>
      rw [heff] at h
      injection h with h
      exact ⟨Bool.eq_true_of_not_eq_false hactive, h ▸ getEffectivePermissions_error heff⟩
    | ok ps =>
      rw [heff] at h
      cases h

theorem justified_effective : m.Justified granted done (.getEffectivePermissions identity)
    ((m.getEffectivePermissions g identity).2.map .permissions) := by
  cases h : (m.getEffectivePermissions g identity).2 with
  | ok ps => exact getEffectivePermissions_ok hg h
  | error e => exact getEffectivePermissions_error h

theorem justified_hasPermission (p : Permission) :
    m.Justified granted done (.hasPermission identity p)
      ((m.hasPermission g identity p).2.map .bool) := by
  cases h : (m.hasPermission g identity p).2 with
  | ok held => exact hasPermission_ok hg h
  | error e => exact hasPermission_error h

theorem justified_authorize (p : Permission) :
    m.Justified granted done (.authorize identity p)
      ((m.authorize g identity p).2.map fun _ => .none) := by
  have hdef : (m.authorize g identity p).2 = (m.hasPermission g identity p).2.bind
      fun held => if held = true then .ok () else .error (lacks identity p) := rfl
  rw [hdef]
  cases h : (m.hasPermission g identity p).2 with
  | error e => exact Or.inr (hasPermission_error h)
  | ok held =>
    have hiff := hasPermission_ok hg h
    cases held with
    | true => exact hiff.mp rfl
    | false => exact Or.inl ⟨rfl, fun hheld => Bool.noConfusion (hiff.mpr hheld)⟩

end Answers

/-! ## Changing -/

structure Switched (m : AuthorizationManager) (g : ExplicitGrants) (request : AuthorizationRequest)
    (c : GrantChange) (t : GrantTurn) : Prop where
  held : ∀ id p, p ∈ t.shared.held id ↔
    if id = c.identityId ∧ p = c.permission then c.granted = true else p ∈ g.held id
  /-- Nothing was to be done, or nobody is told; or the bus has the event. -/
  told : (t.pc = .idle ∧ t.actions = .called request :: finish request (.ok .none) ∧
      (m.hasBus = true → decide (c.permission ∈ g.held c.identityId) = c.granted)) ∨
    (m.hasBus = true ∧ t.pc = .publishing request ∧
      t.actions = [.called request, .event c.event] ∧
      decide (c.permission ∈ g.held c.identityId) = !c.granted)

theorem switch_switched {request : AuthorizationRequest} {c : GrantChange}
    {due : Finset Permission → Bool} {write : Finset Permission → Finset Permission}
    {event : PermissionEvent} (hid : identity.id = c.identityId) (hevent : event = c.event)
    (hdue : ∀ ps, due ps = true ↔ decide (c.permission ∈ ps) = !c.granted)
    (hwrite : ∀ ps p, p ∈ write ps ↔ if p = c.permission then c.granted = true else p ∈ ps) :
    Switched m g request c (m.switch g request identity due write event) := by
  have hwritten : ∀ id p,
      p ∈ ExplicitGrants.held ((g.getExplicitGrants identity.id).1.set identity.id
        (write (g.getExplicitGrants identity.id).2)) id ↔
        if id = c.identityId ∧ p = c.permission then c.granted = true else p ∈ g.held id := by
    intro id p
    rw [ExplicitGrants.held_set, ExplicitGrants.getExplicitGrants_snd, hid]
    by_cases hsame : id = c.identityId
    · simp [hsame, hwrite]
    · simp [hsame]
  unfold switch
  simp only
  split
  · next hd =>
    rw [ExplicitGrants.getExplicitGrants_snd, hdue, hid] at hd
    split
    · next hbus => exact ⟨hwritten, Or.inr ⟨hbus, rfl, by rw [hevent], hd⟩⟩
    · next hbus => exact ⟨hwritten, Or.inl ⟨rfl, rfl, fun h => absurd h hbus⟩⟩
  · next hd =>
    rw [ExplicitGrants.getExplicitGrants_snd, hdue, hid] at hd
    have hsame : decide (c.permission ∈ g.held c.identityId) = c.granted := by
      cases hc : c.granted <;> simpa [hc] using hd
    refine ⟨?_, Or.inl ⟨rfl, rfl, fun _ => hsame⟩⟩
    intro id p
    show p ∈ (g.getExplicitGrants identity.id).1.held id ↔ _
    rw [ExplicitGrants.held_getExplicitGrants]
    split
    · next heq =>
      rw [heq.1, heq.2, ← hsame, decide_eq_true_iff]
    · exact Iff.rfl

theorem begin_switched {request : AuthorizationRequest} {c : GrantChange}
    (hc : request.change = some c) : Switched m g request c (m.begin g request) := by
  cases request with
  | grant identity p =>
    cases hc
    unfold begin grant
    refine switch_switched rfl rfl ?_ ?_
    · simp
    · intro ps q
      by_cases hq : q = p <;> simp [hq]
  | revoke identity p =>
    cases hc
    unfold begin revoke
    refine switch_switched rfl rfl ?_ ?_
    · simp
    · intro ps q
      by_cases hq : q = p <;> simp [hq]
  | getEffectivePermissions identity => cases hc
  | hasPermission identity p => cases hc
  | authorize identity p => cases hc

theorem begin_asked {request : AuthorizationRequest} {granted : String → Permission → Prop}
    (hg : ∀ id p, p ∈ g.held id ↔ granted id p) (hc : request.change = none) :
    ∃ result g', m.begin g request = atOnce request result g' ∧
      (∀ id, g'.held id = g.held id) ∧ ∀ done, m.Justified granted done request result := by
  cases request with
  | getEffectivePermissions identity =>
    exact ⟨_, _, rfl, held_getEffectivePermissions, fun _ => justified_effective hg⟩
  | hasPermission identity p =>
    exact ⟨_, _, rfl, held_hasPermission, fun _ => justified_hasPermission hg p⟩
  | authorize identity p =>
    exact ⟨_, _, rfl, held_authorize, fun _ => justified_authorize hg p⟩
  | grant identity p => cases hc
  | revoke identity p => cases hc

end AuthorizationManager

/-! ## The log -/

section Log

variable {log : GrantLog} {i : Nat} {acts : List GrantAction}

def Quiet (acts : List GrantAction) : Prop :=
  ∀ a ∈ acts, a.change = none ∧ ∀ id p, a.announces id p = none

theorem changes_append (u : GrantLog) : changes (log ++ u) = changes log ++ changes u :=
  List.filterMap_append

theorem announcements_append (u : GrantLog) (id : String) (p : Permission) :
    announcements (log ++ u) id p = announcements log id p ++ announcements u id p :=
  List.filterMap_append

theorem Quiet.changes (h : Quiet acts) : changes (acts.map (Prod.mk i)) = [] := by
  refine List.filterMap_eq_nil_iff.mpr ?_
  intro x hx
  obtain ⟨a, ha, rfl⟩ := List.mem_map.mp hx
  exact (h a ha).1

theorem Quiet.announcements (h : Quiet acts) (id : String) (p : Permission) :
    announcements (acts.map (Prod.mk i)) id p = [] := by
  refine List.filterMap_eq_nil_iff.mpr ?_
  intro x hx
  obtain ⟨a, ha, rfl⟩ := List.mem_map.mp hx
  exact (h a ha).2 id p

theorem Quiet.granted_append (h : Quiet acts) :
    Granted (log ++ acts.map (Prod.mk i)) = Granted log := by
  unfold Granted
  rw [changes_append, h.changes, List.append_nil]

theorem finish_quiet (request : AuthorizationRequest) (result : Except Exn AuthorizationAnswer) :
    Quiet (AuthorizationManager.finish request result) := by
  intro a ha
  rcases List.mem_append.mp ha with hlog | hlast
  · unfold AuthorizationManager.logEntry at hlog
    split at hlog
    · rw [List.mem_singleton.mp hlog]
      exact ⟨rfl, fun _ _ => rfl⟩
    · rw [List.mem_singleton.mp hlog]
      exact ⟨rfl, fun _ _ => rfl⟩
    · rw [List.mem_singleton.mp hlog]
      exact ⟨rfl, fun _ _ => rfl⟩
    · exact absurd hlog List.not_mem_nil
  · rw [List.mem_singleton.mp hlast]
    exact ⟨rfl, fun _ _ => rfl⟩

theorem answered_of_mem_finish {request request' : AuthorizationRequest}
    {result result' : Except Exn AuthorizationAnswer}
    (h : GrantAction.answered request' result' ∈ AuthorizationManager.finish request result) :
    request' = request ∧ result' = result := by
  rcases List.mem_append.mp h with hlog | hlast
  · unfold AuthorizationManager.logEntry at hlog
    split at hlog <;> simp at hlog
  · cases List.mem_singleton.mp hlast
    exact ⟨rfl, rfl⟩

theorem heard_quiet (request : AuthorizationRequest) (answer : Except Exn Unit) :
    Quiet (AuthorizationManager.heard request answer) := by
  cases answer with
  | ok _ => exact finish_quiet request (.ok .none)
  | error e =>
    intro a ha
    rcases List.mem_cons.mp ha with rfl | ha
    · exact ⟨rfl, fun _ _ => rfl⟩
    · exact finish_quiet request (.error e) a ha

theorem granted_called {request : AuthorizationRequest} {c : GrantChange}
    (hc : request.change = some c) (hrest : changes (acts.map (Prod.mk i)) = [])
    (id : String) (p : Permission) :
    Granted (log ++ (GrantAction.called request :: acts).map (Prod.mk i)) id p ↔
      if id = c.identityId ∧ p = c.permission then c.granted = true else Granted log id p := by
  have hone : changes ((GrantAction.called request :: acts).map (Prod.mk i)) = [c] := by
    rw [List.map_cons, ← List.singleton_append, changes_append, hrest, List.append_nil]
    exact List.filterMap_cons_some hc
  unfold Granted
  rw [changes_append, hone, Since.append_iff]
  obtain ⟨cid, cp, cg⟩ := c
  split
  · next heq =>
    obtain ⟨rfl, rfl⟩ := heq
    cases cg <;> simp
  · next hne =>
    simp only [GrantChange.mk.injEq, ne_eq]
    constructor
    · rintro (heq | hold)
      · exact absurd ⟨heq.1.symm, heq.2.1.symm⟩ hne
      · exact hold.1
    · intro hold
      exact Or.inr ⟨hold, fun heq => hne ⟨heq.1.symm, heq.2.1.symm⟩⟩

theorem event_announces (c : GrantChange) (id : String) (p : Permission) :
    (GrantAction.event c.event).announces id p =
      if id = c.identityId ∧ p = c.permission then some (!c.granted, c.granted) else none := by
  have hsame : (c.identityId = id ∧ c.permission.name = p.name) ↔
      (id = c.identityId ∧ p = c.permission) := by
    rw [Permission.name_injective.eq_iff, eq_comm, @eq_comm _ c.permission]
  obtain ⟨cid, cp, cg⟩ := c
  cases cg with
  | false => exact if_congr hsame rfl rfl
  | true => exact if_congr hsame rfl rfl

theorem announcements_event (c : GrantChange) (i : Nat) (id : String) (p : Permission) :
    announcements ([GrantAction.event c.event].map (Prod.mk i)) id p =
      if id = c.identityId ∧ p = c.permission then [(!c.granted, c.granted)] else [] := by
  have hone : announcements ([GrantAction.event c.event].map (Prod.mk i)) id p =
      ((GrantAction.event c.event).announces id p).toList := by
    unfold announcements
    rw [List.map_singleton, List.filterMap_cons]
    cases (GrantAction.event c.event).announces id p <;> rfl
  rw [hone, event_announces]
  split <;> rfl

end Log

/-! ## Whole runs -/

namespace AuthorizationManager

variable {m : AuthorizationManager} {i : Nat} {t : GrantTurn}
  {s : Tasks.State ExplicitGrants GrantPlace GrantAction}

theorem settled_start : m.Settled start where
  held id p := by
    have hno : ¬ Granted [] id p := Since.not_nil
    exact iff_of_false (Finset.notMem_empty p) hno
  justified := Guarded.of_mem fun x hx => absurd hx List.not_mem_nil
  announced _ _ _ := rfl
  silent _ _ _ := rfl
  waiting _ _ h := nomatch h

theorem waiting_take (h : m.Settled s)
    (hpc : ∀ request, t.pc = .publishing request → m.hasBus = true ∧ request.change.isSome = true)
    (j : Nat) (request : AuthorizationRequest) (hj : (s.take i t).pcs j = .publishing request) :
    m.hasBus = true ∧ request.change.isSome = true := by
  by_cases hij : j = i
  · subst hij
    rw [Tasks.take_pcs_self] at hj
    exact hpc request hj
  · rw [Tasks.take_pcs_ne hij] at hj
    exact h.waiting j request hj

theorem Settled.quiet (h : m.Settled s) (hquiet : Quiet t.actions)
    (hheld : ∀ id, t.shared.held id = s.shared.held id)
    (hjust : ∀ before request result after,
      t.actions = before ++ .answered request result :: after →
        m.Justified (Granted s.log) (Tasks.own i s.log ++ before) request result)
    (hpc : ∀ request, t.pc ≠ .publishing request) : m.Settled (s.take i t) where
  held id p := by
    show p ∈ t.shared.held id ↔ Granted (s.log ++ t.actions.map (Prod.mk i)) id p
    rw [hquiet.granted_append, hheld]
    exact h.held id p
  justified := by
    refine Guarded.append h.justified ?_
    intro pre x post heq request result hx
    obtain ⟨before, rest, hacts, rfl, hrest⟩ := List.map_eq_append_iff.mp heq
    obtain ⟨a, after, rfl, rfl, -⟩ := List.map_eq_cons_iff.mp hrest
    have hpre : Granted (s.log ++ before.map (Prod.mk i)) = Granted s.log :=
      Quiet.granted_append fun a ha => hquiet a (hacts ▸ List.mem_append_left _ ha)
    rw [hpre, Tasks.own_append, Tasks.own_self]
    exact hjust before request result after (hx ▸ hacts)
  announced hbus id p := by
    show Leads false (announcements (s.log ++ t.actions.map (Prod.mk i)) id p)
      (decide (p ∈ t.shared.held id))
    rw [announcements_append, hquiet.announcements, List.append_nil, hheld]
    exact h.announced hbus id p
  silent hbus id p := by
    show announcements (s.log ++ t.actions.map (Prod.mk i)) id p = []
    rw [announcements_append, hquiet.announcements, List.append_nil]
    exact h.silent hbus id p
  waiting := waiting_take h fun request hreq => absurd hreq (hpc request)

theorem Settled.changed (h : m.Settled s) {request : AuthorizationRequest} {c : GrantChange}
    {acts : List GrantAction} (hc : request.change = some c)
    (hacts : t.actions = .called request :: acts)
    (hrest : changes (acts.map (Prod.mk i)) = [])
    (hheld : ∀ id p, p ∈ t.shared.held id ↔
      if id = c.identityId ∧ p = c.permission then c.granted = true else p ∈ s.shared.held id)
    (hjust : Guarded (fun _ x => ∀ request result, x = GrantAction.answered request result →
      ∀ granted done, m.Justified granted done request result) acts)
    (hann : m.hasBus = true → ∀ id p,
      Leads (decide (p ∈ s.shared.held id)) (announcements (acts.map (Prod.mk i)) id p)
        (decide (p ∈ t.shared.held id)))
    (hsilent : m.hasBus = false → ∀ id p, announcements (acts.map (Prod.mk i)) id p = [])
    (hpc : ∀ request, t.pc = .publishing request →
      m.hasBus = true ∧ request.change.isSome = true) : m.Settled (s.take i t) where
  held id p := by
    show p ∈ t.shared.held id ↔ Granted (s.log ++ t.actions.map (Prod.mk i)) id p
    rw [hacts, granted_called hc hrest, hheld]
    split
    · exact Iff.rfl
    · exact h.held id p
  justified := by
    refine Guarded.append h.justified ?_
    intro pre x post heq request' result hx
    have hmem : x ∈ t.actions.map (Prod.mk i) := by simp [heq]
    obtain ⟨a, ha, rfl⟩ := List.mem_map.mp hmem
    rw [hacts, List.mem_cons] at ha
    rcases ha with rfl | ha
    · cases hx
    · obtain ⟨before, after, hsplit⟩ := List.append_of_mem ha
      exact hjust before a after hsplit request' result hx _ _
  announced hbus id p := by
    show Leads false (announcements (s.log ++ t.actions.map (Prod.mk i)) id p)
      (decide (p ∈ t.shared.held id))
    rw [announcements_append, hacts]
    exact (h.announced hbus id p).append (hann hbus id p)
  silent hbus id p := by
    show announcements (s.log ++ t.actions.map (Prod.mk i)) id p = []
    rw [announcements_append, hacts, h.silent hbus id p, List.nil_append]
    exact hsilent hbus id p
  waiting := waiting_take h hpc

theorem justified_change {request : AuthorizationRequest} {c : GrantChange}
    {granted : String → Permission → Prop} {done : List GrantAction}
    (hc : request.change = some c) : m.Justified granted done request (.ok .none) := by
  cases request with
  | grant identity p => exact trivial
  | revoke identity p => exact trivial
  | getEffectivePermissions identity => cases hc
  | hasPermission identity p => cases hc
  | authorize identity p => cases hc

theorem finish_error {request : AuthorizationRequest} (hc : request.change.isSome = true)
    (e : Exn) : finish request (.error e) = [.answered request (.error e)] := by
  cases request with
  | grant identity p => rfl
  | revoke identity p => rfl
  | getEffectivePermissions identity => cases hc
  | hasPermission identity p => cases hc
  | authorize identity p => cases hc

theorem justified_error {request : AuthorizationRequest} {e : Exn}
    {granted : String → Permission → Prop} {done : List GrantAction} (hbus : m.hasBus = true)
    (hc : request.change.isSome = true) :
    m.Justified granted (done ++ [.raised e]) request (.error e) := by
  have hlast : (done ++ [GrantAction.raised e]).getLast? = some (.raised e) :=
    List.getLast?_concat
  cases request with
  | grant identity p => exact ⟨hbus, hlast⟩
  | revoke identity p => exact ⟨hbus, hlast⟩
  | getEffectivePermissions identity => cases hc
  | hasPermission identity p => cases hc
  | authorize identity p => cases hc

theorem justified_heard {request request' : AuthorizationRequest} {answer : Except Exn Unit}
    {result : Except Exn AuthorizationAnswer} {granted : String → Permission → Prop}
    {done before after : List GrantAction} (hbus : m.hasBus = true)
    (hc : request.change.isSome = true)
    (h : heard request answer = before ++ .answered request' result :: after) :
    m.Justified granted (done ++ before) request' result := by
  cases answer with
  | ok _ =>
    have hmem : GrantAction.answered request' result ∈ finish request (.ok .none) := by
      rw [show finish request (.ok .none) = _ from h]
      exact List.mem_append_right _ List.mem_cons_self
    obtain ⟨rfl, rfl⟩ := answered_of_mem_finish hmem
    obtain ⟨c, hc⟩ := Option.isSome_iff_exists.mp hc
    exact justified_change hc
  | error e =>
    have h : GrantAction.raised e :: finish request (.error e) = _ := h
    rw [finish_error hc] at h
    -- two actions, of which the answer is the second
    obtain ⟨rfl, heq⟩ : before = [.raised e] ∧
        GrantAction.answered request (.error e) = .answered request' result := by
      rcases before with _ | ⟨a, _ | ⟨b, rest⟩⟩
      · cases h
      · injection h with hraised hrest
        injection hrest with hanswered _
        exact ⟨by rw [hraised], hanswered⟩
      · simp at h
    cases heq
    exact justified_error hbus hc

theorem Switched.leads {g : ExplicitGrants} {request : AuthorizationRequest} {c : GrantChange}
    (h : Switched m g request c t)
    (hdue : decide (c.permission ∈ g.held c.identityId) = !c.granted) (i : Nat) (id : String)
    (p : Permission) : Leads (decide (p ∈ g.held id))
      (announcements ([GrantAction.event c.event].map (Prod.mk i)) id p)
      (decide (p ∈ t.shared.held id)) := by
  have hheld := h.held id p
  rw [announcements_event]
  by_cases heq : id = c.identityId ∧ p = c.permission
  · rw [if_pos heq] at hheld ⊢
    rw [heq.1, heq.2] at hheld ⊢
    have hnow : decide (c.permission ∈ t.shared.held c.identityId) = c.granted :=
      Bool.eq_iff_iff.mpr (decide_eq_true_iff.trans hheld)
    rw [hdue, hnow]
    exact Leads.single (by simp)
  · rw [if_neg heq] at hheld ⊢
    exact decide_eq_decide.mpr hheld.symm

theorem settled_switched (h : m.Settled s) {request : AuthorizationRequest} {c : GrantChange}
    (hc : request.change = some c) (ht : Switched m s.shared request c t) :
    m.Settled (s.take i t) := by
  rcases ht.told with ⟨hpc, hacts, hsame⟩ | ⟨hbus, hpc, hacts, hdue⟩
  · have hquiet := finish_quiet request (.ok .none)
    refine h.changed hc hacts hquiet.changes ht.held ?_ ?_ ?_ ?_
    · refine Guarded.of_mem ?_
      intro x hx _ request' result heq granted done
      obtain ⟨rfl, rfl⟩ := answered_of_mem_finish (heq ▸ hx)
      exact justified_change hc
    · intro hbus id p
      rw [hquiet.announcements, Leads.nil_iff]
      refine decide_eq_decide.mpr ?_
      rw [ht.held]
      split
      · next heq =>
        rw [heq.1, heq.2, ← hsame hbus, decide_eq_true_iff]
      · exact Iff.rfl
    · intro _ id p
      exact hquiet.announcements id p
    · intro request' hreq
      rw [hpc] at hreq
      cases hreq
  · refine h.changed hc hacts rfl ht.held ?_ ?_ ?_ ?_
    · refine Guarded.of_mem ?_
      intro x hx _ request' result heq
      rw [List.mem_singleton.mp hx] at heq
      cases heq
    · exact fun _ id p => ht.leads hdue i id p
    · intro hno
      rw [hbus] at hno
      cases hno
    · intro request' hreq
      rw [hpc] at hreq
      cases hreq
      exact ⟨hbus, by rw [hc]; rfl⟩

theorem Settled.turn {r : GrantReply} (h : m.Settled s)
    (ht : m.turn i s.shared (s.pcs i) r = some t) : m.Settled (s.take i t) := by
  cases hpc : s.pcs i with
  | idle =>
    rw [hpc] at ht
    cases r with
    | published answer => cases ht
    | call request =>
      injection ht with ht
      cases hc : request.change with
      | some c => exact settled_switched h hc (ht ▸ begin_switched hc)
      | none =>
        obtain ⟨result, g', hbegin, hheld, hjust⟩ := begin_asked (m := m) h.held hc
        rw [hbegin] at ht
        subst ht
        refine h.quiet ?_ hheld ?_ ?_
        · intro a ha
          rcases List.mem_cons.mp ha with rfl | ha
          · exact ⟨hc, fun _ _ => rfl⟩
          · exact finish_quiet request result a ha
        · intro before request' result' after hacts
          have hmem : GrantAction.answered request' result' ∈
              GrantAction.called request :: finish request result := by
            rw [show GrantAction.called request :: finish request result = _ from hacts]
            exact List.mem_append_right _ List.mem_cons_self
          rcases List.mem_cons.mp hmem with heq | hmem
          · cases heq
          · obtain ⟨rfl, rfl⟩ := answered_of_mem_finish hmem
            exact hjust _
        · intro request' hreq
          cases hreq
  | publishing request =>
    obtain ⟨hbus, hsome⟩ := h.waiting i request hpc
    rw [hpc] at ht
    cases r with
    | call request' => cases ht
    | published answer =>
      injection ht with ht
      subst ht
      refine h.quiet (heard_quiet request answer) (fun _ => rfl) ?_ ?_
      · intro before request' result after hacts
        exact justified_heard hbus hsome hacts
      · intro request' hreq
        cases hreq

/-! ## Each call -/

theorem already_iff (h : m.Settled s) (c : GrantChange) :
    Already s.log c ↔ decide (c.permission ∈ s.shared.held c.identityId) = c.granted := by
  unfold Already
  rw [← h.held, Bool.eq_iff_iff (a := decide _), decide_eq_true_iff]

theorem Switched.carried (h : m.Settled s) {request : AuthorizationRequest} {c : GrantChange}
    (hc : request.change = some c) (ht : Switched m s.shared request c t) :
    ∃ actions, t.actions = .called request :: actions ∧
      m.Carried s.log request actions t.pc := by
  rcases ht.told with ⟨hpc, hacts, hsame⟩ | ⟨hbus, hpc, hacts, hdue⟩
  · refine ⟨_, hacts, ?_⟩
    rw [hpc]
    refine .atOnce (.ok .none) ?_
    intro c' hc'
    cases hc.symm.trans hc'
    exact ⟨rfl, fun hbus => (already_iff h c).mpr (hsame hbus)⟩
  · refine ⟨_, hacts, ?_⟩
    rw [hpc]
    refine .announcing hbus hc ?_
    rw [already_iff h, hdue]
    simp

theorem begin_carried (h : m.Settled s) (request : AuthorizationRequest) :
    ∃ actions, (m.begin s.shared request).actions = .called request :: actions ∧
      m.Carried s.log request actions (m.begin s.shared request).pc := by
  cases hc : request.change with
  | some c => exact (begin_switched hc).carried h hc
  | none =>
    obtain ⟨result, g', hbegin, -, -⟩ := begin_asked (m := m) h.held hc
    rw [hbegin]
    refine ⟨_, rfl, .atOnce result ?_⟩
    intro c hc'
    rw [hc] at hc'
    cases hc'

theorem Carried.turn {g : ExplicitGrants} {r : GrantReply} {pre : GrantLog}
    {request : AuthorizationRequest} {done : List GrantAction} {p : GrantPlace}
    (h : m.Carried pre request done p) (hidle : p ≠ .idle)
    (ht : m.turn i g p r = some t) : m.Carried pre request (done ++ t.actions) t.pc := by
  cases h with
  | atOnce result _ => exact absurd rfl hidle
  | announced _ _ _ answer => exact absurd rfl hidle
  | announcing hbus hc hdue =>
    cases r with
    | call request' => cases ht
    | published answer =>
      injection ht with ht
      subst ht
      exact .announced hbus hc hdue answer

/-- **However any number of tasks use the manager, and however the bus answers them**: what is held
is what was granted since it was last revoked, every answer was the right one when it was given, the
events about a permission are its changes, one after the other, and a change fails just as the bus
has. -/
theorem permissions_accounted {ls : List (Nat × GrantReply)}
    (he : m.system.exec start ls = some s) : m.Accounted s := by
  have hcalls : Tasks.CallsKept GrantAction.called m.Carried .idle start :=
    fun i => Or.inl ⟨rfl, rfl⟩
  have hrun := Tasks.exec_calls (J := m.Settled) ?_ ?_ ?_ settled_start hcalls he
  · exact ⟨hrun.1, hrun.2⟩
  · intro s i r t hs ht
    exact hs.turn ht
  · intro s i r t hs ht
    cases r with
    | published answer => cases ht
    | call request =>
      injection ht with ht
      subst ht
      exact ⟨request, begin_carried hs request⟩
  · intro s i r t pre request done _ hidle hcarried ht
    exact hcarried.turn hidle ht

def guest : Identity where
  id := "1"
  username := "ada"
  displayName := "Ada"
  roles := [.GUEST]
  createdAt := 0
  updatedAt := 0

def announcing : AuthorizationManager := { hasBus := true }

def crossing : List (Nat × GrantReply) :=
  [(0, .call (.grant guest .CAMERA)), (1, .call (.hasPermission guest .CAMERA)),
    (1, .call (.revoke guest .CAMERA)), (0, .published (.error ⟨.runtimeError, []⟩)),
    (1, .published (.ok ())), (0, .call (.authorize guest .CAMERA))]

theorem crossing_accounted :
    ∃ s, announcing.system.exec start crossing = some s ∧ announcing.Accounted s := by
  refine ⟨_, rfl, ?_⟩
  exact permissions_accounted (show announcing.system.exec start crossing = some _ from rfl)

end AuthorizationManager

end IraOS
