import IraOS.Identity.Registry
import IraOS.Lib.Act
import Mathlib.Logic.Function.Basic

/-!
# Authentication

`core/identity/authentication.py` and what `core/identity/manager.py` and
`core/identity/session_registry.py` add to it. The two registries are shared; the current session
and identity, and the frames to go back by, are context variables, so every task has its own, a copy
of its parent's to begin with.

`contextvars` is modelled as documented: `Token.reset` gives a variable the value it had before the
`set` that made the token, and raises in any other context than the one it was made in. Within that
context no token is spent twice, since a frame is given up together with its tokens.

## The frames

`set_context` and `authenticate` push a frame, with the tokens of the two `set`s; `logout` and an
expiry give up the newest frame filed under the session. Only if that is the newest frame of all
does the context go back, by its tokens. The list of frames is itself in a context variable, so a
child has its parent's frames, with tokens that are good only in the parent.

## Who looks at what

`current_session` looks at the clock and at the context, and at the registry only to take an expired
session out. `authenticate` looks at the identity registry, for the id alone. `logout` removes the
session from the registry before it restores the context and before it publishes, and does not catch
what either raises. These orders are kept: most of what can be said about sessions depends on them.

Each operation has one lemma for what it leaves and one for what an answer took; later modules use
these and do not unfold the operations.
-/

set_option autoImplicit false

namespace IraOS

open Lib

/-! ## Context variables -/

structure Token (α : Type) where
  context : Nat
  oldValue : Option α

structure ContextFrame where
  sessionId : String
  prevSession : Option Session
  prevIdentity : Option Identity
  sessionToken : Token Session
  identityToken : Token Identity

/-- The three variables of one task; the frames newest first. A task that is started gets a copy,
and from then on neither hears of the other's changes. -/
structure Context where
  currentSession : Option Session := none
  currentIdentity : Option Identity := none
  contextStack : List ContextFrame := []

def Context.push (c : Context) (task : Nat) (session : Session) (identity : Identity) :
    Context where
  currentSession := some session
  currentIdentity := some identity
  contextStack :=
    { sessionId := session.sessionId
      prevSession := c.currentSession
      prevIdentity := c.currentIdentity
      sessionToken := ⟨task, c.currentSession⟩
      identityToken := ⟨task, c.currentIdentity⟩ } :: c.contextStack

/-- What there is: the two registries, a context for each of the tasks created so far, and the
time. -/
structure IdentityWorld where
  identities : IdentityRegistry
  sessions : Dict String Session
  contexts : Nat → Context
  tasks : Nat
  now : Int

namespace IdentityWorld

variable (w : IdentityWorld)

def setContext (task : Nat) (c : Context) : IdentityWorld :=
  { w with contexts := Function.update w.contexts task c }

def push (task : Nat) (session : Session) (identity : Identity) : IdentityWorld :=
  w.setContext task ((w.contexts task).push task session identity)

def spawn (parent : Nat) : IdentityWorld :=
  { w with
    contexts := Function.update w.contexts w.tasks (w.contexts parent)
    tasks := w.tasks + 1 }

def setSessions (sessions : Dict String Session) : IdentityWorld := { w with sessions := sessions }

def addSession (session : Session) : IdentityWorld :=
  w.setSessions (w.sessions.set session.sessionId session)

def removeSession (sessionId : String) : IdentityWorld := w.setSessions (w.sessions.erase sessionId)

def elapse (time : Nat) : IdentityWorld := { w with now := w.now + time }

@[simp] theorem setContext_sessions (t : Nat) (c : Context) :
    (w.setContext t c).sessions = w.sessions := rfl

@[simp] theorem setContext_now (t : Nat) (c : Context) : (w.setContext t c).now = w.now := rfl

@[simp] theorem setContext_contexts_self (t : Nat) (c : Context) :
    (w.setContext t c).contexts t = c := Function.update_self ..

@[simp] theorem setContext_setContext (t : Nat) (c c' : Context) :
    (w.setContext t c).setContext t c' = w.setContext t c' := by
  simp only [setContext, Function.update_idem]

theorem setContext_same (t : Nat) : w.setContext t (w.contexts t) = w := by
  simp only [setContext, Function.update_eq_self]

theorem setContext_contexts_ne {t u : Nat} (c : Context) (h : u ≠ t) :
    (w.setContext t c).contexts u = w.contexts u := Function.update_of_ne h ..

@[simp] theorem setSessions_sessions (d : Dict String Session) :
    (w.setSessions d).sessions = d := rfl

@[simp] theorem setSessions_contexts (d : Dict String Session) :
    (w.setSessions d).contexts = w.contexts := rfl

@[simp] theorem setSessions_now (d : Dict String Session) : (w.setSessions d).now = w.now := rfl

@[simp] theorem removeSession_sessions (id : String) :
    (w.removeSession id).sessions = w.sessions.erase id := rfl

@[simp] theorem removeSession_contexts (id : String) :
    (w.removeSession id).contexts = w.contexts := rfl

@[simp] theorem removeSession_now (id : String) : (w.removeSession id).now = w.now := rfl

@[simp] theorem addSession_sessions (s : Session) :
    (w.addSession s).sessions = w.sessions.set s.sessionId s := rfl

@[simp] theorem addSession_contexts (s : Session) : (w.addSession s).contexts = w.contexts := rfl

@[simp] theorem addSession_now (s : Session) : (w.addSession s).now = w.now := rfl

@[simp] theorem elapse_sessions (n : Nat) : (w.elapse n).sessions = w.sessions := rfl

@[simp] theorem elapse_contexts (n : Nat) : (w.elapse n).contexts = w.contexts := rfl

@[simp] theorem elapse_now (n : Nat) : (w.elapse n).now = w.now + n := rfl

end IdentityWorld

abbrev IdentityAct := Act IdentityWorld Exn IdentityEvent

structure AuthenticationManager where
  /-- `config.section(IdentityConfig).session_timeout`, if the configuration has one. -/
  sessionTimeout : Option Int
  /-- The event bus, if there is one, by how its `publish` of an event ends. -/
  eventBus : Option (IdentityEvent → Except Exn Unit)
  foreignToken : Exn

def datetimeMax : Int := 253402300799999999

namespace AuthenticationManager

variable (m : AuthenticationManager) (task : Nat)

/-! ## The context stack -/

def pushContext (session : Session) (identity : Identity) : IdentityAct Unit :=
  Act.modify fun w => w.push task session identity

def resetContext (frame : ContextFrame) : IdentityAct Unit := do
  if frame.sessionToken.context = task then
    Act.modify fun w => w.setContext task
      { w.contexts task with currentSession := frame.sessionToken.oldValue }
    if frame.identityToken.context = task then
      Act.modify fun w => w.setContext task
        { w.contexts task with currentIdentity := frame.identityToken.oldValue }
    else Act.throw m.foreignToken
  else Act.throw m.foreignToken

def setStack (frames : List ContextFrame) : IdentityAct Unit :=
  Act.modify fun w => w.setContext task { w.contexts task with contextStack := frames }

/-- Give up the newest frame of the session. Only where it is the newest of all does the context
go back to what it was before. -/
def restoreContextForSession (sessionId : Option String) : IdentityAct Bool := do
  let w ← Act.get
  match (w.contexts task).contextStack with
  | [] => pure false
  | newest :: older =>
    if some newest.sessionId = sessionId then do
      m.resetContext task newest
      setStack task older
      pure true
    else do
      setStack task (newest :: older.eraseP fun f => some f.sessionId = sessionId)
      pure (older.any fun f => some f.sessionId = sessionId)

/-! ## The public operations -/

def publish (event : IdentityEvent) : IdentityAct Unit :=
  match m.eventBus with
  | none => pure ()
  | some answer => do
    Act.emit event
    Act.ofExcept (answer event)

def truthy : Option String → Option String
  | some s => if s = "" then none else some s
  | none => none

def expiresAt (w : IdentityWorld) : Int := w.now + m.sessionTimeout.getD 86400 * 1000000

def newSession (identity : Identity) (deviceId : Option String) (uuid : String)
    (w : IdentityWorld) : Session where
  sessionId := uuid
  identityId := identity.id
  deviceId := deviceId
  startedAt := w.now
  expiresAt := some (m.expiresAt w)
  authenticated := true

/-- `authenticate(identity, device_id)`, with the id `uuid4` draws and the time that passes
between the two looks at the clock. -/
def authenticate (identity : Identity) (deviceId : Option String) (uuid : String)
    (elapsed : Nat) : IdentityAct Session := do
  let w ← Act.get
  if identity.active = false then
    Act.throw ⟨.authenticationError, lit ("Identity '" ++ identity.id ++ "' is not active.")⟩
  else if w.identities.exists identity.id = false then
    Act.throw ⟨.authenticationError, lit ("Identity '" ++ identity.id ++ "' is not registered.")⟩
  else if m.sessionTimeout.getD 86400 ≤ 0 then
    Act.throw ⟨.sessionExpiredError, lit "Session timeout is not positive."⟩
  else if datetimeMax < m.expiresAt w then
    Act.throw ⟨.overflowError, lit "date value out of range"⟩
  else if w.sessions.contains uuid = true then
    Act.throw ⟨.sessionRegistrationError, lit ("Session '" ++ uuid ++ "' already exists.")⟩
  else do
    let session := m.newSession identity deviceId uuid w
    Act.modify fun w => (w.addSession session).elapse elapsed
    if session.isExpired (w.now + elapsed) = true then do
      Act.modify fun w => w.removeSession uuid
      Act.throw ⟨.sessionExpiredError,
        lit ("Session '" ++ uuid ++ "' has expired before authentication completed.")⟩
    else do
      pushContext task session identity
      m.publish (.identityAuthenticated identity.id uuid)
      pure session

def logoutTarget (w : IdentityWorld) (sessionId : Option String) : Option String :=
  (truthy sessionId).or (truthy ((w.contexts task).currentSession.map Session.sessionId))

def logout (sessionId : Option String) : IdentityAct Unit := do
  let w ← Act.get
  match logoutTarget task w sessionId with
  | none => pure ()
  | some target =>
    match w.sessions.get? target with
    | none => pure ()
    | some session =>
      if session.isExpired w.now = true then do
        Act.modify fun w => w.removeSession target
        let _ ← m.restoreContextForSession task (some target)
        Act.throw ⟨.sessionExpiredError, lit ("Session '" ++ target ++ "' has expired.")⟩
      else do
        Act.modify fun w => w.removeSession target
        let _ ← m.restoreContextForSession task (some target)
        m.publish (.identityLoggedOut session.identityId target)

def currentSession : IdentityAct (Option Session) := do
  let w ← Act.get
  match (w.contexts task).currentSession with
  | none => pure none
  | some session =>
    if session.isExpired w.now = true then do
      Act.modify fun w => w.removeSession session.sessionId
      let _ ← m.restoreContextForSession task (some session.sessionId)
      pure none
    else pure (some session)

def currentIdentity : IdentityAct (Option Identity) := do
  match ← m.currentSession task with
  | none => pure none
  | some _ => do
    let w ← Act.get
    pure (w.contexts task).currentIdentity

def setContext (session : Option Session) (identity : Option Identity) : IdentityAct Unit :=
  match session, identity with
  | none, none => do
    let _ ← m.restoreContextForSession task none
    pure ()
  | some session, some identity => pushContext task session identity
  | _, _ => pure ()

/-! ## How the context stack moves -/

section Restore

variable {m task} {w : IdentityWorld} {id : Option String}

theorem resetContext_own {frame : ContextFrame} (hs : frame.sessionToken.context = task)
    (hi : frame.identityToken.context = task) :
    m.resetContext task frame w = ⟨.ok (), w.setContext task
      { w.contexts task with
        currentSession := frame.sessionToken.oldValue
        currentIdentity := frame.identityToken.oldValue }, []⟩ := by
  unfold resetContext
  rw [if_pos hs, Act.bind_modify, if_pos hi, Act.run_modify, IdentityWorld.setContext_setContext,
    IdentityWorld.setContext_contexts_self]

theorem resetContext_foreign {frame : ContextFrame} (hs : frame.sessionToken.context ≠ task) :
    m.resetContext task frame w = ⟨.error m.foreignToken, w, []⟩ := by
  unfold resetContext
  rw [if_neg hs, Act.run_throw]

theorem restore_nil (h : (w.contexts task).contextStack = []) :
    m.restoreContextForSession task id w = ⟨.ok false, w, []⟩ := by
  unfold restoreContextForSession
  rw [Act.bind_get, h]
  rfl

/-- The newest frame of all, made here: the context goes back. -/
theorem restore_newest {newest : ContextFrame} {older : List ContextFrame}
    (h : (w.contexts task).contextStack = newest :: older) (hid : some newest.sessionId = id)
    (hs : newest.sessionToken.context = task) (hi : newest.identityToken.context = task) :
    m.restoreContextForSession task id w = ⟨.ok true, w.setContext task
      { currentSession := newest.sessionToken.oldValue
        currentIdentity := newest.identityToken.oldValue
        contextStack := older }, []⟩ := by
  unfold restoreContextForSession
  rw [Act.bind_get, h]
  dsimp only
  rw [if_pos hid, Act.run_bind_of_ok (resetContext_own hs hi), setStack, Act.bind_modify,
    IdentityWorld.setContext_setContext, IdentityWorld.setContext_contexts_self, Act.run_pure]
  rfl

theorem restore_older {newest : ContextFrame} {older : List ContextFrame}
    (h : (w.contexts task).contextStack = newest :: older) (hid : some newest.sessionId ≠ id) :
    m.restoreContextForSession task id w =
      ⟨.ok (older.any fun f => some f.sessionId = id), w.setContext task
        { w.contexts task with
          contextStack := newest :: older.eraseP fun f => some f.sessionId = id }, []⟩ := by
  unfold restoreContextForSession
  rw [Act.bind_get, h]
  dsimp only
  rw [if_neg hid, setStack, Act.bind_modify, Act.run_pure]

theorem restore_foreign {newest : ContextFrame} {older : List ContextFrame}
    (h : (w.contexts task).contextStack = newest :: older) (hid : some newest.sessionId = id)
    (hs : newest.sessionToken.context ≠ task) :
    m.restoreContextForSession task id w = ⟨.error m.foreignToken, w, []⟩ := by
  unfold restoreContextForSession
  rw [Act.bind_get, h]
  dsimp only
  rw [if_pos hid, Act.run_bind_of_error (resetContext_foreign hs)]

/-- **A frame is never filed under no session**, so asking for that restores nothing. -/
theorem restore_none :
    m.restoreContextForSession task none w = ⟨.ok false, w, []⟩ := by
  cases h : (w.contexts task).contextStack with
  | nil => exact restore_nil h
  | cons newest older =>
    rw [restore_older h (by simp)]
    have hnone : older.eraseP (fun f => some f.sessionId = none) = older :=
      List.eraseP_of_forall_not (by simp)
    rw [hnone, ← h, IdentityWorld.setContext_same]
    simp

/-- What a task is left showing once a session's newest frame is given up: what the frame saved,
where it is the newest of all and made here, and else what the task shows anyway. -/
def leftShowing (w : IdentityWorld) (task : Nat) (sessionId : String) : Option Session :=
  match (w.contexts task).contextStack with
  | [] => (w.contexts task).currentSession
  | newest :: _ =>
    if newest.sessionId = sessionId ∧ newest.sessionToken.context = task then
      newest.sessionToken.oldValue
    else (w.contexts task).currentSession

variable (m task w) in
theorem restore_state (sessionId : String) :
    ∃ c : Context, c.currentSession = leftShowing w task sessionId ∧
      (m.restoreContextForSession task (some sessionId) w).state = w.setContext task c := by
  unfold leftShowing
  cases h : (w.contexts task).contextStack with
  | nil => exact ⟨w.contexts task, rfl, by rw [restore_nil h, IdentityWorld.setContext_same]⟩
  | cons newest older =>
    dsimp only
    by_cases hid : newest.sessionId = sessionId
    · by_cases hs : newest.sessionToken.context = task
      · rw [if_pos ⟨hid, hs⟩]
        by_cases hi : newest.identityToken.context = task
        · exact ⟨_, rfl, by rw [restore_newest h (congrArg some hid) hs hi]⟩
        · refine ⟨{ w.contexts task with currentSession := newest.sessionToken.oldValue }, rfl, ?_⟩
          have hreset : m.resetContext task newest w = ⟨.error m.foreignToken, w.setContext task
              { w.contexts task with currentSession := newest.sessionToken.oldValue }, []⟩ := by
            unfold resetContext
            rw [if_pos hs, Act.bind_modify, if_neg hi, Act.run_throw]
          unfold restoreContextForSession
          rw [Act.bind_get, h]
          dsimp only
          rw [if_pos (congrArg some hid), Act.run_bind_of_error hreset]
      · rw [if_neg (fun hq => hs hq.2)]
        refine ⟨w.contexts task, rfl, ?_⟩
        rw [restore_foreign h (congrArg some hid) hs, IdentityWorld.setContext_same]
    · rw [if_neg (fun hq => hid hq.1)]
      have hne : some newest.sessionId ≠ some sessionId := fun hq => hid (Option.some.inj hq)
      refine ⟨{ w.contexts task with
        contextStack := newest :: older.eraseP fun f => some f.sessionId = some sessionId },
        rfl, ?_⟩
      rw [restore_older h hne]

end Restore


section Leaves

variable {m task}

theorem publish_state (event : IdentityEvent) (w : IdentityWorld) :
    (m.publish event w).state = w := by
  unfold publish
  cases m.eventBus with
  | none => rfl
  | some answer => rfl

variable (m task) in
theorem authenticate_state (identity : Identity) (deviceId : Option String) (uuid : String)
    (elapsed : Nat) (w : IdentityWorld) :
    let session := m.newSession identity deviceId uuid w
    let w' := (m.authenticate task identity deviceId uuid elapsed w).state
    w' = w ∨ w.sessions.contains uuid = false ∧
      (w' = ((w.addSession session).elapse elapsed).removeSession uuid ∨
        w' = ((w.addSession session).elapse elapsed).push task session identity) := by
  unfold authenticate
  rw [Act.bind_get]
  dsimp only
  split
  · exact Or.inl rfl
  split
  · exact Or.inl rfl
  split
  · exact Or.inl rfl
  split
  · exact Or.inl rfl
  split
  · exact Or.inl rfl
  next hnew =>
  refine Or.inr ⟨Bool.eq_false_of_not_eq_true hnew, ?_⟩
  rw [Act.bind_modify]
  split
  · exact Or.inl rfl
  · refine Or.inr ?_
    rw [pushContext, Act.bind_modify, Act.state_bind_of_still (fun _ _ => rfl), publish_state]

theorem authenticate_ok {identity : Identity} {deviceId : Option String} {uuid : String}
    {elapsed : Nat} {w w' : IdentityWorld} {session : Session} {t : List IdentityEvent}
    (h : m.authenticate task identity deviceId uuid elapsed w = ⟨.ok session, w', t⟩) :
    identity.active = true ∧ w.identities.exists identity.id = true ∧
      session = m.newSession identity deviceId uuid w ∧
      w' = ((w.addSession session).elapse elapsed).push task session identity := by
  unfold authenticate at h
  rw [Act.bind_get] at h
  dsimp only at h
  split at h
  · cases h
  next hactive =>
  split at h
  · cases h
  next hexists =>
  split at h
  · cases h
  split at h
  · cases h
  split at h
  · cases h
  rw [Act.bind_modify] at h
  split at h
  · cases h
  rw [pushContext, Act.bind_modify] at h
  obtain ⟨_, w₁, t₁, t₂, hpub, hpure, _⟩ := Act.bind_ok h
  obtain ⟨hs, hw, _⟩ := Act.pure_ok hpure
  have hstate := publish_state (m := m) (.identityAuthenticated identity.id uuid)
    (((w.addSession (m.newSession identity deviceId uuid w)).elapse elapsed).push task
      (m.newSession identity deviceId uuid w) identity)
  rw [hpub] at hstate
  exact ⟨Bool.eq_true_of_not_eq_false hactive, Bool.eq_true_of_not_eq_false hexists, hs.symm,
    hw.symm.trans (hs ▸ hstate)⟩

theorem logout_state {w : IdentityWorld} {sessionId : Option String} {target : String}
    {session : Session}
    (ht : logoutTarget task w sessionId = some target)
    (hs : w.sessions.get? target = some session) :
    (m.logout task sessionId w).state
      = (m.restoreContextForSession task (some target) (w.removeSession target)).state := by
  unfold logout
  rw [Act.bind_get, ht]
  dsimp only
  rw [hs]
  dsimp only
  split
  · rw [Act.bind_modify, Act.state_bind_of_still (fun _ _ => rfl)]
  · rw [Act.bind_modify, Act.state_bind_of_still (fun _ _ => publish_state _ _)]

theorem logout_state_unknown {w : IdentityWorld} {sessionId : Option String}
    (h : ∀ target, logoutTarget task w sessionId = some target →
      w.sessions.get? target = none) :
    (m.logout task sessionId w).state = w := by
  unfold logout
  rw [Act.bind_get]
  cases ht : logoutTarget task w sessionId with
  | none => rfl
  | some target =>
    dsimp only
    rw [h target ht]
    rfl

theorem currentSession_live {w : IdentityWorld} {session : Session}
    (hs : (w.contexts task).currentSession = some session)
    (hlive : session.isExpired w.now = false) :
    m.currentSession task w = ⟨.ok (some session), w, []⟩ := by
  unfold currentSession
  rw [Act.bind_get, hs]
  dsimp only
  rw [if_neg (Bool.eq_false_iff.mp hlive), Act.run_pure]

theorem currentSession_none {w : IdentityWorld} (hs : (w.contexts task).currentSession = none) :
    m.currentSession task w = ⟨.ok none, w, []⟩ := by
  unfold currentSession
  rw [Act.bind_get, hs]
  rfl

theorem currentSession_expired {w : IdentityWorld} {session : Session}
    (hs : (w.contexts task).currentSession = some session)
    (hexp : session.isExpired w.now = true) :
    (m.currentSession task w).state = (m.restoreContextForSession task (some session.sessionId)
      (w.removeSession session.sessionId)).state := by
  unfold currentSession
  rw [Act.bind_get, hs]
  dsimp only
  rw [if_pos hexp, Act.bind_modify, Act.state_bind_of_still (fun _ _ => rfl)]

theorem currentSession_some {w : IdentityWorld} {session : Session}
    (h : (m.currentSession task w).result = .ok (some session)) :
    (w.contexts task).currentSession = some session ∧ session.isExpired w.now = false := by
  cases hs : (w.contexts task).currentSession with
  | none =>
    rw [currentSession_none hs] at h
    cases h
  | some shown =>
    cases hexp : shown.isExpired w.now with
    | false =>
      rw [currentSession_live hs hexp, Except.ok.injEq, Option.some.injEq] at h
      subst h
      exact ⟨rfl, hexp⟩
    | true =>
      unfold currentSession at h
      rw [Act.bind_get, hs] at h
      dsimp only at h
      rw [if_pos hexp, Act.bind_modify, Act.run_bind] at h
      split at h
      · cases h
      · cases h

end Leaves

end AuthenticationManager

/-! ## The facade -/

namespace IdentityManager

def shutdown : IdentityAct Unit := Act.modify fun w => w.setSessions Dict.empty

/-- `logout(session_id)`, with the time that passes between its two looks at the current
session. -/
def logout (m : AuthenticationManager) (task : Nat) (sessionId : Option String)
    (elapsed : Nat) : IdentityAct Unit :=
  match AuthenticationManager.truthy sessionId with
  | some target => m.logout task (some target)
  | none => do
    match ← m.currentSession task with
    | none => pure ()
    | some _ => do
      Act.modify fun w => w.elapse elapsed
      match ← m.currentSession task with
      | none =>
        Act.throw ⟨.attributeError, lit "'NoneType' object has no attribute 'session_id'"⟩
      | some session =>
        match AuthenticationManager.truthy (some session.sessionId) with
        | none => pure ()
        | some target => m.logout task (some target)

end IdentityManager

/-! ## A world to start in -/

def AuthenticationManager.plain : AuthenticationManager where
  sessionTimeout := none
  eventBus := none
  foreignToken := ⟨.valueError, lit "Token was created in a different Context"⟩

def Identity.named (id username : String) (roles : List Role) : Identity where
  id := id
  username := username
  displayName := username
  roles := roles
  createdAt := 0
  updatedAt := 0

def IdentityWorld.start (identities : IdentityRegistry) : IdentityWorld where
  identities := identities
  sessions := Dict.empty
  contexts _ := {}
  tasks := 1
  now := 0

end IraOS
