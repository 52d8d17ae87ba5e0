import IraOS.Identity.Authentication
import IraOS.Lib.System

/-!
# The context as a stack

What the current session and identity of one task ought to be: the newest pair pushed whose session
has not been logged out and whose push has not been undone (`ContextHistory`). The code keeps saved
values and reset tokens instead, and the two part ways in three places.

* `set_context(None, None)` looks for a frame filed under no session, finds none, and undoes
  nothing (`setContext_none_none`).
* A session's logout gives up one of its frames, not all, and a session that is pushed again after
  its logout is shown again.
* The newest frame restores what was current at its push, **logged out since or not**.

`current_is_newest` is the other side: a run that stays clear of the three (`Undisturbed`) shows the
newest pair left, at every moment.

## Two machines side by side

The code and the history are run together (`shadowed`): the history sees what the code was asked,
and never what the code shows. `Undisturbed` is a condition on the history and the operation about
to be done, so it can be checked without running the code.

The runs are those of one task in which no session that is left expires. An expiry gives up a frame
as a logout does, at a moment that the clock decides, and would have to be among the operations.

## The invariant

`Shows` ties the two: the variables have the newest pair, and every frame saves what was newest at
the push it was made at. A logout of an older session removes a frame from the middle, and the
frames above it keep what they have saved; that is the third of the three places, and the reason
that the condition has to look at the push below.
-/

set_option autoImplicit false

namespace IraOS

open Lib AuthenticationManager

/-! ## The stack with removal -/

structure Pushed where
  session : Session
  identity : Identity
  below : Option (Session × Identity)

def Pushed.pair (p : Pushed) : Session × Identity := (p.session, p.identity)

def Pushed.isOf (sessionId : String) (p : Pushed) : Bool := p.session.sessionId = sessionId

/-- The pairs neither undone nor of a session logged out, newest first, and the sessions that were
logged out. -/
structure ContextHistory where
  remaining : List Pushed := []
  loggedOut : List String := []

namespace ContextHistory

/-- The newest pair of a list of pushes. -/
def newestOf (pushes : List Pushed) : Option (Session × Identity) := pushes.head?.map Pushed.pair

def newest (h : ContextHistory) : Option (Session × Identity) := newestOf h.remaining

def push (h : ContextHistory) (session : Session) (identity : Identity) : ContextHistory :=
  if session.sessionId ∈ h.loggedOut then h
  else { h with remaining := ⟨session, identity, h.newest⟩ :: h.remaining }

def logOut (h : ContextHistory) (sessionId : String) : ContextHistory where
  remaining := h.remaining.filter fun p => !p.isOf sessionId
  loggedOut := sessionId :: h.loggedOut

def undo (h : ContextHistory) : ContextHistory := { h with remaining := h.remaining.tail }

end ContextHistory

/-! ## The code beside it -/

inductive ContextOp where
  | authenticate (identity : Identity) (deviceId : Option String) (uuid : String) (elapsed : Nat)
  | logout (sessionId : Option String)
  | setContext (session : Session) (identity : Identity)
  | clearContext
  | elapse (time : Nat)

structure Shadowed where
  world : IdentityWorld
  history : ContextHistory := {}

def Shadowed.lasting (s : Shadowed) : Bool :=
  s.history.remaining.all fun p => !p.session.isExpired s.world.now

namespace AuthenticationManager

variable (m : AuthenticationManager) (task : Nat)

def shadow (s : Shadowed) : ContextOp → Option Shadowed
  | .authenticate identity deviceId uuid elapsed =>
    match m.authenticate task identity deviceId uuid elapsed s.world with
    | ⟨.ok session, w, _⟩ => some ⟨w, s.history.push session identity⟩
    | ⟨.error _, _, _⟩ => none
  | .logout sessionId =>
    match logoutTarget task s.world sessionId with
    | none => none
    | some target =>
      match s.world.sessions.get? target with
      | none => none
      | some session =>
        if session.isExpired s.world.now = true then none
        else some ⟨(m.logout task sessionId s.world).state, s.history.logOut target⟩
  | .setContext session identity =>
    some ⟨(m.setContext task (some session) (some identity) s.world).state,
      s.history.push session identity⟩
  | .clearContext => some ⟨(m.setContext task none none s.world).state, s.history.undo⟩
  | .elapse time => some ⟨s.world.elapse time, s.history⟩

/-- Runs of one task in which no session that is left expires. -/
def shadowed : System Shadowed ContextOp where
  step s op := (m.shadow task s op).filter Shadowed.lasting

end AuthenticationManager

/-- What an operation must not do for the context to stay the stack it should be: push a session
that was logged out, clear while anything is left, or log out a session that was pushed more than
once or whose push is the newest and covered a pair that is no longer the newest below it. -/
def Undisturbed (task : Nat) (s : Shadowed) : ContextOp → Prop
  | .authenticate _ _ uuid _ => uuid ∉ s.history.loggedOut
  | .setContext session _ => session.sessionId ∉ s.history.loggedOut
  | .clearContext => s.history.remaining = []
  | .logout sessionId => ∀ target, logoutTarget task s.world sessionId = some target →
      s.history.remaining.countP (Pushed.isOf target) ≤ 1 ∧
      ∀ p rest, s.history.remaining = p :: rest → p.isOf target = true →
        p.below = ContextHistory.newestOf rest
  | .elapse _ => True

/-! ## What the two have in common -/

/-- A frame and the push it was made at: its tokens are the task's, and hold what was newest. -/
structure Saves (task : Nat) (f : ContextFrame) (p : Pushed) : Prop where
  sessionId : f.sessionId = p.session.sessionId
  sessionContext : f.sessionToken.context = task
  identityContext : f.identityToken.context = task
  session : f.sessionToken.oldValue = p.below.map Prod.fst
  identity : f.identityToken.oldValue = p.below.map Prod.snd

/-- The context variables show `newest`, and the frames are those of `remaining`, newest first. -/
structure Shows (task : Nat) (c : Context) (remaining : List Pushed) : Prop where
  session : c.currentSession = (ContextHistory.newestOf remaining).map Prod.fst
  identity : c.currentIdentity = (ContextHistory.newestOf remaining).map Prod.snd
  frames : List.Forall₂ (Saves task) c.contextStack remaining

theorem Saves.isOf {task : Nat} {f : ContextFrame} {p : Pushed} (h : Saves task f p)
    (id : String) : (some f.sessionId = some id) = (p.isOf id = true) := by
  rw [h.sessionId, Pushed.isOf, Option.some.injEq, decide_eq_true_eq]

theorem forall₂_eraseP {task : Nat} {fs : List ContextFrame} {ps : List Pushed} (id : String)
    (h : List.Forall₂ (Saves task) fs ps) (hone : ps.countP (Pushed.isOf id) ≤ 1) :
    List.Forall₂ (Saves task) (fs.eraseP fun f => some f.sessionId = some id)
      (ps.filter fun p => !p.isOf id) := by
  induction h with
  | nil => exact .nil
  | @cons f p fs ps hp hps ih =>
    by_cases hid : p.isOf id = true
    · have hf : some f.sessionId = some id := (hp.isOf id).mpr hid
      rw [List.countP_cons_of_pos hid] at hone
      have hnone : ∀ q ∈ ps, ¬ q.isOf id = true := List.countP_eq_zero.mp (by omega)
      have hall : ps.filter (fun q => !q.isOf id) = ps :=
        List.filter_eq_self.mpr fun q hq => by simpa using hnone q hq
      rw [List.eraseP_cons_of_pos (by simpa using hf), List.filter_cons_of_neg (by simpa using hid),
        hall]
      exact hps
    · have hf : ¬ some f.sessionId = some id := fun hq => hid ((hp.isOf id).mp hq)
      rw [List.countP_cons_of_neg hid] at hone
      rw [List.eraseP_cons_of_neg (by simpa using hf), List.filter_cons_of_pos (by simpa using hid)]
      exact .cons hp (ih hone)

/-! ## One operation -/

section Step

variable {m : AuthenticationManager} {task : Nat} {w : IdentityWorld} {h : ContextHistory}

theorem shows_push {session : Session} (identity : Identity)
    (hs : Shows task (w.contexts task) h.remaining) (hnew : session.sessionId ∉ h.loggedOut) :
    Shows task ((w.push task session identity).contexts task)
      (h.push session identity).remaining := by
  have hc : (w.push task session identity).contexts task
      = (w.contexts task).push task session identity := IdentityWorld.setContext_contexts_self ..
  have hp : (h.push session identity).remaining
      = ⟨session, identity, h.newest⟩ :: h.remaining := by
    rw [ContextHistory.push, if_neg hnew]
  rw [hc, hp]
  refine ⟨rfl, rfl, .cons ⟨rfl, rfl, rfl, hs.session, hs.identity⟩ hs.frames⟩

theorem shows_restore {id : String} (hs : Shows task (w.contexts task) h.remaining)
    (hone : h.remaining.countP (Pushed.isOf id) ≤ 1)
    (hbelow : ∀ p rest, h.remaining = p :: rest → p.isOf id = true →
      p.below = ContextHistory.newestOf rest) :
    Shows task ((m.restoreContextForSession task (some id) w).state.contexts task)
      (h.logOut id).remaining := by
  obtain ⟨hsession, hidentity, hframes⟩ := hs
  have herase := forall₂_eraseP id hframes hone
  cases hrem : h.remaining with
  | nil =>
    rw [hrem, List.forall₂_nil_right_iff] at hframes
    rw [restore_nil hframes, ContextHistory.logOut, hrem]
    rw [hrem] at hsession hidentity
    exact ⟨hsession, hidentity, hframes ▸ .nil⟩
  | cons p rest =>
    rw [hrem, List.forall₂_cons_right_iff] at hframes
    obtain ⟨f, fs, hf, hfs, hstack⟩ := hframes
    rw [hrem, hstack] at herase
    rw [ContextHistory.logOut, hrem]
    by_cases hid : p.isOf id = true
    · have hfid : some f.sessionId = some id := (hf.isOf id).mpr hid
      rw [List.eraseP_cons_of_pos (by simpa using hfid)] at herase
      have hrest : (p :: rest).filter (fun q => !q.isOf id) = rest := by
        rw [List.filter_cons_of_neg (by simpa using hid), List.filter_eq_self]
        rw [hrem, List.countP_cons_of_pos hid] at hone
        intro q hq
        have hq := List.countP_eq_zero.mp (Nat.le_zero.mp (Nat.le_of_succ_le_succ hone)) q hq
        simpa using hq
      rw [restore_newest hstack hfid hf.sessionContext hf.identityContext,
        IdentityWorld.setContext_contexts_self, hrest]
      have hb := hbelow p rest hrem hid
      exact ⟨hf.session.trans (hb ▸ rfl), hf.identity.trans (hb ▸ rfl), hfs⟩
    · have hfid : ¬ some f.sessionId = some id := fun hq => hid ((hf.isOf id).mp hq)
      rw [List.eraseP_cons_of_neg (by simpa using hfid)] at herase
      rw [restore_older hstack hfid, IdentityWorld.setContext_contexts_self,
        List.filter_cons_of_pos (by simpa using hid)]
      rw [List.filter_cons_of_pos (by simpa using hid)] at herase
      rw [hrem] at hsession hidentity
      exact ⟨hsession, hidentity, herase⟩

/-- **The manual clear clears nothing**: it restores for a session no frame is filed under. -/
theorem setContext_none_none : m.setContext task none none w = ⟨.ok (), w, []⟩ := by
  show (m.restoreContextForSession task none >>= fun _ => pure ()) w = _
  rw [Act.run_bind_of_ok restore_none]
  rfl

end Step

/-! ## Runs -/

section Runs

variable {m : AuthenticationManager} {task : Nat}

theorem shows_step {s s' : Shadowed} {op : ContextOp}
    (hs : Shows task (s.world.contexts task) s.history.remaining) (hC : Undisturbed task s op)
    (h : m.shadow task s op = some s') :
    Shows task (s'.world.contexts task) s'.history.remaining := by
  cases op with
  | authenticate identity deviceId uuid elapsed =>
    simp only [shadow] at h
    split at h
    · next session w t hrun =>
      rw [Option.some.injEq] at h
      subst h
      obtain ⟨_, _, hsession, rfl⟩ := authenticate_ok hrun
      refine shows_push identity hs ?_
      rw [hsession]
      exact hC
    · cases h
  | logout sessionId =>
    simp only [shadow] at h
    split at h
    · cases h
    next target htarget =>
    split at h
    · cases h
    next session hsession =>
    split at h
    · cases h
    rw [Option.some.injEq] at h
    subst h
    obtain ⟨hone, hbelow⟩ := hC target htarget
    show Shows task ((m.logout task sessionId s.world).state.contexts task) _
    rw [logout_state htarget hsession]
    exact shows_restore (w := s.world.removeSession target) hs hone hbelow
  | setContext session identity =>
    simp only [shadow, Option.some.injEq] at h
    subst h
    exact shows_push identity hs hC
  | clearContext =>
    simp only [shadow, Option.some.injEq, setContext_none_none] at h
    subst h
    have hnil : s.history.remaining = [] := hC
    show Shows task (s.world.contexts task) s.history.remaining.tail
    rw [hnil] at hs ⊢
    exact hs
  | elapse time =>
    simp only [shadow, Option.some.injEq] at h
    subst h
    exact hs

theorem answers_of_shows {s : Shadowed}
    (hs : Shows task (s.world.contexts task) s.history.remaining) (hl : s.lasting = true) :
    (m.currentSession task s.world).result = .ok (s.history.newest.map Prod.fst) ∧
      (m.currentIdentity task s.world).result = .ok (s.history.newest.map Prod.snd) := by
  unfold currentIdentity
  cases hrem : s.history.remaining with
  | nil =>
    rw [hrem] at hs
    have hnone : s.history.newest = none := by rw [ContextHistory.newest, hrem]; rfl
    rw [Act.run_bind_of_ok (currentSession_none hs.session), currentSession_none hs.session, hnone]
    exact ⟨rfl, rfl⟩
  | cons p rest =>
    rw [hrem] at hs
    have hsome : s.history.newest = some p.pair := by rw [ContextHistory.newest, hrem]; rfl
    have hlive : p.session.isExpired s.world.now = false := by
      rw [Shadowed.lasting, hrem, List.all_cons, Bool.and_eq_true] at hl
      simpa using hl.1
    have hrun := currentSession_live (m := m) hs.session hlive
    rw [Act.run_bind_of_ok hrun, hrun, hsome]
    exact ⟨rfl, congrArg Except.ok hs.identity⟩

/-- **An undisturbed run shows the newest pair left**: from a task with nothing current, at every
moment, the current session and identity are those of the newest pair pushed that has been neither
logged out nor undone, and none where there is none. -/
theorem current_is_newest {w : IdentityWorld} {ops : List ContextOp} {s : Shadowed}
    (hempty : w.contexts task = {})
    (hm : (m.shadowed task).Meets (Undisturbed task) ⟨w, {}⟩ ops)
    (he : (m.shadowed task).exec ⟨w, {}⟩ ops = some s) :
    (m.currentSession task s.world).result = .ok (s.history.newest.map Prod.fst) ∧
      (m.currentIdentity task s.world).result = .ok (s.history.newest.map Prod.snd) := by
  have hinv := System.exec_induct
    (P := fun s => Shows task (s.world.contexts task) s.history.remaining ∧ s.lasting = true)
    (fun s op s' hP hC hstep => by
      obtain ⟨hstep, hl⟩ := Option.filter_eq_some_iff.mp hstep
      exact ⟨shows_step hP.1 hC hstep, hl⟩)
    ⟨by rw [hempty]; exact ⟨rfl, rfl, .nil⟩, rfl⟩ hm he
  exact answers_of_shows hinv.1 hinv.2

end Runs

/-! ## In order, and out of it -/

def ada : Identity := .named "1" "ada" [.OWNER]

def adaWorld : IdentityWorld := .start (IdentityRegistry.after [.register ada])

def twoSessions (logouts : List String) : List ContextOp :=
  .authenticate ada none "s1" 0 :: .authenticate ada none "s2" 0 ::
    logouts.map fun id => .logout (some id)

def afterOps (ops : List ContextOp) : Shadowed :=
  ((plain.shadowed 0).exec ⟨adaWorld, {}⟩ ops).getD ⟨adaWorld, {}⟩

theorem nested_undisturbed :
    (plain.shadowed 0).Meets (Undisturbed 0) ⟨adaWorld, {}⟩ (twoSessions ["s2"]) := by
  have hfresh : ∀ uuid : String, uuid ∉ ([] : List String) := fun _ => List.not_mem_nil
  refine System.meets_cons (hfresh "s1") rfl (System.meets_cons (hfresh "s2") rfl ?_)
  refine System.meets_cons ?_ rfl trivial
  intro target ht
  cases ht
  refine ⟨by decide, ?_⟩
  intro p rest hp _
  cases hp
  rfl

theorem current_is_newest_nested :
    (plain.currentSession 0 (afterOps (twoSessions ["s2"])).world).result
        = .ok ((afterOps (twoSessions ["s2"])).history.newest.map Prod.fst) ∧
      (plain.currentIdentity 0 (afterOps (twoSessions ["s2"])).world).result
        = .ok ((afterOps (twoSessions ["s2"])).history.newest.map Prod.snd) :=
  current_is_newest rfl nested_undisturbed rfl

theorem logged_out_session_returns :
    ((plain.shadowed 0).exec ⟨adaWorld, {}⟩ (twoSessions ["s1", "s2"])).isSome = true ∧
      (afterOps (twoSessions ["s1", "s2"])).history.newest.isNone = true ∧
      (match (plain.currentSession 0 (afterOps (twoSessions ["s1", "s2"])).world).result with
        | .ok shown => shown.map Session.sessionId
        | .error _ => none) = some "s1" ∧
      (plain.currentSession 0 (afterOps (twoSessions ["s1", "s2"])).world).result
        ≠ .ok ((afterOps (twoSessions ["s1", "s2"])).history.newest.map Prod.fst) := by
  refine ⟨rfl, rfl, rfl, ?_⟩
  intro h
  cases h

end IraOS
