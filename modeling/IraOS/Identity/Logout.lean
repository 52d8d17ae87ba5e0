import IraOS.Identity.Revocation

/-!
# Logging out in any task

A child's context is a copy of its parent's, frames included, but the tokens in them are good only
in the context they were made in. `logout` takes the session out of the shared registry **first**
and goes back in its own context then, so where the newest frame is the session's and came with the
copy, the reset raises: the session is gone, and nobody hears of it.

`all_or_nothing_iff` says for every state of every run when a logout is all or nothing. `LoggedOut`
is all of it: the session is out of the registry, the bus has heard of it, and the task shows
another session or none. A session that has expired by then is a case of its own: it is taken out,
and the call raises on purpose.

`Releasable` is the condition, in terms of the task's frames when it calls: if the newest frame is
of the session, it was made in this task and covers another session; and if it is not, the session
is not the current one. So there are three ways to fail: a frame that came with the copy, a session
pushed twice in a row, which is shown again by the frame below, and a current session whose newest
frame is not on top.

That the two tokens of a frame are of one context is an invariant of all runs (`TokensPaired`). It
is needed because the first of the two resets decides whether anything has moved when the second one
raises.
-/

set_option autoImplicit false

namespace IraOS

open Lib AuthenticationManager

/-! ## Frames and their tokens -/

/-- The two tokens of every frame, in whatever context, were made in one. -/
def TokensPaired (w : IdentityWorld) : Prop :=
  ∀ task, ∀ frame ∈ (w.contexts task).contextStack,
    frame.identityToken.context = frame.sessionToken.context

namespace TokensPaired

variable {m : AuthenticationManager} {w : IdentityWorld} {task : Nat}

theorem setContext {c : Context} (h : TokensPaired w)
    (hc : ∀ frame ∈ c.contextStack, frame.identityToken.context = frame.sessionToken.context) :
    TokensPaired (w.setContext task c) := by
  intro u frame hframe
  by_cases hu : u = task
  · rw [hu, IdentityWorld.setContext_contexts_self] at hframe
    exact hc frame hframe
  · rw [IdentityWorld.setContext_contexts_ne w c hu] at hframe
    exact h u frame hframe

theorem push (session : Session) (identity : Identity) (h : TokensPaired w) :
    TokensPaired (w.push task session identity) := by
  apply h.setContext
  intro frame hframe
  rcases List.mem_cons.mp hframe with rfl | hframe
  · rfl
  · exact h task frame hframe

theorem spawn (h : TokensPaired w) : TokensPaired (w.spawn task) := by
  intro u frame hframe
  by_cases hu : u = w.tasks
  · have hchild : (w.spawn task).contexts u = w.contexts task := by
      rw [hu]
      exact Function.update_self ..
    rw [hchild] at hframe
    exact h task frame hframe
  · have hsame : (w.spawn task).contexts u = w.contexts u := Function.update_of_ne hu ..
    rw [hsame] at hframe
    exact h u frame hframe

theorem restore (id : Option String) (h : TokensPaired w) :
    TokensPaired (m.restoreContextForSession task id w).state := by
  cases hstack : (w.contexts task).contextStack with
  | nil =>
    rw [restore_nil hstack]
    exact h
  | cons newest older =>
    have hown : ∀ frame ∈ newest :: older,
        frame.identityToken.context = frame.sessionToken.context := by
      intro frame hframe
      exact h task frame (hstack ▸ hframe)
    by_cases hid : some newest.sessionId = id
    · by_cases hs : newest.sessionToken.context = task
      · have hi : newest.identityToken.context = task := (hown newest (by simp)).trans hs
        rw [restore_newest hstack hid hs hi]
        apply h.setContext
        intro frame hframe
        exact hown frame (List.mem_cons_of_mem _ hframe)
      · rw [restore_foreign hstack hid hs]
        exact h
    · rw [restore_older hstack hid]
      apply h.setContext
      intro frame hframe
      rcases List.mem_cons.mp hframe with rfl | hframe
      · exact hown _ (by simp)
      · exact hown frame (List.mem_cons_of_mem _ (List.mem_of_mem_eraseP hframe))

theorem authenticate (identity : Identity) (deviceId : Option String) (uuid : String)
    (elapsed : Nat) (h : TokensPaired w) :
    TokensPaired (m.authenticate task identity deviceId uuid elapsed w).state := by
  rcases authenticate_state m task identity deviceId uuid elapsed w with hw | ⟨-, hw | hw⟩
  · rw [hw]
    exact h
  · rw [hw]
    exact h
  · rw [hw]
    have hissued : TokensPaired ((w.addSession (m.newSession identity deviceId uuid w)).elapse
      elapsed) := h
    exact hissued.push _ identity

theorem logout (sessionId : Option String) (h : TokensPaired w) :
    TokensPaired (m.logout task sessionId w).state := by
  by_cases hreg : ∀ target, logoutTarget task w sessionId = some target →
      w.sessions.get? target = none
  · rw [logout_state_unknown hreg]
    exact h
  · push Not at hreg
    obtain ⟨target, ht, hs⟩ := hreg
    obtain ⟨session, hs⟩ := Option.ne_none_iff_exists'.mp hs
    rw [logout_state ht hs]
    exact restore (w := w.removeSession target) _ h

theorem currentSession (h : TokensPaired w) : TokensPaired (m.currentSession task w).state := by
  cases hs : (w.contexts task).currentSession with
  | none =>
    rw [currentSession_none hs]
    exact h
  | some session =>
    cases hexp : session.isExpired w.now with
    | false =>
      rw [currentSession_live hs hexp]
      exact h
    | true =>
      rw [currentSession_expired hs hexp]
      exact restore (w := w.removeSession session.sessionId) _ h

theorem perform (op : TaskOp) (h : TokensPaired w) : TokensPaired (m.perform task w op) := by
  cases op with
  | authenticate identity deviceId uuid elapsed =>
    exact h.authenticate identity deviceId uuid elapsed
  | logout sessionId => exact h.logout sessionId
  | currentSession => exact h.currentSession
  | spawn => exact h.spawn
  | setContext session identity =>
    cases session with
    | none =>
      cases identity with
      | none =>
        show TokensPaired ((m.restoreContextForSession task none >>= fun _ => pure ()) w).state
        rw [Act.run_bind_of_ok restore_none]
        exact h
      | some identity => exact h
    | some session =>
      cases identity with
      | none => exact h
      | some identity => exact h.push session identity

theorem run {w' : IdentityWorld} {ls : List SessionLabel} (h : TokensPaired w)
    (he : m.serving.exec w ls = some w') : TokensPaired w' := by
  refine System.exec_invariant (P := TokensPaired) ?_ h he
  intro w l w' h hstep
  cases l with
  | task task op =>
    simp only [serving] at hstep
    split at hstep
    · injection hstep with hstep
      exact hstep ▸ h.perform op
    · cases hstep
  | shutdown | elapse _ =>
    injection hstep with hstep
    exact hstep ▸ h

end TokensPaired

/-! ## A logout -/

structure LoggedOut (task : Nat) (s : Session) (r : Run IdentityWorld Exn IdentityEvent Unit) :
    Prop where
  completes : r.result = .ok ()
  removed : r.state.sessions.get? s.sessionId = none
  published : r.trace = [.identityLoggedOut s.identityId s.sessionId]
  notCurrent : ∀ shown, (r.state.contexts task).currentSession = some shown →
    shown.sessionId ≠ s.sessionId

/-- `logout` of the session completes, or raises because the session has expired. -/
def AllOrNothing (m : AuthenticationManager) (task : Nat) (sessionId : Option String)
    (w : IdentityWorld) (s : Session) : Prop :=
  LoggedOut task s (m.logout task sessionId w) ∨
    s.isExpired w.now = true ∧
      ∃ message, (m.logout task sessionId w).result = .error ⟨.sessionExpiredError, message⟩

def OwnNewest (w : IdentityWorld) (task : Nat) (id : String) : Prop :=
  ∀ frame ∈ (w.contexts task).contextStack.head?, frame.sessionId = id →
    frame.sessionToken.context = task

/-- If the newest push in the task's context is of the session, it was made in this task, and on top
of another session; and if it is not, the session is not current. -/
structure Releasable (w : IdentityWorld) (task : Nat) (s : Session) : Prop where
  own : OwnNewest w task s.sessionId
  once : s.isExpired w.now = false → ∀ frame ∈ (w.contexts task).contextStack.head?,
    frame.sessionId = s.sessionId → ∀ below ∈ frame.sessionToken.oldValue,
      below.sessionId ≠ s.sessionId
  covered : s.isExpired w.now = false →
    (∀ frame ∈ (w.contexts task).contextStack.head?, frame.sessionId ≠ s.sessionId) →
      ∀ shown ∈ (w.contexts task).currentSession, shown.sessionId ≠ s.sessionId

section Logout

variable {m : AuthenticationManager} {task : Nat} {w : IdentityWorld} {s : Session}
  {sessionId : Option String}

theorem restore_cases (m : AuthenticationManager) (h : TokensPaired w) (id : String) :
    (OwnNewest w task id ∧ ∃ found c, c.currentSession = leftShowing w task id ∧
        m.restoreContextForSession task (some id) w = ⟨.ok found, w.setContext task c, []⟩) ∨
      (¬ OwnNewest w task id ∧
        m.restoreContextForSession task (some id) w = ⟨.error m.foreignToken, w, []⟩) := by
  unfold OwnNewest leftShowing
  cases hstack : (w.contexts task).contextStack with
  | nil =>
    refine Or.inl ⟨by simp, false, w.contexts task, rfl, ?_⟩
    rw [restore_nil hstack, IdentityWorld.setContext_same]
  | cons newest older =>
    have hpaired := h task newest (by simp [hstack])
    by_cases hid : newest.sessionId = id
    · by_cases hs : newest.sessionToken.context = task
      · refine Or.inl ⟨by simp [hs], true, _, ?_,
          restore_newest hstack (congrArg some hid) hs (hpaired.trans hs)⟩
        exact (if_pos ⟨hid, hs⟩).symm
      · exact Or.inr ⟨by simp [hid, hs], restore_foreign hstack (congrArg some hid) hs⟩
    · refine Or.inl ⟨by simp [hid], _, _, ?_,
        restore_older hstack fun hq => hid (Option.some.inj hq)⟩
      exact (if_neg fun hq => hid hq.1).symm

theorem leftShowing_ne_iff
    (own : OwnNewest w task s.sessionId) (hlive : s.isExpired w.now = false) :
    (∀ shown, leftShowing w task s.sessionId = some shown → shown.sessionId ≠ s.sessionId) ↔
      Releasable w task s := by
  unfold leftShowing
  constructor
  · intro h
    refine ⟨own, fun _ frame hframe hid below hbelow => ?_, fun _ hnot shown hshown => ?_⟩
    · cases hstack : (w.contexts task).contextStack with
      | nil => simp [hstack] at hframe
      | cons newest older =>
        unfold OwnNewest at own
        rw [hstack] at hframe own h
        injection hframe with hframe
        subst hframe
        exact h below ((if_pos ⟨hid, own newest rfl hid⟩).trans hbelow)
    · cases hstack : (w.contexts task).contextStack with
      | nil =>
        rw [hstack] at h
        exact h shown hshown
      | cons newest older =>
        rw [hstack] at h hnot
        exact h shown ((if_neg fun hq => hnot newest rfl hq.1).trans hshown)
  · rintro ⟨-, once, covered⟩ shown hshown
    cases hstack : (w.contexts task).contextStack with
    | nil =>
      rw [hstack] at hshown covered
      exact covered hlive (by simp) shown hshown
    | cons newest older =>
      unfold OwnNewest at own
      rw [hstack] at hshown once covered own
      dsimp only at hshown
      split at hshown
      · rename_i hq
        exact once hlive newest rfl hq.1 shown hshown
      · rename_i hq
        refine covered hlive ?_ shown hshown
        intro frame hframe hid
        injection hframe with hframe
        subst hframe
        exact hq ⟨hid, own newest rfl hid⟩

theorem logout_restored {target : String} {found : Bool} {w' : IdentityWorld}
    (ht : logoutTarget task w sessionId = some target) (hs : w.sessions.get? target = some s)
    (hrestored : m.restoreContextForSession task (some target) (w.removeSession target) =
      ⟨.ok found, w', []⟩) :
    m.logout task sessionId w =
      if s.isExpired w.now = true then
        ⟨.error ⟨.sessionExpiredError, lit ("Session '" ++ target ++ "' has expired.")⟩, w', []⟩
      else m.publish (.identityLoggedOut s.identityId target) w' := by
  unfold logout
  rw [Act.bind_get, ht]
  dsimp only
  rw [hs]
  dsimp only
  split <;> rw [Act.bind_modify, Act.run_bind_of_ok hrestored] <;> rfl

theorem logout_raised {target : String} {exc : Exn} {w' : IdentityWorld}
    (ht : logoutTarget task w sessionId = some target) (hs : w.sessions.get? target = some s)
    (hraised : m.restoreContextForSession task (some target) (w.removeSession target) =
      ⟨.error exc, w', []⟩) :
    m.logout task sessionId w = ⟨.error exc, w', []⟩ := by
  unfold logout
  rw [Act.bind_get, ht]
  dsimp only
  rw [hs]
  dsimp only
  split <;> rw [Act.bind_modify, Act.run_bind_of_error hraised]

variable {answer : IdentityEvent → Except Exn Unit}

theorem publish_quiet (hbus : m.eventBus = some answer) (hquiet : ∀ event, answer event = .ok ())
    (event : IdentityEvent) : m.publish event w = ⟨.ok (), w, [event]⟩ := by
  unfold AuthenticationManager.publish
  rw [hbus]
  dsimp only
  rw [Act.bind_emit, hquiet]
  rfl

theorem TokensPaired.logout_iff (h : TokensPaired w) (hbus : m.eventBus = some answer)
    (hquiet : ∀ event, answer event = .ok ()) (hforeign : m.foreignToken.cls = .valueError)
    (ht : logoutTarget task w sessionId = some s.sessionId)
    (hs : w.sessions.get? s.sessionId = some s) :
    AllOrNothing m task sessionId w s ↔ Releasable w task s := by
  have hremoved : TokensPaired (w.removeSession s.sessionId) := h
  rcases restore_cases m hremoved s.sessionId with
    ⟨hown, found, c, hc, hrestored⟩ | ⟨hnot, hraised⟩
  case inl =>
    -- the contexts are those of before: only the registry has changed so far
    have hown : OwnNewest w task s.sessionId := hown
    have hc : c.currentSession = leftShowing w task s.sessionId := hc
    have hrun := logout_restored ht hs hrestored
    unfold AllOrNothing
    cases hexp : s.isExpired w.now with
    | true =>
      rw [hexp, if_pos rfl] at hrun
      rw [hrun]
      constructor
      · intro _
        exact ⟨hown, by simp [hexp], by simp [hexp]⟩
      · intro _
        exact Or.inr ⟨rfl, _, rfl⟩
    | false =>
      rw [hexp, if_neg (by simp), publish_quiet hbus hquiet] at hrun
      rw [hrun, ← leftShowing_ne_iff hown hexp]
      constructor
      · rintro (hout | ⟨hfalse, -⟩) shown hshown
        · refine hout.notCurrent shown ?_
          dsimp only
          rw [IdentityWorld.setContext_contexts_self, hc]
          exact hshown
        · cases hfalse
      · intro hleft
        refine Or.inl ⟨rfl, ?_, rfl, ?_⟩
        · exact Dict.get?_erase_self ..
        · intro shown hshown
          dsimp only at hshown
          rw [IdentityWorld.setContext_contexts_self, hc] at hshown
          exact hleft shown hshown
  case inr =>
    have hrun := logout_raised ht hs hraised
    unfold AllOrNothing
    rw [hrun]
    constructor
    · rintro (hout | ⟨-, message, herror⟩)
      · cases hout.completes
      · -- the exception of the reset is another one
        injection herror with herror
        rw [herror] at hforeign
        cases hforeign
    · intro hreleasable
      exact absurd hreleasable.own hnot

end Logout

/-- **A logout is all or nothing exactly where it is releasable**: in every state of every run of
any number of tasks, for every session in the registry and every task, on a bus that takes every
event. The run may have had logouts in it that were neither; it is the state now that decides. -/
theorem all_or_nothing_iff {m : AuthenticationManager} {answer : IdentityEvent → Except Exn Unit}
    {w w' : IdentityWorld} {ls : List SessionLabel} {task : Nat} {sessionId : Option String}
    {s : Session} (hbus : m.eventBus = some answer) (hquiet : ∀ event, answer event = .ok ())
    (hforeign : m.foreignToken.cls = .valueError) (hstart : ∀ t, w.contexts t = {})
    (he : m.serving.exec w ls = some w')
    (ht : logoutTarget task w' sessionId = some s.sessionId)
    (hs : w'.sessions.get? s.sessionId = some s) :
    AllOrNothing m task sessionId w' s ↔ Releasable w' task s := by
  have hpaired : TokensPaired w := by
    intro task frame hframe
    rw [hstart task] at hframe
    cases hframe
  exact (hpaired.run he).logout_iff hbus hquiet hforeign ht hs

/-! ## A child logs its parent's session out -/

def AuthenticationManager.heard : AuthenticationManager :=
  { plain with eventBus := some fun _ => .ok () }

def heardWorld : IdentityWorld :=
  (AuthenticationManager.heard.serving.exec graceWorld (inherited [])).getD graceWorld

def graceSession : Session := AuthenticationManager.heard.newSession grace none "s1" graceWorld

theorem parent_all_or_nothing :
    AllOrNothing AuthenticationManager.heard 0 (some "s1") heardWorld graceSession := by
  have released : Releasable heardWorld 0 graceSession := by
    refine ⟨?_, ?_, ?_⟩
    · intro frame hframe _
      cases hframe
      rfl
    · intro _ frame hframe _ below hbelow
      cases hframe
      cases hbelow
    · intro _ hother
      exact absurd rfl (hother _ rfl)
  have hrun : AuthenticationManager.heard.serving.exec graceWorld (inherited []) =
      some heardWorld := rfl
  exact (all_or_nothing_iff rfl (fun _ => rfl) rfl (fun _ => rfl) hrun rfl rfl).mpr released

theorem child_not_all_or_nothing :
    ¬ ∀ (m : AuthenticationManager) (answer : IdentityEvent → Except Exn Unit)
      (w w' : IdentityWorld) (ls : List SessionLabel) (task : Nat) (sessionId : Option String)
      (s : Session), m.eventBus = some answer → (∀ event, answer event = .ok ()) →
        m.foreignToken.cls = .valueError → (∀ t, w.contexts t = {}) →
        m.serving.exec w ls = some w' → task < w'.tasks →
        logoutTarget task w' sessionId = some s.sessionId →
        w'.sessions.get? s.sessionId = some s → AllOrNothing m task sessionId w' s := by
  intro h
  rcases h AuthenticationManager.heard (fun _ => .ok ()) graceWorld heardWorld (inherited []) 1
    (some "s1") graceSession rfl (fun _ => rfl) rfl (fun _ => rfl) rfl (by decide) rfl rfl with
    hout | ⟨hexp, -⟩
  · cases hout.completes
  · cases hexp

end IraOS
