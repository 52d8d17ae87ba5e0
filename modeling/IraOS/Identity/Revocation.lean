import IraOS.Identity.Authentication
import IraOS.Lib.System

/-!
# Revoked sessions

Any number of tasks over one session registry. A logout, an expiry and the shutdown take sessions
out of the registry, which is shared; what a task *shows* is in its own context, which nobody else
can reach, and `current_session()` looks at the clock but not at the registry. So a session that is
revoked stays current wherever it is shown by anybody but the task that logs it out — and in that
task too, unless its frame is the newest and restores something that is still good.

`current_is_registered` is what holds: in a run where sessions are revoked only when that leaves no
task showing them (`Careful`), whatever is current is registered.

## The condition on a step

`Careful` looks at the state before a step and at the step. A logout or an expiry is careful if the
session can be withdrawn: once it is out of the registry, and the context of the task has gone back,
nobody shows a session that is neither registered nor expired (`Withdrawable`). A shutdown is
careful if everything that is shown has expired. Setting a context by hand is careful if the session
is registered. Authenticating, starting a task and the passing of time always are.

## The invariant

`AllBacked`: every session that some task shows is registered, or no longer good anyway. Expiry is
part of it, since a session that has expired is not an answer, wherever it is shown. One lemma for
each kind of step, and the run rule.

The facade's logout looks at the current session twice, with time passing in between; it is made of
steps a task could have taken by itself (`facade_logout_runs`), so it needs no step of its own.
-/

set_option autoImplicit false

namespace IraOS

open Lib AuthenticationManager

/-! ## Tasks -/

inductive TaskOp where
  | authenticate (identity : Identity) (deviceId : Option String) (uuid : String) (elapsed : Nat)
  | logout (sessionId : Option String)
  | currentSession
  | setContext (session : Option Session) (identity : Option Identity)
  | spawn

inductive SessionLabel where
  | task (task : Nat) (op : TaskOp)
  | shutdown
  | elapse (time : Nat)

namespace AuthenticationManager

variable (m : AuthenticationManager)

def perform (task : Nat) (w : IdentityWorld) : TaskOp → IdentityWorld
  | .authenticate identity deviceId uuid elapsed =>
    (m.authenticate task identity deviceId uuid elapsed w).state
  | .logout sessionId => (m.logout task sessionId w).state
  | .currentSession => (m.currentSession task w).state
  | .setContext session identity => (m.setContext task session identity w).state
  | .spawn => w.spawn task

def serving : System IdentityWorld SessionLabel where
  step w
    | .task task op => if task < w.tasks then some (m.perform task w op) else none
    | .shutdown => some (IdentityManager.shutdown w).state
    | .elapse time => some (w.elapse time)

end AuthenticationManager

/-! ## What is shown, and what stands behind it -/

namespace IdentityWorld

def Shows (w : IdentityWorld) (task : Nat) (s : Session) : Prop :=
  task < w.tasks ∧ (w.contexts task).currentSession = some s

def Registered (w : IdentityWorld) (s : Session) : Prop := w.sessions.contains s.sessionId = true

/-- Registered, or no longer good anyway. -/
def Backed (w : IdentityWorld) (s : Session) : Prop := w.Registered s ∨ s.isExpired w.now = true

/-- Once the session of that id leaves the registry, and the task's context goes back for it, no
task shows a session that is neither registered nor expired. -/
structure Withdrawable (w : IdentityWorld) (task : Nat) (sessionId : String) : Prop where
  others : ∀ u s, u ≠ task → w.Shows u s → s.sessionId = sessionId → s.isExpired w.now = true
  own : ∀ s, leftShowing w task sessionId = some s →
    w.Backed s ∧ (s.sessionId = sessionId → s.isExpired w.now = true)

end IdentityWorld

/-- Sessions are revoked only where that leaves nobody showing them, and only sessions that are
registered are set by hand. -/
def Careful (w : IdentityWorld) : SessionLabel → Prop
  | .task task (.logout sessionId) => ∀ target s, logoutTarget task w sessionId = some target →
      w.sessions.get? target = some s → w.Withdrawable task target
  | .task task .currentSession => ∀ s, w.Shows task s → s.isExpired w.now = true →
      w.Withdrawable task s.sessionId
  | .task _ (.setContext (some s) (some _)) => w.Backed s
  | .shutdown => ∀ task s, w.Shows task s → s.isExpired w.now = true
  | _ => True

def AllBacked (w : IdentityWorld) : Prop := ∀ task s, w.Shows task s → w.Backed s

/-! ## One step -/

section Step

variable {m : AuthenticationManager} {w : IdentityWorld} {task : Nat}

theorem backed_elapse {s : Session} (n : Nat) (h : w.Backed s) : (w.elapse n).Backed s := by
  rcases h with h | h
  · exact Or.inl h
  · exact Or.inr (Session.isExpired_mono (by simp) h)

theorem allBacked_setContext {c : Context} (h : AllBacked w)
    (hc : ∀ s, c.currentSession = some s → w.Backed s) : AllBacked (w.setContext task c) := by
  intro u s hu
  obtain ⟨hlt, hs⟩ := hu
  by_cases hut : u = task
  · rw [hut, IdentityWorld.setContext_contexts_self] at hs
    exact hc s hs
  · rw [IdentityWorld.setContext_contexts_ne w c hut] at hs
    exact h u s ⟨hlt, hs⟩

theorem allBacked_push {s : Session} (identity : Identity) (h : AllBacked w) (hs : w.Backed s) :
    AllBacked (w.push task s identity) := by
  refine allBacked_setContext h ?_
  intro s' hs'
  cases hs'
  exact hs

theorem backed_removeSession {s : Session} {id : String} (h : w.Backed s)
    (hid : s.sessionId = id → s.isExpired w.now = true) : (w.removeSession id).Backed s := by
  rcases h with h | h
  · by_cases hs : s.sessionId = id
    · exact Or.inr (hid hs)
    · refine Or.inl ?_
      obtain ⟨v, hv⟩ := Dict.contains_iff.mp h
      refine Dict.contains_iff.mpr ⟨v, ?_⟩
      rw [IdentityWorld.removeSession_sessions, Dict.get?_erase_ne hs, hv]
  · exact Or.inr h

theorem allBacked_withdraw {id : String} (h : AllBacked w) (hw : w.Withdrawable task id) :
    AllBacked ((m.restoreContextForSession task (some id) (w.removeSession id)).state) := by
  obtain ⟨c, hc, hstate⟩ := restore_state m task (w.removeSession id) id
  rw [hstate]
  have hleft : leftShowing (w.removeSession id) task id = leftShowing w task id := rfl
  intro u s hu
  obtain ⟨hlt, hs⟩ := hu
  by_cases hut : u = task
  · rw [hut, IdentityWorld.setContext_contexts_self, hc, hleft] at hs
    obtain ⟨hb, hid⟩ := hw.own s hs
    exact backed_removeSession hb hid
  · rw [IdentityWorld.setContext_contexts_ne _ c hut] at hs
    exact backed_removeSession (h u s ⟨hlt, hs⟩) (hw.others u s hut ⟨hlt, hs⟩)

theorem backed_addSession {s new : Session} (h : w.Backed s) : (w.addSession new).Backed s := by
  rcases h with h | h
  · obtain ⟨v, hv⟩ := Dict.contains_iff.mp h
    refine Or.inl (Dict.contains_iff.mpr ?_)
    rw [IdentityWorld.addSession_sessions, Dict.get?_set]
    split
    · exact ⟨new, rfl⟩
    · exact ⟨v, hv⟩
  · exact Or.inr h

theorem allBacked_authenticate (identity : Identity) (deviceId : Option String) (uuid : String)
    (elapsed : Nat) (h : AllBacked w) :
    AllBacked (m.authenticate task identity deviceId uuid elapsed w).state := by
  have hissued : ∀ new : Session, AllBacked ((w.addSession new).elapse elapsed) := by
    intro new u s hu
    exact backed_elapse elapsed (backed_addSession (h u s hu))
  rcases authenticate_state m task identity deviceId uuid elapsed w with
    hw | ⟨hnew, hw | hw⟩
  · rw [hw]
    exact h
  · rw [hw]
    intro u s hu
    refine backed_removeSession (hissued _ u s hu) ?_
    intro hid
    rcases h u s hu with hr | hexp
    · rw [IdentityWorld.Registered, hid, hnew] at hr
      cases hr
    · exact Session.isExpired_mono (by simp) hexp
  · rw [hw]
    refine allBacked_push identity (hissued _) (Or.inl ?_)
    exact Dict.contains_iff.mpr ⟨_, Dict.get?_set_self ..⟩

theorem allBacked_logout {sessionId : Option String} (h : AllBacked w)
    (hC : Careful w (.task task (.logout sessionId))) :
    AllBacked (m.logout task sessionId w).state := by
  by_cases hreg : ∀ target, logoutTarget task w sessionId = some target →
      w.sessions.get? target = none
  · rw [logout_state_unknown hreg]
    exact h
  · push Not at hreg
    obtain ⟨target, ht, hs⟩ := hreg
    obtain ⟨s, hs⟩ := Option.ne_none_iff_exists'.mp hs
    rw [logout_state ht hs]
    exact allBacked_withdraw h (hC target s ht hs)

theorem allBacked_currentSession (h : AllBacked w) (hlt : task < w.tasks)
    (hC : Careful w (.task task .currentSession)) : AllBacked (m.currentSession task w).state := by
  cases hs : (w.contexts task).currentSession with
  | none =>
    rw [currentSession_none hs]
    exact h
  | some s =>
    cases hexp : s.isExpired w.now with
    | false =>
      rw [currentSession_live hs hexp]
      exact h
    | true =>
      rw [currentSession_expired hs hexp]
      exact allBacked_withdraw h (hC s ⟨hlt, hs⟩ hexp)

theorem allBacked_setContext_op {session : Option Session} {identity : Option Identity}
    (h : AllBacked w) (hC : Careful w (.task task (.setContext session identity))) :
    AllBacked (m.setContext task session identity w).state := by
  cases session with
  | none =>
    cases identity with
    | none =>
      show AllBacked ((m.restoreContextForSession task none >>= fun _ => pure ()) w).state
      rw [Act.run_bind_of_ok restore_none]
      exact h
    | some identity => exact h
  | some s =>
    cases identity with
    | none => exact h
    | some identity => exact allBacked_push identity h hC

theorem allBacked_spawn (h : AllBacked w) (hlt : task < w.tasks) : AllBacked (w.spawn task) := by
  intro u s hu
  obtain ⟨hu, hs⟩ := hu
  by_cases hut : u = w.tasks
  · have hchild : (w.spawn task).contexts u = w.contexts task := by
      rw [hut]
      exact Function.update_self ..
    rw [hchild] at hs
    exact h task s ⟨hlt, hs⟩
  · have hsame : (w.spawn task).contexts u = w.contexts u := Function.update_of_ne hut ..
    rw [hsame] at hs
    have hult : u < w.tasks + 1 := hu
    exact h u s ⟨by omega, hs⟩

theorem allBacked_step {w' : IdentityWorld} {l : SessionLabel} (h : AllBacked w) (hC : Careful w l)
    (hstep : m.serving.step w l = some w') : AllBacked w' := by
  cases l with
  | task t op =>
    simp only [serving] at hstep
    split at hstep
    · next hlt =>
      rw [Option.some.injEq] at hstep
      subst hstep
      cases op with
      | authenticate identity deviceId uuid elapsed =>
        exact allBacked_authenticate identity deviceId uuid elapsed h
      | logout sessionId => exact allBacked_logout h hC
      | currentSession => exact allBacked_currentSession h hlt hC
      | setContext session identity => exact allBacked_setContext_op h hC
      | spawn => exact allBacked_spawn h hlt
    · cases hstep
  | shutdown =>
    simp only [serving, Option.some.injEq] at hstep
    subst hstep
    intro u s hu
    exact Or.inr (hC u s hu)
  | elapse time =>
    simp only [serving, Option.some.injEq] at hstep
    subst hstep
    intro u s hu
    exact backed_elapse time (h u s hu)

end Step

/-! ## Runs -/

section Runs

variable {m : AuthenticationManager}

/-- **Where every step is careful, what is current is registered**: in whatever state of a run, a
session `current_session()` answers with in some task is in the registry. The call itself may take
an expired session out; what it answers is good afterwards as well. -/
theorem current_is_registered {w w' : IdentityWorld} {ls : List SessionLabel} {task : Nat}
    {s : Session}
    (hstart : ∀ t, w.contexts t = {}) (hm : m.serving.Meets (fun w l => Careful w l) w ls)
    (he : m.serving.exec w ls = some w') (hlt : task < w'.tasks)
    (hcurrent : (m.currentSession task w').result = .ok (some s)) :
    (m.currentSession task w').state.Registered s := by
  have hinv : AllBacked w' := by
    refine System.exec_induct (fun _ _ _ hP hC => allBacked_step hP hC) ?_ hm he
    intro t s ht
    have hs := ht.2
    rw [hstart t] at hs
    cases hs
  obtain ⟨hs, hlive⟩ := currentSession_some hcurrent
  rw [currentSession_live hs hlive]
  rcases hinv task s ⟨hlt, hs⟩ with hr | hexp
  · exact hr
  · rw [hlive] at hexp
    cases hexp

theorem facade_logout_runs {w : IdentityWorld} {task : Nat} (sessionId : Option String)
    (elapsed : Nat) (hlt : task < w.tasks) : ∃ ls, m.serving.exec w ls
      = some (IdentityManager.logout m task sessionId elapsed w).state := by
  have hone : ∀ (v : IdentityWorld) op, v.tasks = w.tasks →
      m.serving.step v (.task task op) = some (m.perform task v op) := by
    intro v op hv
    simp only [serving, hv, if_pos hlt]
  unfold IdentityManager.logout
  cases truthy sessionId with
  | some target =>
    refine ⟨[.task task (.logout (some target))], ?_⟩
    rw [System.exec_cons, hone w _ rfl]
    rfl
  | none =>
    dsimp only
    rw [Act.run_bind]
    cases hr : (m.currentSession task w).result with
    | error e =>
      refine ⟨[.task task .currentSession], ?_⟩
      rw [System.exec_cons, hone w _ rfl]
      rfl
    | ok shown =>
      cases shown with
      | none =>
        refine ⟨[.task task .currentSession], ?_⟩
        rw [System.exec_cons, hone w _ rfl]
        rfl
      | some s =>
        obtain ⟨hs, hlive⟩ := currentSession_some hr
        rw [currentSession_live hs hlive]
        dsimp only
        rw [Act.bind_modify, Act.run_bind]
        have hfirst : m.perform task w .currentSession = w := by
          rw [perform, currentSession_live hs hlive]
        have hlooks : ∀ ls, m.serving.exec w (.task task .currentSession :: .elapse elapsed ::
            .task task .currentSession :: ls)
            = m.serving.exec (m.currentSession task (w.elapse elapsed)).state ls := by
          intro ls
          rw [System.exec_cons, hone w _ rfl, Option.bind_some, hfirst, System.exec_cons]
          show m.serving.exec (w.elapse elapsed) _ = _
          rw [System.exec_cons, hone (w.elapse elapsed) _ rfl, Option.bind_some]
          rfl
        cases hr' : (m.currentSession task (w.elapse elapsed)).result with
        | error e => exact ⟨_, hlooks []⟩
        | ok shown =>
          cases shown with
          | none => exact ⟨_, hlooks []⟩
          | some s' =>
            obtain ⟨hs', hlive'⟩ := currentSession_some hr'
            dsimp only
            cases truthy (some s'.sessionId) with
            | none => exact ⟨_, hlooks []⟩
            | some target =>
              refine ⟨_, (hlooks [.task task (.logout (some target))]).trans ?_⟩
              rw [currentSession_live hs' hlive', System.exec_cons,
                hone (w.elapse elapsed) _ rfl]
              rfl

end Runs

/-! ## A child, and the shutdown -/

def grace : Identity := .named "2" "grace" [.OWNER]

def graceWorld : IdentityWorld := .start (IdentityRegistry.after [.register grace])

def inherited (last : List SessionLabel) : List SessionLabel :=
  .task 0 (.authenticate grace none "s1" 0) :: .task 0 .spawn :: last

def afterLabels (ls : List SessionLabel) : IdentityWorld :=
  (plain.serving.exec graceWorld ls).getD graceWorld

def shownBy (task : Nat) (w : IdentityWorld) : Option (String × Bool) :=
  match (plain.currentSession task w).result with
  | .ok (some s) => some (s.sessionId,
      (plain.currentSession task w).state.sessions.contains s.sessionId)
  | _ => none

/-- The child authenticates anew and logs out of that; the session both go back to expires, and its
parent's next look takes it out of the registry; the facade is shut down; the child authenticates a
third time, and starts a task of its own. -/
def revoking : List SessionLabel :=
  inherited [.task 1 (.authenticate grace none "s2" 0), .task 1 (.logout (some "s2")),
    .elapse 86400000000, .task 0 .currentSession, .shutdown,
    .task 1 (.authenticate grace none "s3" 0), .task 1 .spawn]

theorem shows_of_two {w : IdentityWorld} {u : Nat} {s : Session} (htasks : w.tasks = 2)
    (h : w.Shows u s) : (u = 0 ∧ (w.contexts 0).currentSession = some s) ∨
      (u = 1 ∧ (w.contexts 1).currentSession = some s) := by
  obtain ⟨hlt, hs⟩ := h
  rw [htasks] at hlt
  rcases Nat.lt_succ_iff_lt_or_eq.mp hlt with hu | rfl
  · obtain rfl : u = 0 := by omega
    exact Or.inl ⟨rfl, hs⟩
  · exact Or.inr ⟨rfl, hs⟩

theorem revoking_careful :
    plain.serving.Meets (fun w l => Careful w l) graceWorld revoking := by
  refine System.meets_cons trivial rfl (System.meets_cons trivial rfl
    (System.meets_cons trivial rfl (System.meets_cons ?logout rfl (System.meets_cons trivial rfl
      (System.meets_cons ?expiry rfl (System.meets_cons ?shutdown rfl
        (System.meets_cons trivial rfl (System.meets_cons trivial rfl trivial))))))))
  case logout =>
    intro target s htarget _
    cases htarget
    refine ⟨?_, ?_⟩
    · intro u t hu hshows hid
      rcases shows_of_two rfl hshows with ⟨rfl, hs⟩ | ⟨rfl, -⟩
      · cases hs
        exact absurd hid (by decide)
      · exact absurd rfl hu
    · intro t hs
      cases hs
      exact ⟨Or.inl rfl, fun hid => absurd hid (by decide)⟩
  case expiry =>
    intro s hshows _
    obtain ⟨-, hs⟩ := hshows
    cases hs
    refine ⟨?_, ?_⟩
    · intro u t hu hshows _
      rcases shows_of_two rfl hshows with ⟨rfl, -⟩ | ⟨rfl, hs⟩
      · exact absurd rfl hu
      · cases hs
        decide
    · intro t hs
      cases hs
  case shutdown =>
    intro u s hshows
    rcases shows_of_two rfl hshows with ⟨rfl, hs⟩ | ⟨rfl, hs⟩
    · cases hs
    · cases hs
      decide

theorem current_is_registered_revoking :
    (plain.currentSession 2 (afterLabels revoking)).state.Registered
      (plain.newSession grace none "s3" (graceWorld.elapse 86400000000)) := by
  have he : plain.serving.exec graceWorld revoking = some (afterLabels revoking) := rfl
  have hlt : 2 < (afterLabels revoking).tasks := by decide
  have hcurrent : (plain.currentSession 2 (afterLabels revoking)).result =
      .ok (some (plain.newSession grace none "s3" (graceWorld.elapse 86400000000))) := rfl
  exact current_is_registered (fun _ => rfl) revoking_careful he hlt hcurrent

/-- After the parent's logout, the child still shows the session; after the shutdown, both do. -/
theorem revoked_session_stays_current :
    shownBy 1 (afterLabels (inherited [.task 0 (.logout (some "s1"))])) = some ("s1", false) ∧
      shownBy 0 (afterLabels (inherited [.shutdown])) = some ("s1", false) ∧
      shownBy 1 (afterLabels (inherited [.shutdown])) = some ("s1", false) :=
  ⟨rfl, rfl, rfl⟩

end IraOS
