import IraOS.Lifecycle.Protocol

/-!
# Runs of the lifecycle manager

Any calls of `LifecycleManager`, one after the other. A manager is in order (`InOrder`) when every
component it has registered has a state and nothing is in progress; a call leaves it so, and what
can be observed of the call keeps to the diagram. A component that was removed keeps the state it
had, so a name that is registered again starts from there.

`restart` is the one operation made of two phases. It tells the two ends apart: either everything it
is to bring up is up, or nothing that is enabled is running.

A restart whose stop has errors does not start, and one whose start meets a critical failure is
rolled back: nothing enabled is running after either. One that succeeds may have left non-critical
components failed. Components that are not enabled are in whatever state they were in. What a stop
says of a component that raised is that it has failed, so "not running" is not "stopped".

Calls that raise are part of a run like the others: they have done what they have done, and the next
one comes.
-/

set_option autoImplicit false

namespace IraOS

open Lib LifecycleOrchestrator

namespace LifecycleManager

variable {outcomes : Nat → HookOutcome}

structure InOrder (s : State) : Prop where
  atRest : AtRest s.state
  registered : ∀ c ∈ s.registry.getAll, ∃ st, s.state c.name = some st

theorem InOrder.resting {s : State} (h : InOrder s) {c : ComponentRegistration}
    (hc : c ∈ s.registry.getAll) : Resting s.state c.name := by
  obtain ⟨st, hst⟩ := h.registered c hc
  exact ⟨st, hst, h.atRest _ _ hst⟩

/-- A call keeps to the diagram, and leaves things in order: every hook it awaits and every change
of a state is one that the diagram has there, and in the end nothing is in progress. -/
structure Kept (s : State) {α : Type} (run : Run State Exn LifecycleEntry α) : Prop where
  exec : healthProtocol.exec s.state run.trace = some run.state.state
  inOrder : InOrder run.state

theorem InOrder.moved {s : State} (h : InOrder s) {life : LifecycleState}
    (hmoved : Moved s.state (states life)) : InOrder { s with life := life } where
  atRest n st hn := by
    rcases hmoved n with hsame | ⟨st', hst', hrest⟩
    · exact h.atRest n st (hsame.symm.trans hn)
    · have hn : states life n = some st := hn
      rw [hst', Option.some.injEq] at hn
      exact hn ▸ hrest
  registered c hc := by
    rcases hmoved c.name with hsame | ⟨st', hst', _⟩
    · obtain ⟨st, hst⟩ := h.registered c hc
      exact ⟨st, hsame.trans hst⟩
    · exact ⟨st', hst'⟩

theorem orchestrate_kept {α : Type} {m : LifecycleEnv → LifecycleAct α} {s : State}
    (h : InOrder s) {Q : Except Exn α → States → Prop}
    (hm : Act.Tracks healthProtocol states s.state (m ⟨s.registry, outcomes⟩)
      fun r ψ => Q r ψ ∧ Moved s.state ψ) :
    Kept s (orchestrate outcomes m s) ∧
      Q (orchestrate outcomes m s).result (orchestrate outcomes m s).state.state := by
  obtain ⟨hexec, hq, hmoved⟩ := hm.run s.life rfl
  exact ⟨⟨hexec, h.moved hmoved⟩, hq⟩

/-! ## The phases -/

section Phases

variable {s : State}

theorem startup_tracks (h : InOrder s) (phase : Phase) :
    Act.Tracks healthProtocol states s.state (runStartupPhase ⟨s.registry, outcomes⟩ phase)
      fun r ψ => (∃ report, r = .ok report ∧
        Started phase s.registry.getAll [] s.state ψ report) ∧ Moved s.state ψ := by
  have hresult := buildExecutionOrder_result s.registry
  rw [runStartupPhase]
  cases ho : buildExecutionOrder s.registry with
  | error e =>
    exact .pure ⟨⟨_, rfl, .aborted rfl (by simp) fun n => Or.inl rfl⟩, .refl _⟩
  | ok order =>
    rw [ho] at hresult
    have hperm := hresult.perm
    have hnodup : (order.map ComponentRegistration.name).Nodup :=
      (hperm.map _).nodup_iff.mpr ComponentRegistry.nodup_names
    refine (runComponents_tracks hnodup (fun c hc => h.resting (hperm.mem_iff.mp hc)) (by simp)
      (by simp) (fun c hc => ComponentRegistry.mem_getAll.mp (hperm.mem_iff.mp hc))).mono ?_
    rintro r ψ ⟨report, hr, hstarted, hmoved⟩
    refine ⟨⟨report, hr, ⟨?_, ?_, hstarted.down, hstarted.untouched⟩⟩, hmoved⟩
    · intro hsucc c hc
      exact hstarted.up hsucc c (hperm.mem_iff.mpr hc)
    · intro hsucc n hn
      exact hstarted.aside hsucc n fun hmem => hn ((enabledNames_perm hperm).mem_iff.mp hmem)

theorem shutdown_tracks (h : InOrder s) (phase : ShutdownPhase) :
    Act.Tracks healthProtocol states s.state (runShutdownPhase ⟨s.registry, outcomes⟩ phase)
      fun r ψ => (∃ report, r = .ok report) ∧ Moved s.state ψ :=
  stopComponents_tracks fun _ hc => h.resting ((shutdownOrder_perm s.registry).mem_iff.mp hc)

theorem shutDown_states {env : LifecycleEnv} {phase : ShutdownPhase} {life life' : LifecycleState}
    {t : List LifecycleEntry} {report : ShutdownReport}
    (h : ShutDown env phase life life' t report) :
    (∀ n ∈ enabledNames env.registry.getAll, BroughtDown (states life') n) ∧
      (report.success = true →
        ∀ n ∈ enabledNames env.registry.getAll, states life' n = some .STOPPED) ∧
      ∀ n, n ∉ enabledNames env.registry.getAll → states life' n = states life n := by
  have hstopped : ∀ n ∈ report.stoppedComponents, states life' n = some .STOPPED := by
    intro n hn
    rw [states, (h.stopped n hn).1]
    rfl
  refine ⟨?_, ?_, ?_⟩
  · intro n hn
    rcases List.mem_append.mp (h.partition.mem_iff.mpr hn) with hn | hn
    · exact Or.inl (hstopped n hn)
    · obtain ⟨message, hmessage⟩ := Dict.mem_keys_iff.mp hn
      right
      rw [states, h.failed n message hmessage]
      rfl
  · intro hsucc n hn
    exact hstopped n ((h.success.mp hsucc).mem_iff.mpr hn)
  · intro n hn
    rw [states, h.others n hn]
    rfl

structure Restarted (cs : List ComponentRegistration) (φ ψ : States) (up : Bool) : Prop where
  running : up = true → ∀ c ∈ cs, c.enabled = true →
    ψ c.name = some .RUNNING ∨ c.critical = false ∧ ψ c.name = some .FAILED
  idle : up = false → ∀ c ∈ cs, c.enabled = true → BroughtDown ψ c.name
  others : up = true → ∀ n, n ∉ enabledNames cs → ψ n = φ n

theorem Restarted.of_stopped {cs : List ComponentRegistration} {φ ψ : States}
    (h : ∀ n ∈ enabledNames cs, BroughtDown ψ n) : Restarted cs φ ψ false where
  running hup := by cases hup
  idle _ c hc henabled := h c.name (mem_enabledNames.mpr ⟨c, hc, henabled, rfl⟩)
  others hup := by cases hup

theorem Restarted.of_started {cs : List ComponentRegistration} {φ χ ψ : States}
    {report : StartupReport} (hstopped : ∀ n ∈ enabledNames cs, χ n = some .STOPPED)
    (hothers : ∀ n, n ∉ enabledNames cs → χ n = φ n) (h : Started .start cs [] χ ψ report) :
    Restarted cs φ ψ report.success where
  running := h.up
  idle hup c hc henabled := by
    rcases h.untouched hup c.name List.not_mem_nil with hsame | hdown
    · exact Or.inl (hsame.trans (hstopped _ (mem_enabledNames.mpr ⟨c, hc, henabled, rfl⟩)))
    · exact hdown
  others hup n hn := (h.aside hup n hn).trans (hothers n hn)

theorem stop_run (h : InOrder s) {life : LifecycleState} (hlife : states life = s.state) :
    ∃ report life' t, stop ⟨s.registry, outcomes⟩ life = ⟨.ok report, life', t⟩ ∧
      healthProtocol.exec s.state t = some (states life') ∧ Moved s.state (states life') ∧
      (∀ n ∈ enabledNames s.registry.getAll, BroughtDown (states life') n) ∧
      (report.success = true →
        ∀ n ∈ enabledNames s.registry.getAll, states life' n = some .STOPPED) ∧
      ∀ n, n ∉ enabledNames s.registry.getAll → states life' n = s.state n := by
  obtain ⟨report, life', t, hstop, hdown⟩ :=
    runShutdownPhase_shutDown ⟨s.registry, outcomes⟩ .stop life
  have htracks : Act.Tracks _ _ _ (runShutdownPhase ⟨s.registry, outcomes⟩ .stop) _ :=
    shutdown_tracks h .stop
  have htrack := htracks.run life hlife
  rw [hstop] at htrack
  obtain ⟨hexec, _, hmoved⟩ := htrack
  obtain ⟨hall, hsuccess, hothers⟩ := shutDown_states hdown
  rw [hlife] at hothers
  exact ⟨report, life', t, hstop, hexec, hmoved, hall, hsuccess, hothers⟩

theorem restart_tracks (h : InOrder s) :
    Act.Tracks healthProtocol states s.state (restart ⟨s.registry, outcomes⟩)
      fun r ψ => (∃ up, r = .ok up ∧ Restarted s.registry.getAll s.state ψ up) ∧
        Moved s.state ψ := by
  constructor
  intro life hlife
  obtain ⟨report, life₁, t₁, hstop, hexec, hmoved, hall, hsuccess, hothers⟩ := stop_run h hlife
  have hrun : restart ⟨s.registry, outcomes⟩ life =
      let r := (if report.success = false then pure false
        else do
          let startupReport ← start ⟨s.registry, outcomes⟩
          pure startupReport.success : LifecycleAct Bool) life₁
      ⟨r.result, r.state, t₁ ++ r.trace⟩ := Act.run_bind_of_ok hstop
  rw [hrun]
  by_cases hsucc : report.success = false
  · rw [if_pos hsucc]
    dsimp only [Act.run_pure]
    rw [List.append_nil]
    exact ⟨hexec, ⟨false, rfl, .of_stopped hall⟩, hmoved⟩
  · rw [if_neg hsucc]
    have hsucc : report.success = true := Bool.eq_true_of_not_eq_false hsucc
    have hstarts : Act.Tracks _ _ _ (runStartupPhase ⟨s.registry, outcomes⟩ .start) _ :=
      startup_tracks (h.moved hmoved) .start
    obtain ⟨hexec₂, ⟨report₂, hreport₂, hstarted⟩, hmoved₂⟩ := hstarts.run life₁ rfl
    generalize hstart : runStartupPhase ⟨s.registry, outcomes⟩ .start life₁ = run at *
    obtain ⟨res, life₂, t₂⟩ := run
    have hres : res = .ok report₂ := hreport₂
    subst hres
    have hstart' : start ⟨s.registry, outcomes⟩ life₁ = ⟨.ok report₂, life₂, t₂⟩ := hstart
    rw [Act.run_bind_of_ok hstart']
    dsimp only [Act.run_pure]
    rw [List.append_nil]
    refine ⟨?_, ⟨report₂.success, rfl, .of_started (hsuccess hsucc) hothers hstarted⟩,
      hmoved.trans hmoved₂⟩
    rw [System.exec_append, hexec, Option.bind_some]
    exact hexec₂

end Phases

/-! ## The calls -/

section Calls

variable {s : State}

theorem register_kept (h : InOrder s) (registration : ComponentRegistration) :
    Kept s (register outcomes registration s) := by
  unfold register
  rw [Act.bind_get]
  cases hreg : s.registry.register registration with
  | error e => exact ⟨rfl, h⟩
  | ok r =>
    rw [Act.bind_ofExcept, Act.bind_modify]
    have hr : r.components = s.registry.components.set registration.name registration := by
      unfold ComponentRegistry.register at hreg
      split at hreg
      · cases hreg
      · rw [← Except.ok.inj hreg]
    have hallow : ComponentState.allows (s.state registration.name) .CREATED = true := by
      cases hst : s.state registration.name with
      | none => rfl
      | some st =>
        have hrest := h.atRest _ _ hst
        cases st <;> simp_all [ComponentState.allows, ComponentState.inProgress]
    have hcreate : Act.Tracks _ _ _ (updateState registration.name .CREATED []) _ :=
      updateState_tracks hallow
    obtain ⟨hexec, _, hset⟩ := hcreate.run s.life rfl
    have hset : ∀ n, (orchestrate outcomes (fun _ => updateState registration.name .CREATED [])
        { s with registry := r }).state.state n
          = States.set s.state registration.name .CREATED n := fun n => congrFun hset n
    refine ⟨hexec, ⟨?_, ?_⟩⟩
    · intro n st hn
      rw [hset] at hn
      by_cases hname : n = registration.name
      · rw [hname, States.set_self, Option.some.injEq] at hn
        exact hn ▸ rfl
      · rw [States.set_ne hname] at hn
        exact h.atRest n st hn
    · intro c hc
      rw [hset]
      by_cases hname : c.name = registration.name
      · exact ⟨_, by rw [hname, States.set_self]⟩
      · rw [States.set_ne hname]
        refine h.registered c (ComponentRegistry.mem_getAll.mpr ?_)
        have hfound : r.components.get? c.name = some c := ComponentRegistry.mem_getAll.mp hc
        rw [hr, Dict.get?_set_ne hname] at hfound
        exact hfound

theorem InOrder.narrowed (h : InOrder s) {r : ComponentRegistry}
    (hr : ∀ c ∈ r.getAll, ∃ c' ∈ s.registry.getAll, c'.name = c.name) :
    InOrder { s with registry := r } where
  atRest := h.atRest
  registered c hc := by
    obtain ⟨c', hc', hname⟩ := hr c hc
    exact hname ▸ h.registered c' hc'

theorem remove_kept (h : InOrder s) (name : String) : Kept s (remove name s) := by
  refine ⟨rfl, h.narrowed ?_⟩
  intro c hc
  have hfound : (s.registry.components.erase name).get? c.name = some c :=
    ComponentRegistry.mem_getAll.mp hc
  rw [Dict.get?_erase] at hfound
  split at hfound
  · cases hfound
  · exact ⟨c, ComponentRegistry.mem_getAll.mpr hfound, rfl⟩

theorem update_kept (h : InOrder s) (name : String) (u : ComponentUpdate) :
    Kept s (update name u s) := by
  unfold update
  rw [Act.bind_get]
  cases hup : s.registry.update name u with
  | error e => exact ⟨rfl, h⟩
  | ok r =>
    rw [Act.bind_ofExcept]
    refine ⟨rfl, h.narrowed ?_⟩
    unfold ComponentRegistry.update at hup
    split at hup
    · cases hup
    next current hcurrent =>
    split at hup
    · cases hup
    obtain rfl := Except.ok.inj hup
    intro c hc
    have hfound : (s.registry.components.set name (u.apply current)).get? c.name = some c :=
      ComponentRegistry.mem_getAll.mp hc
    rw [Dict.get?_set] at hfound
    split at hfound
    · next hname =>
      refine ⟨current, ?_, ?_⟩
      · exact (ComponentRegistry.get_some hcurrent).1
      · rw [hname]
        exact (ComponentRegistry.get_some hcurrent).2
    · exact ⟨c, ComponentRegistry.mem_getAll.mpr hfound, rfl⟩

theorem Kept.dropped {α : Type} {m : Op α} (h : Kept s (m s)) :
    Kept s ((do let _ ← m : Op Unit) s) := by
  have hrun : (do let _ ← m : Op Unit) s
      = ⟨(m s).result.map fun _ => (), (m s).state, (m s).trace⟩ := by
    exact Act.run_bind_pure m (fun _ => ()) s
  rw [hrun]
  exact ⟨h.exec, h.inOrder⟩

theorem call_kept (h : InOrder s) (call : Call) : Kept s (call.run outcomes s) := by
  cases call with
  | register registration => exact register_kept h registration
  | remove name => exact remove_kept h name
  | update name u => exact update_kept h name u
  | boot => exact (orchestrate_kept h (startup_tracks h .boot)).1.dropped
  | start => exact (orchestrate_kept h (startup_tracks h .start)).1.dropped
  | stop => exact (orchestrate_kept h (shutdown_tracks h .stop)).1.dropped
  | shutdown => exact (orchestrate_kept h (shutdown_tracks h .shutdown)).1.dropped
  | restart => exact (orchestrate_kept h (restart_tracks h)).1.dropped

theorem runAll_kept (calls : List Call) (h : InOrder s) :
    healthProtocol.exec s.state (runAll outcomes s calls).2
        = some (runAll outcomes s calls).1.state ∧ InOrder (runAll outcomes s calls).1 := by
  induction calls generalizing s with
  | nil => exact ⟨rfl, h⟩
  | cons call calls ih =>
    have hcall : Kept s (call.run outcomes s) := call_kept h call
    obtain ⟨hexec, horder⟩ := ih hcall.inOrder
    refine ⟨?_, horder⟩
    rw [runAll, System.exec_append, hcall.exec, Option.bind_some]
    exact hexec

end Calls

theorem initial_inOrder : InOrder {} where
  atRest n st hn := by cases hn
  registered c hc := by cases hc

/-- **A run of the manager keeps to the diagram**: a hook is awaited only while the health monitor
shows its component in a state the hook belongs to, states change only as the diagram has it, and
after every call nothing is in progress and every registered component has a state. -/
theorem health_protocol (outcomes : Nat → HookOutcome) (calls : List Call) :
    let run := runAll outcomes {} calls
    healthProtocol.exec (fun _ => none) run.2 = some run.1.state ∧
      (∀ n st, run.1.state n = some st → st.inProgress = false) ∧
      ∀ c ∈ run.1.registry.getAll, ∃ st, run.1.state c.name = some st := by
  have hkept : _ ∧ InOrder (runAll outcomes {} calls).1 := runAll_kept calls initial_inOrder
  obtain ⟨hexec, horder⟩ := hkept
  exact ⟨hexec, horder.atRest, horder.registered⟩

/-- **A restart brings everything up or leaves nothing up.** In whatever state a run has left the
manager, `restart` returns; if it says so, every enabled component is running but for those that may
fail and have, and if not, every enabled component is stopped or failed. -/
theorem restart_all_or_nothing (outcomes : Nat → HookOutcome) (calls : List Call) :
    let s := (runAll outcomes {} calls).1
    ∃ up, (orchestrate outcomes restart s).result = .ok up ∧
      Restarted s.registry.getAll s.state (orchestrate outcomes restart s).state.state up := by
  intro s
  have horder : InOrder s := (runAll_kept calls initial_inOrder).2
  exact (orchestrate_kept horder (restart_tracks horder)).2

end LifecycleManager

end IraOS
