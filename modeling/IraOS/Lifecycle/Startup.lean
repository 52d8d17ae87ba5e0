import IraOS.Lifecycle.Orchestrator

/-!
# How a startup phase goes

What the loop of a phase leaves in the trace, as relations that follow its text: the hooks of a
component up to the first that raises (`HooksRun`), the components one after the other
(`BroughtUp`), and a rollback's (`RolledBack`). `runComponents_run` says that every run of the loop
is one of the two: all the way through, or up to a critical component that failed and back down
again.

This is where the orchestrator's code is taken apart, once. What a start guarantees, what it gives
back, and how the states of the components move are proved from these relations by induction on
them, and the code is not unfolded again.

The relations say what was awaited and how it ended, and have no opinion on why: how a hook goes is
the surroundings' choice. They are as exact as the trace: a hook that the instance does not have
leaves no entry, nor does one that is no coroutine function, which ends the component's turn with an
error; and a component that is disabled leaves none at all.
-/

set_option autoImplicit false

namespace IraOS

open Lib

namespace LifecycleOrchestrator

/-- A sequence of hooks of one component, cut short at the first that raises: what was awaited, and
how it ended. -/
inductive HooksRun (c : ComponentRegistration) :
    List Hook → List LifecycleEntry → Except Exn Unit → Prop where
  | done : HooksRun c [] [] (.ok ())
  | absent {h hs t res} : c.instanceHooks h = .absent → HooksRun c hs t res →
      HooksRun c (h :: hs) t res
  | plain {h hs e} : c.instanceHooks h = .plain → HooksRun c (h :: hs) [] (.error e)
  | returned {h hs t res} : c.instanceHooks h = .coroutine → HooksRun c hs t res →
      HooksRun c (h :: hs) (.hook c.name h (.ok ()) :: t) res
  | raised {h hs e} : c.instanceHooks h = .coroutine →
      HooksRun c (h :: hs) [.hook c.name h (.error e)] (.error e)

theorem HooksRun.mem {c : ComponentRegistration} {hs : List Hook} {t : List LifecycleEntry}
    {res : Except Exn Unit} (h : HooksRun c hs t res) :
    ∀ x ∈ t, ∃ hook ∈ hs, ∃ r, x = .hook c.name hook r := by
  induction h with
  | done => simp
  | absent _ _ ih =>
    intro x hx
    obtain ⟨hook, hmem, hr⟩ := ih x hx
    exact ⟨hook, List.mem_cons_of_mem _ hmem, hr⟩
  | plain _ => simp
  | returned _ _ ih =>
    intro x hx
    rcases List.mem_cons.mp hx with rfl | hx
    · exact ⟨_, List.mem_cons_self, _, rfl⟩
    · obtain ⟨hook, hmem, hr⟩ := ih x hx
      exact ⟨hook, List.mem_cons_of_mem _ hmem, hr⟩
  | raised _ =>
    intro x hx
    exact ⟨_, List.mem_cons_self, _, List.mem_singleton.mp hx⟩

/-- The components of a phase, one after the other, with no critical failure: what was awaited, and
which completed it. -/
inductive BroughtUp (phase : Phase) :
    List ComponentRegistration → List LifecycleEntry → List String → Prop where
  | nil : BroughtUp phase [] [] []
  | disabled {c cs t done} : c.enabled = false → BroughtUp phase cs t done →
      BroughtUp phase (c :: cs) t done
  | completed {c cs t₁ t done} : c.enabled = true → HooksRun c phase.hooks t₁ (.ok ()) →
      BroughtUp phase cs t done →
      BroughtUp phase (c :: cs)
        (.health c.name phase.inProgress :: t₁ ++ .health c.name phase.success :: t)
        (c.name :: done)
  | tolerated {c cs t₁ t done e} : c.enabled = true → c.critical = false →
      HooksRun c phase.hooks t₁ (.error e) → BroughtUp phase cs t done →
      BroughtUp phase (c :: cs)
        (.health c.name phase.inProgress :: t₁ ++ .health c.name .FAILED :: t) done

/-- One component's teardown: `STOPPED` if all its hooks returned, else `FAILED`. -/
inductive TornDown (phase : Phase) (c : ComponentRegistration) : List LifecycleEntry → Prop where
  | stopped {t} : HooksRun c phase.teardown t (.ok ()) →
      TornDown phase c (.health c.name .SHUTTING_DOWN :: t ++ [.health c.name .STOPPED])
  | failed {t e} : HooksRun c phase.teardown t (.error e) →
      TornDown phase c (.health c.name .SHUTTING_DOWN :: t ++ [.health c.name .FAILED])

inductive RolledBack (r : ComponentRegistry) (phase : Phase) :
    List String → List LifecycleEntry → Prop where
  | nil : RolledBack r phase [] []
  | cons {c name names t₁ t₂} : r.get name = some c → TornDown phase c t₁ →
      RolledBack r phase names t₂ → RolledBack r phase (name :: names) (t₁ ++ t₂)

/-- Only components of these names are running. -/
def RunningOnly (s : LifecycleState) (names : List String) : Prop :=
  ∀ n h, s.health.get? n = some h → h.state = .RUNNING → n ∈ names


section Pieces

variable {env : LifecycleEnv} {phase : Phase} {c : ComponentRegistration} {s s' : LifecycleState}
  {t : List LifecycleEntry}

theorem bind_updateState {α : Type} {name : String} {state : ComponentState} {details : Text}
    {f : Unit → LifecycleAct α} {res : Except Exn α}
    (h : (updateState name state details >>= f) s = ⟨res, s', t⟩) :
    ∃ t', f () { s with health := s.health.set name ⟨state, details⟩ } = ⟨res, s', t'⟩ ∧
      t = .health name state :: t' := by
  have hrun : (updateState name state details >>= f) s =
      let r := f () { s with health := s.health.set name ⟨state, details⟩ }
      ⟨r.result, r.state, .health name state :: r.trace⟩ := rfl
  rw [hrun] at h
  generalize f () _ = r at h
  cases h
  exact ⟨_, rfl, rfl⟩

theorem executeHook_run {hook : Hook} (hooks : List Hook) {res : Except Exn Unit}
    (h : executeHook env c hook s = ⟨res, s', t⟩) : s'.health = s.health ∧
      (∀ e, res = .error e → HooksRun c (hook :: hooks) t (.error e)) ∧
      (∀ u, res = .ok u → ∀ t' res', HooksRun c hooks t' res' →
        HooksRun c (hook :: hooks) (t ++ t') res') := by
  unfold executeHook at h
  cases hk : c.instanceHooks hook with
  | absent =>
    rw [hk] at h
    cases h
    refine ⟨rfl, ?_, ?_⟩
    · intro e he
      cases he
    · intro _ _ t' res' hr
      exact .absent hk hr
  | plain =>
    rw [hk] at h
    cases h
    refine ⟨rfl, ?_, ?_⟩
    · intro e _
      exact .plain hk
    · intro u hu
      cases hu
  | coroutine =>
    rw [hk] at h
    dsimp only at h
    rw [Act.bind_get, Act.bind_modify, Act.bind_emit, Act.run_ofExcept] at h
    generalize hookResult c hook (env.outcomes s.awaited) = x at h
    cases h
    refine ⟨rfl, ?_, ?_⟩
    · rintro e rfl
      exact .raised hk
    · rintro ⟨⟩ rfl t' res' hr
      exact .returned hk hr

theorem executeHooks_run {hooks : List Hook} {res : Except Exn Unit}
    (h : executeHooks env c hooks s = ⟨res, s', t⟩) :
    HooksRun c hooks t res ∧ s'.health = s.health := by
  induction hooks generalizing s t with
  | nil =>
    cases h
    exact ⟨.done, rfl⟩
  | cons hook hooks ih =>
    rw [executeHooks] at h
    rcases Act.bind_cases h with ⟨e, rfl, h1⟩ | ⟨u, s₁, t₁, t₂, h1, h2, rfl⟩
    · obtain ⟨hs, hr, _⟩ := executeHook_run hooks h1
      exact ⟨hr e rfl, hs⟩
    · obtain ⟨hs, _, hr⟩ := executeHook_run hooks h1
      obtain ⟨hr₂, hs₂⟩ := ih h2
      exact ⟨hr u rfl t₂ res hr₂, hs₂.trans hs⟩

theorem bringUp_run {res : Except Exn Unit} (h : bringUp env phase c s = ⟨res, s', t⟩) :
    (∃ t₁, res = .ok () ∧ HooksRun c phase.hooks t₁ (.ok ()) ∧
        t = t₁ ++ [.health c.name phase.success] ∧
        s'.health = s.health.set c.name ⟨phase.success, []⟩) ∨
      ∃ e, res = .error e ∧ HooksRun c phase.hooks t (.error e) ∧ s'.health = s.health := by
  rw [bringUp] at h
  rcases Act.bind_cases h with ⟨e, rfl, h1⟩ | ⟨u, s₁, t₁, t₂, h1, h2, rfl⟩
  · exact Or.inr ⟨e, rfl, executeHooks_run h1⟩
  · obtain ⟨hr, hs⟩ := executeHooks_run h1
    cases h2
    exact Or.inl ⟨t₁, rfl, hr, rfl, congrArg (fun d => Dict.set d c.name _) hs⟩

theorem RunningOnly.set {names : List String} (h : RunningOnly s names) {name : String}
    {health : ComponentHealth} (hs : s'.health = s.health.set name health)
    (hne : health.state ≠ .RUNNING) : RunningOnly s' (names.filter fun n => n ≠ name) := by
  intro n x hx hrun
  rw [hs, Dict.get?_set] at hx
  split at hx
  · cases hx
    exact absurd hrun hne
  · next hn =>
    rw [List.mem_filter]
    exact ⟨h n x hx hrun, by simpa using hn⟩

theorem RunningOnly.mono {names names' : List String} (h : RunningOnly s names)
    (hsub : ∀ n ∈ names, n ∈ names') : RunningOnly s names' :=
  fun n x hx hrun => hsub n (h n x hx hrun)

/-- **A rollback of one component never raises**, and leaves it stopped or failed. -/
theorem rollbackComponent_run {res : Except Exn Unit} {name : String} (names : List String)
    (hc : env.registry.get name = some c)
    (h : rollbackComponent env phase name s = ⟨res, s', t⟩) :
    res = .ok () ∧ TornDown phase c t ∧
      (RunningOnly s (name :: names) → RunningOnly s' names) := by
  obtain rfl : c.name = name := (ComponentRegistry.get_some hc).2
  have hfewer : ∀ n ∈ (c.name :: names).filter (fun n => n ≠ c.name), n ∈ names := by
    intro n hn
    obtain ⟨hmem, hne⟩ := List.mem_filter.mp hn
    exact (List.mem_cons.mp hmem).resolve_left (by simpa using hne)
  unfold rollbackComponent at h
  rw [hc] at h
  dsimp only at h
  obtain ⟨x, s₁, t₁, t₂, htry, hrest, rfl⟩ := Act.bind_attempt h
  obtain ⟨t', hbody, rfl⟩ := bind_updateState htry
  have hdown : RunningOnly s (c.name :: names) → RunningOnly { s with
      health := s.health.set c.name ⟨.SHUTTING_DOWN, phase.rollbackDetails⟩ } names :=
    fun hrun => (hrun.set rfl (by simp)).mono hfewer
  rcases Act.bind_cases hbody with ⟨e, rfl, hhooks⟩ | ⟨u, s₂, t₃, t₄, hhooks, hstop, rfl⟩
  · obtain ⟨hr, hs⟩ := executeHooks_run hhooks
    cases hrest
    refine ⟨rfl, .failed hr, ?_⟩
    intro hrun
    have hdown₁ : RunningOnly s₁ names := fun n x hx => hdown hrun n x (hs ▸ hx)
    exact (hdown₁.set rfl (by simp)).mono fun n hn => List.mem_of_mem_filter hn
  · obtain ⟨hr, hs⟩ := executeHooks_run hhooks
    cases hstop
    cases hrest
    refine ⟨rfl, ?_, ?_⟩
    · rw [List.append_nil]
      exact .stopped hr
    · intro hrun
      have hdown₁ : RunningOnly s₂ names := fun n x hx => hdown hrun n x (hs ▸ hx)
      exact (hdown₁.set rfl (by simp)).mono fun n hn => List.mem_of_mem_filter hn

theorem rollbackAll_run {res : Except Exn Unit} {names : List String}
    (hreg : ∀ n ∈ names, ∃ c, env.registry.get n = some c)
    (h : rollbackAll env phase names s = ⟨res, s', t⟩) :
    res = .ok () ∧ RolledBack env.registry phase names t ∧
      (RunningOnly s names → RunningOnly s' []) := by
  induction names generalizing s t with
  | nil =>
    cases h
    exact ⟨rfl, .nil, id⟩
  | cons name names ih =>
    obtain ⟨c, hc⟩ := hreg name List.mem_cons_self
    rw [rollbackAll] at h
    rcases Act.bind_cases h with ⟨e, rfl, h1⟩ | ⟨u, s₁, t₁, t₂, h1, h2, rfl⟩
    · obtain ⟨hres, _, _⟩ := rollbackComponent_run names hc h1
      cases hres
    · obtain ⟨_, htorn, hrun₁⟩ := rollbackComponent_run names hc h1
      obtain ⟨hres, hrolled, hnone⟩ := ih (fun n hn => hreg n (List.mem_cons_of_mem _ hn)) h2
      exact ⟨hres, .cons hc htorn hrolled, fun hrun => hnone (hrun₁ hrun)⟩

end Pieces

/-! ## The loop -/

/-- A phase that stopped at a critical component: what came before it, its own hooks, and the
rollback. -/
structure Aborted (env : LifecycleEnv) (phase : Phase) (cs : List ComponentRegistration)
    (started : List String) (t : List LifecycleEntry) (report : StartupReport) where
  pre : List ComponentRegistration
  comp : ComponentRegistration
  post : List ComponentRegistration
  up : List LifecycleEntry
  done : List String
  own : List LifecycleEntry
  exc : Exn
  down : List LifecycleEntry
  split : cs = pre ++ comp :: post
  enabled : comp.enabled = true
  critical : comp.critical = true
  broughtUp : BroughtUp phase pre up done
  hooks : HooksRun comp phase.hooks own (.error exc)
  rolledBack : RolledBack env.registry phase (started ++ done).reverse down
  trace : t = up ++ (.health comp.name phase.inProgress :: own ++
    .health comp.name .FAILED :: down)
  startedComponents : report.startedComponents = started ++ done
  failedComponent : report.failedComponent = some comp.name

def Aborted.cons {env : LifecycleEnv} {phase : Phase} {cs : List ComponentRegistration}
    {started more : List String} {t : List LifecycleEntry} {report : StartupReport}
    (a : Aborted env phase cs (started ++ more) t report) (c : ComponentRegistration)
    (seg : List LifecycleEntry)
    (hup : BroughtUp phase a.pre a.up a.done →
      BroughtUp phase (c :: a.pre) (seg ++ a.up) (more ++ a.done)) :
    Aborted env phase (c :: cs) started (seg ++ t) report where
  pre := c :: a.pre
  comp := a.comp
  post := a.post
  up := seg ++ a.up
  done := more ++ a.done
  own := a.own
  exc := a.exc
  down := a.down
  split := congrArg (c :: ·) a.split
  enabled := a.enabled
  critical := a.critical
  broughtUp := hup a.broughtUp
  hooks := a.hooks
  rolledBack := by rw [← List.append_assoc]; exact a.rolledBack
  trace := by
    rw [List.append_assoc]
    exact congrArg (seg ++ ·) a.trace
  startedComponents := by rw [← List.append_assoc]; exact a.startedComponents
  failedComponent := a.failedComponent

section Loop

variable {env : LifecycleEnv} {phase : Phase} {s s' : LifecycleState} {t : List LifecycleEntry}

/-- **The loop of a phase returns**: with everything brought up, or with everything brought up so
far rolled back and nothing running. -/
theorem runComponents_run {cs : List ComponentRegistration} {started : List String}
    {res : Except Exn StartupReport} (hcs : ∀ c ∈ cs, env.registry.get c.name = some c)
    (hreg : ∀ n ∈ started, ∃ c, env.registry.get n = some c)
    (h : runComponents env phase cs started s = ⟨res, s', t⟩) :
    ∃ report, res = .ok report ∧
      ((∃ done, BroughtUp phase cs t done ∧ report.startedComponents = started ++ done ∧
          report.failedComponent = none) ∨
        Nonempty (Aborted env phase cs started t report) ∧
          (RunningOnly s started → RunningOnly s' [])) := by
  induction cs generalizing started s t with
  | nil =>
    cases h
    exact ⟨_, rfl, Or.inl ⟨[], .nil, (List.append_nil _).symm, rfl⟩⟩
  | cons c cs ih =>
    have hcs' : ∀ c' ∈ cs, env.registry.get c'.name = some c' :=
      fun c' hc' => hcs c' (List.mem_cons_of_mem _ hc')
    rw [runComponents] at h
    split at h
    · next hdisabled =>
      obtain ⟨report, hres, hcase⟩ := ih hcs' hreg h
      refine ⟨report, hres, ?_⟩
      rcases hcase with ⟨done, hup, hstarted, hfailed⟩ | ⟨⟨a⟩, hidle⟩
      · exact Or.inl ⟨done, .disabled hdisabled hup, hstarted, hfailed⟩
      · refine Or.inr ⟨⟨?_⟩, hidle⟩
        have a' : Aborted env phase cs (started ++ []) t report := by
          rw [List.append_nil]
          exact a
        exact a'.cons c [] (.disabled hdisabled)
    next henabled =>
    have henabled : c.enabled = true := Bool.eq_true_of_not_eq_false henabled
    obtain ⟨t₀, hbody, rfl⟩ := bind_updateState h
    have hset : phase.inProgress ≠ .RUNNING := by cases phase <;> simp [Phase.inProgress]
    have hrun₀ : RunningOnly s started → RunningOnly { s with
        health := s.health.set c.name ⟨phase.inProgress, []⟩ } started :=
      fun hrun => (hrun.set rfl hset).mono fun n hn => List.mem_of_mem_filter hn
    obtain ⟨x, s₁, t₁, t₂, hup, hrest, rfl⟩ := Act.bind_attempt hbody
    rcases bringUp_run hup with ⟨own, rfl, hhooks, rfl, hs₁⟩ | ⟨e, rfl, hhooks, hs₁⟩
    · -- completed
      have hrun₁ : RunningOnly s started → RunningOnly s₁ (started ++ [c.name]) := by
        intro hrun n x hx hstate
        rw [hs₁, Dict.get?_set] at hx
        split at hx
        · next hn => simp [hn]
        · exact List.mem_append_left _ (hrun₀ hrun n x hx hstate)
      have hreg₁ : ∀ n ∈ started ++ [c.name], ∃ c, env.registry.get n = some c := by
        intro n hn
        rcases List.mem_append.mp hn with hn | hn
        · exact hreg n hn
        · exact ⟨c, List.mem_singleton.mp hn ▸ hcs c List.mem_cons_self⟩
      obtain ⟨report, hres, hcase⟩ := ih hcs' hreg₁ hrest
      refine ⟨report, hres, ?_⟩
      rw [← List.cons_append, ← List.cons_append, List.append_assoc, List.singleton_append]
      rcases hcase with ⟨done, hbrought, hstarted, hfailed⟩ | ⟨⟨a⟩, hidle⟩
      · refine Or.inl ⟨c.name :: done, .completed henabled hhooks hbrought, ?_, hfailed⟩
        rw [hstarted, List.append_assoc, List.singleton_append]
      · refine Or.inr ⟨⟨?_⟩, fun hrun => hidle (hrun₁ hrun)⟩
        have a' := a.cons c (.health c.name phase.inProgress :: own ++
          [.health c.name phase.success]) fun hbrought => by
            rw [List.append_assoc, List.singleton_append, List.singleton_append]
            exact .completed henabled hhooks hbrought
        rwa [List.append_assoc, List.singleton_append] at a'
    · -- failed
      obtain ⟨t₃, hafter, rfl⟩ := bind_updateState hrest
      have hrun₁ : RunningOnly s started → RunningOnly { s₁ with
          health := s₁.health.set c.name ⟨.FAILED, e.message⟩ } started := by
        intro hrun
        have hsame : RunningOnly s₁ started := fun n x hx => hrun₀ hrun n x (hs₁ ▸ hx)
        exact (hsame.set rfl (by simp)).mono fun n hn => List.mem_of_mem_filter hn
      by_cases hcritical : c.critical = true
      · rw [if_pos hcritical, rollback] at hafter
        have hreg' : ∀ n ∈ started.reverse, ∃ c, env.registry.get n = some c :=
          fun n hn => hreg n (List.mem_reverse.mp hn)
        have hrun' : ∀ {s₂ : LifecycleState}, RunningOnly s₂ started →
            RunningOnly s₂ started.reverse :=
          fun hrun => hrun.mono fun n hn => List.mem_reverse.mpr hn
        rcases Act.bind_cases hafter with ⟨e', rfl, hback⟩ | ⟨u, s₂, t₄, t₅, hback, hpure, rfl⟩
        · obtain ⟨hres, _, _⟩ := rollbackAll_run hreg' hback
          cases hres
        · obtain ⟨_, hrolled, hidle⟩ := rollbackAll_run hreg' hback
          cases hpure
          refine ⟨_, rfl, Or.inr ⟨⟨?_⟩, fun hrun => hidle (hrun' (hrun₁ hrun))⟩⟩
          exact
            { pre := [], comp := c, post := cs, up := [], done := [], own := t₁, exc := e
              down := t₄
              split := rfl
              enabled := henabled
              critical := hcritical
              broughtUp := .nil
              hooks := hhooks
              rolledBack := by rw [List.append_nil]; exact hrolled
              trace := by simp
              startedComponents := (List.append_nil _).symm
              failedComponent := rfl }
      · rw [if_neg hcritical] at hafter
        have hcritical : c.critical = false := Bool.eq_false_of_not_eq_true hcritical
        obtain ⟨report, hres, hcase⟩ := ih hcs' hreg hafter
        refine ⟨report, hres, ?_⟩
        rw [← List.cons_append]
        rcases hcase with ⟨done, hbrought, hstarted, hfailed⟩ | ⟨⟨a⟩, hidle⟩
        · exact Or.inl ⟨done, .tolerated henabled hcritical hhooks hbrought, hstarted, hfailed⟩
        · refine Or.inr ⟨⟨?_⟩, fun hrun => hidle (hrun₁ hrun)⟩
          have ha : Aborted env phase cs (started ++ []) t₃ report := by
            rw [List.append_nil]
            exact a
          have a' := ha.cons c (.health c.name phase.inProgress :: t₁ ++
            [.health c.name .FAILED]) fun hbrought => by
              rw [List.append_assoc, List.singleton_append]
              exact .tolerated henabled hcritical hhooks hbrought
          rwa [List.append_assoc, List.singleton_append] at a'

end Loop

end LifecycleOrchestrator

end IraOS
