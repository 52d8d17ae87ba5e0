import IraOS.Lib.Trace
import IraOS.Lifecycle.BootOrder
import IraOS.Lifecycle.Startup

/-!
# What a start guarantees

A component's start hook runs only after each of its dependencies has been dealt with: it has
completed its own start hooks, or it is one of those a start goes on without, which are the disabled
components and the non-critical ones that failed (`start_after_dependencies`). **A component can
start before a dependency that never does**, by that design.

When a critical component fails, what completed the phase is torn down in reverse, each once, and
nothing is left running (`rolledBack_of_critical`).

## From a hook's raising

The second result starts from what happens and not from what is reported: a hook of a critical
component raised, or is no coroutine function, so that the orchestrator raises in its place
(`HookRaised`). From the trace alone it follows that the phase stopped there: it was stopped by some
critical component, the loop goes no further than that, and a rollback awaits hooks of other kinds
only; so the one that raised is the one it stopped at (`Aborted.comp_eq`).

## Reading the trace

Both results are read off the relations of `Lifecycle.Startup`, which follow the text of the loop.
What has completed a phase is seen by the health update that closes it, and the rollback's entries
come after all of those of the way up. "In reverse, each once" is an equation for the list of the
components torn down.

`Idle` is what the manager is in before a boot or after a rollback: no component is running. It is
asked for at the beginning, since a start does not touch components that run already and are not
among its own.
-/

set_option autoImplicit false

namespace IraOS

open Lib

namespace LifecycleOrchestrator

/-- The components that completed the phase, in the order in which they did. -/
def completedIn (phase : Phase) (t : List LifecycleEntry) : List String :=
  t.filterMap fun
    | .health name state => if state = phase.success then some name else none
    | .hook .. => none

/-! ## Reading a trace -/

section Reading

variable {phase : Phase} {t : List LifecycleEntry}

theorem HooksRun.completedIn {c : ComponentRegistration} {hs : List Hook} {res : Except Exn Unit}
    (h : HooksRun c hs t res) : completedIn phase t = [] := by
  rw [LifecycleOrchestrator.completedIn, List.filterMap_eq_nil_iff]
  intro x hx
  obtain ⟨hook, _, r, rfl⟩ := h.mem x hx
  rfl

theorem completedIn_append (t u : List LifecycleEntry) :
    completedIn phase (t ++ u) = completedIn phase t ++ completedIn phase u :=
  List.filterMap_append ..

theorem completedIn_cons_other {name : String} {state : ComponentState}
    (hne : state ≠ phase.success) :
    completedIn phase (.health name state :: t) = completedIn phase t := by
  rw [completedIn, List.filterMap_cons]
  simp only [if_neg hne]
  rfl

theorem inProgress_ne_success : phase.inProgress ≠ phase.success := by
  cases phase <;> simp [Phase.inProgress, Phase.success]

theorem failed_ne_success : ComponentState.FAILED ≠ phase.success := by
  cases phase <;> simp [Phase.success]

theorem failed_ne_inProgress : ComponentState.FAILED ≠ phase.inProgress := by
  cases phase <;> simp [Phase.inProgress]

theorem BroughtUp.completedIn {cs : List ComponentRegistration} {done : List String}
    (h : BroughtUp phase cs t done) : completedIn phase t = done := by
  induction h with
  | nil => rfl
  | disabled _ _ ih => exact ih
  | completed _ hr _ ih =>
    rw [completedIn_append, completedIn_cons_other inProgress_ne_success, hr.completedIn,
      List.nil_append, LifecycleOrchestrator.completedIn, List.filterMap_cons]
    simp only [if_true]
    exact congrArg (List.cons _) ih
  | tolerated _ _ hr _ ih =>
    rw [completedIn_append, completedIn_cons_other inProgress_ne_success, hr.completedIn,
      List.nil_append, completedIn_cons_other failed_ne_success, ih]

theorem BroughtUp.hook_mem {cs : List ComponentRegistration} {done : List String}
    (h : BroughtUp phase cs t done) {n : String} {hook : Hook} {res : Except Exn Unit}
    (hx : .hook n hook res ∈ t) : hook ∈ phase.hooks ∧ ∃ c ∈ cs, c.name = n := by
  have hown : ∀ {c : ComponentRegistration} {t₁ : List LifecycleEntry} {r : Except Exn Unit},
      HooksRun c phase.hooks t₁ r → .hook n hook res ∈ t₁ → hook ∈ phase.hooks ∧ c.name = n := by
    intro c t₁ r hr hmem
    obtain ⟨hook', hmem', r', hq⟩ := hr.mem _ hmem
    cases hq
    exact ⟨hmem', rfl⟩
  induction h with
  | nil => cases hx
  | disabled _ _ ih =>
    obtain ⟨hh, c, hc, hn⟩ := ih hx
    exact ⟨hh, c, List.mem_cons_of_mem _ hc, hn⟩
  | @completed c cs t₁ t done _ hr _ ih | @tolerated c cs t₁ t done _ _ _ hr _ ih =>
    simp only [List.mem_append, List.mem_cons, reduceCtorEq, false_or] at hx
    rcases hx with hx | hx
    · obtain ⟨hh, hn⟩ := hown hr hx
      exact ⟨hh, c, List.mem_cons_self, hn⟩
    · obtain ⟨hh, c', hc', hn⟩ := ih hx
      exact ⟨hh, c', List.mem_cons_of_mem _ hc', hn⟩

theorem BroughtUp.done_mem {cs : List ComponentRegistration} {done : List String}
    (h : BroughtUp phase cs t done) : ∀ n ∈ done, ∃ c ∈ cs, c.name = n := by
  induction h with
  | nil => simp
  | disabled _ _ ih | tolerated _ _ _ _ ih =>
    intro n hn
    obtain ⟨c, hc, hname⟩ := ih n hn
    exact ⟨c, List.mem_cons_of_mem _ hc, hname⟩
  | @completed c _ _ _ _ _ _ _ ih =>
    intro n hn
    rcases List.mem_cons.mp hn with rfl | hn
    · exact ⟨c, List.mem_cons_self, rfl⟩
    · obtain ⟨c', hc', hname⟩ := ih n hn
      exact ⟨c', List.mem_cons_of_mem _ hc', hname⟩

theorem TornDown.hook_mem {c : ComponentRegistration} (h : TornDown phase c t) {n : String}
    {hook : Hook} {res : Except Exn Unit} (hx : .hook n hook res ∈ t) :
    hook ∈ phase.teardown ∧ c.name = n := by
  cases h with
  | stopped hr | failed hr =>
    simp only [List.mem_append, List.mem_cons, reduceCtorEq, false_or, List.not_mem_nil,
      or_false] at hx
    obtain ⟨hook', hmem, r, hq⟩ := hr.mem _ hx
    cases hq
    exact ⟨hmem, rfl⟩

theorem RolledBack.hook_mem {r : ComponentRegistry} {names : List String}
    (h : RolledBack r phase names t) {n : String} {hook : Hook} {res : Except Exn Unit}
    (hx : .hook n hook res ∈ t) : hook ∈ phase.teardown ∧ n ∈ names := by
  induction h with
  | nil => cases hx
  | cons hc htorn _ ih =>
    rcases List.mem_append.mp hx with hx | hx
    · obtain ⟨hh, hn⟩ := htorn.hook_mem hx
      rw [(ComponentRegistry.get_some hc).2] at hn
      exact ⟨hh, hn ▸ List.mem_cons_self⟩
    · obtain ⟨hh, hn⟩ := ih hx
      exact ⟨hh, List.mem_cons_of_mem _ hn⟩

theorem TornDown.not_begun {c : ComponentRegistration} (h : TornDown phase c t) (n : String) :
    .health n phase.inProgress ∉ t := by
  have hstates : ComponentState.SHUTTING_DOWN ≠ phase.inProgress ∧
      ComponentState.STOPPED ≠ phase.inProgress := by cases phase <;> decide
  intro hx
  cases h with
  | stopped hr | failed hr =>
    simp only [List.cons_append, List.mem_cons, List.mem_append, List.not_mem_nil, or_false,
      LifecycleEntry.health.injEq] at hx
    rcases hx with ⟨-, hx⟩ | hx | ⟨-, hx⟩
    · exact hstates.1 hx.symm
    · obtain ⟨_, _, _, heq⟩ := hr.mem _ hx
      cases heq
    · first
        | exact hstates.2 hx.symm
        | exact failed_ne_inProgress hx.symm

theorem RolledBack.not_begun {r : ComponentRegistry} {names : List String}
    (h : RolledBack r phase names t) (n : String) : .health n phase.inProgress ∉ t := by
  induction h with
  | nil => exact List.not_mem_nil
  | cons _ htorn _ ih =>
    rw [List.mem_append, not_or]
    exact ⟨htorn.not_begun n, ih⟩

end Reading

/-! ## Rollback -/

def Idle (s : LifecycleState) : Prop :=
  ∀ n h, s.health.get? n = some h → h.state ≠ .RUNNING

theorem Idle.runningOnly {s : LifecycleState} (h : Idle s) : RunningOnly s [] :=
  fun n x hx hrun => absurd hrun (h n x hx)

theorem RunningOnly.idle {s : LifecycleState} (h : RunningOnly s []) : Idle s :=
  fun n x hx hrun => absurd (h n x hx hrun) List.not_mem_nil

section Rollback

variable {env : LifecycleEnv} {phase : Phase} {s s' : LifecycleState} {t : List LifecycleEntry}

theorem runStartupPhase_cases {res : Except Exn StartupReport}
    (h : runStartupPhase env phase s = ⟨res, s', t⟩) :
    (t = [] ∧ s' = s ∧ ∃ report, res = .ok report ∧ report.failedComponent = none) ∨
      ∃ order, buildExecutionOrder env.registry = .ok order ∧ BootOrder env.registry order ∧
        runComponents env phase order [] s = ⟨res, s', t⟩ := by
  have horder := buildExecutionOrder_result env.registry
  unfold runStartupPhase at h
  cases ho : buildExecutionOrder env.registry with
  | error e =>
    rw [ho] at h
    cases h
    exact Or.inl ⟨rfl, rfl, _, rfl, rfl⟩
  | ok order =>
    rw [ho] at h horder
    exact Or.inr ⟨order, rfl, horder, h⟩

theorem get_of_bootOrder {order : List ComponentRegistration} (h : BootOrder env.registry order) :
    ∀ c ∈ order, env.registry.get c.name = some c :=
  fun _ hc => ComponentRegistry.mem_getAll.mp (h.perm.mem_iff.mp hc)

/-- A hook of the phase has raised for the component: a coroutine that was awaited, or one that is
no coroutine function, which the orchestrator refuses with an error. -/
inductive HookRaised (phase : Phase) (t : List LifecycleEntry) (c : ComponentRegistration) : Prop
  | coroutine {hook : Hook} {e : Exn} (hh : hook ∈ phase.hooks)
      (h : .hook c.name hook (.error e) ∈ t) : HookRaised phase t c
  | plain {hook : Hook} (hh : hook ∈ phase.hooks) (hplain : c.instanceHooks hook = .plain)
      (hbegun : .health c.name phase.inProgress ∈ t) : HookRaised phase t c

theorem HooksRun.not_raised {c : ComponentRegistration} {hs : List Hook} {own : List LifecycleEntry}
    (h : HooksRun c hs own (.ok ())) :
    (∀ n hook e, .hook n hook (.error e) ∉ own) ∧ ∀ hook ∈ hs, c.instanceHooks hook ≠ .plain := by
  generalize hres : (.ok () : Except Exn Unit) = res at h
  induction h with
  | done => simp
  | absent habsent _ ih =>
    refine ⟨(ih hres).1, List.forall_mem_cons.mpr ⟨?_, (ih hres).2⟩⟩
    rw [habsent]
    simp
  | plain _ => cases hres
  | returned hreturned _ ih =>
    refine ⟨by simpa using (ih hres).1, List.forall_mem_cons.mpr ⟨?_, (ih hres).2⟩⟩
    rw [hreturned]
    simp
  | raised _ => cases hres

theorem HookRaised.own_or_later {c d : ComponentRegistration} {own rest : List LifecycleEntry}
    {res : Except Exn Unit} {state : ComponentState} (hown : HooksRun d phase.hooks own res)
    (hstate : state ≠ phase.inProgress)
    (h : HookRaised phase
      (.health d.name phase.inProgress :: own ++ .health d.name state :: rest) c) :
    (d.name = c.name ∧ HookRaised phase (.health d.name phase.inProgress :: own) c) ∨
      HookRaised phase rest c := by
  cases h with
  | @coroutine hook e hh h =>
    simp only [List.cons_append, List.mem_cons, List.mem_append, reduceCtorEq, false_or] at h
    rcases h with h | h
    · obtain ⟨_, _, _, heq⟩ := hown.mem _ h
      exact Or.inl ⟨(LifecycleEntry.hook.inj heq).1.symm, .coroutine hh (List.mem_cons_of_mem _ h)⟩
    · exact Or.inr (.coroutine hh h)
  | @plain hook hh hplain h =>
    simp only [List.cons_append, List.mem_cons, List.mem_append] at h
    rcases h with h | h | h | h
    · have hname := (LifecycleEntry.health.inj h).1.symm
      exact Or.inl ⟨hname, .plain hh hplain (hname ▸ List.mem_cons_self)⟩
    · obtain ⟨_, _, _, heq⟩ := hown.mem _ h
      cases heq
    · exact absurd (LifecycleEntry.health.inj h).2.symm hstate
    · exact Or.inr (.plain hh hplain h)

theorem BroughtUp.not_raised {cs : List ComponentRegistration} {done : List String}
    (h : BroughtUp phase cs t done) {c : ComponentRegistration}
    (hname : ∀ d ∈ cs, d.name = c.name → d = c) (hcritical : c.critical = true) :
    ¬ HookRaised phase t c := by
  induction h with
  | nil => rintro (⟨_, h⟩ | ⟨_, _, h⟩) <;> exact absurd h List.not_mem_nil
  | disabled _ _ ih => exact ih fun d hd => hname d (List.mem_cons_of_mem _ hd)
  | @completed d cs own t done _ hr _ ih =>
    intro h
    rcases h.own_or_later hr inProgress_ne_success.symm with ⟨hd, h⟩ | h
    · obtain rfl := hname d List.mem_cons_self hd
      cases h with
      | coroutine _ h => exact hr.not_raised.1 _ _ _ (by simpa using h)
      | plain hh hplain _ => exact hr.not_raised.2 _ hh hplain
    · exact ih (fun d hd => hname d (List.mem_cons_of_mem _ hd)) h
  | @tolerated d cs own t done e _ htolerated hr _ ih =>
    intro h
    rcases h.own_or_later hr failed_ne_inProgress with ⟨hd, -⟩ | h
    · obtain rfl := hname d List.mem_cons_self hd
      rw [hcritical] at htolerated
      cases htolerated
    · exact ih (fun d hd => hname d (List.mem_cons_of_mem _ hd)) h

theorem RolledBack.not_raised {r : ComponentRegistry} {names : List String}
    (h : RolledBack r phase names t) (c : ComponentRegistration) : ¬ HookRaised phase t c := by
  have hdisjoint : ∀ hook ∈ phase.hooks, hook ∉ phase.teardown := by cases phase <;> decide
  rintro (⟨hh, hx⟩ | ⟨_, _, hx⟩)
  · exact hdisjoint _ hh (h.hook_mem hx).1
  · exact h.not_begun _ hx

/-- **The component a phase stops at is the critical one that raised.** -/
theorem Aborted.comp_eq {order : List ComponentRegistration} {report : StartupReport}
    (a : Aborted env phase order [] t report)
    (hget : ∀ d ∈ order, env.registry.get d.name = some d) {c : ComponentRegistration}
    (hc : env.registry.get c.name = some c) (hcritical : c.critical = true)
    (hraised : HookRaised phase t c) : a.comp = c := by
  have hname : ∀ d ∈ order, d.name = c.name → d = c := by
    intro d hd heq
    have hd := hget d hd
    rw [heq, hc] at hd
    exact (Option.some.inj hd).symm
  have hpre : ∀ d ∈ a.pre, d ∈ order := fun d hd => by
    rw [a.split]
    exact List.mem_append_left _ hd
  have hcomp : a.comp ∈ order := (congrArg (a.comp ∈ ·) a.split).mpr (by simp)
  have hsplit : HookRaised phase a.up c ∨
      HookRaised phase (.health a.comp.name phase.inProgress :: a.own ++
        .health a.comp.name .FAILED :: a.down) c := by
    rw [a.trace] at hraised
    cases hraised with
    | coroutine hh h => exact (List.mem_append.mp h).imp (.coroutine hh) (.coroutine hh)
    | plain hh hplain h => exact (List.mem_append.mp h).imp (.plain hh hplain) (.plain hh hplain)
  rcases hsplit with h | h
  · exact absurd h (a.broughtUp.not_raised (fun d hd => hname d (hpre d hd)) hcritical)
  · rcases h.own_or_later a.hooks failed_ne_inProgress with ⟨hd, -⟩ | h
    · exact hname a.comp hcomp hd
    · exact absurd h (a.rolledBack.not_raised c)

theorem failedComponent_of_raised {report : StartupReport}
    (h : runStartupPhase env phase s = ⟨.ok report, s', t⟩) {c : ComponentRegistration}
    (hc : env.registry.get c.name = some c) (hcritical : c.critical = true)
    (hraised : HookRaised phase t c) : report.failedComponent = some c.name := by
  rcases runStartupPhase_cases h with ⟨rfl, -, -⟩ | ⟨order, -, horder, hrun⟩
  · rcases hraised with ⟨_, hx⟩ | ⟨_, _, hx⟩ <;> exact absurd hx List.not_mem_nil
  · obtain ⟨report', hr, hcase⟩ := runComponents_run (get_of_bootOrder horder)
      (fun n hn => absurd hn List.not_mem_nil) hrun
    cases hr
    rcases hcase with ⟨done, hup, -, -⟩ | ⟨⟨a⟩, -⟩
    · have hget := get_of_bootOrder horder
      refine absurd hraised (hup.not_raised ?_ hcritical)
      intro d hd heq
      have hd := hget d hd
      rw [heq, hc] at hd
      exact (Option.some.inj hd).symm
    · rw [a.failedComponent, a.comp_eq (get_of_bootOrder horder) hc hcritical hraised]

theorem rolledBack_of_failed {report : StartupReport} {name : String} (hidle : Idle s)
    (h : runStartupPhase env phase s = ⟨.ok report, s', t⟩)
    (hf : report.failedComponent = some name) :
    ∃ pre comp post up down,
      buildExecutionOrder env.registry = .ok (pre ++ comp :: post) ∧
      comp.name = name ∧ comp.critical = true ∧ t = up ++ down ∧
      (∀ n hook res, .hook n hook res ∈ up → hook ∈ phase.hooks) ∧
      completedIn phase up = report.startedComponents ∧
      RolledBack env.registry phase report.startedComponents.reverse down ∧
      (∀ c ∈ post, ∀ hook res, .hook c.name hook res ∉ t) ∧ Idle s' := by
  rcases runStartupPhase_cases h with ⟨_, _, report', hr, hnone⟩ | ⟨order, ho, horder, hrun⟩
  · cases hr
    rw [hnone] at hf
    cases hf
  obtain ⟨report', hr, hcase⟩ := runComponents_run (get_of_bootOrder horder)
    (fun n hn => absurd hn List.not_mem_nil) hrun
  cases hr
  rcases hcase with ⟨done, _, _, hnone⟩ | ⟨⟨a⟩, hs'⟩
  · rw [hnone] at hf
    cases hf
  obtain ⟨pre, comp, post, up, done, own, exc, down, hsplit, _, hcritical, hup, hhooks, hrolled,
    rfl, hstarted, hfailed⟩ := a
  have hstarted : report.startedComponents = done := hstarted
  have hidle' : Idle s' := (hs' hidle.runningOnly).idle
  refine ⟨pre, comp, post, up ++ (.health comp.name phase.inProgress :: own ++
    [.health comp.name .FAILED]), down, ?_, ?_, hcritical, ?_, ?_, ?_, ?_, ?_, hidle'⟩
  · rw [ho, hsplit]
  · rw [hfailed, Option.some.injEq] at hf
    exact hf
  · simp
  · intro n hook res hx
    simp only [List.mem_append, List.mem_cons, reduceCtorEq, false_or, List.not_mem_nil,
      or_false] at hx
    rcases hx with hx | hx
    · exact (hup.hook_mem hx).1
    · obtain ⟨hook', hmem, _, hq⟩ := hhooks.mem _ hx
      exact (LifecycleEntry.hook.inj hq).2.1 ▸ hmem
  · rw [completedIn_append, completedIn_append, hup.completedIn,
      completedIn_cons_other inProgress_ne_success, hhooks.completedIn,
      completedIn_cons_other failed_ne_success, hstarted]
    exact List.append_nil _
  · rw [hstarted]
    exact hrolled
  · -- the names before the failure, and its own, are not names of what comes after
    have hnodup := (horder.perm.map ComponentRegistration.name).nodup_iff.mpr
      ComponentRegistry.nodup_names
    rw [hsplit, List.map_append, List.map_cons] at hnodup
    intro c hc hook res hx
    have hpost : c.name ∈ post.map ComponentRegistration.name := List.mem_map_of_mem hc
    have hpre : ∀ d ∈ pre, d.name ≠ c.name := by
      intro d hd hq
      exact (List.nodup_append.mp hnodup).2.2 d.name (List.mem_map_of_mem hd) c.name
        (List.mem_cons_of_mem _ hpost) hq
    have hcomp : comp.name ≠ c.name := by
      intro hq
      exact (List.nodup_cons.mp (List.nodup_append.mp hnodup).2.1).1 (hq ▸ hpost)
    simp only [List.mem_append, List.mem_cons, reduceCtorEq, false_or] at hx
    rcases hx with hx | hx | hx
    · obtain ⟨_, d, hd, hq⟩ := hup.hook_mem hx
      exact hpre d hd hq
    · obtain ⟨_, _, _, hq⟩ := hhooks.mem _ hx
      exact hcomp (LifecycleEntry.hook.inj hq).1.symm
    · have hmem := (hrolled.hook_mem hx).2
      rw [List.nil_append, List.mem_reverse] at hmem
      obtain ⟨d, hd, hq⟩ := hup.done_mem c.name hmem
      exact hpre d hd hq

/-- **A critical failure takes everything down again.** If a hook of a critical component raises,
what had completed the phase is torn down, in reverse and each once, whatever the teardown hooks do;
what comes after the failure is never touched, and nothing is running in the end. -/
theorem rolledBack_of_critical {report : StartupReport} (hidle : Idle s)
    (h : runStartupPhase env phase s = ⟨.ok report, s', t⟩) {c : ComponentRegistration}
    (hc : env.registry.get c.name = some c) (hcritical : c.critical = true)
    (hraised : HookRaised phase t c) :
    report.failedComponent = some c.name ∧ ∃ pre post up down,
      buildExecutionOrder env.registry = .ok (pre ++ c :: post) ∧ t = up ++ down ∧
      (∀ n hook res, .hook n hook res ∈ up → hook ∈ phase.hooks) ∧
      completedIn phase up = report.startedComponents ∧
      RolledBack env.registry phase report.startedComponents.reverse down ∧
      (∀ d ∈ post, ∀ hook res, .hook d.name hook res ∉ t) ∧ Idle s' := by
  have hf := failedComponent_of_raised h hc hcritical hraised
  obtain ⟨pre, comp, post, up, down, ho, hname, -, hrest⟩ := rolledBack_of_failed hidle h hf
  have hcomp : comp = c := by
    rcases runStartupPhase_cases h with ⟨-, -, report', hr, hnone⟩ | ⟨order, ho', horder, -⟩
    · cases hr
      rw [hnone] at hf
      cases hf
    · rw [ho, Except.ok.injEq] at ho'
      have hget := get_of_bootOrder horder comp (ho' ▸ List.mem_append_right _ List.mem_cons_self)
      rw [hname, hc] at hget
      exact (Option.some.inj hget).symm
  exact ⟨hf, pre, post, up, down, hcomp ▸ ho, hrest⟩

end Rollback

/-! ## Two services -/

def service (name : String) (dependencies : List String) (critical : Bool) :
    ComponentRegistration where
  name := name
  instanceHooks
    | .start | .stop => .coroutine
    | _ => .absent
  dependencies := dependencies
  critical := critical

def failingAt (n : Nat) (components : List ComponentRegistration) : LifecycleEnv where
  registry := .ofList components
  outcomes i := ⟨false, if i = n then .error ⟨.runtimeError, lit "boom"⟩ else .ok ()⟩

def webService : ComponentRegistration := service "web" ["cache"] true

def webEnv : LifecycleEnv := failingAt 1 [service "cache" [] true, webService]

def webRun : Run LifecycleState Exn LifecycleEntry StartupReport :=
  runStartupPhase webEnv .start ⟨.empty, 0⟩

theorem webRun_eq : runStartupPhase webEnv .start ⟨.empty, 0⟩ =
    ⟨.ok { success := false, startedComponents := ["cache"], failedComponent := some "web",
           errorDetails := some (lit "boom") }, webRun.state, webRun.trace⟩ := rfl

theorem webRun_raised : HookRaised .start webRun.trace webService := by
  have hfifth : webRun.trace[4]? =
      some (.hook "web" .start (.error ⟨.runtimeError, lit "boom"⟩)) := rfl
  exact .coroutine (by decide) (List.mem_of_getElem? hfifth)

theorem rolledBack_of_critical_web : ∃ pre post up down,
    buildExecutionOrder webEnv.registry = .ok (pre ++ webService :: post) ∧
      webRun.trace = up ++ down ∧
      (∀ n hook res, .hook n hook res ∈ up → hook ∈ Phase.start.hooks) ∧
      completedIn .start up = ["cache"] ∧
      RolledBack webEnv.registry .start ["cache"] down ∧
      (∀ d ∈ post, ∀ hook res, .hook d.name hook res ∉ webRun.trace) ∧ Idle webRun.state := by
  have hidle : Idle ⟨.empty, 0⟩ := by
    intro n h hh
    cases hh
  have hget : webEnv.registry.get webService.name = some webService := rfl
  exact (rolledBack_of_critical hidle webRun_eq hget rfl webRun_raised).2

/-! ## Dependencies -/

def DealtWith (before : List LifecycleEntry) (c : ComponentRegistration) : Prop :=
  .health c.name .RUNNING ∈ before ∨ c.enabled = false ∨
    (c.critical = false ∧ .health c.name .FAILED ∈ before)

theorem DealtWith.mono {before before' : List LifecycleEntry} {c : ComponentRegistration}
    (h : DealtWith before c) (hsub : ∀ x ∈ before, x ∈ before') : DealtWith before' c := by
  rcases h with h | h | ⟨hc, h⟩
  · exact Or.inl (hsub _ h)
  · exact Or.inr (Or.inl h)
  · exact Or.inr (Or.inr ⟨hc, hsub _ h⟩)

/-- A hook is awaited for a component all of whose predecessors have been dealt with. -/
def HookInTurn (order : List ComponentRegistration) (before : List LifecycleEntry)
    (x : LifecycleEntry) : Prop :=
  ∀ n hook res, x = .hook n hook res → ∃ pre c post, order = pre ++ c :: post ∧ c.name = n ∧
    ∀ d ∈ pre, DealtWith before d

section InTurn

variable {order seen rest : List ComponentRegistration} {c : ComponentRegistration}
  {before own t : List LifecycleEntry} {close : LifecycleEntry} {res : Except Exn Unit}

theorem HooksRun.inTurn {hs : List Hook} (h : HooksRun c hs own res)
    (horder : order = seen ++ c :: rest) (hseen : ∀ d ∈ seen, DealtWith before d)
    (hclose : ∀ n hook r, close ≠ .hook n hook r) :
    Guarded (fun b x => HookInTurn order (before ++ b) x)
      (.health c.name (Phase.inProgress .start) :: own ++ [close]) := by
  refine Guarded.of_mem ?_
  intro x hx b n hook r hq
  subst hq
  simp only [List.mem_append, List.mem_cons, reduceCtorEq, false_or, List.not_mem_nil,
    or_false] at hx
  rcases hx with hx | hx
  · obtain ⟨_, _, _, hq⟩ := h.mem _ hx
    refine ⟨seen, c, rest, horder, (LifecycleEntry.hook.inj hq).1.symm, ?_⟩
    intro d hd
    exact (hseen d hd).mono fun y hy => List.mem_append_left _ hy
  · exact absurd hx.symm (hclose n hook r)

theorem HooksRun.inTurn_cons {hs : List Hook} {cs : List ComponentRegistration}
    (h : HooksRun c hs own res) (horder : order = seen ++ c :: rest)
    (hseen : ∀ d ∈ seen, DealtWith before d) (hclose : ∀ n hook r, close ≠ .hook n hook r)
    (hdealt : ∀ b, close ∈ b → DealtWith b c)
    (ih : ∀ before', (∀ d ∈ seen ++ [c], DealtWith before' d) →
      Guarded (fun b x => HookInTurn order (before' ++ b) x) t ∧
        ∀ d ∈ seen ++ [c] ++ cs, DealtWith (before' ++ t) d) :
    Guarded (fun b x => HookInTurn order (before ++ b) x)
        (.health c.name (Phase.inProgress .start) :: own ++ close :: t) ∧
      ∀ d ∈ seen ++ c :: cs,
        DealtWith
          (before ++ (.health c.name (Phase.inProgress .start) :: own ++ close :: t)) d := by
  have hsplit : (.health c.name (Phase.inProgress .start) :: own ++ close :: t)
      = (.health c.name (Phase.inProgress .start) :: own ++ [close]) ++ t := by simp
  obtain ⟨hguard, hall⟩ := ih
      (before ++ (.health c.name (Phase.inProgress .start) :: own ++ [close])) (by
    intro d hd
    rcases List.mem_append.mp hd with hd | hd
    · exact (hseen d hd).mono fun y hy => List.mem_append_left _ hy
    · rw [List.mem_singleton.mp hd]
      exact hdealt _ (by simp))
  rw [hsplit]
  refine ⟨?_, ?_⟩
  · refine (h.inTurn horder hseen hclose).append ?_
    simpa only [List.append_assoc] using hguard
  · intro d hd
    rw [← List.append_assoc]
    exact hall d (by simpa using hd)

theorem BroughtUp.inTurn {cs : List ComponentRegistration} {done : List String}
    (h : BroughtUp .start cs t done) (horder : order = seen ++ cs ++ rest)
    (hseen : ∀ d ∈ seen, DealtWith before d) :
    Guarded (fun b x => HookInTurn order (before ++ b) x) t ∧
      ∀ d ∈ seen ++ cs, DealtWith (before ++ t) d := by
  induction h generalizing before seen with
  | nil =>
    refine ⟨Guarded.of_mem fun x hx => absurd hx List.not_mem_nil, ?_⟩
    simpa using hseen
  | @disabled c cs t done hdisabled _ ih =>
    have hseen' : ∀ d ∈ seen ++ [c], DealtWith before d := by
      intro d hd
      rcases List.mem_append.mp hd with hd | hd
      · exact hseen d hd
      · rw [List.mem_singleton.mp hd]
        exact Or.inr (Or.inl hdisabled)
    obtain ⟨hguard, hall⟩ := ih (by rw [horder]; simp) hseen'
    refine ⟨hguard, ?_⟩
    intro d hd
    exact hall d (by simpa using hd)
  | @completed c cs own t done _ hr _ ih =>
    have hnext : order = seen ++ c :: (cs ++ rest) := by
      rw [horder, List.append_assoc, List.cons_append]
    refine hr.inTurn_cons hnext hseen (by simp) (fun b hb => Or.inl hb) ?_
    intro before' hseen'
    exact ih (by rw [horder]; simp) hseen'
  | @tolerated c cs own t done e _ hcritical hr _ ih =>
    have hnext : order = seen ++ c :: (cs ++ rest) := by
      rw [horder, List.append_assoc, List.cons_append]
    refine hr.inTurn_cons hnext hseen (by simp) (fun b hb => Or.inr (Or.inr ⟨hcritical, hb⟩)) ?_
    intro before' hseen'
    exact ih (by rw [horder]; simp) hseen'

end InTurn

/-- **A start hook runs after the dependencies have been dealt with**: each is registered, and has
completed its own start hooks in this start, or is disabled, or is non-critical and has failed in
it. -/
theorem start_after_dependencies (env : LifecycleEnv) (s : LifecycleState) :
    Guarded (fun before x => ∀ c ∈ env.registry.getAll, ∀ res, x = .hook c.name .start res →
      ∀ d ∈ c.dependencies, ∃ dep, env.registry.get d = some dep ∧ DealtWith before dep)
      (start env s).trace := by
  generalize hrun : start env s = run
  obtain ⟨res, s', t⟩ := run
  rcases runStartupPhase_cases hrun with ⟨rfl, _⟩ | ⟨order, _, horder, hloop⟩
  · exact Guarded.of_mem fun x hx => absurd hx List.not_mem_nil
  -- a hook in turn is awaited for a component whose dependencies all come before it
  have hdeps : ∀ before x, HookInTurn order before x → ∀ c ∈ env.registry.getAll, ∀ res,
      x = .hook c.name .start res → ∀ d ∈ c.dependencies,
        ∃ dep, env.registry.get d = some dep ∧ DealtWith before dep := by
    intro before x hx c hc res hq d hd
    obtain ⟨pre, c', post, hsplit, hname, hpre⟩ := hx _ _ _ hq
    have hc' : c' ∈ order := by rw [hsplit]; simp
    obtain rfl : c' = c := ComponentRegistry.name_inj (horder.perm.mem_iff.mp hc') hc hname
    obtain ⟨dep, hdep, rfl⟩ := List.mem_map.mp (horder.follows pre c' post hsplit d hd)
    exact ⟨dep, get_of_bootOrder horder dep (by rw [hsplit]; simp [hdep]), hpre dep hdep⟩
  have hnone : ∀ d ∈ ([] : List ComponentRegistration), DealtWith [] d :=
    fun d hd => absurd hd List.not_mem_nil
  obtain ⟨report, _, hcase⟩ := runComponents_run (get_of_bootOrder horder)
    (fun n hn => absurd hn List.not_mem_nil) hloop
  rcases hcase with ⟨done, hup, _⟩ | ⟨⟨a⟩, _⟩
  · have hwhole : order = [] ++ order ++ [] := by simp
    exact (hup.inTurn hwhole hnone).1.mono hdeps
  · obtain ⟨pre, comp, post, up, done, own, exc, down, hsplit, _, _, hup, hhooks, hrolled,
      rfl, _, _⟩ := a
    have hbefore : order = [] ++ pre ++ comp :: post := hsplit
    obtain ⟨hturn, hall⟩ := hup.inTurn hbefore hnone
    have hown : Guarded (fun b x => HookInTurn order ([] ++ up ++ b) x)
        (.health comp.name (Phase.inProgress .start) :: own ++ [.health comp.name .FAILED]) :=
      hhooks.inTurn hsplit hall (by simp)
    have hdown : Guarded (fun before x => ∀ c ∈ env.registry.getAll, ∀ res,
        x = .hook c.name .start res → ∀ d ∈ c.dependencies,
          ∃ dep, env.registry.get d = some dep ∧
            DealtWith (up ++ (.health comp.name (Phase.inProgress .start) :: own ++
              [.health comp.name .FAILED]) ++ before) dep) down := by
      refine Guarded.of_mem ?_
      intro x hx b c _ r hq
      have hteardown := (hrolled.hook_mem (hq ▸ hx)).1
      simp [Phase.teardown] at hteardown
    have hfirst := (hturn.mono hdeps).append (hown.mono fun b x hx => hdeps _ x hx)
    have hwhole := hfirst.append hdown
    simpa using hwhole

/-- `cache`, which is not critical, fails; the start goes on, and `web`, which depends on it,
starts. -/
theorem starts_without_dependency :
    let env := failingAt 0 [service "cache" [] false, service "web" ["cache"] true]
    ¬ Guarded (fun before x => ∀ c ∈ env.registry.getAll, ∀ res, x = .hook c.name .start res →
        ∀ d ∈ c.dependencies, .health d .RUNNING ∈ before)
      (start env ⟨.empty, 0⟩).trace := by
  intro env h
  have htrace : (start env ⟨.empty, 0⟩).trace =
      [.health "cache" .STARTING, .hook "cache" .start (.error ⟨.runtimeError, lit "boom"⟩),
        .health "cache" .FAILED, .health "web" .STARTING] ++
      .hook "web" .start (.ok ()) :: [.health "web" .RUNNING] := rfl
  have hweb : service "web" ["cache"] true ∈ env.registry.getAll :=
    List.mem_cons_of_mem _ List.mem_cons_self
  have hcache := h _ _ _ htrace _ hweb _ rfl "cache" List.mem_cons_self
  simp at hcache

end LifecycleOrchestrator

end IraOS
