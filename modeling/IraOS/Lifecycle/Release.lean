import IraOS.Lifecycle.Guarantees

/-!
# What a failed start gives back

`lifecycle.md` has a failed start roll back by calling `stop()` and `shutdown()` on every component
that had started. `_rollback` is told which phase failed and calls the hooks of that phase only, so
after a failed start **no shutdown hook runs**, and what `boot` acquired stays acquired.

`Leaks` says for which components that can be seen: a critical one may fail after one that started,
and the one that started has something to shut down, or something to stop that its own `before_stop`
can come in the way of. `released_iff_not_leaks` says that these are all.

## Over every pattern of failures

The condition is on the components and their hooks, and the theorem is over every pattern of what
the hooks do. One direction is that of a set of components none of which leaks: whatever fails, what
had started is released. For the other a pattern has to be found that shows a leak, and it is the
simplest there is: every hook returns up to a certain one, and from there on every hook raises. The
first failure is then in the component that is to fail, and no `before_stop` returns in the
rollback, so that nothing behind one is stopped.

## Counting hooks

Where that certain hook is depends on how many are awaited before, which is a matter of the
components alone as long as all return (`awaits`). So the pattern can be written down, and what the
phase does under it is computed by the loop's own relations.
-/

set_option autoImplicit false

namespace IraOS

open Lib

def ComponentRegistry.has (r : ComponentRegistry) (hook : Hook) (name : String) : Bool :=
  match r.get name with
  | none => false
  | some c => c.instanceHooks hook ≠ .absent

namespace ComponentRegistration

/-- The component completes the phase if its hooks return: they are all coroutine functions. -/
def CanComplete (c : ComponentRegistration) (phase : Phase) : Prop :=
  ∀ hook ∈ phase.hooks, c.instanceHooks hook ≠ .plain

def CanFail (c : ComponentRegistration) (phase : Phase) : Prop :=
  ∃ hook ∈ phase.hooks, c.instanceHooks hook ≠ .absent

def Holds (c : ComponentRegistration) : Prop :=
  c.instanceHooks .shutdown ≠ .absent ∨
    c.instanceHooks .stop = .plain ∨
    (c.instanceHooks .stop = .coroutine ∧ c.instanceHooks .beforeStop ≠ .absent)

end ComponentRegistration

namespace LifecycleOrchestrator

def invoked (hook : Hook) (t : List LifecycleEntry) : List String :=
  t.filterMap fun
    | .hook name h _ => if h = hook then some name else none
    | .health .. => none

/-- What a failed start has released: every component that had started has had its stop hook and
its shutdown hook invoked, if it has them, each once and in reverse order, stop before shutdown. -/
structure Released (r : ComponentRegistry) (t : List LifecycleEntry) : Prop where
  stopped : invoked .stop t = (completedIn .start t).reverse.filter (r.has .stop)
  shutDown : invoked .shutdown t = (completedIn .start t).reverse.filter (r.has .shutdown)
  stopFirst : Guarded (fun before x => ∀ n res, x = .hook n .shutdown res →
    r.has .stop n = true → n ∈ invoked .stop before) t

/-- A boot can succeed, and in the start after it a critical component can be the first to fail
that must not, with one before it that started and holds something. -/
def Leaks (r : ComponentRegistry) : Prop :=
  ∃ pre comp post, buildExecutionOrder r = .ok (pre ++ comp :: post) ∧
    (∀ c ∈ pre ++ comp :: post, c.enabled = true → c.critical = true → c.CanComplete .boot) ∧
    comp.enabled = true ∧ comp.critical = true ∧ comp.CanFail .start ∧
    (∀ c ∈ pre, c.enabled = true → c.critical = true → c.CanComplete .start) ∧
    ∃ d ∈ pre, d.enabled = true ∧ d.CanComplete .start ∧ d.Holds


section Invoked

variable {hook : Hook} {phase : Phase} {c : ComponentRegistration} {t u : List LifecycleEntry}

theorem invoked_append : invoked hook (t ++ u) = invoked hook t ++ invoked hook u :=
  List.filterMap_append ..

@[simp] theorem invoked_nil : invoked hook [] = [] := rfl

@[simp] theorem invoked_health {n : String} {state : ComponentState} :
    invoked hook (.health n state :: t) = invoked hook t := rfl

theorem mem_invoked {n : String} : n ∈ invoked hook t ↔ ∃ res, .hook n hook res ∈ t := by
  rw [invoked, List.mem_filterMap]
  constructor
  · rintro ⟨x, hx, hn⟩
    cases x with
    | hook name h res =>
      dsimp only at hn
      split at hn
      · next hh =>
        cases hn
        exact ⟨res, hh ▸ hx⟩
      · cases hn
    | health name state => cases hn
  · rintro ⟨res, hx⟩
    exact ⟨_, hx, by simp⟩

theorem invoked_eq_nil (h : ∀ n res, .hook n hook res ∉ t) : invoked hook t = [] := by
  rw [List.eq_nil_iff_forall_not_mem]
  intro n hn
  obtain ⟨res, hx⟩ := mem_invoked.mp hn
  exact h n res hx

theorem HooksRun.invoked_eq_nil {hs : List Hook} {res : Except Exn Unit} (h : HooksRun c hs t res)
    (hmem : hook ∉ hs) : invoked hook t = [] := by
  refine LifecycleOrchestrator.invoked_eq_nil ?_
  intro n r hx
  obtain ⟨hook', hin, _, hq⟩ := h.mem _ hx
  exact hmem ((LifecycleEntry.hook.inj hq).2.1 ▸ hin)

theorem HooksRun.coroutine {hs : List Hook} {res : Except Exn Unit} (h : HooksRun c hs t res)
    {n : String} {res' : Except Exn Unit} (hx : .hook n hook res' ∈ t) :
    c.instanceHooks hook = .coroutine := by
  induction h with
  | done | plain _ => cases hx
  | absent _ _ ih => exact ih hx
  | returned hco _ ih =>
    rcases List.mem_cons.mp hx with hq | hx
    · cases hq
      exact hco
    · exact ih hx
  | raised hco =>
    cases List.mem_singleton.mp hx
    exact hco

theorem HooksRun.ne_plain {hs : List Hook} {res : Except Exn Unit} (h : HooksRun c hs t res)
    (hok : res = .ok ()) : ∀ h ∈ hs, c.instanceHooks h ≠ .plain := by
  induction h with
  | done => simp
  | absent habs _ ih =>
    intro h hmem
    rcases List.mem_cons.mp hmem with rfl | hmem
    · simp [habs]
    · exact ih hok h hmem
  | plain _ => cases hok
  | returned hco _ ih =>
    intro h hmem
    rcases List.mem_cons.mp hmem with rfl | hmem
    · simp [hco]
    · exact ih hok h hmem
  | raised _ => cases hok

theorem HooksRun.exists_hook {hs : List Hook} {res : Except Exn Unit} (h : HooksRun c hs t res)
    (herr : ∀ u, res ≠ .ok u) : ∃ h ∈ hs, c.instanceHooks h ≠ .absent := by
  induction h with
  | done => exact absurd rfl (herr ())
  | absent _ _ ih =>
    obtain ⟨h, hmem, hh⟩ := ih herr
    exact ⟨h, List.mem_cons_of_mem _ hmem, hh⟩
  | plain hp => exact ⟨_, List.mem_cons_self, by simp [hp]⟩
  | returned hco _ _ => exact ⟨_, List.mem_cons_self, by simp [hco]⟩
  | raised hco => exact ⟨_, List.mem_cons_self, by simp [hco]⟩

theorem HooksRun.returned_mem {hs : List Hook} {res : Except Exn Unit} (h : HooksRun c hs t res)
    (hok : res = .ok ()) : ∀ h ∈ hs, c.instanceHooks h ≠ .absent →
      .hook c.name h (.ok ()) ∈ t := by
  induction h with
  | done => simp
  | absent habs _ ih =>
    intro h hmem hh
    rcases List.mem_cons.mp hmem with rfl | hmem
    · exact absurd habs hh
    · exact ih hok h hmem hh
  | plain _ => cases hok
  | returned _ _ ih =>
    intro h hmem hh
    rcases List.mem_cons.mp hmem with rfl | hmem
    · exact List.mem_cons_self
    · exact List.mem_cons_of_mem _ (ih hok h hmem hh)
  | raised _ => cases hok

end Invoked

/-! ## Where nothing leaks -/

section Released

variable {r : ComponentRegistry} {env : LifecycleEnv} {phase : Phase} {c : ComponentRegistration}
  {t : List LifecycleEntry}

theorem BroughtUp.of_mem {cs : List ComponentRegistration} {done : List String}
    (h : BroughtUp phase cs t done) :
    ∀ d ∈ cs, d.enabled = true → d.critical = true → d.CanComplete phase := by
  induction h with
  | nil => simp
  | disabled hdisabled _ ih =>
    intro d hd henabled hcritical
    rcases List.mem_cons.mp hd with rfl | hd
    · rw [hdisabled] at henabled
      cases henabled
    · exact ih d hd henabled hcritical
  | completed _ hr _ ih =>
    intro d hd henabled hcritical
    rcases List.mem_cons.mp hd with rfl | hd
    · exact hr.ne_plain rfl
    · exact ih d hd henabled hcritical
  | tolerated _ hnot _ _ ih =>
    intro d hd henabled hcritical
    rcases List.mem_cons.mp hd with rfl | hd
    · rw [hnot] at hcritical
      cases hcritical
    · exact ih d hd henabled hcritical

theorem BroughtUp.done_completed {cs : List ComponentRegistration} {done : List String}
    (h : BroughtUp phase cs t done) :
    ∀ n ∈ done, ∃ d ∈ cs, d.name = n ∧ d.enabled = true ∧ d.CanComplete phase := by
  induction h with
  | nil => simp
  | disabled _ _ ih | tolerated _ _ _ _ ih =>
    intro n hn
    obtain ⟨d, hd, hname⟩ := ih n hn
    exact ⟨d, List.mem_cons_of_mem _ hd, hname⟩
  | @completed c _ _ _ _ henabled hr _ ih =>
    intro n hn
    rcases List.mem_cons.mp hn with rfl | hn
    · exact ⟨c, List.mem_cons_self, rfl, henabled, hr.ne_plain rfl⟩
    · obtain ⟨d, hd, hname⟩ := ih n hn
      exact ⟨d, List.mem_cons_of_mem _ hd, hname⟩

theorem TornDown.invoked (h : TornDown phase c t) (hook : Hook) :
    ∃ own res, HooksRun c phase.teardown own res ∧ invoked hook t = invoked hook own := by
  cases h with
  | stopped hr | failed hr =>
    refine ⟨_, _, hr, ?_⟩
    rw [invoked_append, invoked_health]
    exact List.append_nil _

theorem TornDown.invoked_stop (h : TornDown .start c t) (hfree : ¬ c.Holds) :
    LifecycleOrchestrator.invoked .stop t =
      if c.instanceHooks .stop ≠ .absent then [c.name] else [] := by
  obtain ⟨own, res, hr, ht⟩ := h.invoked .stop
  rw [ht]
  simp only [ComponentRegistration.Holds, not_or, not_and, not_not] at hfree
  obtain ⟨_, hplain, hbefore⟩ := hfree
  cases hs : c.instanceHooks .stop with
  | absent =>
    rw [if_neg (by simp)]
    refine LifecycleOrchestrator.invoked_eq_nil ?_
    intro n res' hx
    simp [hr.coroutine hx] at hs
  | plain => exact absurd hs hplain
  | coroutine =>
    rw [if_pos (by simp)]
    cases hr with
    | absent _ hr =>
      cases hr with
      | absent hstop _ | plain hstop => simp [hs] at hstop
      | returned _ hr => exact congrArg (c.name :: ·) (hr.invoked_eq_nil (by simp))
      | raised _ => rfl
    | plain hb | returned hb _ | raised hb => simp [hbefore hs] at hb

theorem RolledBack.invoked_stop {names : List String} (h : RolledBack r .start names t)
    (hfree : ∀ n ∈ names, ∀ c, r.get n = some c → ¬ c.Holds) :
    LifecycleOrchestrator.invoked .stop t = names.filter (r.has .stop) := by
  induction h with
  | nil => rfl
  | @cons c name names t₁ t₂ hc htorn _ ih =>
    have hrest := ih fun n hn => hfree n (List.mem_cons_of_mem _ hn)
    have hname : c.name = name := (ComponentRegistry.get_some hc).2
    have hhas : r.has .stop name = decide (c.instanceHooks .stop ≠ .absent) := by
      rw [ComponentRegistry.has, hc]
    rw [invoked_append, htorn.invoked_stop (hfree name List.mem_cons_self c hc), hrest,
      List.filter_cons, hhas, hname]
    by_cases hs : c.instanceHooks .stop = .absent <;> simp [hs]

theorem Aborted.invoked_shutdown {cs : List ComponentRegistration} {started : List String}
    {report : StartupReport} (a : Aborted env .start cs started t report) :
    invoked .shutdown t = [] := by
  refine LifecycleOrchestrator.invoked_eq_nil ?_
  intro n res hx
  rw [a.trace] at hx
  simp only [List.mem_append, List.mem_cons, reduceCtorEq, false_or] at hx
  rcases hx with hx | hx | hx
  · have hmem := (a.broughtUp.hook_mem hx).1
    simp [Phase.hooks] at hmem
  · obtain ⟨hook, hmem, _, hq⟩ := a.hooks.mem _ hx
    rw [← (LifecycleEntry.hook.inj hq).2.1] at hmem
    simp [Phase.hooks] at hmem
  · have hmem := (a.rolledBack.hook_mem hx).1
    simp [Phase.teardown] at hmem

theorem RolledBack.completedIn {names : List String} (h : RolledBack r phase names t) :
    completedIn phase t = [] := by
  have hstates : ∀ {state : ComponentState}, state = .SHUTTING_DOWN ∨ state = .STOPPED ∨
      state = .FAILED → state ≠ phase.success := by
    rintro state (rfl | rfl | rfl) <;> cases phase <;> simp [Phase.success]
  induction h with
  | nil => rfl
  | cons _ htorn _ ih =>
    rw [completedIn_append, ih, List.append_nil]
    cases htorn with
    | stopped hr | failed hr =>
      rw [completedIn_append, completedIn_cons_other (hstates (by simp)), hr.completedIn,
        List.nil_append, completedIn_cons_other (hstates (by simp))]
      rfl

theorem Aborted.completedIn {cs : List ComponentRegistration} {started : List String}
    {report : StartupReport} (a : Aborted env phase cs started t report) :
    completedIn phase t = a.done := by
  have hwhole : LifecycleOrchestrator.completedIn phase t = a.done ++ ([] ++ []) := by
    conv_lhs => rw [a.trace]
    rw [completedIn_append, completedIn_append, a.broughtUp.completedIn,
      completedIn_cons_other inProgress_ne_success, a.hooks.completedIn,
      completedIn_cons_other failed_ne_success, a.rolledBack.completedIn]
  simpa using hwhole

theorem Aborted.released {cs : List ComponentRegistration} {report : StartupReport}
    (a : Aborted env .start cs [] t report)
    (hfree : ∀ n ∈ a.done, ∀ c, env.registry.get n = some c → ¬ c.Holds) :
    Released env.registry t where
  stopped := by
    have hup : LifecycleOrchestrator.invoked .stop a.up = [] := by
      refine invoked_eq_nil ?_
      intro n res hx
      have hmem := (a.broughtUp.hook_mem hx).1
      simp [Phase.hooks] at hmem
    have hdown := a.rolledBack.invoked_stop fun n hn => hfree n (List.mem_reverse.mp hn)
    rw [a.completedIn]
    conv_lhs => rw [a.trace]
    rw [invoked_append, invoked_append, hup, invoked_health,
      a.hooks.invoked_eq_nil (by simp [Phase.hooks]), invoked_health, hdown]
    rfl
  shutDown := by
    rw [a.invoked_shutdown, a.completedIn, eq_comm, List.filter_eq_nil_iff]
    intro n hn
    rw [ComponentRegistry.has]
    cases hc : env.registry.get n with
    | none => simp
    | some c =>
      have hnot := hfree n (List.mem_reverse.mp hn) c hc
      simp only [ComponentRegistration.Holds, not_or, not_not] at hnot
      simp [hnot.1]
  stopFirst := by
    refine Guarded.of_mem ?_
    rintro x hx before n res rfl
    have hmem := mem_invoked.mpr ⟨res, hx⟩
    rw [a.invoked_shutdown] at hmem
    cases hmem

theorem runComponents_success {s s' : LifecycleState} {cs : List ComponentRegistration}
    {started : List String} {report : StartupReport}
    (h : runComponents env phase cs started s = ⟨.ok report, s', t⟩) :
    report.success = report.failedComponent.isNone := by
  induction cs generalizing started s t with
  | nil =>
    cases h
    rfl
  | cons c cs ih =>
    rw [runComponents] at h
    split at h
    · exact ih h
    obtain ⟨t₀, hbody, _⟩ := bind_updateState h
    obtain ⟨x, s₁, t₁, t₂, _, hrest, _⟩ := Act.bind_attempt hbody
    cases x with
    | ok u => exact ih hrest
    | error e =>
      obtain ⟨t₃, hafter, _⟩ := bind_updateState hrest
      split at hafter
      · obtain ⟨u, s₂, t₄, t₅, _, hpure, _⟩ := Act.bind_ok hafter
        cases hpure
        rfl
      · exact ih hafter

/-- **A boot that succeeded brought up every critical component.** -/
theorem boot_success {s s' : LifecycleState} {report : StartupReport}
    (h : boot env s = ⟨.ok report, s', t⟩) (hok : report.success = true) :
    ∃ order, buildExecutionOrder env.registry = .ok order ∧
      ∀ c ∈ order, c.enabled = true → c.critical = true → c.CanComplete .boot := by
  rw [boot] at h
  unfold runStartupPhase at h
  have horder := buildExecutionOrder_result env.registry
  cases ho : buildExecutionOrder env.registry with
  | error e =>
    rw [ho] at h
    cases h
    cases hok
  | ok order =>
    rw [ho] at h horder
    have horder : BootOrder env.registry order := horder
    refine ⟨order, rfl, ?_⟩
    have hsuccess := runComponents_success h
    rw [hok, eq_comm, Option.isNone_iff_eq_none] at hsuccess
    obtain ⟨report', hr, hcase⟩ := runComponents_run (get_of_bootOrder horder)
      (fun n hn => absurd hn List.not_mem_nil) h
    cases hr
    rcases hcase with ⟨done, hup, _⟩ | ⟨⟨a⟩, _⟩
    · exact hup.of_mem
    · rw [a.failedComponent] at hsuccess
      cases hsuccess

end Released

/-! ## A pattern of failures

Every hook returns up to some point, and every hook raises from there on. How many are awaited
before a component's turn comes is then a matter of the components alone. -/

section Pattern

variable {env : LifecycleEnv} {phase : Phase} {c : ComponentRegistration} {s s' : LifecycleState}
  {t : List LifecycleEntry}

def Returning (env : LifecycleEnv) (a b : Nat) : Prop :=
  ∀ i, a ≤ i → i < b → env.outcomes i = ⟨false, .ok ()⟩

def Raising (env : LifecycleEnv) (a : Nat) : Prop :=
  ∀ i, a ≤ i → ∃ e, (env.outcomes i).ending = .error e

def awaits (c : ComponentRegistration) : List Hook → Nat
  | [] => 0
  | hook :: hooks =>
    match c.instanceHooks hook with
    | .absent => awaits c hooks
    | .plain => 0
    | .coroutine => 1 + awaits c hooks

def awaitsOne (phase : Phase) (c : ComponentRegistration) : Nat :=
  if c.enabled = false then 0 else awaits c phase.hooks

def awaitsAll (phase : Phase) : List ComponentRegistration → Nat
  | [] => 0
  | c :: cs => awaitsOne phase c + awaitsAll phase cs

theorem Returning.left {a b b' : Nat} (h : Returning env a b') (hb : b ≤ b') : Returning env a b :=
  fun i ha hi => h i ha (by omega)

theorem Returning.right {a a' b : Nat} (h : Returning env a b) (ha : a ≤ a') :
    Returning env a' b :=
  fun i hi hb => h i (by omega) hb

theorem executeHooks_returning (c : ComponentRegistration) (hooks : List Hook)
    (h : Returning env s.awaited (s.awaited + awaits c hooks)) :
    ∃ res s' t, executeHooks env c hooks s = ⟨res, s', t⟩ ∧
      s'.awaited = s.awaited + awaits c hooks ∧
      ((∀ hook ∈ hooks, c.instanceHooks hook ≠ .plain) → res = .ok ()) := by
  induction hooks generalizing s with
  | nil => exact ⟨.ok (), s, [], rfl, rfl, fun _ => rfl⟩
  | cons hook hooks ih =>
    rw [awaits] at h ⊢
    rw [executeHooks, executeHook]
    cases hk : c.instanceHooks hook with
    | absent =>
      rw [hk] at h
      obtain ⟨res, s', t, hrun, hs', hok⟩ := ih h
      refine ⟨res, s', t, ?_, hs', fun hall => hok fun hook' hmem => hall hook' (by simp [hmem])⟩
      rw [Act.run_bind_of_ok (Act.run_pure () s), hrun]
      rfl
    | plain =>
      refine ⟨_, s, [], rfl, rfl, ?_⟩
      intro hall
      exact absurd hk (hall hook List.mem_cons_self)
    | coroutine =>
      rw [hk] at h
      dsimp only at h ⊢
      have hone : hookResult c hook (env.outcomes s.awaited) = .ok () := by
        rw [h s.awaited (Nat.le_refl _) (by omega), hookResult]
        simp
      obtain ⟨res, s', t, hrun, hs', hok⟩ := ih (s := { s with awaited := s.awaited + 1 })
        (by
          have hrest := h.right (Nat.le_succ s.awaited)
          rwa [← Nat.add_assoc] at hrest)
      refine ⟨res, s', .hook c.name hook (.ok ()) :: t, ?_, ?_, fun hall => hok fun hook' hmem =>
        hall hook' (by simp [hmem])⟩
      · have hfirst : (do
            let s ← Act.get
            Act.modify fun s => { s with awaited := s.awaited + 1 }
            Act.emit (.hook c.name hook (hookResult c hook (env.outcomes s.awaited)))
            Act.ofExcept (hookResult c hook (env.outcomes s.awaited)) : LifecycleAct Unit) s =
            ⟨.ok (), { s with awaited := s.awaited + 1 }, [.hook c.name hook (.ok ())]⟩ := by
          rw [Act.bind_get, Act.bind_modify, Act.bind_emit, Act.run_ofExcept, hone]
        rw [Act.run_bind_of_ok hfirst, hrun]
        rfl
      · rw [hs']
        exact Nat.add_assoc ..

theorem run_updateState {name : String} {state : ComponentState} {details : Text} :
    updateState name state details s =
      ⟨.ok (), { s with health := s.health.set name ⟨state, details⟩ }, [.health name state]⟩ :=
  rfl

theorem runComponents_turn (hc : c.enabled = true → c.critical = true → c.CanComplete phase)
    (h : Returning env s.awaited (s.awaited + awaitsOne phase c)) :
    ∃ s₂ own more, s₂.awaited = s.awaited + awaitsOne phase c ∧
      (∀ n hook res, .hook n hook res ∈ own → hook ∈ phase.hooks) ∧
      (c.enabled = true → c.CanComplete phase → more = [c.name]) ∧
      ∀ cs started, runComponents env phase (c :: cs) started s =
        ⟨(runComponents env phase cs (started ++ more) s₂).result,
          (runComponents env phase cs (started ++ more) s₂).state,
          own ++ (runComponents env phase cs (started ++ more) s₂).trace⟩ := by
  rw [awaitsOne] at h ⊢
  by_cases hdisabled : c.enabled = false
  -- a disabled component is passed over
  · refine ⟨s, [], [], by simp [hdisabled], by simp, by simp [hdisabled], ?_⟩
    intro cs started
    rw [runComponents, if_pos hdisabled, List.append_nil]
    rfl
  rw [if_neg hdisabled] at h ⊢
  have henabled : c.enabled = true := Bool.eq_true_of_not_eq_false hdisabled
  obtain ⟨res, s₁, own, hown, hs₁, hok⟩ := executeHooks_returning c phase.hooks
    (s := { s with health := s.health.set c.name ⟨phase.inProgress, []⟩ }) h
  have hmem : ∀ n hook res', .hook n hook res' ∈ own → hook ∈ phase.hooks := by
    intro n hook res' hx
    obtain ⟨hook', hin, _, hq⟩ := (executeHooks_run hown).1.mem _ hx
    exact (LifecycleEntry.hook.inj hq).2.1 ▸ hin
  cases res with
  | ok u =>
    have hup : bringUp env phase c
        { s with health := s.health.set c.name ⟨phase.inProgress, []⟩ } = ⟨.ok (), _, _⟩ :=
      Act.run_bind_of_ok hown
    refine ⟨{ s₁ with health := s₁.health.set c.name ⟨phase.success, []⟩ },
      .health c.name phase.inProgress :: (own ++ [.health c.name phase.success]), [c.name], hs₁, ?_,
      fun _ _ => rfl, ?_⟩
    · intro n hook res' hx
      simp only [List.mem_cons, List.mem_append, reduceCtorEq, false_or, List.not_mem_nil,
        or_false] at hx
      exact hmem n hook res' hx
    · intro cs started
      rw [runComponents, if_neg hdisabled, Act.run_bind_of_ok run_updateState,
        Act.run_bind_of_ok (Act.run_attempt_of hup)]
      rfl
  | error e =>
    have hup : bringUp env phase c
        { s with health := s.health.set c.name ⟨phase.inProgress, []⟩ } = ⟨.error e, _, _⟩ :=
      Act.run_bind_of_error hown
    -- nothing the environment does raises here, so a hook that is no coroutine does
    have hnot : ¬ c.CanComplete phase := by
      intro hcan
      cases hok hcan
    have hcritical : ¬ c.critical = true := fun hcritical => hnot (hc henabled hcritical)
    refine ⟨{ s₁ with health := s₁.health.set c.name ⟨.FAILED, e.message⟩ },
      .health c.name phase.inProgress :: (own ++ [.health c.name .FAILED]), [], hs₁, ?_,
      fun _ hcan => absurd hcan hnot, ?_⟩
    · intro n hook res' hx
      simp only [List.mem_cons, List.mem_append, reduceCtorEq, false_or, List.not_mem_nil,
        or_false] at hx
      exact hmem n hook res' hx
    · intro cs started
      rw [runComponents, if_neg hdisabled, Act.run_bind_of_ok run_updateState,
        Act.run_bind_of_ok (Act.run_attempt_of hup)]
      dsimp only
      rw [Act.run_bind_of_ok run_updateState, if_neg hcritical, List.append_nil]
      simp

/-- **Every component before one comes to its turn**, and those that can complete the phase do. -/
theorem runComponents_upto {pre : List ComponentRegistration}
    (hpre : ∀ c ∈ pre, c.enabled = true → c.critical = true → c.CanComplete phase)
    (started : List String) (h : Returning env s.awaited (s.awaited + awaitsAll phase pre)) :
    ∃ s' started' t, s'.awaited = s.awaited + awaitsAll phase pre ∧
      (∀ n hook res, .hook n hook res ∈ t → hook ∈ phase.hooks) ∧
      (∀ n ∈ started, n ∈ started') ∧
      (∀ d ∈ pre, d.enabled = true → d.CanComplete phase → d.name ∈ started') ∧
      ∀ post, runComponents env phase (pre ++ post) started s =
        ⟨(runComponents env phase post started' s').result,
          (runComponents env phase post started' s').state,
          t ++ (runComponents env phase post started' s').trace⟩ := by
  induction pre generalizing s started with
  | nil =>
    exact ⟨s, started, [], rfl, by simp, fun _ hn => hn, by simp, fun post => rfl⟩
  | cons c pre ih =>
    rw [awaitsAll] at h ⊢
    obtain ⟨s₂, own, more, hs₂, hown, hmore, hturn⟩ :=
      runComponents_turn (hpre c List.mem_cons_self) (h.left (by omega))
    obtain ⟨s', started', t, hs', ht, hsub, hdone, hrun⟩ :=
      ih (fun c' hc' => hpre c' (List.mem_cons_of_mem _ hc')) (started ++ more)
        (by rw [hs₂, Nat.add_assoc]; exact h.right (by omega))
    refine ⟨s', started', own ++ t, by rw [hs', hs₂, Nat.add_assoc], ?_,
      fun n hn => hsub n (List.mem_append_left _ hn), ?_, ?_⟩
    · intro n hook res hx
      rcases List.mem_append.mp hx with hx | hx
      · exact hown n hook res hx
      · exact ht n hook res hx
    · intro d hd henabled hcan
      rcases List.mem_cons.mp hd with rfl | hd
      · exact hsub _ (by simp [hmore henabled hcan])
      · exact hdone d hd henabled hcan
    · intro post
      rw [List.cons_append, hturn, hrun, List.append_assoc]

theorem hookResult_raises (c : ComponentRegistration) (hook : Hook) {outcome : HookOutcome}
    {e : Exn} (h : outcome.ending = .error e) : ∃ e', hookResult c hook outcome = .error e' := by
  unfold hookResult
  rw [h]
  split
  · exact ⟨_, rfl⟩
  · dsimp only
    split
    · exact ⟨_, rfl⟩
    · exact ⟨_, rfl⟩

def NoneReturned (t : List LifecycleEntry) : Prop := ∀ n hook, .hook n hook (.ok ()) ∉ t

theorem NoneReturned.append {t u : List LifecycleEntry} (ht : NoneReturned t)
    (hu : NoneReturned u) : NoneReturned (t ++ u) := by
  intro n hook hx
  rcases List.mem_append.mp hx with hx | hx
  · exact ht n hook hx
  · exact hu n hook hx

theorem NoneReturned.health {n : String} {state : ComponentState} (ht : NoneReturned t) :
    NoneReturned (.health n state :: t) := by
  intro m hook hx
  rcases List.mem_cons.mp hx with hq | hx
  · cases hq
  · exact ht m hook hx

theorem executeHooks_raises {hooks : List Hook} {res : Except Exn Unit}
    (hraise : Raising env s.awaited) (h : executeHooks env c hooks s = ⟨res, s', t⟩) :
    s.awaited ≤ s'.awaited ∧ NoneReturned t := by
  induction hooks with
  | nil =>
    cases h
    exact ⟨Nat.le_refl _, by simp [NoneReturned]⟩
  | cons hook hooks ih =>
    rw [executeHooks, executeHook] at h
    cases hk : c.instanceHooks hook with
    | absent =>
      rw [hk, Act.run_bind_of_ok (Act.run_pure () s)] at h
      exact ih h
    | plain =>
      rw [hk] at h
      cases h
      exact ⟨Nat.le_refl _, by simp [NoneReturned]⟩
    | coroutine =>
      obtain ⟨e, he⟩ := hraise s.awaited (Nat.le_refl _)
      obtain ⟨e', he'⟩ := hookResult_raises c hook he
      have hfirst : (do
          let s ← Act.get
          Act.modify fun s => { s with awaited := s.awaited + 1 }
          Act.emit (.hook c.name hook (hookResult c hook (env.outcomes s.awaited)))
          Act.ofExcept (hookResult c hook (env.outcomes s.awaited)) : LifecycleAct Unit) s =
          ⟨.error e', { s with awaited := s.awaited + 1 }, [.hook c.name hook (.error e')]⟩ := by
        rw [Act.bind_get, Act.bind_modify, Act.bind_emit, Act.run_ofExcept, he']
      rw [hk] at h
      dsimp only at h
      rw [Act.run_bind_of_error hfirst] at h
      cases h
      exact ⟨Nat.le_succ _, by simp [NoneReturned]⟩

theorem Raising.mono {a b : Nat} (h : Raising env a) (hab : a ≤ b) : Raising env b :=
  fun i hi => h i (Nat.le_trans hab hi)

theorem rollbackComponent_raises {name : String} {res : Except Exn Unit}
    (hraise : Raising env s.awaited) (h : rollbackComponent env phase name s = ⟨res, s', t⟩) :
    s.awaited ≤ s'.awaited ∧ NoneReturned t := by
  unfold rollbackComponent at h
  cases hc : env.registry.get name with
  | none =>
    rw [hc] at h
    cases h
    exact ⟨Nat.le_refl _, by simp [NoneReturned]⟩
  | some c =>
  rw [hc] at h
  obtain ⟨x, s₁, t₁, t₂, htry, hrest, rfl⟩ := Act.bind_attempt h
  obtain ⟨t', hbody, rfl⟩ := bind_updateState htry
  rcases Act.bind_cases hbody with ⟨e, rfl, hhooks⟩ | ⟨u, s₂, t₃, t₄, hhooks, hstop, rfl⟩
  · obtain ⟨hle, hnone⟩ := executeHooks_raises (by exact hraise) hhooks
    cases hrest
    exact ⟨hle, hnone.health.append (by simp [NoneReturned])⟩
  · obtain ⟨hle, hnone⟩ := executeHooks_raises (by exact hraise) hhooks
    cases hstop
    cases hrest
    exact ⟨hle, (hnone.append (by simp [NoneReturned])).health.append (by simp [NoneReturned])⟩

theorem rollbackAll_raises {names : List String} {res : Except Exn Unit}
    (hraise : Raising env s.awaited) (h : rollbackAll env phase names s = ⟨res, s', t⟩) :
    NoneReturned t := by
  induction names generalizing s t with
  | nil =>
    cases h
    simp [NoneReturned]
  | cons name names ih =>
    rw [rollbackAll] at h
    rcases Act.bind_cases h with ⟨e, rfl, h1⟩ | ⟨u, s₁, t₁, t₂, h1, h2, rfl⟩
    · exact (rollbackComponent_raises hraise h1).2
    · obtain ⟨hle, hnone⟩ := rollbackComponent_raises hraise h1
      exact hnone.append (ih (hraise.mono hle) h2)

/-- **A critical component whose turn comes when hooks raise** ends the phase, and no hook returns
any more. -/
theorem runComponents_raises {cs : List ComponentRegistration} {started : List String}
    {res : Except Exn StartupReport} (henabled : c.enabled = true) (hcritical : c.critical = true)
    (hfail : c.CanFail phase) (hraise : Raising env s.awaited)
    (h : runComponents env phase (c :: cs) started s = ⟨res, s', t⟩) :
    NoneReturned t ∧ ∀ report, res = .ok report →
      report.startedComponents = started ∧ report.failedComponent = some c.name := by
  rw [runComponents, if_neg (by simp [henabled])] at h
  obtain ⟨t₀, hbody, rfl⟩ := bind_updateState h
  obtain ⟨x, s₁, t₁, t₂, hup, hrest, rfl⟩ := Act.bind_attempt hbody
  rw [bringUp] at hup
  rcases Act.bind_cases hup with ⟨e, rfl, hhooks⟩ | ⟨u, s₂, t₃, t₄, hhooks, _, _⟩
  · obtain ⟨hle, hnone⟩ := executeHooks_raises (by exact hraise) hhooks
    obtain ⟨t₃, hafter, rfl⟩ := bind_updateState hrest
    rw [if_pos hcritical, rollback] at hafter
    -- the rollback may end the phase itself; either way none of its hooks returns
    rcases Act.bind_cases hafter with ⟨e', rfl, hback⟩ | ⟨u, s₂, t₄, t₅, hback, hpure, rfl⟩
    · have hdown := rollbackAll_raises (by exact hraise.mono hle) hback
      refine ⟨(hnone.append hdown.health).health, ?_⟩
      intro report hr
      cases hr
    · have hdown := rollbackAll_raises (by exact hraise.mono hle) hback
      cases hpure
      rw [List.append_nil]
      refine ⟨(hnone.append hdown.health).health, ?_⟩
      rintro report hr
      cases hr
      exact ⟨rfl, rfl⟩
  · obtain ⟨hook, hmem, hh⟩ := hfail
    have hreturned := (executeHooks_run hhooks).1.returned_mem rfl hook hmem hh
    exact absurd hreturned ((executeHooks_raises (by exact hraise) hhooks).2 _ _)

end Pattern

/-! ## Exactly where something is kept -/

theorem RolledBack.stop_mem {r : ComponentRegistry} {names : List String} {t : List LifecycleEntry}
    (h : RolledBack r .start names t) {c : ComponentRegistration} {res : Except Exn Unit}
    (hc : r.get c.name = some c) (hx : .hook c.name .stop res ∈ t) :
    c.instanceHooks .stop = .coroutine ∧
      (c.instanceHooks .beforeStop = .absent ∨ .hook c.name .beforeStop (.ok ()) ∈ t) := by
  induction h with
  | nil => cases hx
  | @cons c' name names t₁ t₂ hc' htorn _ ih =>
    rcases List.mem_append.mp hx with hx | hx
    · obtain rfl : c' = c := by
        rw [← (ComponentRegistry.get_some hc').2, (htorn.hook_mem hx).2, hc] at hc'
        exact (Option.some.inj hc').symm
      have hown : ∀ {own res'}, HooksRun c' [.beforeStop, .stop, .afterStop] own res' →
          .hook c'.name .stop res ∈ own → c'.instanceHooks .stop = .coroutine ∧
            (c'.instanceHooks .beforeStop = .absent ∨
              .hook c'.name .beforeStop (.ok ()) ∈ own) := by
        intro own res' hr hmem
        refine ⟨hr.coroutine hmem, ?_⟩
        cases hr with
        | absent hb _ => exact Or.inl hb
        | plain _ => cases hmem
        | returned _ _ => exact Or.inr List.mem_cons_self
        | raised _ => simp at hmem
      cases htorn with
      | stopped hr | failed hr =>
        simp only [List.mem_append, List.mem_cons, reduceCtorEq, false_or, List.not_mem_nil,
          or_false] at hx
        refine (hown hr hx).imp_right (Or.imp_right ?_)
        intro hmem
        simp [hmem]
    · exact (ih hx).imp_right (Or.imp_right (List.mem_append_right _))

theorem not_released_of_aborted {env : LifecycleEnv} {cs : List ComponentRegistration}
    {started : List String} {t : List LifecycleEntry} {report : StartupReport}
    (a : Aborted env .start cs started t report) {d : ComponentRegistration}
    (hget : env.registry.get d.name = some d) (hname : d.name ∈ completedIn .start t)
    (hbefore : .hook d.name .beforeStop (.ok ()) ∉ t) (hholds : d.Holds) :
    ¬ Released env.registry t := by
  intro hreleased
  have hasHook : ∀ hook, d.instanceHooks hook ≠ .absent → d.name ∈
      (completedIn .start t).reverse.filter (env.registry.has hook) := by
    intro hook hh
    simp [hname, ComponentRegistry.has, hget, hh]
  have hdown : ∀ {hook res}, .hook d.name hook res ∈ a.down → .hook d.name hook res ∈ t := by
    intro hook res hx
    rw [a.trace]
    simp [hx]
  -- a `stop` is run by the rollback and by nobody else, after its `before_stop`
  have hstop : d.instanceHooks .stop ≠ .absent → d.instanceHooks .stop = .coroutine ∧
      (d.instanceHooks .beforeStop = .absent ∨ .hook d.name .beforeStop (.ok ()) ∈ a.down) := by
    intro hh
    have hinvoked := hasHook .stop hh
    rw [← hreleased.stopped, mem_invoked] at hinvoked
    obtain ⟨res, hx⟩ := hinvoked
    refine a.rolledBack.stop_mem hget (show .hook d.name .stop res ∈ a.down from ?_)
    rw [a.trace] at hx
    simp only [List.mem_append, List.mem_cons, reduceCtorEq, false_or] at hx
    rcases hx with hx | hx | hx
    · have hmem := (a.broughtUp.hook_mem hx).1
      simp [Phase.hooks] at hmem
    · obtain ⟨hook, hmem, _, hq⟩ := a.hooks.mem _ hx
      rw [← (LifecycleEntry.hook.inj hq).2.1] at hmem
      simp [Phase.hooks] at hmem
    · exact hx
  rcases hholds with hh | hh | ⟨hh, hthere⟩
  · have hinvoked := hasHook .shutdown hh
    rw [← hreleased.shutDown, a.invoked_shutdown] at hinvoked
    cases hinvoked
  · rw [(hstop (by simp [hh])).1] at hh
    cases hh
  · exact hbefore (hdown ((hstop (by simp [hh])).2.resolve_left hthere))

section Exactly

variable {r : ComponentRegistry}

theorem exists_not_released (h : Leaks r) :
    ∃ outcomes report s₁ t₁ report' s₂ t₂ name,
      boot ⟨r, outcomes⟩ ⟨.empty, 0⟩ = ⟨.ok report, s₁, t₁⟩ ∧ report.success = true ∧
      start ⟨r, outcomes⟩ s₁ = ⟨.ok report', s₂, t₂⟩ ∧ report'.failedComponent = some name ∧
      ¬ Released r t₂ := by
  obtain ⟨pre, comp, post, ho, hboot, henabled, hcritical, hfail, hpre, d, hd, hdenabled,
    hdcan, hholds⟩ := h
  -- everything returns until the critical component's turn, and raises from there on
  let k := awaitsAll .boot (pre ++ comp :: post) + awaitsAll .start pre
  let env : LifecycleEnv := ⟨r, fun i =>
    ⟨false, if i < k then .ok () else .error ⟨.runtimeError, lit "boom"⟩⟩⟩
  have hret : Returning env 0 k := fun i _ hi => by simp [env, hi]
  have hraise : Raising env k := fun i hi =>
    ⟨⟨.runtimeError, lit "boom"⟩, by simp [env, Nat.not_lt.mpr hi]⟩
  obtain ⟨s₁, started₁, t₁, hs₁, _, _, _, hbootRun⟩ :=
    runComponents_upto (s := ⟨.empty, 0⟩) hboot []
      (show Returning env _ _ by rw [Nat.zero_add]; exact hret.left (Nat.le_add_right ..))
  have hs₁ : s₁.awaited = awaitsAll .boot (pre ++ comp :: post) := by rw [hs₁, Nat.zero_add]
  obtain ⟨s₂, started₂, t₂, hs₂, ht₂, _, hdone, hstartRun⟩ :=
    runComponents_upto (s := s₁) hpre []
      (show Returning env _ _ by rw [hs₁]; exact hret.right (Nat.zero_le _))
  have hbootEq : boot env ⟨.empty, 0⟩ = ⟨.ok ⟨true, started₁, none, none⟩, s₁, t₁ ++ []⟩ := by
    have hrun := hbootRun []
    rw [List.append_nil] at hrun
    rw [boot, runStartupPhase, ho]
    exact hrun
  rcases hturn : runComponents env .start (comp :: post) started₂ s₂ with ⟨res, s₃, t₃⟩
  have hstartEq : start env s₁ = ⟨res, s₃, t₂ ++ t₃⟩ := by
    rw [start, runStartupPhase, ho]
    dsimp only
    rw [hstartRun, hturn]
  obtain ⟨hnone, hreport⟩ := runComponents_raises henabled hcritical hfail
    (by rw [hs₂, hs₁]; exact hraise) hturn
  have horder : BootOrder r (pre ++ comp :: post) := by
    have hresult := buildExecutionOrder_result r
    rw [ho] at hresult
    exact hresult
  have hgets : ∀ c ∈ pre ++ comp :: post, env.registry.get c.name = some c :=
    get_of_bootOrder horder
  obtain ⟨report', hres, hcase⟩ := runComponents_run hgets
    (fun n hn => absurd hn List.not_mem_nil)
    (show runComponents env .start (pre ++ comp :: post) [] s₁ = ⟨res, s₃, t₂ ++ t₃⟩ by
      rw [hstartRun, hturn])
  obtain ⟨hstarted, hfailed⟩ := hreport report' hres
  refine ⟨env.outcomes, _, s₁, _, report', s₃, _, comp.name, hbootEq, rfl, hres ▸ hstartEq, hfailed,
    ?_⟩
  rcases hcase with ⟨_, _, _, hno⟩ | ⟨⟨a⟩, _⟩
  · rw [hno] at hfailed
    cases hfailed
  have hname : d.name ∈ completedIn .start (t₂ ++ t₃) := by
    rw [a.completedIn]
    have hmem := hdone d hd hdenabled hdcan
    rwa [← hstarted, a.startedComponents, List.nil_append] at hmem
  refine not_released_of_aborted a (hgets d (by simp [hd])) hname ?_ hholds
  intro hx
  rcases List.mem_append.mp hx with hx | hx
  · have hmem := ht₂ _ _ _ hx
    simp [Phase.hooks] at hmem
  · exact hnone _ _ hx

/-- **What a failed start releases.** Over every pattern of what the hooks do, a start that fails
after a boot that succeeded has stopped and shut down what it had started exactly for the
components of which none leaks. -/
theorem released_iff_not_leaks (r : ComponentRegistry) :
    (∀ outcomes s report s₁ t₁ report' s₂ t₂ name,
      boot ⟨r, outcomes⟩ s = ⟨.ok report, s₁, t₁⟩ → report.success = true →
      start ⟨r, outcomes⟩ s₁ = ⟨.ok report', s₂, t₂⟩ → report'.failedComponent = some name →
      Released r t₂) ↔ ¬ Leaks r := by
  constructor
  · intro h hleaks
    obtain ⟨outcomes, report, s₁, t₁, report', s₂, t₂, name, hboot, hok, hstart, hfailed, hnot⟩ :=
      exists_not_released hleaks
    exact hnot (h outcomes _ report s₁ t₁ report' s₂ t₂ name hboot hok hstart hfailed)
  · intro hnot outcomes s report s₁ t₁ report' s₂ t₂ name hboot hok hstart hfailed
    obtain ⟨order, ho, hcan⟩ := boot_success hboot hok
    have ho : buildExecutionOrder r = .ok order := ho
    rcases runStartupPhase_cases hstart with
      ⟨_, _, report'', hr, hno⟩ | ⟨order', ho', horder, hrun⟩
    · cases hr
      rw [hno] at hfailed
      cases hfailed
    obtain rfl : order = order' := by
      have ho' : buildExecutionOrder r = .ok order' := ho'
      rw [ho, Except.ok.injEq] at ho'
      exact ho'
    obtain ⟨report'', hr, hcase⟩ := runComponents_run (get_of_bootOrder horder)
      (fun n hn => absurd hn List.not_mem_nil) hrun
    cases hr
    rcases hcase with ⟨_, _, _, hno⟩ | ⟨⟨a⟩, _⟩
    · rw [hno] at hfailed
      cases hfailed
    refine a.released ?_
    -- something it started that holds something is what `Leaks` asks for
    intro n hn c hc hholds
    obtain ⟨d, hd, hname, henabled, hdcan⟩ := a.broughtUp.done_completed n hn
    have hmem : d ∈ order := by rw [a.split]; simp [hd]
    obtain rfl : d = c := by
      have hget := get_of_bootOrder horder d hmem
      rw [hname] at hget
      exact Option.some.inj (hget.symm.trans hc)
    exact hnot ⟨a.pre, a.comp, a.post, a.split ▸ ho, a.split ▸ hcan, a.enabled, a.critical,
      a.hooks.exists_hook (by simp), a.broughtUp.of_mem, d, hd, henabled, hdcan, hholds⟩

def resource (name : String) (dependencies : List String) : ComponentRegistration where
  name := name
  instanceHooks
    | .start | .stop | .shutdown => .coroutine
    | _ => .absent
  dependencies := dependencies

theorem not_released_db :
    let env := failingAt 1 [resource "db" [], resource "web" ["db"]]
    ∃ report s₁ t₁ report' s₂ t₂,
      boot env ⟨.empty, 0⟩ = ⟨.ok report, s₁, t₁⟩ ∧ report.success = true ∧
      start env s₁ = ⟨.ok report', s₂, t₂⟩ ∧ report'.failedComponent = some "web" ∧
      report'.startedComponents = ["db"] ∧ env.registry.has .shutdown "db" = true ∧
      invoked .shutdown t₂ = [] ∧ ¬ Released env.registry t₂ := by
  intro env
  have horder : buildExecutionOrder env.registry =
      .ok [resource "db" [], resource "web" ["db"]] := rfl
  have hboot : ∀ health, ∃ health' t, boot env ⟨health, 0⟩ =
      ⟨.ok { success := true, startedComponents := ["db", "web"] }, ⟨health', 0⟩, t⟩ := by
    intro health
    rw [boot, runStartupPhase, horder]
    exact ⟨_, _, rfl⟩
  have hstart : ∀ health, ∃ s', start env ⟨health, 0⟩ =
      ⟨.ok { success := false, startedComponents := ["db"], failedComponent := some "web"
             errorDetails := some (lit "boom") }, s',
        [.health "db" .STARTING, .hook "db" .start (.ok ()), .health "db" .RUNNING,
          .health "web" .STARTING, .hook "web" .start (.error ⟨.runtimeError, lit "boom"⟩),
          .health "web" .FAILED,
          .health "db" .SHUTTING_DOWN, .hook "db" .stop (.ok ()), .health "db" .STOPPED]⟩ := by
    intro health
    rw [start, runStartupPhase, horder]
    exact ⟨_, rfl⟩
  have hhas : env.registry.has .shutdown "db" = true := rfl
  obtain ⟨health, t₁, hb⟩ := hboot .empty
  obtain ⟨s₂, hs⟩ := hstart health
  refine ⟨_, _, t₁, _, s₂, _, hb, rfl, hs, rfl, rfl, hhas, by simp [invoked], ?_⟩
  intro h
  have hshut := h.shutDown
  simp [invoked, completedIn, Phase.success, hhas] at hshut

end Exactly

end LifecycleOrchestrator

end IraOS
