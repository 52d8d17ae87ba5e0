import IraOS.Lib.Trace
import IraOS.Lifecycle.Release
import IraOS.Lifecycle.Shutdown

/-!
# What a shutdown phase does

`TakenDown` follows the text of the loop: every enabled component gets its turn, once, whatever the
ones before it raised. What a phase leaves in the report and in the health monitor is read off from
that, and so is the order of the hooks. The order is the boot order reversed, so a component's hooks
are awaited when all that depend on it have had their turn. It is no promise that a component has
been started.

The report names every enabled component once, under those that stopped or those that failed, and
the phase counts as a success exactly if nothing failed. The health monitor says the same, component
by component, and nothing of it changes for anybody else (`Settled`).

Where the dependencies cannot be ordered there is no boot order to reverse, and the components are
taken down by priority. Nothing is said then about dependents.
-/

set_option autoImplicit false

namespace IraOS

open Lib

namespace LifecycleOrchestrator

/-- The components of a shutdown phase, one after the other: what was awaited, which completed it,
and what the others raised. -/
inductive TakenDown (phase : ShutdownPhase) :
    List ComponentRegistration → List LifecycleEntry → List String → List (String × Text) →
      Prop where
  | nil : TakenDown phase [] [] [] []
  | disabled {c cs t stopped failed} : c.enabled = false → TakenDown phase cs t stopped failed →
      TakenDown phase (c :: cs) t stopped failed
  | stopped {c cs t₁ t stopped failed} : c.enabled = true → HooksRun c phase.hooks t₁ (.ok ()) →
      TakenDown phase cs t stopped failed →
      TakenDown phase (c :: cs)
        (.health c.name phase.inProgress :: t₁ ++ .health c.name .STOPPED :: t)
        (c.name :: stopped) failed
  | failed {c cs t₁ t stopped failed e} : c.enabled = true →
      HooksRun c phase.hooks t₁ (.error e) → TakenDown phase cs t stopped failed →
      TakenDown phase (c :: cs)
        (.health c.name phase.inProgress :: t₁ ++ .health c.name .FAILED :: t)
        stopped ((c.name, e.message) :: failed)

def enabledNames (cs : List ComponentRegistration) : List String :=
  (cs.filter (·.enabled)).map ComponentRegistration.name

def attempted (phase : ShutdownPhase) (t : List LifecycleEntry) : List String :=
  t.filterMap fun
    | .health name state => if state = phase.inProgress then some name else none
    | .hook .. => none

def failure (phase : ShutdownPhase) (message : Text) : ComponentHealth :=
  ⟨.FAILED, lit ("Failed to " ++ phase.name ++ ": ") ++ message⟩

/-- The health a phase leaves to the components: stopped, or failed with what was raised, as the
report has it, and what it was before to all that are not in the report. -/
structure Settled (phase : ShutdownPhase) (stopped : List String) (failed : List (String × Text))
    (s s' : LifecycleState) : Prop where
  ofStopped : ∀ n ∈ stopped, s'.health.get? n = some ⟨.STOPPED, []⟩
  ofFailed : ∀ e ∈ failed, s'.health.get? e.1 = some (failure phase e.2)
  others : ∀ n, n ∉ stopped → n ∉ failed.map Prod.fst → s'.health.get? n = s.health.get? n


section Names

variable {phase : ShutdownPhase} {cs : List ComponentRegistration} {t : List LifecycleEntry}
  {stopped : List String} {failed : List (String × Text)}

theorem enabledNames_cons_disabled {c : ComponentRegistration} (h : c.enabled = false) :
    enabledNames (c :: cs) = enabledNames cs := by
  simp [enabledNames, h]

theorem enabledNames_cons {c : ComponentRegistration} (h : c.enabled = true) :
    enabledNames (c :: cs) = c.name :: enabledNames cs := by
  simp [enabledNames, h]

theorem mem_enabledNames {n : String} :
    n ∈ enabledNames cs ↔ ∃ c ∈ cs, c.enabled = true ∧ c.name = n := by
  simp only [enabledNames, List.mem_map, List.mem_filter, and_assoc]

theorem enabledNames_perm {cs' : List ComponentRegistration} (h : cs.Perm cs') :
    (enabledNames cs).Perm (enabledNames cs') := (h.filter _).map _

/-- Each enabled component has stopped or failed, and none has done both. -/
theorem TakenDown.partition (h : TakenDown phase cs t stopped failed) :
    (stopped ++ failed.map Prod.fst).Perm (enabledNames cs) := by
  induction h with
  | nil => exact List.Perm.nil
  | disabled hc _ ih =>
    rw [enabledNames_cons_disabled hc]
    exact ih
  | stopped hc _ _ ih =>
    rw [enabledNames_cons hc]
    exact ih.cons _
  | failed hc _ _ ih =>
    rw [enabledNames_cons hc, List.map_cons]
    exact List.perm_middle.trans (ih.cons _)

theorem attempted_append (t u : List LifecycleEntry) :
    attempted phase (t ++ u) = attempted phase t ++ attempted phase u := List.filterMap_append ..

theorem HooksRun.attempted {c : ComponentRegistration} {hs : List Hook} {res : Except Exn Unit}
    (h : HooksRun c hs t res) : attempted phase t = [] := by
  rw [LifecycleOrchestrator.attempted, List.filterMap_eq_nil_iff]
  intro x hx
  obtain ⟨hook, _, r, rfl⟩ := h.mem x hx
  rfl

theorem attempted_turn {c : ComponentRegistration} {hs : List Hook} {res : Except Exn Unit}
    {t₁ : List LifecycleEntry} (h : HooksRun c hs t₁ res) {state : ComponentState}
    (hne : state ≠ phase.inProgress) :
    attempted phase (.health c.name phase.inProgress :: t₁ ++ .health c.name state :: t)
      = c.name :: attempted phase t := by
  have hfirst : ∀ u, attempted phase (.health c.name phase.inProgress :: u)
      = c.name :: attempted phase u := by
    intro u
    simp [attempted]
  have hlast : attempted phase (.health c.name state :: t) = attempted phase t := by
    simp [attempted, hne]
  rw [List.cons_append, hfirst, attempted_append, h.attempted, List.nil_append, hlast]

theorem stopped_ne_going : ComponentState.STOPPED ≠ phase.inProgress := by
  cases phase <;> simp [ShutdownPhase.inProgress]

theorem failed_ne_going : ComponentState.FAILED ≠ phase.inProgress := by
  cases phase <;> simp [ShutdownPhase.inProgress]

theorem TakenDown.attempted (h : TakenDown phase cs t stopped failed) :
    attempted phase t = enabledNames cs := by
  induction h with
  | nil => rfl
  | disabled hc _ ih =>
    rw [enabledNames_cons_disabled hc]
    exact ih
  | stopped hc hr _ ih => rw [enabledNames_cons hc, attempted_turn hr stopped_ne_going, ih]
  | failed hc hr _ ih => rw [enabledNames_cons hc, attempted_turn hr failed_ne_going, ih]

theorem TakenDown.stopped_hooks (h : TakenDown phase cs t stopped failed) :
    ∀ n ∈ stopped, ∃ c ∈ cs, c.name = n ∧ ∃ t₁, HooksRun c phase.hooks t₁ (.ok ()) ∧ t₁ <:+: t := by
  induction h with
  | nil => simp
  | disabled _ _ ih =>
    intro n hn
    obtain ⟨c, hc, hname, t₁, hr, hin⟩ := ih n hn
    exact ⟨c, List.mem_cons_of_mem _ hc, hname, t₁, hr, hin⟩
  | @stopped c cs t₁ t stopped failed _ hr _ ih =>
    intro n hn
    rcases List.mem_cons.mp hn with rfl | hn
    · refine ⟨c, List.mem_cons_self, rfl, t₁, hr, ?_⟩
      exact ⟨[_], .health c.name .STOPPED :: t, rfl⟩
    · obtain ⟨c', hc', hname, t₂, hr', hin⟩ := ih n hn
      refine ⟨c', List.mem_cons_of_mem _ hc', hname, t₂, hr', hin.trans ?_⟩
      exact (List.suffix_cons _ t).isInfix.trans (List.suffix_append _ _).isInfix
  | @failed c cs t₁ t stopped failed e _ hr _ ih =>
    intro n hn
    obtain ⟨c', hc', hname, t₂, hr', hin⟩ := ih n hn
    refine ⟨c', List.mem_cons_of_mem _ hc', hname, t₂, hr', hin.trans ?_⟩
    exact (List.suffix_cons _ t).isInfix.trans (List.suffix_append _ _).isInfix

end Names

/-! ## The loop -/

section Loop

variable {env : LifecycleEnv} {phase : ShutdownPhase} {c : ComponentRegistration}
  {s s' : LifecycleState} {t : List LifecycleEntry}

theorem takeDown_run {res : Except Exn Unit} (h : takeDown env phase c s = ⟨res, s', t⟩) :
    (∃ t₁, res = .ok () ∧ HooksRun c phase.hooks t₁ (.ok ()) ∧
        t = t₁ ++ [.health c.name .STOPPED] ∧
        s'.health = s.health.set c.name ⟨.STOPPED, []⟩) ∨
      ∃ e, res = .error e ∧ HooksRun c phase.hooks t (.error e) ∧ s'.health = s.health := by
  rw [takeDown] at h
  rcases Act.bind_cases h with ⟨e, rfl, h1⟩ | ⟨u, s₁, t₁, t₂, h1, h2, rfl⟩
  · exact Or.inr ⟨e, rfl, executeHooks_run h1⟩
  · obtain ⟨hr, hs⟩ := executeHooks_run h1
    cases h2
    exact Or.inl ⟨t₁, rfl, hr, rfl, congrArg (fun d => Dict.set d c.name _) hs⟩

theorem Settled.consStopped {stopped : List String} {failed : List (String × Text)}
    {s₁ : LifecycleState} (h : Settled phase stopped failed s₁ s') {n : String}
    (hn : n ∉ stopped) (hn' : n ∉ failed.map Prod.fst)
    (hs₁ : ∀ m, s₁.health.get? m = if m = n then some ⟨.STOPPED, []⟩ else s.health.get? m) :
    Settled phase (n :: stopped) failed s s' where
  ofStopped m hm := by
    rcases List.mem_cons.mp hm with rfl | hm
    · rw [h.others m hn hn', hs₁, if_pos rfl]
    · exact h.ofStopped m hm
  ofFailed := h.ofFailed
  others m hm hm' := by
    rw [List.mem_cons, not_or] at hm
    rw [h.others m hm.2 hm', hs₁, if_neg hm.1]

/-- A turn that failed, before those of other components. -/
theorem Settled.consFailed {stopped : List String} {failed : List (String × Text)}
    {s₁ : LifecycleState} (h : Settled phase stopped failed s₁ s') {n : String} {message : Text}
    (hn : n ∉ stopped) (hn' : n ∉ failed.map Prod.fst)
    (hs₁ : ∀ m, s₁.health.get? m = if m = n then some (failure phase message)
      else s.health.get? m) :
    Settled phase stopped ((n, message) :: failed) s s' where
  ofStopped := h.ofStopped
  ofFailed e he := by
    rcases List.mem_cons.mp he with rfl | he
    · rw [h.others n hn hn', hs₁, if_pos rfl]
    · exact h.ofFailed e he
  others m hm hm' := by
    rw [List.map_cons, List.mem_cons, not_or] at hm'
    rw [h.others m hm hm'.2, hs₁, if_neg hm'.1]

/-- **The loop of a shutdown phase returns**, with every enabled component taken down. -/
theorem stopComponents_run {cs : List ComponentRegistration} {stopped : List String}
    {errors : Dict String Text} {res : Except Exn ShutdownReport}
    (hnodup : (cs.map ComponentRegistration.name).Nodup)
    (hnew : ∀ c ∈ cs, errors.get? c.name = none)
    (h : stopComponents env phase cs stopped errors s = ⟨res, s', t⟩) :
    ∃ done failed report, res = .ok report ∧ TakenDown phase cs t done failed ∧
      Settled phase done failed s s' ∧ report.stoppedComponents = stopped ++ done ∧
      report.errors.entries = errors.entries ++ failed ∧
      report.success = decide (report.errors.size = 0) := by
  induction cs generalizing stopped errors s t with
  | nil =>
    cases h
    refine ⟨[], [], _, rfl, .nil, ⟨by simp, by simp, fun _ _ _ => rfl⟩, ?_, ?_, rfl⟩
    · exact (List.append_nil _).symm
    · exact (List.append_nil _).symm
  | cons c cs ih =>
    rw [List.map_cons, List.nodup_cons] at hnodup
    have hnew' : ∀ c' ∈ cs, errors.get? c'.name = none :=
      fun c' hc' => hnew c' (List.mem_cons_of_mem _ hc')
    rw [stopComponents] at h
    split at h
    · next hdisabled =>
      obtain ⟨done, failed, report, hres, hdown, hrest⟩ := ih hnodup.2 hnew' h
      exact ⟨done, failed, report, hres, .disabled hdisabled hdown, hrest⟩
    next henabled =>
    have henabled : c.enabled = true := Bool.eq_true_of_not_eq_false henabled
    -- no later turn is this component's
    have hother : ∀ {t₂ : List LifecycleEntry} {done : List String}
        {failed : List (String × Text)}, TakenDown phase cs t₂ done failed →
          c.name ∉ done ∧ c.name ∉ failed.map Prod.fst := by
      intro t₂ done failed hdown
      rw [← not_or, ← List.mem_append, hdown.partition.mem_iff, mem_enabledNames]
      rintro ⟨c', hc', _, hname⟩
      exact hnodup.1 (hname ▸ List.mem_map_of_mem hc')
    obtain ⟨t₀, hbody, rfl⟩ := bind_updateState h
    obtain ⟨x, s₁, t₁, t₂, htry, hrest, rfl⟩ := Act.bind_attempt hbody
    rcases takeDown_run htry with ⟨own, rfl, hhooks, rfl, hs₁⟩ | ⟨e, rfl, hhooks, hs₁⟩
    · obtain ⟨done, failed, report, hres, hdown, hset, hstop, herr, hsucc⟩ :=
        ih hnodup.2 hnew' hrest
      obtain ⟨hn, hn'⟩ := hother hdown
      refine ⟨c.name :: done, failed, report, hres, ?_, ?_, ?_, herr, hsucc⟩
      · have hturn := TakenDown.stopped henabled hhooks hdown
        simpa using hturn
      · refine hset.consStopped hn hn' ?_
        intro m
        rw [hs₁, Dict.get?_set, Dict.get?_set]
        split <;> rfl
      · rw [hstop, List.append_assoc, List.singleton_append]
    · obtain ⟨t₃, hafter, rfl⟩ := bind_updateState hrest
      have hnew₁ : ∀ c' ∈ cs, (errors.set c.name e.message).get? c'.name = none := by
        intro c' hc'
        have hne : c'.name ≠ c.name := fun hq => hnodup.1 (hq ▸ List.mem_map_of_mem hc')
        rw [Dict.get?_set_ne hne]
        exact hnew' c' hc'
      obtain ⟨done, failed, report, hres, hdown, hset, hstop, herr, hsucc⟩ :=
        ih hnodup.2 hnew₁ hafter
      obtain ⟨hn, hn'⟩ := hother hdown
      refine ⟨done, (c.name, e.message) :: failed, report, hres, ?_, ?_, hstop, ?_, hsucc⟩
      · exact .failed henabled hhooks hdown
      · refine hset.consFailed hn hn' ?_
        intro m
        show (s₁.health.set c.name _).get? m = _
        rw [hs₁, Dict.get?_set, Dict.get?_set, failure]
        split <;> rfl
      · have hput : (errors.set c.name e.message).entries
            = errors.entries ++ [(c.name, e.message)] :=
          Dict.put_of_absent (hnew c List.mem_cons_self) e.message
        rw [herr, hput, List.append_assoc, List.singleton_append]

end Loop

/-! ## The order of the hooks -/

def Down (before : List LifecycleEntry) (c : ComponentRegistration) : Prop :=
  .health c.name .STOPPED ∈ before ∨ .health c.name .FAILED ∈ before

theorem Down.mono {before before' : List LifecycleEntry} {c : ComponentRegistration}
    (h : Down before c) (hsub : before ⊆ before') : Down before' c :=
  h.imp (fun hmem => hsub hmem) fun hmem => hsub hmem

/-- A hook is awaited for one of the components, when the enabled ones before it have had their
turn. -/
def AwaitedInTurn (cs : List ComponentRegistration) (before : List LifecycleEntry)
    (x : LifecycleEntry) : Prop :=
  ∀ n hook res, x = .hook n hook res → ∃ pre c post, cs = pre ++ c :: post ∧ c.name = n ∧
    ∀ d ∈ pre, d.enabled = true → Down before d

section Order

variable {phase : ShutdownPhase} {cs : List ComponentRegistration} {t : List LifecycleEntry}
  {stopped : List String} {failed : List (String × Text)} {c : ComponentRegistration}

theorem AwaitedInTurn.cons {own : List LifecycleEntry} {hs : List Hook} {res : Except Exn Unit}
    (hr : HooksRun c hs own res) {close : ComponentState}
    (hclose : close = .STOPPED ∨ close = .FAILED) (ih : Guarded (AwaitedInTurn cs) t) :
    Guarded (AwaitedInTurn (c :: cs))
      (.health c.name phase.inProgress :: own ++ .health c.name close :: t) := by
  have hsplit : .health c.name phase.inProgress :: own ++ .health c.name close :: t
      = (.health c.name phase.inProgress :: own ++ [.health c.name close]) ++ t := by simp
  rw [hsplit]
  refine Guarded.append ?_ ?_
  · refine Guarded.of_mem ?_
    intro x hx before n hook r hq
    subst hq
    simp only [List.mem_append, List.mem_cons, reduceCtorEq, false_or, List.not_mem_nil,
      or_false] at hx
    obtain ⟨_, _, _, hq⟩ := hr.mem _ hx
    refine ⟨[], c, cs, rfl, (LifecycleEntry.hook.inj hq).1.symm, ?_⟩
    intro d hd
    cases hd
  · refine ih.mono ?_
    intro before x hx n hook r hq
    obtain ⟨pre, c', post, hcs, hname, hpre⟩ := hx n hook r hq
    refine ⟨c :: pre, c', post, by rw [hcs, List.cons_append], hname, ?_⟩
    intro d hd henabled
    rcases List.mem_cons.mp hd with rfl | hd
    · unfold Down
      rcases hclose with rfl | rfl <;> simp
    · exact (hpre d hd henabled).mono (List.subset_append_right _ _)

theorem TakenDown.inTurn (h : TakenDown phase cs t stopped failed) :
    Guarded (AwaitedInTurn cs) t := by
  induction h with
  | nil => exact Guarded.of_mem fun x hx => absurd hx List.not_mem_nil
  | @disabled c cs t stopped failed hc _ ih =>
    refine ih.mono ?_
    intro before x hx n hook r hq
    obtain ⟨pre, c', post, hcs, hname, hpre⟩ := hx n hook r hq
    refine ⟨c :: pre, c', post, by rw [hcs, List.cons_append], hname, ?_⟩
    intro d hd henabled
    rcases List.mem_cons.mp hd with rfl | hd
    · rw [hc] at henabled
      cases henabled
    · exact hpre d hd henabled
  | stopped _ hr _ ih => exact .cons hr (Or.inl rfl) ih
  | failed _ hr _ ih => exact .cons hr (Or.inr rfl) ih

theorem BootOrder.dependent_mem {r : ComponentRegistry}
    {order pre post : List ComponentRegistration} (h : BootOrder r order)
    (hsplit : order.reverse = pre ++ c :: post)
    {c' : ComponentRegistration} (hc' : c' ∈ r.getAll) (hdep : c.name ∈ c'.dependencies) :
    c' ∈ pre := by
  have horder : order = post.reverse ++ c :: pre.reverse := by
    rw [← List.reverse_reverse order, hsplit]
    simp
  have hnodup : order.Nodup := h.perm.nodup_iff.mpr ComponentRegistry.nodup_getAll
  have hc : c ∈ r.getAll := h.perm.mem_iff.mp (by rw [horder]; simp)
  -- what comes before `c'` has `c` in it
  have hbefore : ∀ p q, order = p ++ c' :: q → c ∈ p := by
    intro p q hq
    obtain ⟨d, hd, hname⟩ := List.mem_map.mp (h.follows p c' q hq _ hdep)
    have hdall : d ∈ r.getAll := h.perm.mem_iff.mp (by rw [hq]; simp [hd])
    exact ComponentRegistry.name_inj hdall hc hname ▸ hd
  have hnot : c ∉ post.reverse := by
    rw [horder, List.nodup_middle, List.nodup_cons, List.mem_append, not_or] at hnodup
    exact hnodup.1.1
  have hmem : c' ∈ post.reverse ++ c :: pre.reverse := horder ▸ h.perm.mem_iff.mpr hc'
  rcases List.mem_append.mp hmem with hpost | hrest
  · obtain ⟨p, q, hq⟩ := List.append_of_mem hpost
    have hin := hbefore p (q ++ c :: pre.reverse) (by rw [horder, hq]; simp)
    exact absurd (by rw [hq]; simp [hin]) hnot
  · rcases List.mem_cons.mp hrest with rfl | hpre
    · exact absurd (hbefore _ _ horder) hnot
    · exact List.mem_reverse.mp hpre

end Order

/-! ## The phase -/

structure ShutDown (env : LifecycleEnv) (phase : ShutdownPhase) (s s' : LifecycleState)
    (t : List LifecycleEntry) (report : ShutdownReport) : Prop where
  /-- Every enabled component is taken up, once. -/
  once : (attempted phase t).Perm (enabledNames env.registry.getAll)
  partition : (report.stoppedComponents ++ report.errors.keys).Perm
    (enabledNames env.registry.getAll)
  success : report.success = true ↔
    report.stoppedComponents.Perm (enabledNames env.registry.getAll)
  stopped : ∀ n ∈ report.stoppedComponents, s'.health.get? n = some ⟨.STOPPED, []⟩ ∧
    ∃ c, env.registry.get n = some c ∧
      ∀ hook ∈ phase.hooks, c.instanceHooks hook ≠ .absent → .hook n hook (.ok ()) ∈ t
  failed : ∀ n message, report.errors.get? n = some message →
    s'.health.get? n = some (failure phase message)
  others : ∀ n, n ∉ enabledNames env.registry.getAll → s'.health.get? n = s.health.get? n
  /-- A hook is awaited when every enabled component that depends on its component has had its
  turn. -/
  afterDependents : ¬ Unorderable env.registry →
    Guarded (fun before x => ∀ n hook res, x = .hook n hook res →
      ∀ c ∈ env.registry.getAll, c.enabled = true → n ∈ c.dependencies → Down before c) t
  byPriority : Unorderable env.registry → ∃ order, order.Perm env.registry.getAll ∧
    order.Pairwise (fun a b => b.sortKey ≤ a.sortKey) ∧ attempted phase t = enabledNames order

theorem shutdownOrder_perm (r : ComponentRegistry) : (shutdownOrder r).Perm r.getAll := by
  have hresult := buildExecutionOrder_result r
  unfold shutdownOrder
  cases ho : buildExecutionOrder r with
  | ok order =>
    rw [ho] at hresult
    exact (List.reverse_perm order).trans hresult.perm
  | error e => exact (List.reverse_perm _).trans (List.perm_insertionSort _ _)

/-- **A shutdown phase** takes every enabled component down, once, dependents first, whatever any of
them raises; and the report and the health monitor say which have stopped and which have failed. -/
theorem runShutdownPhase_shutDown (env : LifecycleEnv) (phase : ShutdownPhase)
    (s : LifecycleState) : ∃ report s' t,
      runShutdownPhase env phase s = ⟨.ok report, s', t⟩ ∧ ShutDown env phase s s' t report := by
  have hperm := shutdownOrder_perm env.registry
  have hnodup : ((shutdownOrder env.registry).map ComponentRegistration.name).Nodup :=
    (hperm.map _).nodup_iff.mpr ComponentRegistry.nodup_names
  generalize hrun : runShutdownPhase env phase s = run
  obtain ⟨res, s', t⟩ := run
  obtain ⟨stopped, failed, report, rfl, hdown, hset, hstopped, herrors, hsuccess⟩ :=
    stopComponents_run hnodup (fun _ _ => rfl) hrun
  have hstopped : report.stoppedComponents = stopped := hstopped
  have herrors : report.errors.entries = failed := herrors
  have hkeys : report.errors.keys = failed.map Prod.fst := by rw [Dict.keys, herrors]
  have hnames := enabledNames_perm hperm
  have hpartition := hdown.partition.trans hnames
  rw [← hstopped, ← hkeys] at hpartition
  have hresult := buildExecutionOrder_result env.registry
  refine ⟨report, s', t, rfl, ?_⟩
  constructor
  case once =>
    rw [hdown.attempted]
    exact hnames
  case partition => exact hpartition
  case success =>
    rw [hsuccess, decide_eq_true_iff, ← Dict.length_keys, List.length_eq_zero_iff]
    constructor
    · intro hnone
      rwa [hnone, List.append_nil] at hpartition
    · intro hall
      have hlen := hpartition.length_eq
      rw [List.length_append, hall.length_eq] at hlen
      exact List.length_eq_zero_iff.mp (by omega)
  case stopped =>
    intro n hn
    rw [hstopped] at hn
    obtain ⟨c, hc, rfl, t₁, hr, hin⟩ := hdown.stopped_hooks n hn
    refine ⟨hset.ofStopped _ hn, c, ComponentRegistry.mem_getAll.mp (hperm.mem_iff.mp hc), ?_⟩
    intro hook hmem hhook
    exact hin.subset (hr.returned_mem rfl hook hmem hhook)
  case failed =>
    intro n message hfound
    obtain ⟨l₁, l₂, hl, _⟩ := List.lookup_eq_some_iff.mp hfound
    exact hset.ofFailed (n, message) (by rw [← herrors, hl]; simp)
  case others =>
    intro n hn
    rw [← hpartition.mem_iff, List.mem_append, not_or, hstopped, hkeys] at hn
    exact hset.others n hn.1 hn.2
  case afterDependents =>
    intro horderable
    cases ho : buildExecutionOrder env.registry with
    | error e =>
      rw [ho] at hresult
      exact absurd hresult.1 horderable
    | ok order =>
      rw [ho] at hresult
      have hreverse : shutdownOrder env.registry = order.reverse := by rw [shutdownOrder, ho]
      refine hdown.inTurn.mono ?_
      intro before x hx n hook res hq c hc henabled hdep
      obtain ⟨pre, c', post, hsplit, rfl, hpre⟩ := hx n hook res hq
      rw [hreverse] at hsplit
      exact hpre c (hresult.dependent_mem hsplit hc hdep) henabled
  case byPriority =>
    intro hunorderable
    cases ho : buildExecutionOrder env.registry with
    | ok order =>
      rw [ho] at hresult
      exact absurd hunorderable hresult.orderable
    | error e =>
      refine ⟨shutdownOrder env.registry, hperm, ?_, hdown.attempted⟩
      rw [shutdownOrder, ho]
      exact List.pairwise_reverse.mpr (ordered_sorted env.registry.getAll)

end LifecycleOrchestrator

end IraOS
