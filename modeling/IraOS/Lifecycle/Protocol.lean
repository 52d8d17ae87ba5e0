import IraOS.Lib.Tracks
import IraOS.Lifecycle.Stopping

/-!
# The states of a component

What the health monitor says of a component, over a whole run of the manager: registered, brought
up, taken down, rolled back, in any order and whatever the hooks do. `healthProtocol` is the diagram
of the states, and of the hooks that belong to each; the monitor shows at every moment where in the
diagram a component is. A phase that is left in progress is not in it: between two calls every
component is at rest.

## The diagram

There is a state for each phase in progress, one for each phase completed, and one for failure. A
hook belongs to the state of its phase; the hooks of stopping and shutting down belong to the states
of a rollback as well. Which states a component can change to is `ComponentState.allows`. It is
looser than the lifecycle a reader may have in mind, as the manager lets one call any phase at any
time: what is out of order is only what no call does.

## The proof

The phase of the protocol can be read off the monitor, so the rules are those of `Lib.Tracks`: a
health update is a write and its announcement in one, and a hook announces itself and writes
nothing. Each piece of the orchestrator has one lemma, from taking one component down to the loops,
and says besides in which states it leaves the components (`Started`, `Moved`).

The orchestrator has no lock. All this is about calls that follow one another.
-/

set_option autoImplicit false

namespace IraOS

open Lib

def ComponentState.inProgress : ComponentState → Bool
  | .BOOTING | .STARTING | .STOPPING | .SHUTTING_DOWN | .RESTARTING => true
  | .CREATED | .BOOTED | .RUNNING | .STOPPED | .FAILED => false

/-- The states in which a hook is awaited; a rollback of a start awaits the hooks of a stop. -/
def Hook.during (hook : Hook) (st : ComponentState) : Bool :=
  match hook with
  | .beforeBoot | .boot | .afterBoot => st = .BOOTING
  | .beforeStart | .start | .afterStart => st = .STARTING
  | .beforeStop | .stop | .afterStop => st = .STOPPING ∨ st = .SHUTTING_DOWN
  | .beforeShutdown | .shutdown | .afterShutdown => st = .SHUTTING_DOWN

/-- What the state of a component can change to. -/
def ComponentState.allows : Option ComponentState → ComponentState → Bool
  | none, .CREATED => true
  | some st, .CREATED | some st, .BOOTING | some st, .STARTING | some st, .STOPPING
  | some st, .SHUTTING_DOWN => !st.inProgress
  | some .BOOTING, .BOOTED | some .STARTING, .RUNNING | some .STOPPING, .STOPPED
  | some .SHUTTING_DOWN, .STOPPED => true
  | some st, .FAILED => st.inProgress
  | _, _ => false

namespace LifecycleOrchestrator

abbrev States := String → Option ComponentState

def States.set (φ : States) (n : String) (st : ComponentState) : States :=
  Function.update φ n (some st)

/-- The diagram: a hook is awaited in a state it belongs to, a state changes to one it allows. -/
def healthProtocol : System States LifecycleEntry where
  step φ
    | .hook n hook _ => if (φ n).any hook.during then some φ else none
    | .health n st => if ComponentState.allows (φ n) st then some (φ.set n st) else none

def states (s : LifecycleState) : States := fun n => (s.health.get? n).map ComponentHealth.state

/-- Nothing is in progress. -/
def AtRest (φ : States) : Prop := ∀ n st, φ n = some st → st.inProgress = false

def Resting (φ : States) (n : String) : Prop := ∃ st, φ n = some st ∧ st.inProgress = false

def BroughtDown (φ : States) (n : String) : Prop := φ n = some .STOPPED ∨ φ n = some .FAILED

@[simp] theorem States.set_self (φ : States) (n : String) (st : ComponentState) :
    φ.set n st n = some st := Function.update_self ..

theorem States.set_ne {φ : States} {n m : String} (h : m ≠ n) (st : ComponentState) :
    φ.set n st m = φ m := Function.update_of_ne h ..

theorem BroughtDown.resting {φ : States} {n : String} (h : BroughtDown φ n) : Resting φ n := by
  rcases h with h | h
  · exact ⟨_, h, rfl⟩
  · exact ⟨_, h, rfl⟩

/-- Some components have changed their state, and are at rest in the one they have now. -/
def Moved (φ ψ : States) : Prop := ∀ n, ψ n = φ n ∨ Resting ψ n

theorem Resting.set {φ : States} {n m : String} {st : ComponentState}
    (hst : Resting (φ.set n st) n) (h : Resting φ m) : Resting (φ.set n st) m := by
  by_cases hname : m = n
  · rw [hname]
    exact hst
  · rw [Resting, States.set_ne hname]
    exact h

theorem Moved.refl (φ : States) : Moved φ φ := fun _ => Or.inl rfl

theorem Moved.trans {φ χ ψ : States} (h : Moved φ χ) (h' : Moved χ ψ) : Moved φ ψ := by
  intro n
  rcases h' n with hsame | hresting
  · rw [Resting, hsame]
    exact h n
  · exact Or.inr hresting

theorem Resting.moved {φ : States} {n : String} {st : ComponentState}
    (hst : Resting (φ.set n st) n) : Moved φ (φ.set n st) := by
  intro m
  by_cases hname : m = n
  · rw [hname]
    exact Or.inr hst
  · exact Or.inl (States.set_ne hname st)


section Pieces

variable {env : LifecycleEnv} {c : ComponentRegistration} {φ : States}

theorem updateState_tracks {n : String} {st : ComponentState} {details : Text}
    (h : ComponentState.allows (φ n) st = true) :
    Act.Tracks healthProtocol states φ (updateState n st details)
      fun r ψ => (∃ u, r = .ok u) ∧ ψ = φ.set n st := by
  refine Act.Tracks.write ?_ ?_ ⟨⟨(), rfl⟩, rfl⟩
  · intro s hs
    funext m
    show ((s.health.set n ⟨st, details⟩).get? m).map ComponentHealth.state = _
    rw [Dict.get?_set]
    split
    · next hm =>
      rw [hm, States.set_self]
      rfl
    · next hm =>
      rw [States.set_ne hm, ← hs]
      rfl
  · show (if ComponentState.allows (φ n) st = true then some (φ.set n st) else none) = _
    rw [if_pos h]

theorem executeHook_tracks {hook : Hook} {st : ComponentState} (hst : φ c.name = some st)
    (h : hook.during st = true) :
    Act.Tracks healthProtocol states φ (executeHook env c hook) fun _ ψ => ψ = φ := by
  have hstep : ∀ res, healthProtocol.step φ (.hook c.name hook res) = some φ := by
    intro res
    show (if (φ c.name).any hook.during = true then some φ else none) = some φ
    rw [if_pos (by rw [hst]; exact h)]
  unfold executeHook
  cases c.instanceHooks hook with
  | absent => exact .pure rfl
  | plain => exact .throw rfl
  | coroutine =>
    refine .get ?_
    intro s _
    refine .bind_of_ok (χ := φ) (.modify (fun _ => rfl) ⟨⟨(), rfl⟩, rfl⟩) ?_
    intro _
    refine .bind_of_ok (χ := φ) (.emit (hstep _) ⟨⟨(), rfl⟩, rfl⟩) ?_
    intro _
    exact .ofExcept rfl

theorem executeHooks_tracks {hooks : List Hook} {st : ComponentState} (hst : φ c.name = some st)
    (h : ∀ hook ∈ hooks, hook.during st = true) :
    Act.Tracks healthProtocol states φ (executeHooks env c hooks) fun _ ψ => ψ = φ := by
  induction hooks with
  | nil => exact .pure rfl
  | cons hook hooks ih =>
    refine .bind (executeHook_tracks hst (h hook List.mem_cons_self)) ?_ (fun _ _ hψ => hψ)
    rintro _ ψ rfl
    exact ih fun hook' hmem => h hook' (List.mem_cons_of_mem _ hmem)

theorem closing_tracks {hooks : List Hook} {st done : ComponentState}
    (hst : φ c.name = some st) (h : ∀ hook ∈ hooks, hook.during st = true)
    (hdone : ComponentState.allows (some st) done = true) :
    Act.Tracks healthProtocol states φ
      (do executeHooks env c hooks; updateState c.name done [])
      fun r ψ => (∃ u, r = .ok u) ∧ ψ = φ.set c.name done ∨ (∃ e, r = .error e) ∧ ψ = φ := by
  refine .bind (executeHooks_tracks hst h) ?_ (fun e ψ hψ => Or.inr ⟨⟨e, rfl⟩, hψ⟩)
  rintro _ ψ rfl
  exact (updateState_tracks (by rw [hst]; exact hdone)).mono fun _ _ hr => Or.inl hr

theorem States.set_set (n : String) (st st' : ComponentState) :
    (φ.set n st).set n st' = φ.set n st' := Function.update_idem ..

theorem Resting.allows {n : String} (h : Resting φ n) {st : ComponentState}
    (hst : st = .BOOTING ∨ st = .STARTING ∨ st = .STOPPING ∨ st = .SHUTTING_DOWN) :
    ComponentState.allows (φ n) st = true := by
  obtain ⟨old, hold, hrest⟩ := h
  rw [hold]
  rcases hst with rfl | rfl | rfl | rfl <;> simp [ComponentState.allows, hrest]

end Pieces

/-! ## Taking down -/

section Down

variable {env : LifecycleEnv} {φ : States}

theorem takeDown_tracks {phase : ShutdownPhase} {c : ComponentRegistration}
    (hst : φ c.name = some phase.inProgress) :
    Act.Tracks healthProtocol states φ (takeDown env phase c)
      fun r ψ => (∃ u, r = .ok u) ∧ ψ = φ.set c.name .STOPPED ∨ (∃ e, r = .error e) ∧ ψ = φ := by
  refine closing_tracks hst ?_ ?_
  · intro hook hmem
    cases phase <;> simp [ShutdownPhase.hooks] at hmem <;> rcases hmem with rfl | rfl | rfl <;> rfl
  · cases phase <;> rfl

theorem inProgress_cases (phase : ShutdownPhase) :
    phase.inProgress = .BOOTING ∨ phase.inProgress = .STARTING ∨ phase.inProgress = .STOPPING ∨
      phase.inProgress = .SHUTTING_DOWN := by
  cases phase <;> simp [ShutdownPhase.inProgress]

/-- The loop of a shutdown phase: whatever it takes up it leaves at rest. -/
theorem stopComponents_tracks {phase : ShutdownPhase} {cs : List ComponentRegistration}
    {stopped : List String} {errors : Dict String Text} (h : ∀ c ∈ cs, Resting φ c.name) :
    Act.Tracks healthProtocol states φ (stopComponents env phase cs stopped errors)
      fun r ψ => (∃ report, r = .ok report) ∧ Moved φ ψ := by
  induction cs generalizing stopped errors φ with
  | nil => exact .pure ⟨⟨_, rfl⟩, fun n => Or.inl rfl⟩
  | cons c cs ih =>
    rw [stopComponents]
    split
    · exact ih fun c' hc' => h c' (List.mem_cons_of_mem _ hc')
    have hrest : ∀ {st : ComponentState} {stopped : List String} {errors : Dict String Text},
        st.inProgress = false →
        Act.Tracks healthProtocol states (φ.set c.name st)
          (stopComponents env phase cs stopped errors)
          fun r ψ => (∃ report, r = .ok report) ∧ Moved φ ψ := by
      intro st stopped errors hst
      have hdone : Resting (φ.set c.name st) c.name := ⟨st, States.set_self .., hst⟩
      refine (ih ?_).mono ?_
      · intro c' hc'
        exact hdone.set (h c' (List.mem_cons_of_mem _ hc'))
      · rintro r ψ ⟨hr, hψ⟩
        exact ⟨hr, hdone.moved.trans hψ⟩
    have hresting := h c List.mem_cons_self
    refine .bind_of_ok (updateState_tracks (hresting.allows (inProgress_cases phase))) ?_
    intro _
    refine .bind_attempt (takeDown_tracks (States.set_self ..)) ?_
    rintro x ψ (⟨⟨u, rfl⟩, rfl⟩ | ⟨⟨e, rfl⟩, rfl⟩)
    · rw [States.set_set]
      exact hrest rfl
    · refine .bind_of_ok (updateState_tracks ?_) ?_
      · rw [States.set_self]
        cases phase <;> rfl
      · intro _
        rw [States.set_set]
        exact hrest rfl

end Down

/-! ## Bringing up -/

section Up

variable {env : LifecycleEnv} {phase : Phase} {φ : States}

theorem rollbackComponent_tracks {n : String} (hreg : ∃ c, env.registry.get n = some c)
    (h : Resting φ n) :
    Act.Tracks healthProtocol states φ (rollbackComponent env phase n)
      fun r ψ => (∃ u, r = .ok u) ∧ BroughtDown ψ n ∧ ∀ m, m ≠ n → ψ m = φ m := by
  obtain ⟨c, hc⟩ := hreg
  obtain rfl : c.name = n := (ComponentRegistry.get_some hc).2
  have hteardown : ∀ hook ∈ phase.teardown, hook.during .SHUTTING_DOWN = true := by
    intro hook hmem
    cases phase <;> simp [Phase.teardown] at hmem <;> rcases hmem with rfl | rfl | rfl <;> rfl
  have hothers : ∀ st m, m ≠ c.name → (φ.set c.name st) m = φ m :=
    fun st m hm => States.set_ne hm st
  unfold rollbackComponent
  rw [hc]
  refine .bind_attempt (Q := fun r ψ => (∃ u, r = .ok u) ∧ ψ = φ.set c.name .STOPPED ∨
      (∃ e, r = .error e) ∧ ψ = φ.set c.name .SHUTTING_DOWN) ?_ ?_
  · refine .bind_of_ok (updateState_tracks (h.allows (by simp))) ?_
    intro _
    refine (closing_tracks (States.set_self ..) hteardown rfl).mono ?_
    rintro r ψ (⟨hr, rfl⟩ | hr)
    · exact Or.inl ⟨hr, States.set_set ..⟩
    · exact Or.inr hr
  · rintro x ψ (⟨⟨u, rfl⟩, rfl⟩ | ⟨⟨e, rfl⟩, rfl⟩)
    · exact .pure ⟨⟨_, rfl⟩, Or.inl (States.set_self ..), hothers _⟩
    · refine (updateState_tracks ?_).mono ?_
      · rw [States.set_self]
        rfl
      · rintro r ψ ⟨hr, rfl⟩
        rw [States.set_set]
        exact ⟨hr, Or.inr (States.set_self ..), hothers _⟩

theorem rollbackAll_tracks {names : List String}
    (hreg : ∀ n ∈ names, ∃ c, env.registry.get n = some c) (h : ∀ n ∈ names, Resting φ n) :
    Act.Tracks healthProtocol states φ (rollbackAll env phase names)
      fun r ψ => (∃ u, r = .ok u) ∧ (∀ n ∈ names, BroughtDown ψ n) ∧
        ∀ n, n ∉ names → ψ n = φ n := by
  induction names generalizing φ with
  | nil => exact .pure ⟨⟨_, rfl⟩, by simp, fun n _ => rfl⟩
  | cons n names ih =>
    refine .bind (rollbackComponent_tracks (hreg n List.mem_cons_self) (h n List.mem_cons_self))
      ?_ ?_
    · rintro _ ψ ⟨_, hdown, hothers⟩
      refine (ih (fun m hm => hreg m (List.mem_cons_of_mem _ hm)) ?_).mono ?_
      · intro m hm
        by_cases hmn : m = n
        · rw [hmn]
          exact hdown.resting
        · rw [Resting, hothers m hmn]
          exact h m (List.mem_cons_of_mem _ hm)
      · rintro r χ ⟨hr, hrest, hsame⟩
        refine ⟨hr, ?_, ?_⟩
        · intro m hm
          by_cases hmem : m ∈ names
          · exact hrest m hmem
          · obtain rfl : m = n := (List.mem_cons.mp hm).resolve_right hmem
            rw [BroughtDown, hsame m hmem]
            exact hdown
        · intro m hm
          rw [List.mem_cons, not_or] at hm
          rw [hsame m hm.2, hothers m hm.1]
    · rintro e ψ ⟨⟨u, hu⟩, _⟩
      cases hu

/-- What a startup phase leaves the components in. If it succeeds, every enabled one is up, or it is
not critical and has failed; if it does not, whatever it had started is down again. -/
structure Started (phase : Phase) (cs : List ComponentRegistration) (started : List String)
    (φ ψ : States) (report : StartupReport) : Prop where
  up : report.success = true → ∀ c ∈ cs, c.enabled = true →
    ψ c.name = some phase.success ∨ c.critical = false ∧ ψ c.name = some .FAILED
  aside : report.success = true → ∀ n, n ∉ enabledNames cs → ψ n = φ n
  down : report.success = false → ∀ n ∈ started, BroughtDown ψ n
  untouched : report.success = false → ∀ n, n ∉ started → ψ n = φ n ∨ BroughtDown ψ n

theorem bringUp_tracks {c : ComponentRegistration} (hst : φ c.name = some phase.inProgress) :
    Act.Tracks healthProtocol states φ (bringUp env phase c)
      fun r ψ => (∃ u, r = .ok u) ∧ ψ = φ.set c.name phase.success ∨
        (∃ e, r = .error e) ∧ ψ = φ := by
  refine closing_tracks hst ?_ ?_
  · intro hook hmem
    cases phase <;> simp [Phase.hooks] at hmem <;> rcases hmem with rfl | rfl | rfl <;> rfl
  · cases phase <;> rfl

theorem Started.cons {c : ComponentRegistration} {cs : List ComponentRegistration}
    {started more : List String} {st : ComponentState} {ψ : States} {report : StartupReport}
    (h : Started phase cs (started ++ more) (φ.set c.name st) ψ report)
    (hnot : c.name ∉ cs.map ComponentRegistration.name) (henabled : c.enabled = true)
    (hst : (st = phase.success ∧ more = [c.name]) ∨
      (c.critical = false ∧ st = .FAILED ∧ more = [])) :
    Started phase (c :: cs) started φ ψ report where
  up hsucc c' hc' henabled' := by
    rcases List.mem_cons.mp hc' with rfl | hc'
    · have hnot' : c'.name ∉ enabledNames cs := by
        rw [mem_enabledNames]
        rintro ⟨d, hd, _, hname⟩
        exact hnot (hname ▸ List.mem_map_of_mem hd)
      rw [h.aside hsucc _ hnot', States.set_self]
      rcases hst with ⟨rfl, _⟩ | ⟨hcritical, rfl, _⟩
      · exact Or.inl rfl
      · exact Or.inr ⟨hcritical, rfl⟩
    · exact h.up hsucc c' hc' henabled'
  aside hsucc n hn := by
    rw [enabledNames_cons henabled, List.mem_cons, not_or] at hn
    rw [h.aside hsucc n hn.2, States.set_ne hn.1]
  down hfail n hn := h.down hfail n (List.mem_append_left _ hn)
  untouched hfail n hn := by
    by_cases hmem : n ∈ more
    · exact Or.inr (h.down hfail n (List.mem_append_right _ hmem))
    · rcases h.untouched hfail n (by simp [hn, hmem]) with hsame | hdown
      · by_cases hname : n = c.name
        · subst hname
          rcases hst with ⟨_, rfl⟩ | ⟨_, rfl, _⟩
          · exact absurd List.mem_cons_self hmem
          · right
            rw [BroughtDown, hsame, States.set_self]
            exact Or.inr rfl
        · exact Or.inl (hsame.trans (States.set_ne hname st))
      · exact Or.inr hdown

theorem success_resting (φ : States) (n : String) : Resting (φ.set n phase.success) n := by
  refine ⟨_, States.set_self .., ?_⟩
  cases phase <;> rfl

theorem Started.nil (φ : States) (started : List String) :
    Started phase [] started φ φ { success := true, startedComponents := started } where
  up _ c hc := by cases hc
  aside _ n _ := rfl
  down hfail := by cases hfail
  untouched hfail := by cases hfail

theorem Started.skip {c : ComponentRegistration} {cs : List ComponentRegistration}
    {started : List String} {ψ : States} {report : StartupReport}
    (h : Started phase cs started φ ψ report) (hdisabled : c.enabled = false) :
    Started phase (c :: cs) started φ ψ report where
  up hsucc c' hc' henabled := by
    rcases List.mem_cons.mp hc' with rfl | hc'
    · rw [hdisabled] at henabled
      cases henabled
    · exact h.up hsucc c' hc' henabled
  aside hsucc n hn := by
    rw [enabledNames_cons_disabled hdisabled] at hn
    exact h.aside hsucc n hn
  down := h.down
  untouched := h.untouched

theorem Started.aborted {cs : List ComponentRegistration} {started : List String} {ψ : States}
    {report : StartupReport} (hfail : report.success = false)
    (hdown : ∀ n ∈ started, BroughtDown ψ n) (hall : ∀ n, ψ n = φ n ∨ BroughtDown ψ n) :
    Started phase cs started φ ψ report where
  up hsucc := by
    rw [hfail] at hsucc
    cases hsucc
  aside hsucc := by
    rw [hfail] at hsucc
    cases hsucc
  down _ := hdown
  untouched _ n _ := hall n

theorem aborted_tracks {name : String} {started : List String} (report : StartupReport)
    (hreg : ∀ n ∈ started, ∃ c, env.registry.get n = some c) (hup : ∀ n ∈ started, Resting φ n) :
    Act.Tracks healthProtocol states (φ.set name .FAILED)
      (do
        rollback env phase started
        pure report)
      fun r ψ => r = .ok report ∧ (∀ n ∈ started, BroughtDown ψ n) ∧
        ∀ n, ψ n = φ n ∨ BroughtDown ψ n := by
  have hfailed : Resting (φ.set name .FAILED) name := ⟨_, States.set_self .., rfl⟩
  refine .bind (rollbackAll_tracks ?_ ?_) ?_ ?_
  · intro n hn
    exact hreg n (List.mem_reverse.mp hn)
  · intro n hn
    exact hfailed.set (hup n (List.mem_reverse.mp hn))
  · rintro _ ψ ⟨_, hdown, hsame⟩
    refine .pure ⟨rfl, fun n hn => hdown n (List.mem_reverse.mpr hn), ?_⟩
    intro n
    by_cases hn : n ∈ started
    · exact Or.inr (hdown n (List.mem_reverse.mpr hn))
    · have hn' := hsame n fun hmem => hn (List.mem_reverse.mp hmem)
      by_cases hname : n = name
      · right
        rw [BroughtDown, hn', hname, States.set_self]
        exact Or.inr rfl
      · exact Or.inl (hn'.trans (States.set_ne hname _))
  · rintro e ψ ⟨⟨u, hu⟩, _⟩
    cases hu

/-- The loop of a startup phase. -/
theorem runComponents_tracks {cs : List ComponentRegistration} {started : List String}
    (hnodup : (cs.map ComponentRegistration.name).Nodup) (h : ∀ c ∈ cs, Resting φ c.name)
    (hreg : ∀ n ∈ started, ∃ c, env.registry.get n = some c) (hup : ∀ n ∈ started, Resting φ n)
    (hcs : ∀ c ∈ cs, env.registry.get c.name = some c) :
    Act.Tracks healthProtocol states φ (runComponents env phase cs started)
      fun r ψ => ∃ report, r = .ok report ∧ Started phase cs started φ ψ report ∧ Moved φ ψ := by
  induction cs generalizing started φ with
  | nil => exact .pure ⟨_, rfl, .nil φ started, .refl φ⟩
  | cons c cs ih =>
    rw [List.map_cons, List.nodup_cons] at hnodup
    have hcs' : ∀ c' ∈ cs, env.registry.get c'.name = some c' :=
      fun c' hc' => hcs c' (List.mem_cons_of_mem _ hc')
    rw [runComponents]
    split
    · next hdisabled =>
      refine (ih hnodup.2 (fun c' hc' => h c' (List.mem_cons_of_mem _ hc')) hreg hup hcs').mono ?_
      rintro r ψ ⟨report, hr, hstarted, hmoved⟩
      exact ⟨report, hr, hstarted.skip hdisabled, hmoved⟩
    next henabled =>
    have henabled : c.enabled = true := Bool.eq_true_of_not_eq_false henabled
    have hresting := h c List.mem_cons_self
    have hbegin : ComponentState.allows (φ c.name) phase.inProgress = true :=
      hresting.allows (by cases phase <;> simp [Phase.inProgress])
    refine .bind_of_ok (updateState_tracks hbegin) ?_
    intro _
    refine .bind_attempt (bringUp_tracks (States.set_self ..)) ?_
    rintro x ψ (⟨⟨u, rfl⟩, rfl⟩ | ⟨⟨e, rfl⟩, rfl⟩)
    · -- completed
      rw [States.set_set]
      have hdone : Resting (φ.set c.name phase.success) c.name := success_resting φ c.name
      refine (ih hnodup.2 (fun c' hc' => hdone.set (h c' (List.mem_cons_of_mem _ hc')))
        ?_ ?_ hcs').mono ?_
      · intro n hn
        rcases List.mem_append.mp hn with hn | hn
        · exact hreg n hn
        · rw [List.mem_singleton.mp hn]
          exact ⟨c, hcs c List.mem_cons_self⟩
      · intro n hn
        rcases List.mem_append.mp hn with hn | hn
        · exact hdone.set (hup n hn)
        · rw [List.mem_singleton.mp hn]
          exact hdone
      · rintro r ψ ⟨report, hr, hstarted, hψ⟩
        exact ⟨report, hr, hstarted.cons hnodup.1 henabled (Or.inl ⟨rfl, rfl⟩),
          hdone.moved.trans hψ⟩
    · have hfailed : Resting (φ.set c.name .FAILED) c.name := ⟨_, States.set_self .., rfl⟩
      refine .bind_of_ok (updateState_tracks ?_) ?_
      · rw [States.set_self]
        cases phase <;> rfl
      intro _
      rw [States.set_set]
      split
      · refine (aborted_tracks _ hreg hup).mono ?_
        rintro _ ψ ⟨rfl, hdown, hall⟩
        exact ⟨_, rfl, .aborted rfl hdown hall, fun n => (hall n).imp_right BroughtDown.resting⟩
      · next hcritical =>
        have hcritical : c.critical = false := Bool.eq_false_of_not_eq_true hcritical
        refine (ih hnodup.2 (fun c' hc' => hfailed.set (h c' (List.mem_cons_of_mem _ hc')))
          hreg (fun n hn => hfailed.set (hup n hn)) hcs').mono ?_
        rintro r ψ ⟨report, hr, hstarted, hψ⟩
        refine ⟨report, hr, ?_, hfailed.moved.trans hψ⟩
        have hstarted : Started phase cs (started ++ []) (φ.set c.name .FAILED) ψ report := by
          rw [List.append_nil]
          exact hstarted
        exact hstarted.cons hnodup.1 henabled (Or.inr ⟨hcritical, rfl, rfl⟩)

end Up

end LifecycleOrchestrator

end IraOS
