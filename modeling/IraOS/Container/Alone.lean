import IraOS.Container.Orderly

/-!
# One task by itself

What a resolve comes to when no other task is under way and whatever is called returns. Such a run
has no choices: the task goes on (`Gone`) until its call answers. It always does
(`entering_answers`), as a call never comes twice along one chain, and what it answers is what
settling the graph of the registry finds (`Lib.Verdict`): the caches that fill on the way change
nothing of that, since they hold only what settles (`Solo`).

## The recursion

`Resolver.resolve` calls itself for every parameter, and `_build` is in the middle of that. The
lemmas follow the text from the end of a call to its beginning: what is called returns, the build
comes to its end if the calls for its parameters do, the lock is free, "Build it", and last the call
itself. Only there is the induction closed: it is on the number of registered interfaces that are
not in the chain, which is one less for every call in a call.

A lock is free to a task that is alone, unless it is in the lock itself, and then the interface is
in its chain and the call does not get to the lock.

## One end

That the task comes to an end says nothing about other ends it might come to. There are none, since
a task that goes on by itself has one turn at every moment (`Gone.finished_unique`).
-/

set_option autoImplicit false

namespace IraOS

open Lib

namespace Resolver

inductive Shows : Except Exn Instance → Option Bool → Prop
  | ok {inst : Instance} : Shows (.ok inst) (some true)
  | circular {e : Exn} (h : e.cls = .circularDependencyError) : Shows (.error e) none
  | failed {e : Exn} (h : e.cls = .resolutionError) : Shows (.error e) (some false)

/-- The caches hold nothing but what settles. An interface is cached only after it was built, so a
look at the cache finds out nothing that the graph would not. -/
structure SettledCaches (registry : ServiceRegistry) (s : ContainerState) : Prop where
  instances : ∀ interface inst, s.singletonInstances.get? interface = some inst →
    Settles registry.graph interface true
  scopes : ∀ k interface inst, (s.scopes k).get? interface = some inst →
    Settles registry.graph interface true

namespace SettledCaches

variable {registry : ServiceRegistry} {s s' : ContainerState}

theorem cached (h : SettledCaches registry s) {d : ServiceDescriptor} {interface : PyType}
    {scope : Nat} {inst : Instance} (hcached : Resolver.cached s d interface scope = some inst) :
    Settles registry.graph interface true := by
  unfold Resolver.cached at hcached
  split at hcached
  · exact h.instances interface inst hcached
  · exact h.scopes scope interface inst hcached
  · cases hcached

theorem alike (h : SettledCaches registry s) (hs : Alike s s') : SettledCaches registry s' where
  instances interface inst hinst := h.instances interface inst (hs.instances ▸ hinst)
  scopes k interface inst hinst := by
    rcases hs.scopes k with hq | hq
    · exact h.scopes k interface inst (hq ▸ hinst)
    · rw [hq] at hinst
      cases hinst

theorem same (h : SettledCaches registry s)
    (hinstances : s'.singletonInstances = s.singletonInstances) (hscopes : s'.scopes = s.scopes) :
    SettledCaches registry s' where
  instances := hinstances ▸ h.instances
  scopes := hscopes ▸ h.scopes

theorem stored (h : SettledCaches registry s) {f : Frame} {inst : Instance}
    (hf : Settles registry.graph f.interface true) : SettledCaches registry (store s f inst) where
  instances interface inst' hinst := by
    rw [Orderly.store_instances] at hinst
    split at hinst
    · next hq => exact hq.2 ▸ hf
    · exact h.instances interface inst' hinst
  scopes k interface inst' hinst := by
    rw [Orderly.store_scopes] at hinst
    split at hinst
    · next hq => exact hq.2.2 ▸ hf
    · exact h.scopes k interface inst' hinst

theorem released (h : SettledCaches registry s) (held : Option (Nat × Nat)) :
    SettledCaches registry (release s held) := by
  obtain ⟨_, hinstances, _, _, _, hscopes⟩ := Orderly.release_keeps s held
  exact h.same hinstances hscopes

theorem step {i : Nat} {a : Activity} {r : Reply} {t : Turn} (h : SettledCaches registry s)
    (hr : Unchanging (i, r)) (ht : turn s a r = some t)
    (hbuilt : ∀ interface inst, Action.constructed interface inst ∈ t.actions →
      Settles registry.graph interface true) : SettledCaches registry t.shared := by
  obtain ⟨s', a', actions⟩ := t
  have hmoved : Moved s a r s' a' actions := turn_moved ht
  show SettledCaches registry s'
  cases hmoved with
  | still hs => exact h.alike hs
  | changed op hop hs' =>
    rw [hs']
    exact h.alike (Orderly.alike_of_unchanging (hr op hop))
  | unbuilt | pushed | checked => exact h
  | @queued _ f _ _ _ _ _ _ _ hs' =>
    rw [hs']
    exact h.same (Orderly.getSingletonLock_keeps s f.interface).2.1
      (Orderly.getSingletonLock_scopes s f.interface)
  | @shared _ f _ _ _ _ hs' | @failed _ f _ _ _ _ _ _ hs' =>
    rw [hs']
    exact h.released f.held
  | @completed _ f built _ calls _ _ _ _ hs' =>
    have hnew : Settles registry.graph f.interface true := hbuilt f.interface built (by simp)
    have hserial : SettledCaches registry { s with serial := s.serial + 1 } := h.same rfl rfl
    rw [hs']
    exact (hserial.stored hnew).released f.held

end SettledCaches

/-- Only the task `i` is in the middle of calls, and the caches hold nothing but what settles. -/
structure Solo (registry : ServiceRegistry) (i : Nat) (s : State) : Prop where
  orderly : Orderly s
  unchanged : s.shared.registry = registry
  settled : SettledCaches registry s.shared
  others : ∀ j, j ≠ i → (s.pcs j).frames = []

namespace Solo

variable {registry : ServiceRegistry} {i : Nat} {s : State} {stack : List Caller}

theorem start (registry : ServiceRegistry) (i : Nat) : Solo registry i (initial registry) where
  orderly := Orderly.start registry
  unchanged := rfl
  settled := ⟨fun _ _ h => (by cases h), fun _ _ _ h => (by cases h)⟩
  others _ _ := rfl

theorem step (h : Solo registry i s) {r : Reply} {t : Turn} (hr : Unchanging (i, r))
    (ht : turn s.shared (s.pcs i) r = some t)
    (hbuilt : ∀ interface inst, Action.constructed interface inst ∈ t.actions →
      Settles registry.graph interface true) : Solo registry i (s.take i t) where
  orderly := h.orderly.step hr ht
  unchanged := (Orderly.turn_registry hr ht).trans h.unchanged
  settled := h.settled.step hr ht hbuilt
  others j hj := by
    rw [Tasks.take_pcs_ne hj]
    exact h.others j hj

theorem hasLock (h : Solo registry i s) {f : Frame} {c : Nat × Nat}
    (hplace : s.pcs i = ⟨.acquiring f, stack⟩) (hc : f.held = some c)
    (hnew : ∀ g ∈ framesOf stack, g.interface ≠ f.interface) : hasLock s.shared f.held := by
  have hframes : (s.pcs i).frames = f :: framesOf stack := by
    rw [hplace]
    rfl
  have hf : f ∈ (s.pcs i).frames := hframes ▸ List.mem_cons_self
  have hmem := h.orderly.queued.queued i c (Orderly.mem_claims hf hc)
  obtain ⟨first, rest, hqueue⟩ := List.exists_cons_of_ne_nil (List.ne_nil_of_mem hmem)
  -- whoever is in front is a call of the same task for the same singleton
  have hfirst : first ∈ s.shared.locks c.1 := hqueue ▸ List.mem_cons_self
  obtain ⟨j, hj⟩ := h.orderly.queued.owned c.1 first hfirst
  obtain ⟨g, hg, hc'⟩ := Activity.mem_claims.mp hj
  have hji : j = i := by
    by_contra hne
    rw [h.others j hne] at hg
    cases hg
  subst hji
  have hsame : g.interface = f.interface := by
    have hlock := (h.orderly.known j g hg).lock (c.1, first) hc'
    exact h.orderly.injective _ _ c.1 hlock ((h.orderly.known j f hf).lock c hc)
  rw [hframes] at hg
  rcases List.mem_cons.mp hg with rfl | hg
  · rw [hc, Option.some.injEq] at hc'
    refine ⟨c.1, c.2, hc, ?_⟩
    rw [hqueue, hc']
    rfl
  · exact absurd hsame (hnew g hg)

end Solo

/-! ## Going on -/

/-- Task `i` goes on from `s` to `s'`, with nobody else in between. -/
def Gone (i : Nat) (s s' : State) : Prop :=
  ∃ n, system.exec s (List.replicate n (i, .go)) = some s'

namespace Gone

variable {i : Nat} {s s' : State}

theorem refl : Gone i s s := ⟨0, rfl⟩

theorem head {t : Turn} (ht : turn s.shared (s.pcs i) .go = some t) (h : Gone i (s.take i t) s') :
    Gone i s s' := by
  obtain ⟨n, hn⟩ := h
  refine ⟨n + 1, ?_⟩
  rw [List.replicate_succ]
  exact (System.exec_cons_of (Tasks.step_of ht) _).trans hn

theorem trans {s'' : State} (h : Gone i s s') (h' : Gone i s' s'') : Gone i s s'' := by
  obtain ⟨n, hn⟩ := h
  obtain ⟨m, hm⟩ := h'
  refine ⟨n + m, ?_⟩
  rw [List.replicate_add, System.exec_append, hn]
  exact hm

end Gone

/-- The call of task `i` over `stack` comes to its end, with what there is to find out. -/
def Answers (registry : ServiceRegistry) (i : Nat) (stack : List Caller) (interface : PyType)
    (s : State) : Prop :=
  ∃ s' result v, Gone i s s' ∧ s'.pcs i = ⟨.answering interface result, stack⟩ ∧
    Solo registry i s' ∧ Shows result v ∧ Verdict registry.graph interface v

section Answers

variable {registry : ServiceRegistry} {i scope : Nat} {s : State} {stack : List Caller}
  {interface : PyType} {chain : ResolutionChain} {f : Frame} {kwargs : Kwargs}

theorem unchanging_go (i : Nat) : Unchanging (i, .go) := fun _ h => by cases h

theorem Answers.of_gone {s' : State} (hs : Gone i s s')
    (h : Answers registry i stack interface s') : Answers registry i stack interface s := by
  obtain ⟨s'', result, v, hgone, h⟩ := h
  exact ⟨s'', result, v, hs.trans hgone, h⟩

theorem Answers.head {t : Turn} (ht : turn s.shared (s.pcs i) .go = some t)
    (h : Answers registry i stack interface (s.take i t)) : Answers registry i stack interface s :=
  .of_gone (.head ht .refl) h

theorem Answers.of_turn (h : Solo registry i s) {t : Turn} {result : Except Exn Instance}
    {v : Option Bool} (ht : turn s.shared (s.pcs i) .go = some t)
    (hpc : t.pc = ⟨.answering interface result, stack⟩)
    (hbuilt : ∀ I inst, Action.constructed I inst ∈ t.actions → Settles registry.graph I true)
    (hshows : Shows result v) (hverdict : Verdict registry.graph interface v) :
    Answers registry i stack interface s := by
  refine ⟨s.take i t, result, v, .head ht .refl, ?_, ?_, hshows, hverdict⟩
  · rw [Tasks.take_pcs_self]
    exact hpc
  · exact h.step (unchanging_go i) ht hbuilt

theorem complete_answers (h : Solo registry i s) {t : Turn}
    (ht : turn s.shared (s.pcs i) .go = some t) (hpc : t.pc = (complete s.shared stack f).pc)
    (hactions : ∀ x ∈ t.actions, x.IsCall ∨ x ∈ (complete s.shared stack f).actions)
    (hf : Settles registry.graph f.interface true) : Answers registry i stack f.interface s := by
  refine .of_turn h ht hpc ?_ .ok hf
  intro I inst hmem
  rcases hactions _ hmem with hcall | hmem
  · exact hcall.elim
  · have hq : I = f.interface := by
      simp [complete] at hmem
      exact hmem.1
    exact hq ▸ hf

theorem fail_answers (h : Solo registry i s) {e : Exn} {v : Option Bool}
    (ht : turn s.shared (s.pcs i) .go = some (fail s.shared stack f e))
    (hshows : Shows (.error e) v) (hverdict : Verdict registry.graph f.interface v) :
    Answers registry i stack f.interface s := by
  refine .of_turn h ht rfl ?_ hshows hverdict
  intro I inst hmem
  cases List.mem_singleton.mp hmem

/-- **The build comes to an end**, if the calls for its parameters do. -/
theorem building_answers {rest : List Parameter} (h : Solo registry i s)
    (hplace : s.pcs i = ⟨.building f rest kwargs, stack⟩)
    (hr : Remaining registry.graph f.interface (rest.map fun p => ⟨p.annotation, p.hasDefault⟩))
    (hresolve : ∀ s p rest kwargs t fallback needs, Solo registry i s →
      s.pcs i = ⟨.entering t f.chain f.scope, .parameter f p rest kwargs :: stack⟩ →
      Remaining registry.graph f.interface (⟨some t, fallback⟩ :: needs) →
      Answers registry i (.parameter f p rest kwargs :: stack) t s) :
    Answers registry i stack f.interface s := by
  induction rest generalizing s kwargs with
  | nil =>
    have hf := hr.settles_nil
    have ht : turn s.shared (s.pcs i) .go = some (stepBuild s.shared stack f [] kwargs) := by
      rw [hplace]
      rfl
    rw [stepBuild] at ht
    split at ht
    · -- the coroutine function is entered, and returns
      refine .head ht ?_
      have hbody := h.step (unchanging_go i) ht (by simp)
      refine complete_answers hbody (f := f) ?_ rfl (fun x hx => Or.inr hx) hf
      rw [Tasks.take_pcs_self]
      rfl
    · refine complete_answers h ht rfl ?_ hf
      intro x hx
      rcases List.mem_cons.mp hx with rfl | hx
      · exact Or.inl trivial
      · exact Or.inr hx
  | cons p rest ih =>
    rw [List.map_cons] at hr
    have ht : turn s.shared (s.pcs i) .go
        = some (stepBuild s.shared stack f (p :: rest) kwargs) := by
      rw [hplace]
      rfl
    rw [stepBuild] at ht
    cases hp : p.annotation with
    | none =>
      rw [hp] at hr ht
      exact fail_answers h ht (.failed rfl) hr.settles_unknown
    | some t =>
      rw [hp] at hr ht
      have hcalled := h.step (unchanging_go i) ht (by simp)
      obtain ⟨s', result, v, hgone, hplace', h', hshows, hverdict⟩ :=
        hresolve _ p rest kwargs t _ _ hcalled (Tasks.take_pcs_self ..) hr
      refine .head ht (.of_gone hgone ?_)
      have ht' : turn s'.shared (s'.pcs i) .go
          = some (returnTo s'.shared (.parameter f p rest kwargs :: stack) t result) := by
        rw [hplace']
        rfl
      have hpast : ∀ argument, turn s'.shared (s'.pcs i) .go
            = some ⟨s'.shared, ⟨.building f rest (kwargs ++ [(p.name, argument)]), stack⟩, []⟩ →
          Remaining registry.graph f.interface (rest.map fun p => ⟨p.annotation, p.hasDefault⟩) →
          Answers registry i stack f.interface s' := by
        intro argument hturn hrest
        have hnext := h'.step (unchanging_go i) hturn (by simp)
        exact .head hturn (ih hnext (Tasks.take_pcs_self ..) hrest)
      cases hshows with
      | @ok inst => exact hpast (.resolved inst) ht' (hr.next hverdict (Or.inl rfl))
      | circular hcls =>
        simp only [returnTo, hcls, if_true] at ht'
        exact fail_answers h' ht' (.circular hcls) (hr.not_settles hverdict)
      | @failed e hcls =>
        have hother : e.cls ≠ .circularDependencyError := by simp [hcls]
        simp only [returnTo, if_neg hother, if_pos hcls] at ht'
        cases hdefault : p.hasDefault with
        | true =>
          rw [if_pos hdefault] at ht'
          exact hpast .default ht' (hr.next hverdict (Or.inr hdefault))
        | false =>
          rw [if_neg (by simp [hdefault])] at ht'
          rw [hdefault] at hr
          exact fail_answers h' ht' (.failed rfl) (hr.settles_fatal hverdict)

theorem acquiring_answers {c : Nat × Nat} (h : Solo registry i s)
    (hplace : s.pcs i = ⟨.acquiring f, stack⟩) (hc : f.held = some c)
    (hnew : ∀ g ∈ framesOf stack, g.interface ≠ f.interface)
    (hbuilding : ∀ s, Solo registry i s →
      s.pcs i = ⟨.building f f.target.parameters [], stack⟩ →
      Answers registry i stack f.interface s) : Answers registry i stack f.interface s := by
  have hlock := h.hasLock hplace hc hnew
  have ht : turn s.shared (s.pcs i) .go = some (secondCheck s.shared stack f) := by
    rw [hplace]
    exact if_pos hlock
  rw [secondCheck] at ht
  cases hcached : s.shared.singletonInstances.get? f.interface with
  | some inst =>
    rw [hcached] at ht
    refine .of_turn h ht rfl ?_ .ok (h.settled.instances f.interface inst hcached)
    intro I inst hmem
    cases List.mem_singleton.mp hmem
  | none =>
    rw [hcached] at ht
    exact .head ht (hbuilding _ (h.step (unchanging_go i) ht (by simp)) (Tasks.take_pcs_self ..))

theorem build_answers {d : ServiceDescriptor} {target : Target} (h : Solo registry i s)
    (ht : turn s.shared (s.pcs i) .go
      = some (build s.shared stack interface chain scope d target))
    (hmem : interface ∉ chain) (hstack : ∀ g ∈ framesOf stack, g.interface ∈ chain)
    (hgraph : registry.graph interface = .built target.needs)
    (hresolve : ∀ s stack t fallback needs, Solo registry i s →
      s.pcs i = ⟨.entering t (interface :: chain) scope, stack⟩ →
      (∀ g ∈ framesOf stack, g.interface ∈ interface :: chain) →
      Remaining registry.graph interface (⟨some t, fallback⟩ :: needs) →
      Answers registry i stack t s) : Answers registry i stack interface s := by
  have hbuilding : ∀ held s, Solo registry i s →
      s.pcs i = ⟨.building ⟨interface, d, target, interface :: chain, scope, held⟩
        target.parameters [], stack⟩ → Answers registry i stack interface s := by
    intro held s h hplace
    refine building_answers h hplace (.start hgraph) ?_
    intro s p rest kwargs t fallback needs h hplace hr
    refine hresolve s _ t fallback needs h hplace ?_ hr
    intro g hg
    rcases List.mem_cons.mp hg with rfl | hg
    · exact List.mem_cons_self
    · exact List.mem_cons_of_mem _ (hstack g hg)
  by_cases hlifetime : d.lifetime = .SINGLETON
  · simp only [build, if_pos hlifetime] at ht
    have hqueued := h.step (unchanging_go i) ht (by simp)
    refine .head ht ?_
    refine acquiring_answers hqueued (Tasks.take_pcs_self ..) rfl ?_ (hbuilding _)
    intro g hg hq
    have hq : g.interface = interface := hq
    exact hmem (hq ▸ hstack g hg)
  · simp only [build, if_neg hlifetime] at ht
    exact .head ht (hbuilding none _ (h.step (unchanging_go i) ht (by simp))
      (Tasks.take_pcs_self ..))

/-- **A call comes to an end**, on every registry, and answers with what there is to find out. -/
theorem entering_answers {n : Nat} (hn : unvisited registry.keys chain < n)
    (h : Solo registry i s) (hplace : s.pcs i = ⟨.entering interface chain scope, stack⟩)
    (hstack : ∀ g ∈ framesOf stack, g.interface ∈ chain)
    (habove : Above registry.graph chain interface) : Answers registry i stack interface s := by
  induction n generalizing s stack interface chain scope with
  | zero => exact absurd hn (Nat.not_lt_zero _)
  | succ n ih =>
    have ht : turn s.shared (s.pcs i) .go
        = some (enter s.shared stack interface chain scope) := by
      rw [hplace]
      rfl
    have hregistry : ∀ r, registry.get? interface = r → s.shared.registry.get? interface = r := by
      intro r hr
      rw [h.unchanged, hr]
    have hanswer : ∀ {result v}, turn s.shared (s.pcs i) .go
          = some (answer s.shared stack interface result) → Shows result v →
        Verdict registry.graph interface v → Answers registry i stack interface s := by
      intro result v ht hshows hverdict
      refine .of_turn h ht rfl ?_ hshows hverdict
      intro I inst hmem
      cases List.mem_singleton.mp hmem
    by_cases hmem : interface ∈ chain
    · rw [enter, if_pos hmem] at ht
      exact hanswer ht (.circular rfl) (habove.not_settles hmem)
    rw [enter, if_neg hmem] at ht
    cases hd : registry.get? interface with
    | none =>
      simp only [hregistry none hd] at ht
      exact hanswer ht (.failed rfl) (.of_missing (ServiceRegistry.graph_missing hd))
    | some d =>
      simp only [hregistry (some d) hd] at ht
      cases hcached : cached s.shared d interface scope with
      | some inst =>
        simp only [hcached] at ht
        exact hanswer ht .ok (h.settled.cached hcached)
      | none =>
        simp only [hcached] at ht
        cases hprovider : d.provider with
        | «instance» object =>
          simp only [hprovider] at ht
          have hleaf : d.target? = none := by rw [ServiceDescriptor.target?, hprovider]
          exact hanswer ht .ok (.of_leaf (ServiceRegistry.graph_leaf hd hleaf))
        | implementation target | factory target =>
          simp only [hprovider] at ht
          have htarget : d.target? = some target := by rw [ServiceDescriptor.target?, hprovider]
          have hkey : interface ∈ registry.keys := Dict.mem_keys_iff.mpr ⟨d, hd⟩
          have hfewer := unvisited_cons_lt hkey hmem
          refine build_answers h ht hmem hstack (ServiceRegistry.graph_built hd htarget) ?_
          intro s stack t fallback needs h hplace hstack hr
          exact ih (by omega) h hplace hstack (habove.cons hr)

theorem root_finishes {k : Nat} {result : Except Exn Instance}
    (hplace : s.pcs i = ⟨.answering interface result, [.root k]⟩) :
    ∃ s', Gone i s s' ∧ s'.pcs i = ⟨.finished interface result, []⟩ := by
  have ht : turn s.shared (s.pcs i) .go
      = some (returnTo s.shared [.root k] interface result) := by
    rw [hplace]
    rfl
  have ht' : ∀ s₁, s₁ = s.take i (returnTo s.shared [.root k] interface result) →
      turn s₁.shared (s₁.pcs i) .go = some (returnTo s₁.shared [] interface result) := by
    rintro s₁ rfl
    rw [Tasks.take_pcs_self]
    rfl
  exact ⟨_, .head ht (.head (ht' _ rfl) .refl), Tasks.take_pcs_self ..⟩

theorem Gone.eq_of_finished {s' : State} {result : Except Exn Instance}
    (hplace : (s.pcs i).place = .finished interface result) (h : Gone i s s') : s' = s := by
  obtain ⟨n, hn⟩ := h
  cases n with
  | zero => exact (Option.some.inj hn).symm
  | succ n =>
    obtain ⟨s₁, hstep, _⟩ := System.exec_cons_some hn
    obtain ⟨t, ht, _⟩ := Tasks.step_some hstep
    simp only [turn, hplace] at ht
    cases ht

theorem Gone.finished_unique {s₁ s₂ : State} {I I' : PyType} {result result' : Except Exn Instance}
    (h₁ : Gone i s s₁) (h₂ : Gone i s s₂) (hplace₁ : (s₁.pcs i).place = .finished I result)
    (hplace₂ : (s₂.pcs i).place = .finished I' result') : s₁ = s₂ := by
  obtain ⟨n, hn⟩ := h₁
  obtain ⟨m, hm⟩ := h₂
  have hrest : ∀ {s₁ s₂ : State} {n m : Nat}, n ≤ m →
      system.exec s (List.replicate n (i, .go)) = some s₁ →
      system.exec s (List.replicate m (i, .go)) = some s₂ → Gone i s₁ s₂ := by
    intro s₁ s₂ n m hle hn hm
    obtain ⟨k, rfl⟩ := Nat.exists_eq_add_of_le hle
    rw [List.replicate_add, System.exec_append, hn] at hm
    exact ⟨k, hm⟩
  rcases Nat.le_total n m with hle | hle
  · exact ((hrest hle hn hm).eq_of_finished hplace₁).symm
  · exact (hrest hle hm hn).eq_of_finished hplace₂

end Answers

end Resolver

end IraOS
