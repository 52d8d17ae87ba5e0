import IraOS.Container.Disposed
import IraOS.Container.Singletons

/-!
# The shutdown of the container

`Container.shutdown` disposes what the cache of singletons has at that moment. What never was in it
(an instance that was registered), what is no longer (an interface that was removed), and what comes
later (a construction under way), is handed out and not disposed; and if the cache changes its size
while the loop awaits a `dispose`, the loop raises, and the rest of it is not disposed either.

In every run without these (`Tidy`), a singleton that was handed out and is `Disposable` has been
disposed exactly once when the shutdown is through.

## Handed out

The statement is about what callers have got, and so about the answers in the log: an instance is
handed out when some call of `resolve` has returned it, at the root, in a scope or for a parameter.
Where an answer can come from is a matter of the text of the resolver: a cache, the descriptor, or a
construction that has just come back (`Answer`). So whatever is handed out was built, and is on
record as built, or was registered (`OnRecord`).

A run that is tidy may have resolves in flight when the shutdown begins, and these may come back
during the loop and after it. It is asked of them only that they store no singleton during the loop,
and none that is `Disposable` after it.
-/

set_option autoImplicit false

namespace IraOS

open Lib Resolver

namespace Disposal

variable {objects : Objects} {s s' : State}

/-! ## Where an answer comes from -/

inductive Answer (s : ContainerState) (a : Activity) (r : Reply) (inst : Instance) : Prop
  | cached (owner : Owner) (I : PyType) (hget : (instances s owner).get? I = some inst)
  | given (I : PyType) (chain : ResolutionChain) (k : Nat) (d : ServiceDescriptor) (object : Nat)
      (hr : r = .go) (hplace : a.place = .entering I chain k) (hchain : I ∉ chain)
      (hd : s.registry.get? I = some d) (hcached : Resolver.cached s d I k = none)
      (hobject : d.instance? = some object) (hinst : inst = .given object)
  | built (f : Frame) (hf : completing? a r = some f)
      (hinst : inst = .built f.descriptor s.serial)

section Answers

variable {s : ContainerState} {a : Activity} {r : Reply} {t : Turn} {stack : List Caller}
  {J : PyType} {inst : Instance}

theorem cached_get? {d : ServiceDescriptor} {I : PyType} {k : Nat}
    (h : Resolver.cached s d I k = some inst) :
    ∃ owner, (instances s owner).get? I = some inst := by
  unfold Resolver.cached at h
  split at h
  · exact ⟨.container, h⟩
  · exact ⟨.scope k, h⟩
  · cases h

theorem enter_answer {I : PyType} {chain : ResolutionChain} {k : Nat} (hr : r = .go)
    (hplace : a.place = .entering I chain k) (ht : enter s stack I chain k = t)
    (h : .answered J (.ok inst) ∈ t.actions) : Answer s a r inst := by
  cases enter_cases ht with
  | refused => cases List.mem_singleton.mp h
  | cached _ hcached =>
    cases List.mem_singleton.mp h
    obtain ⟨owner, hget⟩ := cached_get? hcached
    exact .cached owner _ hget
  | given hchain hd hcached hobject =>
    cases List.mem_singleton.mp h
    exact .given _ chain k _ _ hr hplace hchain hd hcached hobject rfl
  | @built d target =>
    generalize hbuild : build s stack I chain k d target = t at h
    cases build_cases hbuild with
    | queued | atOnce => cases h

theorem complete_answer {f : Frame} (hf : completing? a r = some f)
    (h : .answered J (.ok inst) ∈ (complete s stack f).actions) : Answer s a r inst := by
  have h := List.mem_singleton.mp ((List.mem_cons.mp h).resolve_left (by simp))
  cases h
  exact .built f hf rfl

theorem turn_answer (ht : turn s a r = some t) (h : .answered J (.ok inst) ∈ t.actions) :
    Answer s a r inst := by
  have hcall : ∀ {stack scope I}, call s stack scope I = some t → t.actions = [] := by
    intro stack scope I hcall
    cases call_cases hcall with
    | inScope | root => rfl
  cases turn_cases ht with
  | asked _ hasked | resolving _ hasked =>
    rw [hcall hasked] at h
    cases h
  | changed => cases h
  | entered => exact enter_answer rfl rfl rfl h
  | @acquired f stack =>
    generalize hchecked : secondCheck s stack f = t at h
    cases secondCheck_cases hchecked with
    | shared hget =>
      cases List.mem_singleton.mp h
      exact .cached .container _ hget
    | absent => cases h
  | built f rest kwargs stack =>
    generalize hstepped : stepBuild s stack f rest kwargs = t at h
    cases stepBuild_cases hstepped with
    | unannotated => cases List.mem_singleton.mp h
    | parameter => cases h
    | coroutine => cases List.mem_singleton.mp h
    | completed kwargs hcoroutine =>
      exact complete_answer (if_neg hcoroutine) ((List.mem_cons.mp h).resolve_left (by simp))
  | raisedInCall kwargs e stack =>
    cases List.mem_singleton.mp ((List.mem_cons.mp h).resolve_left (by simp))
  | returned f stack => exact complete_answer rfl h
  | raised f e stack => cases List.mem_singleton.mp h
  | answered I result stack =>
    generalize hreturned : returnTo s stack I result = t at h
    cases returnTo_cases hreturned with
    | finished | root | body | resumed => cases h
    | failed => cases List.mem_singleton.mp h

end Answers

/-! ## What is handed out -/

/-- Nothing is spoiled for the container, and a registered instance that a call finds is not
`Disposable`. -/
structure Tidy (objects : Objects) (s : State) (l : Label) : Prop where
  unspoiled : Unspoiled objects .container s l
  given : ∀ i, l = .task i .go → ∀ I chain k d object,
    (s.base.pcs i).place = .entering I chain k → I ∉ chain →
    s.base.shared.registry.get? I = some d → cached s.base.shared d I k = none →
    d.instance? = some object → objects.disposable object = false

def OnRecord (objects : Objects) (s : State) : Instance → Prop
  | .given object => objects.disposable object = false
  | .built d serial => ∃ c ∈ s.made, c.inst = .built d serial ∧ c.descriptor = d

def HandedOut (s : State) (inst : Instance) : Prop :=
  ∃ i I, (i, Action.answered I (.ok inst)) ∈ s.base.log

/-- An instance of a singleton: registered, or built for one. -/
def IsSingleton : Instance → Prop
  | .given _ => True
  | .built d _ => d.lifetime = .SINGLETON

structure Accounted (objects : Objects) (s : State) : Prop where
  recorded : Recorded objects s
  tended : Tended objects s .container
  made : ∀ c ∈ s.made, ∃ serial, c.inst = .built c.descriptor serial
  handed : ∀ inst, HandedOut s inst → OnRecord objects s inst

namespace Accounted

theorem start (registry : ServiceRegistry) : Accounted objects (initial registry) where
  recorded := Recorded.start registry
  tended _ hc := absurd hc List.not_mem_nil
  made _ hc := absurd hc List.not_mem_nil
  handed := by
    rintro inst ⟨i, I, hmem⟩
    cases hmem

theorem onRecord_mono (hmade : ∀ c ∈ s.made, c ∈ s'.made) {inst : Instance}
    (h : OnRecord objects s inst) : OnRecord objects s' inst := by
  cases inst with
  | given object => exact h
  | built d serial =>
    obtain ⟨c, hc, hrest⟩ := h
    exact ⟨c, hmade c hc, hrest⟩

theorem onRecord_cached (h : Accounted objects s) {owner : Owner} {I : PyType} {inst : Instance}
    (hget : (s.instances owner).get? I = some inst) : OnRecord objects s inst := by
  obtain ⟨c, hc, -, -, rfl⟩ := h.recorded.stored owner I inst hget
  obtain ⟨serial, hserial⟩ := h.made c hc
  rw [hserial]
  exact ⟨c, hc, hserial, rfl⟩

theorem turned {i : Nat} {reply : Reply} {t : Turn} (h : Accounted objects s)
    (hrefused : s.refuses reply = false) (tidy : Tidy objects s (.task i reply))
    (ht : turn s.base.shared (s.base.pcs i) reply = some t) :
    Accounted objects (s.turned i reply (s.base.take i t)) := by
  have hmade : ∀ c ∈ s.made, c ∈ (s.turned i reply (s.base.take i t)).made :=
    fun c hc => Recorded.mem_turned.mpr (Or.inl hc)
  refine ⟨h.recorded.turned hrefused tidy.unspoiled.own ht,
    h.tended.turned h.recorded trivial hrefused tidy.unspoiled ht, ?_, ?_⟩
  · intro c hc
    rcases Recorded.mem_turned.mp hc with hc | ⟨f, -, rfl⟩
    · exact h.made c hc
    · exact ⟨_, rfl⟩
  · rintro inst ⟨j, I, hmem⟩
    have hmem : (j, Action.answered I (.ok inst)) ∈ s.base.log ++ t.actions.map (Prod.mk i) := hmem
    rcases List.mem_append.mp hmem with hmem | hmem
    · exact onRecord_mono hmade (h.handed inst ⟨j, I, hmem⟩)
    · obtain ⟨action, haction, hq⟩ := List.mem_map.mp hmem
      injection hq with hj hq
      subst hj hq
      cases turn_answer ht haction with
      | cached owner J hget => exact onRecord_mono hmade (h.onRecord_cached hget)
      | given J chain k d object hr hplace hchain hd hcached hobject hinst =>
        subst hr hinst
        exact tidy.given i rfl J chain k d object hplace hchain hd hcached hobject
      | built f hf hinst =>
        subst hinst
        exact ⟨_, Recorded.mem_turned.mpr (Or.inr ⟨f, hf, rfl⟩), rfl, rfl⟩

theorem step {l : Label} (h : Accounted objects s) (tidy : Tidy objects s l)
    (hstep : (system objects).step s l = some s') : Accounted objects s' := by
  cases l with
  | task i reply =>
    rcases task_cases hstep with ⟨-, rfl⟩ | ⟨hrefused, t, ht, rfl⟩
    · exact h
    · exact h.turned hrefused tidy ht
  | close owner =>
    refine ⟨h.recorded.step tidy.unspoiled.own hstep,
      h.tended.step h.recorded trivial tidy.unspoiled hstep, ?_, ?_⟩ <;>
      obtain ⟨-, rfl⟩ := close_cases hstep <;>
      unfold State.close
    · split <;> exact h.made
    · split <;> exact h.handed
  | loop owner outcome =>
    refine ⟨h.recorded.step tidy.unspoiled.own hstep,
      h.tended.step h.recorded trivial tidy.unspoiled hstep, ?_, ?_⟩
    · cases advance_cases hstep <;> exact h.made
    · cases advance_cases hstep <;> exact h.handed

end Accounted

/-! ## The shutdown -/

/-- What the shutdown owes: it gets through, and then every singleton that has been handed out and
has a `dispose` has had it called once. -/
structure ShutDown (objects : Objects) (s : State) : Prop where
  /-- It comes to its end, whatever the instances raise. -/
  proceeds : s.loops .container ≠ .raised
  once : s.loops .container = .done → ∀ inst, HandedOut s inst → IsSingleton inst →
    objects.IsDisposable inst → s.disposals.count (objects.of inst) = 1

/-- **In a tidy run**, when the shutdown is through, every singleton that was ever handed out and is
`Disposable` has been disposed exactly once, whatever resolves were in flight. The shutdown does get
through: a `dispose` that raises does not end it, and nothing changes the size of the cache under
it. -/
theorem shutdown_disposes {registry : ServiceRegistry} {ls : List Label}
    (tidy : (system objects).Meets (Tidy objects) (initial registry) ls)
    (run : (system objects).exec (initial registry) ls = some s) : ShutDown objects s := by
  have h : Accounted objects s := System.exec_induct (P := Accounted objects)
    (fun _ _ _ h tidy hstep => h.step tidy hstep) (Accounted.start registry) tidy run
  have htended := h.tended
  unfold Tended at htended
  constructor
  · intro hraised
    rw [hraised] at htended
    exact htended
  · intro hdone inst hhanded hsingleton hdisposable
    rw [hdone] at htended
    cases inst with
    | given object =>
      have hnot : objects.disposable object = false := h.handed _ hhanded
      have hyes : objects.disposable object = true := hdisposable
      rw [hnot] at hyes
      cases hyes
    | built d serial =>
      obtain ⟨c, hc, hinst, rfl⟩ := h.handed _ hhanded
      have howner : c.owner = some .container := by
        unfold Construction.owner
        rw [show c.descriptor.lifetime = .SINGLETON from hsingleton]
      rw [← hinst]
      rw [← hinst] at hdisposable
      exact htended c hc howner hdisposable

/-! ## A singleton that was built, and one that was registered -/

def builtLabels : List Label :=
  [.task 0 (.resolve none interfaceA), .task 0 .go, .task 0 .go, .task 0 .go, .close .container,
    .loop .container (.ok ()), .loop .container (.error ⟨.runtimeError, lit "boom"⟩),
    .loop .container (.ok ())]

def builtState (n : Nat) : State :=
  ((system allDisposable).exec (initial registryA) (builtLabels.take n)).getD (initial registryA)

theorem tidy_of_quiet {l : Label}
    (hcompleting : ∀ i reply, l = .task i reply → completing? (s.base.pcs i) reply = none)
    (hentering : ∀ i, l = .task i .go → ∀ I chain k, (s.base.pcs i).place ≠ .entering I chain k)
    (hremoving : ∀ i I, l ≠ .task i (.change (.remove I))) : Tidy objects s l where
  unspoiled := unspoiled_of_quiet hcompleting hremoving
  given := fun i hl I chain k _ _ hplace => absurd hplace (hentering i hl I chain k)

theorem tidy_looping {ls : List Label} (h : ∀ l ∈ ls, ∀ i reply, l ≠ .task i reply) (s : State) :
    (system objects).Meets (Tidy objects) s ls := by
  refine System.meets_mono ?_ (System.meets_of_labels h s)
  intro s l hl
  exact tidy_of_quiet (fun i reply hq => absurd hq (hl i reply)) (fun i hq => absurd hq (hl i _))
    fun i _ => hl i _

theorem shutdown_disposes_built : ShutDown allDisposable (builtState 8) := by
  have run : (system allDisposable).exec (initial registryA) builtLabels =
      some (builtState 8) := rfl
  have called : (system allDisposable).step (initial registryA)
      (.task 0 (.resolve none interfaceA)) = some (builtState 1) := rfl
  have go : ∀ n ∈ [1, 2, 3], (system allDisposable).step (builtState n) (.task 0 .go) =
      some (builtState (n + 1)) := by
    intro n hn
    simp only [List.mem_cons, List.not_mem_nil, or_false] at hn
    rcases hn with rfl | rfl | rfl <;> rfl
  have tidy : (system allDisposable).Meets (Tidy allDisposable) (initial registryA)
      builtLabels := by
    refine System.meets_cons ?_ called (System.meets_cons ?_ (go 1 (by simp))
      (System.meets_cons ?_ (go 2 (by simp)) (System.meets_cons ?_ (go 3 (by simp))
        (tidy_looping (by simp) _))))
    case refine_1 =>
      refine tidy_of_quiet ?_ (by simp) (by simp)
      rintro _ _ ⟨⟩
      rfl
    case refine_2 =>
      -- the lookup finds a class
      refine ⟨unspoiled_of_quiet (by rintro _ _ ⟨⟩; rfl) (by simp), ?_⟩
      rintro _ ⟨⟩ I chain k d object hplace _ hd _ hobject
      cases hplace
      cases hd
      cases hobject
    case refine_3 =>
      refine tidy_of_quiet (by rintro _ _ ⟨⟩; rfl) ?_ (by simp)
      rintro _ ⟨⟩ _ _ _ ⟨⟩
    case refine_4 =>
      refine ⟨⟨?_, ?_, by simp⟩, ?_⟩
      · intro _ f _ _ _ c hc
        cases hc
      · rintro _ _ f ⟨⟩ _ hf _ inst hget
        cases hf
        cases hget
      · rintro _ ⟨⟩ _ _ _ _ _ ⟨⟩
  exact shutdown_disposes tidy run

def registeredLabels : List Label :=
  [.task 0 (.change (.registerInstance interfaceA 7)), .task 0 (.resolve none interfaceA),
    .task 0 .go, .task 0 .go, .task 0 .go, .close .container, .loop .container (.ok ())]

def registeredState : State :=
  ((system allDisposable).exec (initial Dict.empty) registeredLabels).getD (initial Dict.empty)

/-- It has been handed out, and is never disposed. -/
theorem registered_not_disposed :
    ¬ ∀ (objects : Objects) (registry : ServiceRegistry) (ls : List Label) (s : State),
      (system objects).exec (initial registry) ls = some s → ShutDown objects s := by
  intro h
  have hshut := h allDisposable Dict.empty registeredLabels registeredState rfl
  have hlog : registeredState.base.log = [(0, .answered interfaceA (.ok (.given 7)))] := rfl
  have hhanded : HandedOut registeredState (.given 7) := ⟨0, interfaceA, by simp [hlog]⟩
  have hcount := hshut.once rfl (.given 7) hhanded trivial rfl
  cases hcount

end Disposal

end IraOS
