import IraOS.Container.Orderly

/-!
# Singletons are built once

While no registration changes, whatever tasks resolve whatever they like and whichever constructions
fail, a singleton that is built by a class or a factory is built at most once, and every call of
`resolve` that returns one, for a parameter or not, returns that one (`singleton_built_once`). A
construction that fails leaves nothing behind: its lock goes to the next in line, and the next in
line builds.

## The ledger

The log has every construction and every answer. `Ledger` compares it with the cache: what has been
constructed for an interface is what is cached for it, nothing or one instance, and what has been
answered is what is cached. A turn that caches nothing constructs nothing for a singleton, and one
that does finds the cache empty, which is what `Orderly` says of the call in front.

## What is left of a failure

That a failure does no harm is a statement about what can happen next, and not about what has
happened: the call leaves its lock, nothing is cached, the call that is now in front passes its
second check and builds; and if there is none, the next call that comes finds the lock free. Each of
these is a lemma about the state after the failure, and `BuiltOnce` has them beside the counts.
-/

set_option autoImplicit false

namespace IraOS

open Lib

namespace Resolver

def Action.constructs (interface : PyType) : Action → Option Instance
  | .constructed i inst => if i = interface then some inst else none
  | .called _ _ | .answered _ _ => none

def constructions (interface : PyType) (log : List (Nat × Action)) : List Instance :=
  log.filterMap fun x => x.2.constructs interface

theorem constructions_take (interface : PyType) (s : State) (i : Nat) (t : Turn) :
    constructions interface (s.take i t).log
      = constructions interface s.log ++ t.actions.filterMap (Action.constructs interface) := by
  unfold constructions Tasks.State.take
  rw [List.filterMap_append, List.filterMap_map]
  rfl

/-- An interface whose singleton the registry builds with a class or a factory. An instance that was
registered is not built, and is the same for everybody anyway. -/
structure BuiltSingleton (registry : ServiceRegistry) (interface : PyType)
    (d : ServiceDescriptor) : Prop where
  registered : registry.get? interface = some d
  lifetime : d.lifetime = .SINGLETON
  built : d.instance? = none

structure Ledger (registry : ServiceRegistry) (s : State) : Prop where
  orderly : Orderly s
  unchanged : s.shared.registry = registry
  built : ∀ I d, BuiltSingleton registry I d →
    constructions I s.log = (s.shared.singletonInstances.get? I).toList
  answered : ∀ I d, BuiltSingleton registry I d → ∀ j inst, (j, .answered I (.ok inst)) ∈ s.log →
    s.shared.singletonInstances.get? I = some inst

namespace Ledger

variable {registry : ServiceRegistry} {s : State} {i : Nat}

theorem start (registry : ServiceRegistry) : Ledger registry (initial registry) where
  orderly := Orderly.start registry
  unchanged := rfl
  built _ _ _ := rfl
  answered _ _ _ _ _ h := absurd h List.not_mem_nil

theorem constructs_calls {calls : List Action} (h : ∀ x ∈ calls, x.IsCall) (interface : PyType) :
    calls.filterMap (Action.constructs interface) = [] := by
  rw [List.filterMap_eq_nil_iff]
  intro x hx
  cases x with
  | called => rfl
  | constructed | answered => exact absurd (h _ hx) id

theorem keep (h : Ledger registry s) {t : Turn} (horderly : Orderly (s.take i t))
    (hregistry : t.shared.registry = s.shared.registry)
    (hinstances : t.shared.singletonInstances = s.shared.singletonInstances)
    (hbuilt : ∀ I, t.actions.filterMap (Action.constructs I) = [])
    (hanswered : ∀ I d, BuiltSingleton registry I d → ∀ inst, .answered I (.ok inst) ∈ t.actions →
      s.shared.singletonInstances.get? I = some inst) : Ledger registry (s.take i t) := by
  refine ⟨horderly, hregistry.trans h.unchanged, ?_, ?_⟩
  · intro I d hI
    rw [constructions_take, hbuilt I, List.append_nil, h.built I d hI]
    show _ = (t.shared.singletonInstances.get? I).toList
    rw [hinstances]
  · intro I d hI j inst hmem
    show t.shared.singletonInstances.get? I = some inst
    rw [hinstances]
    have hmem : _ ∈ s.log ++ t.actions.map (Prod.mk i) := hmem
    rcases List.mem_append.mp hmem with hmem | hmem
    · exact h.answered I d hI j inst hmem
    · obtain ⟨x, hx, hq⟩ := List.mem_map.mp hmem
      cases hq
      exact hanswered I d hI inst hx

theorem answered_error {calls : List Action} (hcalls : ∀ x ∈ calls, x.IsCall) {J : PyType}
    {e : Exn} {I : PyType} {inst : Instance}
    (h : .answered I (.ok inst) ∈ calls ++ [.answered J (.error e)]) : False := by
  rcases List.mem_append.mp h with h | h
  · exact hcalls _ h
  · cases List.mem_singleton.mp h

theorem step (h : Ledger registry s) {r : Reply} {t : Turn} (hr : Unchanging (i, r))
    (ht : turn s.shared (s.pcs i) r = some t) : Ledger registry (s.take i t) := by
  have horderly := h.orderly.step hr ht
  obtain ⟨s', a', actions⟩ := t
  have hmoved : Moved s.shared (s.pcs i) r s' a' actions := turn_moved ht
  cases hmoved with
  | still hs _ _ _ _ hactions =>
    refine h.keep horderly hs.registry hs.instances (constructs_calls hactions) ?_
    intro I d _ inst hmem
    exact absurd (hactions _ hmem) id
  | changed op hop hs' =>
    have hs : Alike s.shared s' := hs' ▸ Orderly.alike_of_unchanging (hr op hop)
    exact h.keep horderly hs.registry hs.instances (fun _ => rfl) (by simp)
  | @unbuilt interface result _ _ hresult =>
    refine h.keep horderly rfl rfl (fun _ => rfl) ?_
    intro I d hI inst hmem
    cases List.mem_singleton.mp hmem
    obtain ⟨d', hd', hhand⟩ := hresult inst rfl
    have hd := hI.registered
    rw [← h.unchanged, hd', Option.some.injEq] at hd
    subst hd
    cases hhand with
    | ofCache _ hcache => exact hcache
    | ofScope _ hscoped _ => exact Lifetime.noConfusion (hscoped.symm.trans hI.lifetime)
    | given object hgiven => cases hgiven.symm.trans hI.built
  | pushed => exact h.keep horderly rfl rfl (fun _ => rfl) (by simp)
  | @queued _ f _ _ _ _ _ _ _ hs' =>
    subst hs'
    obtain ⟨hregistry, hinstances, _⟩ := Orderly.getSingletonLock_keeps s.shared f.interface
    exact h.keep horderly hregistry hinstances (fun _ => rfl) (by simp)
  | checked => exact h.keep horderly rfl rfl (fun _ => rfl) (by simp)
  | @shared _ f inst _ _ hcache hs' =>
    subst hs'
    obtain ⟨hregistry, hinstances, _⟩ := Orderly.release_keeps s.shared f.held
    refine h.keep horderly hregistry hinstances (fun _ => rfl) ?_
    intro I d _ inst' hmem
    cases List.mem_singleton.mp hmem
    exact hcache
  | @failed _ f e stack calls _ _ hcalls hs' =>
    subst hs'
    obtain ⟨hregistry, hinstances, _⟩ := Orderly.release_keeps s.shared f.held
    refine h.keep horderly hregistry hinstances ?_ ?_
    · intro I
      rw [List.filterMap_append, constructs_calls hcalls]
      rfl
    · intro I d _ inst hmem
      exact (answered_error hcalls hmem).elim
  | @completed _ f inst stack calls _ hholding _ hcalls hs' =>
    have hf : f ∈ (s.pcs i).holding := hholding ▸ List.mem_cons_self
    have hknown := h.orderly.known i f (Orderly.mem_frames hf)
    obtain ⟨hregistry, hinstances, _⟩ :=
      Orderly.release_keeps (store { s.shared with serial := s.shared.serial + 1 } f inst) f.held
    obtain ⟨hregistry', _⟩ :=
      Orderly.store_keeps { s.shared with serial := s.shared.serial + 1 } f inst
    -- a singleton is built by the call that found nothing cached for it
    have hcache : ∀ I d, BuiltSingleton registry I d → I = f.interface →
        s.shared.singletonInstances.get? I = none ∧ s'.singletonInstances.get? I = some inst := by
      intro I d hI hq
      have hd := hknown.registered.current
      rw [← hq, h.unchanged, hI.registered, Option.some.injEq] at hd
      have hlifetime : f.descriptor.lifetime = .SINGLETON := hd ▸ hI.lifetime
      obtain ⟨c, hc⟩ := Option.isSome_iff_exists.mp (hknown.singleton.mpr hlifetime)
      refine ⟨hq ▸ (h.orderly.alone i f hf c hc).2, ?_⟩
      rw [hs', hinstances, Orderly.store_instances, if_pos ⟨hlifetime, hq⟩]
    have hother : ∀ I, I ≠ f.interface →
        s'.singletonInstances.get? I = s.shared.singletonInstances.get? I := by
      intro I hne
      rw [hs', hinstances, Orderly.store_instances, if_neg fun hq => hne hq.2]
    refine ⟨horderly, ?_, ?_, ?_⟩
    · show s'.registry = registry
      rw [hs', hregistry, hregistry']
      exact h.unchanged
    · intro I d hI
      rw [constructions_take, h.built I d hI]
      show _ ++ (calls ++ _).filterMap (Action.constructs I) = (s'.singletonInstances.get? I).toList
      rw [List.filterMap_append, constructs_calls hcalls]
      by_cases hq : I = f.interface
      · obtain ⟨hnone, hsome⟩ := hcache I d hI hq
        rw [hnone, hsome, hq]
        simp [Action.constructs]
      · rw [hother I hq]
        simp [Action.constructs, Ne.symm hq]
    · intro I d hI j inst' hmem
      show s'.singletonInstances.get? I = some inst'
      rcases List.mem_append.mp (show _ ∈ s.log ++ _ from hmem) with hmem | hmem
      · have hold := h.answered I d hI j inst' hmem
        have hq : I ≠ f.interface := by
          intro hq
          rw [(hcache I d hI hq).1] at hold
          cases hold
        rw [hother I hq]
        exact hold
      · obtain ⟨x, hx, hq⟩ := List.mem_map.mp hmem
        cases hq
        rcases List.mem_append.mp hx with hx | hx
        · exact absurd (hcalls _ hx) id
        · simp only [List.mem_cons, reduceCtorEq, List.not_mem_nil, or_false, false_or,
            Action.answered.injEq, Except.ok.injEq] at hx
          rw [hx.2]
          exact (hcache I d hI hx.1).2

theorem run {ls : List (Nat × Reply)} {s' : State} (h : Ledger registry s)
    (hls : ∀ l ∈ ls, Unchanging l) (he : system.exec s ls = some s') : Ledger registry s' := by
  apply Tasks.exec_turns _ h (System.meets_of_labels hls s) he
  intro s i r t hs hr ht
  exact hs.step hr ht

end Ledger

/-! ## Constructions that fail -/

section Building

variable {registry : ServiceRegistry} {s : State} {i : Nat} {interface : PyType}
  {d : ServiceDescriptor}

theorem called_holding {a : Activity} {f : Frame} (h : a.place.called? = some f) :
    f ∈ a.holding := by
  obtain ⟨place, stack⟩ := a
  cases place with
  | building g rest kwargs =>
    cases rest with
    | nil =>
      cases h
      exact List.mem_cons_self
    | cons p rest => cases h
  | inBody g =>
    cases h
    exact List.mem_cons_self
  | idle | entering | acquiring | answering | finished => cases h

theorem turn_raise {s : ContainerState} {a : Activity} {f : Frame} {e : Exn} {t : Turn}
    (hf : a.place.called? = some f) (h : turn s a (.raise e) = some t) :
    t.shared = release s f.held := by
  obtain ⟨place, stack⟩ := a
  cases place with
  | building g rest kwargs =>
    cases rest with
    | nil =>
      cases hf
      simp only [turn] at h
      split at h
      · cases h
      · cases h
        rfl
    | cons p rest => cases hf
  | inBody g =>
    cases hf
    cases h
    rfl
  | idle | entering | acquiring | answering | finished => cases hf

theorem Ledger.uncached (h : Ledger registry s) (hI : BuiltSingleton registry interface d)
    (hnone : constructions interface s.log = []) :
    s.shared.singletonInstances.get? interface = none := by
  have hbuilt := h.built interface d hI
  rw [hnone] at hbuilt
  cases hcache : s.shared.singletonInstances.get? interface with
  | none => rfl
  | some inst =>
    rw [hcache] at hbuilt
    cases hbuilt

theorem Ledger.known_frame (h : Ledger registry s) (hI : BuiltSingleton registry interface d)
    {f : Frame} (hf : f ∈ (s.pcs i).holding) (hq : f.interface = interface) :
    ∃ c, f.held = some c := by
  have hknown := h.orderly.known i f (Orderly.mem_frames hf)
  have hd := hknown.registered.current
  rw [hq, h.unchanged, hI.registered, Option.some.injEq] at hd
  exact Option.isSome_iff_exists.mp (hknown.singleton.mpr (hd ▸ hI.lifetime))

theorem Ledger.failed (h : Ledger registry s) (hI : BuiltSingleton registry interface d) {e : Exn}
    {s' : State} {f : Frame} (hf : (s.pcs i).place.called? = some f) (hq : f.interface = interface)
    (hstep : system.step s (i, .raise e) = some s') :
    s'.shared.singletonInstances.get? interface = none ∧ constructions interface s'.log = [] ∧
      ∃ k ticket, f.held = some (k, ticket) ∧
        s.shared.locks k = ticket :: s'.shared.locks k := by
  obtain ⟨t, ht, rfl⟩ := Tasks.step_some hstep
  have hafter : Ledger registry (s.take i t) := h.step (fun op hop => by cases hop) ht
  have hshared := turn_raise hf ht
  have hholding := called_holding hf
  obtain ⟨⟨k, ticket⟩, hc⟩ := h.known_frame hI hholding hq
  obtain ⟨hfront, hcache⟩ := h.orderly.alone i f hholding _ hc
  have hcache' : (s.take i t).shared.singletonInstances.get? interface = none := by
    show t.shared.singletonInstances.get? interface = none
    rw [hshared, (Orderly.release_keeps s.shared f.held).2.1, ← hq]
    exact hcache
  refine ⟨hcache', ?_, k, ticket, hc, ?_⟩
  · rw [hafter.built interface d hI, hcache']
    rfl
  · show s.shared.locks k = ticket :: t.shared.locks k
    rw [hshared, hc]
    show _ = ticket :: Function.update s.shared.locks k (s.shared.locks k).tail k
    rw [Function.update_self]
    exact Queued.queue_eq hfront

theorem Ledger.next_builds (h : Ledger registry s) (hI : BuiltSingleton registry interface d)
    (hnone : constructions interface s.log = []) {f : Frame}
    (hplace : (s.pcs i).place = .acquiring f) (hq : f.interface = interface)
    (hlock : hasLock s.shared f.held) :
    ∃ s', system.step s (i, .go) = some s' ∧
      (s'.pcs i).place = .building f f.target.parameters [] := by
  have hcache := h.uncached hI hnone
  have hturn : turn s.shared (s.pcs i) .go
      = some ⟨s.shared, ⟨.building f f.target.parameters [], (s.pcs i).stack⟩, []⟩ := by
    simp only [turn, hplace, if_pos hlock, secondCheck, hq, hcache]
  refine ⟨_, Tasks.step_of hturn, ?_⟩
  rw [Tasks.take_pcs_self]

/-- Nobody is in the lock of the interface, or waits for it. -/
def LockFree (s : ContainerState) (interface : PyType) : Prop :=
  ∀ k, s.singletonLocks.get? interface = some k → s.locks k = []

theorem Orderly.locks_nextLock (h : Orderly s) : s.shared.locks s.shared.nextLock = [] := by
  rw [List.eq_nil_iff_forall_not_mem]
  intro ticket hmem
  obtain ⟨j, hj⟩ := h.queued.owned _ _ hmem
  obtain ⟨f, hf, hc⟩ := Activity.mem_claims.mp hj
  exact Nat.lt_irrefl _ (h.bounded _ _ ((h.known j f hf).lock _ hc))

theorem enter_acquires {s : ContainerState} (stack : List Caller) (scope : Nat)
    (hd : s.registry.get? interface = some d) (hlifetime : d.lifetime = .SINGLETON)
    (hbuilt : d.instance? = none) (hcache : s.singletonInstances.get? interface = none) :
    ∃ f : Frame, f.interface = interface ∧ f.descriptor = d ∧
      f.held = some
        ((getSingletonLock s interface).2, (getSingletonLock s interface).1.nextTicket) ∧
      enter s stack interface [] scope =
        ⟨enqueue (getSingletonLock s interface).1 (getSingletonLock s interface).2,
          ⟨.acquiring f, stack⟩, []⟩ := by
  have hcached : cached s d interface scope = none := by
    rw [cached, hlifetime]
    exact hcache
  cases hprovider : d.provider with
  | implementation target | factory target =>
    refine ⟨{ interface := interface, descriptor := d, target := target, chain := [interface],
              scope := scope,
              held := some ((getSingletonLock s interface).2,
                (getSingletonLock s interface).1.nextTicket) }, rfl, rfl, rfl, ?_⟩
    simp only [enter, List.not_mem_nil, if_false, hd, hcached, hprovider, build, if_pos hlifetime]
  | «instance» object =>
    rw [ServiceDescriptor.instance?, hprovider] at hbuilt
    cases hbuilt

theorem Orderly.getSingletonLock_free (h : Orderly s) (hfree : LockFree s.shared interface) :
    s.shared.locks (getSingletonLock s.shared interface).2 = [] := by
  unfold getSingletonLock
  cases hk : s.shared.singletonLocks.get? interface with
  | some k => exact hfree k hk
  | none => exact h.locks_nextLock

theorem enqueue_hasLock {s : ContainerState} {k : Nat} (h : s.locks k = []) :
    hasLock (enqueue s k) (some (k, s.nextTicket)) := by
  refine ⟨k, s.nextTicket, rfl, ?_⟩
  show (Function.update s.locks k (s.locks k ++ [s.nextTicket]) k).head? = some s.nextTicket
  rw [Function.update_self, h]
  rfl

theorem turn_resolve {s : ContainerState} {a : Activity} (hrest : a.place.AtRest)
    (interface : PyType) :
    ∃ t, turn s a (.resolve none interface) = some t ∧
      t.pc = ⟨.entering interface [] s.nextScope, .root s.nextScope :: a.stack⟩ ∧
      t.actions = [] ∧ t.shared.singletonLocks = s.singletonLocks ∧ t.shared.locks = s.locks := by
  obtain ⟨place, stack⟩ := a
  cases place with
  | idle | finished => exact ⟨_, rfl, rfl, rfl, rfl, rfl⟩
  | entering | acquiring | building | inBody | answering => exact hrest.elim

theorem Ledger.later_builds (h : Ledger registry s) (hI : BuiltSingleton registry interface d)
    (hnone : constructions interface s.log = []) (hrest : (s.pcs i).place.AtRest)
    (hfree : LockFree s.shared interface) :
    ∃ s' f, system.exec s [(i, .resolve none interface), (i, .go), (i, .go)] = some s' ∧
      f.interface = interface ∧ (s'.pcs i).place = .building f f.target.parameters [] := by
  -- the call
  obtain ⟨t, ht, hpc, hactions, hdictionary, hlocks⟩ :
      ∃ t, turn s.shared (s.pcs i) (.resolve none interface) = some t ∧ _ :=
    turn_resolve hrest interface
  have h₁ : Ledger registry (s.take i t) := h.step (fun op hop => by cases hop) ht
  have hnone₁ : constructions interface (s.take i t).log = [] := by
    rw [constructions_take, hnone, hactions]
    rfl
  have hfree₁ : LockFree (s.take i t).shared interface := by
    intro k hk
    show t.shared.locks k = []
    rw [hlocks]
    exact hfree k (hdictionary ▸ hk)
  -- past the checks, to the lock
  obtain ⟨f, hf, _, hheld, henter⟩ :=
    enter_acquires (.root s.shared.nextScope :: (s.pcs i).stack) s.shared.nextScope
      (h₁.unchanged ▸ hI.registered) hI.lifetime hI.built (h₁.uncached hI hnone₁)
  obtain ⟨t', ht'⟩ : ∃ t', t' = enter (s.take i t).shared
      (.root s.shared.nextScope :: (s.pcs i).stack) interface [] s.shared.nextScope := ⟨_, rfl⟩
  have hturn' : turn (s.take i t).shared ((s.take i t).pcs i) .go = some t' := by
    rw [Tasks.take_pcs_self, hpc, ht']
    rfl
  have h₂ : Ledger registry ((s.take i t).take i t') := h₁.step (fun op hop => by cases hop) hturn'
  rw [henter] at ht'
  have hnone₂ : constructions interface ((s.take i t).take i t').log = [] := by
    rw [constructions_take, hnone₁, ht']
    rfl
  have hplace : (((s.take i t).take i t').pcs i).place = .acquiring f := by
    rw [Tasks.take_pcs_self, ht']
  have hlock : hasLock ((s.take i t).take i t').shared f.held := by
    obtain ⟨_, _, hkeep, _⟩ := Orderly.getSingletonLock_keeps (s.take i t).shared interface
    show hasLock t'.shared f.held
    rw [ht', hheld]
    exact enqueue_hasLock (by rw [hkeep]; exact h₁.orderly.getSingletonLock_free hfree₁)
  -- in the lock, with nothing cached
  obtain ⟨s', hstep, hbuilding⟩ := h₂.next_builds hI hnone₂ hplace hf hlock
  refine ⟨s', f, ?_, hf, hbuilding⟩
  calc system.exec s [(i, .resolve none interface), (i, .go), (i, .go)]
      = system.exec (s.take i t) [(i, .go), (i, .go)] := System.exec_cons_of (Tasks.step_of ht) _
    _ = system.exec ((s.take i t).take i t') [(i, .go)] :=
        System.exec_cons_of (Tasks.step_of hturn') _
    _ = some s' := System.exec_cons_of hstep []

end Building

/-! ## At most once -/

/-- What is promised of a singleton that a class or a factory builds. -/
structure BuiltOnce (s : State) (interface : PyType) : Prop where
  once : (constructions interface s.log).length ≤ 1
  /-- Every call that returns one returns the one that was built. -/
  same : ∀ i inst, (i, .answered interface (.ok inst)) ∈ s.log →
    constructions interface s.log = [inst]
  /-- A construction that fails caches nothing and leaves the lock to the next in line. -/
  failed : ∀ i e s' f, (s.pcs i).place.called? = some f → f.interface = interface →
    system.step s (i, .raise e) = some s' →
    s'.shared.singletonInstances.get? interface = none ∧ constructions interface s'.log = [] ∧
      ∃ k ticket, f.held = some (k, ticket) ∧ s.shared.locks k = ticket :: s'.shared.locks k
  /-- As long as nothing has been built, who is next in line builds … -/
  next : constructions interface s.log = [] → ∀ i f, (s.pcs i).place = .acquiring f →
    f.interface = interface → hasLock s.shared f.held →
    ∃ s', system.step s (i, .go) = some s' ∧
      (s'.pcs i).place = .building f f.target.parameters []
  /-- … and so does who comes when there is no line. -/
  later : constructions interface s.log = [] → ∀ i, (s.pcs i).place.AtRest →
    LockFree s.shared interface →
    ∃ s' f, system.exec s [(i, .resolve none interface), (i, .go), (i, .go)] = some s' ∧
      f.interface = interface ∧ (s'.pcs i).place = .building f f.target.parameters []

/-- **A singleton is built at most once**, whatever is resolved at the same time, however the tasks
are interleaved, and whatever fails. Besides, all who get one get the same, and a construction that
fails stands in nobody's way (`BuiltOnce`). -/
theorem singleton_built_once {registry : ServiceRegistry} {ls : List (Nat × Reply)} {s : State}
    {interface : PyType} {d : ServiceDescriptor} (hls : ∀ l ∈ ls, Unchanging l)
    (he : system.exec (initial registry) ls = some s)
    (hd : BuiltSingleton registry interface d) : BuiltOnce s interface := by
  have h : Ledger registry s := (Ledger.start registry).run hls he
  have hbuilt := h.built interface d hd
  refine ⟨?_, ?_, ?_, ?_, ?_⟩
  · rw [hbuilt]
    cases s.shared.singletonInstances.get? interface with
    | none => exact Nat.zero_le 1
    | some inst => exact Nat.le_refl 1
  · intro i inst hmem
    rw [hbuilt, h.answered interface d hd i inst hmem]
    rfl
  · intro i e s' f hf hq hstep
    exact h.failed hd hf hq hstep
  · intro hnone i f hplace hq hlock
    exact h.next_builds hd hnone hplace hq hlock
  · intro hnone i hrest hfree
    exact h.later_builds hd hnone hrest hfree

/-! ## Two tasks, and a constructor that fails once -/

def classOf (name : String) (signature : List Parameter) : Target where
  name := name
  signature := signature

def interfaceA : PyType := ⟨0, "A", "<class 'app.A'>"⟩

def descriptorA : ServiceDescriptor :=
  ⟨0, interfaceA, .SINGLETON, .implementation (classOf "A" [])⟩

def registryA : ServiceRegistry := Dict.empty.set interfaceA descriptorA

/-- Both tasks queue; the first constructor raises, and the second task constructs. -/
def oneFailure : List (Nat × Reply) :=
  [(0, .resolve none interfaceA), (0, .go), (1, .resolve none interfaceA), (1, .go), (0, .go),
    (0, .raise ⟨.runtimeError, lit "boom"⟩), (1, .go), (1, .go)]

theorem singleton_built_once_two :
    ∃ s, system.exec (initial registryA) oneFailure = some s ∧ BuiltOnce s interfaceA := by
  have hrun : (system.exec (initial registryA) oneFailure).isSome = true := rfl
  obtain ⟨s, hs⟩ := Option.isSome_iff_exists.mp hrun
  have hd : BuiltSingleton registryA interfaceA descriptorA := ⟨rfl, rfl, rfl⟩
  have hls : ∀ l ∈ oneFailure, Unchanging l := by
    intro l hl op hop
    simp only [oneFailure, List.mem_cons, List.not_mem_nil, or_false] at hl
    rcases hl with rfl | rfl | rfl | rfl | rfl | rfl | rfl | rfl <;> cases hop
  exact ⟨s, hs, singleton_built_once hls hs hd⟩

end Resolver

end IraOS
