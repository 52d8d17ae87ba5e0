import IraOS.Container.Orderly
import IraOS.Container.Stack

/-!
# Registration and resolution

The caches outlive the descriptors. Registering over an interface evicts nothing, so what was built
from the descriptor before goes on being found; removing one evicts what is cached, but not what is
being built, and that is cached later. A resolve returns what the descriptor of its time provides
**if what is cached at its start, and what is under way to the same cache, is of that descriptor**
(`resolve_current`), and it does whatever else is registered, removed and resolved in the meantime.

## The condition

`Fresh` is a condition on one moment, the one at which the resolve starts. It asks for what the
resolve could find: what is cached where the descriptor's lifetime has it looked up, and what the
calls under way are going to put there. Other interfaces do not come into it, nor do the calls that
other tasks are yet to make, as those go by the current descriptor. For a transient there is nothing
to find and so nothing to ask, and for a scoped service at the root neither, as the dictionary is a
new one.

## The proof

Two things are followed through the run. What is fresh stays so as long as the registration stands
(`Fresh.step`). And the resolve itself is followed from its start to its end (`Serving`), through
the calls it waits for, which may be any number of levels above it on the stack and may themselves
build things; it has the descriptor it looked up, and its own dictionary.

That dictionaries of scoped instances are told apart by numbers, and that a new one has a number
nobody has, is an invariant of all runs (`Numbered`).
-/

set_option autoImplicit false

namespace IraOS

open Lib

namespace Resolver

/-! ## The dictionaries of scoped instances are numbered -/

/-- Every dictionary in use has a number that has been given out. So one that is made now is
nobody's, and a root call shares its scoped instances with no other root call. -/
structure Numbered (s : State) : Prop where
  created : ∀ k ∈ s.shared.created, k < s.shared.nextScope
  entering : ∀ i interface chain k, (s.pcs i).place = .entering interface chain k →
    k < s.shared.nextScope
  frames : ∀ i, ∀ f ∈ (s.pcs i).frames, f.scope < s.shared.nextScope

namespace Numbered

variable {s : State} {i : Nat} {s' : ContainerState} {a' : Activity} {actions : List Action}

theorem start (registry : ServiceRegistry) : Numbered (initial registry) where
  created _ hk := absurd hk List.not_mem_nil
  entering _ _ _ _ hplace := by cases hplace
  frames _ _ hf := absurd hf List.not_mem_nil

theorem take (h : Numbered s) (hnext : s.shared.nextScope ≤ s'.nextScope)
    (hcreated : ∀ k ∈ s'.created, k ∈ s.shared.created ∨ k < s'.nextScope)
    (hentering : ∀ interface chain k, a'.place = .entering interface chain k → k < s'.nextScope)
    (hframes : ∀ f ∈ a'.frames, f ∈ (s.pcs i).frames ∨ f.scope < s'.nextScope) :
    Numbered (s.take i ⟨s', a', actions⟩) := by
  refine ⟨?_, ?_, ?_⟩
  · intro k hk
    rcases hcreated k hk with hk | hk
    · exact Nat.lt_of_lt_of_le (h.created k hk) hnext
    · exact hk
  · refine Orderly.forall_take (P := fun _ a => ∀ interface chain k,
      a.place = .entering interface chain k → k < s'.nextScope) ?_ hentering
    intro j interface chain k hplace
    exact Nat.lt_of_lt_of_le (h.entering j interface chain k hplace) hnext
  · refine Orderly.forall_take (P := fun _ a => ∀ f ∈ a.frames, f.scope < s'.nextScope) ?_ ?_
    · intro j f hf
      exact Nat.lt_of_lt_of_le (h.frames j f hf) hnext
    · intro f hf
      rcases hframes f hf with hf | hf
      · exact Nat.lt_of_lt_of_le (h.frames i f hf) hnext
      · exact hf

theorem apply_numbers (s : ContainerState) (op : ContainerOp) :
    s.nextScope ≤ (op.apply s).nextScope ∧
      ∀ k ∈ (op.apply s).created, k ∈ s.created ∨ k < (op.apply s).nextScope := by
  cases op with
  | createScope =>
    have hop : (ContainerOp.createScope).changes = none := rfl
    have hs := Orderly.alike_of_unchanging (s := s) hop
    exact ⟨hs.nextScope, hs.created⟩
  | registerSingleton | registerScoped | registerTransient | registerInstance | registerFactory
  | remove | replace => exact ⟨Nat.le_refl _, fun _ => Or.inl⟩

theorem getSingletonLock_numbers (s : ContainerState) (interface : PyType) :
    (getSingletonLock s interface).1.nextScope = s.nextScope ∧
      (getSingletonLock s interface).1.created = s.created := by
  unfold getSingletonLock
  split <;> exact ⟨rfl, rfl⟩

theorem release_numbers (s : ContainerState) (held : Option (Nat × Nat)) :
    (release s held).nextScope = s.nextScope ∧ (release s held).created = s.created := by
  cases held <;> exact ⟨rfl, rfl⟩

theorem store_numbers (s : ContainerState) (f : Frame) (inst : Instance) :
    (store s f inst).nextScope = s.nextScope ∧ (store s f inst).created = s.created := by
  unfold store
  split <;> exact ⟨rfl, rfl⟩

theorem moved_numbers {s : ContainerState} {a : Activity} {r : Reply}
    (h : Moved s a r s' a' actions) :
    s.nextScope ≤ s'.nextScope ∧ ∀ k ∈ s'.created, k ∈ s.created ∨ k < s'.nextScope := by
  have hsame : s'.nextScope = s.nextScope ∧ s'.created = s.created →
      s.nextScope ≤ s'.nextScope ∧ ∀ k ∈ s'.created, k ∈ s.created ∨ k < s'.nextScope := by
    intro hs
    refine ⟨Nat.le_of_eq hs.1.symm, ?_⟩
    intro k hk
    exact Or.inl (hs.2 ▸ hk)
  cases h with
  | still hs => exact ⟨hs.nextScope, hs.created⟩
  | changed op _ hs' => exact hs' ▸ apply_numbers s op
  | unbuilt | pushed | checked => exact hsame ⟨rfl, rfl⟩
  | @queued _ f _ _ _ _ _ _ _ hs' => exact hsame (hs' ▸ getSingletonLock_numbers s f.interface)
  | @shared _ f _ _ _ _ hs' | @failed _ f _ _ _ _ _ _ hs' =>
    exact hsame (hs' ▸ release_numbers s f.held)
  | @completed _ f inst _ _ _ _ _ _ hs' =>
    have hstore := store_numbers { s with serial := s.serial + 1 } f inst
    have hrelease := release_numbers (store { s with serial := s.serial + 1 } f inst) f.held
    rw [← hs'] at hrelease
    exact hsame ⟨hrelease.1.trans hstore.1, hrelease.2.trans hstore.2⟩

theorem step (h : Numbered s) {r : Reply} {t : Turn} (ht : turn s.shared (s.pcs i) r = some t) :
    Numbered (s.take i t) := by
  obtain ⟨s', a', actions⟩ := t
  have hmoved : Moved s.shared (s.pcs i) r s' a' actions := turn_moved ht
  obtain ⟨hnext, hcreated⟩ := moved_numbers hmoved
  refine h.take hnext hcreated ?_ ?_
  · intro interface chain k hplace
    rcases hmoved.entering hplace with hq | hk | hk | ⟨f, hf, hk⟩
    · exact Nat.lt_of_lt_of_le (h.entering i interface chain k (hq ▸ hplace)) hnext
    · exact Nat.lt_of_lt_of_le (h.created k hk) hnext
    · exact hk
    · exact hk ▸ Nat.lt_of_lt_of_le (h.frames i f hf) hnext
  · intro f hf
    rcases hmoved.frames hf with hf | ⟨_, chain, hplace⟩
    · exact Or.inl hf
    · exact Or.inr (Nat.lt_of_lt_of_le (h.entering i _ _ _ hplace) hnext)

theorem run {registry : ServiceRegistry} {ls : List (Nat × Reply)} {s : State}
    (he : system.exec (initial registry) ls = some s) : Numbered s := by
  have hm : system.Meets (fun _ _ => True) (initial registry) ls :=
    System.meets_of_labels (fun _ _ => trivial) _
  apply Tasks.exec_turns _ (start registry) hm he
  intro s i r t hs _ ht
  exact hs.step ht

end Numbered

/-! ## What is cached, and what is on its way there -/

/-- Whatever a resolve through the dictionary `k` can find of an interface is what `d` provides:
what is cached where the lifetime of `d` has it looked up, and what any build under way is going to
put there. -/
structure Fresh (s : State) (interface : PyType) (d : ServiceDescriptor) (k : Nat) : Prop where
  cached : ∀ inst, cached s.shared d interface k = some inst → d.Produces inst
  underWay : d.lifetime ≠ .TRANSIENT → ∀ i, ∀ f ∈ (s.pcs i).frames, f.interface = interface →
    f.descriptor.lifetime = d.lifetime → (d.lifetime = .SCOPED → f.scope = k) → f.descriptor = d

/-- The registration of the interface is not changed. -/
def Spares (interface : PyType) (r : Reply) : Prop :=
  ∀ op, r = .change op → op.changes ≠ some interface

section Fresh

variable {s : State} {i k : Nat} {interface : PyType} {d : ServiceDescriptor}

theorem cached_of {s s' : ContainerState}
    (hinstances : s'.singletonInstances.get? interface = s.singletonInstances.get? interface)
    (hscopes : (s'.scopes k).get? interface = (s.scopes k).get? interface ∨
      (s'.scopes k).get? interface = none) {inst : Instance}
    (h : Resolver.cached s' d interface k = some inst) :
    Resolver.cached s d interface k = some inst := by
  unfold Resolver.cached at h ⊢
  cases hl : d.lifetime with
  | SINGLETON =>
    rw [hl] at h
    exact hinstances ▸ h
  | SCOPED =>
    rw [hl] at h
    rcases hscopes with hq | hq
    · exact hq ▸ h
    · cases hq.symm.trans h
  | TRANSIENT =>
    rw [hl] at h
    cases h

theorem alike_scopes {s s' : ContainerState} (h : Alike s s') :
    (s'.scopes k).get? interface = (s.scopes k).get? interface ∨
      (s'.scopes k).get? interface = none := by
  rcases h.scopes k with hq | hq
  · exact Or.inl (by rw [hq])
  · exact Or.inr (by rw [hq]; rfl)

theorem apply_spares {s : ContainerState} {op : ContainerOp} (h : op.changes ≠ some interface) :
    (op.apply s).registry.get? interface = s.registry.get? interface ∧
      (op.apply s).singletonInstances.get? interface = s.singletonInstances.get? interface ∧
      (((op.apply s).scopes k).get? interface = (s.scopes k).get? interface ∨
        ((op.apply s).scopes k).get? interface = none) := by
  have hne : ∀ I, op.changes = some I → interface ≠ I := by
    intro I hI hq
    exact h (hq ▸ hI)
  cases op with
  | createScope =>
    have hop : (ContainerOp.createScope).changes = none := rfl
    exact ⟨rfl, rfl, alike_scopes (Orderly.alike_of_unchanging hop)⟩
  | registerSingleton I | registerScoped I | registerTransient I | registerInstance I
  | registerFactory I | replace I =>
    exact ⟨Dict.get?_set_ne (hne I rfl), rfl, Or.inl rfl⟩
  | remove I =>
    exact ⟨Dict.get?_erase_ne (hne I rfl), Dict.get?_erase_ne (hne I rfl), Or.inl rfl⟩

namespace Fresh

variable {s' : ContainerState} {a' : Activity} {actions : List Action}

theorem take (h : Fresh s interface d k)
    (hcached : ∀ inst, Resolver.cached s' d interface k = some inst →
      Resolver.cached s.shared d interface k = some inst ∨ d.Produces inst)
    (hframes : ∀ f ∈ a'.frames,
      f ∈ (s.pcs i).frames ∨ (f.interface = interface → f.descriptor = d)) :
    Fresh (s.take i ⟨s', a', actions⟩) interface d k := by
  refine ⟨?_, ?_⟩
  · intro inst hinst
    rcases hcached inst hinst with hinst | hinst
    · exact h.cached inst hinst
    · exact hinst
  · intro hl
    refine Orderly.forall_take (P := fun _ a => ∀ f ∈ a.frames, f.interface = interface →
      f.descriptor.lifetime = d.lifetime → (d.lifetime = .SCOPED → f.scope = k) →
        f.descriptor = d) (h.underWay hl) ?_
    intro f hf hq hlifetime hscope
    rcases hframes f hf with hf | hf
    · exact h.underWay hl i f hf hq hlifetime hscope
    · exact hf hq

theorem stored (h : Fresh s interface d k) {f : Frame} (hf : f ∈ (s.pcs i).frames)
    {inst inst' : Instance} (hinst : inst = .built f.descriptor s.shared.serial)
    (hcached : Resolver.cached (store { s.shared with serial := s.shared.serial + 1 } f inst) d
      interface k = some inst') :
    Resolver.cached s.shared d interface k = some inst' ∨ d.Produces inst' := by
  have hproduces : f.descriptor = d → d.Produces inst := by
    intro hq
    rw [hinst]
    exact hq
  unfold Resolver.cached at hcached ⊢
  cases hl : d.lifetime with
  | SINGLETON =>
    have hunderWay := h.underWay (by rw [hl]; exact Lifetime.noConfusion) i f hf
    simp only [hl] at hcached hunderWay ⊢
    rw [Orderly.store_instances] at hcached
    split at hcached
    · next hq =>
      cases hcached
      exact Or.inr (hproduces (hunderWay hq.2.symm hq.1 Lifetime.noConfusion))
    · exact Or.inl hcached
  | SCOPED =>
    have hunderWay := h.underWay (by rw [hl]; exact Lifetime.noConfusion) i f hf
    simp only [hl] at hcached hunderWay ⊢
    rw [Orderly.store_scopes] at hcached
    split at hcached
    · next hq =>
      cases hcached
      exact Or.inr (hproduces (hunderWay hq.2.2.symm hq.1 fun _ => hq.2.1.symm))
    · exact Or.inl hcached
  | TRANSIENT =>
    simp only [hl] at hcached
    cases hcached

/-- **What is fresh stays so** while the registration stands. -/
theorem step (h : Fresh s interface d k) (hd : s.shared.registry.get? interface = some d)
    {r : Reply} (hr : Spares interface r) {t : Turn} (ht : turn s.shared (s.pcs i) r = some t) :
    Fresh (s.take i t) interface d k ∧ t.shared.registry.get? interface = some d := by
  obtain ⟨s', a', actions⟩ := t
  have hmoved : Moved s.shared (s.pcs i) r s' a' actions := turn_moved ht
  show Fresh (s.take i ⟨s', a', actions⟩) interface d k ∧ s'.registry.get? interface = some d
  -- what starts to build now builds what is registered
  have hframes : ∀ f ∈ a'.frames,
      f ∈ (s.pcs i).frames ∨ (f.interface = interface → f.descriptor = d) := by
    intro f hf
    rcases hmoved.frames hf with hf | ⟨hf, _⟩
    · exact Or.inl hf
    · refine Or.inr ?_
      intro hq
      have hcurrent := hf.current
      rw [hq, hd, Option.some.injEq] at hcurrent
      exact hcurrent.symm
  have hkept : s'.registry.get? interface = s.shared.registry.get? interface →
      s'.singletonInstances.get? interface = s.shared.singletonInstances.get? interface →
      ((s'.scopes k).get? interface = (s.shared.scopes k).get? interface ∨
        (s'.scopes k).get? interface = none) →
      Fresh (s.take i ⟨s', a', actions⟩) interface d k ∧
        s'.registry.get? interface = some d := by
    intro hregistry hinstances hscopes
    refine ⟨h.take ?_ hframes, hregistry.trans hd⟩
    intro inst hinst
    exact Or.inl (cached_of hinstances hscopes hinst)
  cases hmoved with
  | still hs => exact hkept (by rw [hs.registry]) (by rw [hs.instances]) (alike_scopes hs)
  | changed op hop hs' =>
    obtain ⟨hregistry, hinstances, hscopes⟩ := apply_spares (s := s.shared) (k := k) (hr op hop)
    rw [← hs'] at hregistry hinstances hscopes
    exact hkept hregistry hinstances hscopes
  | unbuilt | pushed | checked => exact hkept rfl rfl (Or.inl rfl)
  | @queued _ f _ _ _ _ _ _ _ hs' =>
    obtain ⟨hregistry, hinstances, _⟩ := Orderly.getSingletonLock_keeps s.shared f.interface
    have hscopes := Orderly.getSingletonLock_scopes s.shared f.interface
    refine hkept ?_ ?_ (Or.inl ?_)
    · rw [hs', enqueue, hregistry]
    · rw [hs', enqueue, hinstances]
    · rw [hs', enqueue, hscopes]
  | @shared _ f _ _ _ _ hs' | @failed _ f _ _ _ _ _ _ hs' =>
    obtain ⟨hregistry, hinstances, _, _, _, hscopes⟩ := Orderly.release_keeps s.shared f.held
    refine hkept ?_ ?_ (Or.inl ?_)
    · rw [hs', hregistry]
    · rw [hs', hinstances]
    · rw [hs', hscopes]
  | @completed _ f inst stack calls _ hholding hinst _ hs' =>
    have hf : f ∈ (s.pcs i).frames := Orderly.mem_frames (hholding ▸ List.mem_cons_self)
    obtain ⟨hregistry, hinstances, _, _, _, hscopes⟩ :=
      Orderly.release_keeps (store { s.shared with serial := s.shared.serial + 1 } f inst) f.held
    obtain ⟨hregistry', _⟩ :=
      Orderly.store_keeps { s.shared with serial := s.shared.serial + 1 } f inst
    refine ⟨h.take ?_ hframes, ?_⟩
    · intro inst' hinst'
      refine h.stored hf hinst (cached_of ?_ (Or.inl ?_) hinst')
      · rw [hs', hinstances]
      · rw [hs', hscopes]
    · rw [hs', hregistry, hregistry']
      exact hd

end Fresh

end Fresh

/-! ## One call of `resolve`, from its start to its end -/

structure Frame.Own (interface : PyType) (d : ServiceDescriptor) (k : Nat) (f : Frame) : Prop where
  interface : f.interface = interface
  descriptor : f.descriptor = d
  scope : f.scope = k

/-- A call of `resolve` for `interface` through the dictionary `k`, over the callers `base`: where
it is, whatever other calls it waits for. -/
inductive Serving (interface : PyType) (d : ServiceDescriptor) (k : Nat) (base : List Caller) :
    Activity → Prop
  | asked {chain : ResolutionChain} : Serving interface d k base ⟨.entering interface chain k, base⟩
  | acquiring {f : Frame} (hf : f.Own interface d k) (hl : d.lifetime = .SINGLETON) :
      Serving interface d k base ⟨.acquiring f, base⟩
  | building {f : Frame} {rest : List Parameter} {kwargs : Kwargs} (hf : f.Own interface d k) :
      Serving interface d k base ⟨.building f rest kwargs, base⟩
  | inBody {f : Frame} (hf : f.Own interface d k) : Serving interface d k base ⟨.inBody f, base⟩
  | inner {place : Place} {above : List Caller} {caller : Caller} {f : Frame}
      (hcaller : caller.frame? = some f) (hf : f.Own interface d k) :
      Serving interface d k base ⟨place, above ++ caller :: base⟩
  | answering {result : Except Exn Instance} (h : ∀ inst, result = .ok inst → d.Produces inst) :
      Serving interface d k base ⟨.answering interface result, base⟩

theorem call_stack {s : ContainerState} {stack : List Caller} {scope : Option Nat}
    {interface : PyType} {t : Turn} (h : call s stack scope interface = some t) :
    ∃ above, t.pc.stack = above ++ stack := by
  cases call_cases h with
  | inScope => exact ⟨[], rfl⟩
  | root => exact ⟨[_], rfl⟩

theorem enter_stack {s : ContainerState} {stack : List Caller} {interface : PyType}
    {chain : ResolutionChain} {scope : Nat} {t : Turn}
    (h : enter s stack interface chain scope = t) : t.pc.stack = stack := by
  cases enter_cases h with
  | refused | cached | given => rfl
  | built =>
    generalize hbuild : build .. = t
    cases build_cases hbuild with
    | queued | atOnce => rfl

theorem stepBuild_stack {s : ContainerState} {stack : List Caller} {f : Frame}
    {rest : List Parameter} {kwargs : Kwargs} {t : Turn}
    (h : stepBuild s stack f rest kwargs = t) : ∃ above, t.pc.stack = above ++ stack := by
  cases stepBuild_cases h with
  | unannotated | coroutine | completed => exact ⟨[], rfl⟩
  | parameter => exact ⟨[_], rfl⟩

theorem turn_stack {s : ContainerState} {a : Activity} {r : Reply} {t : Turn}
    (ht : turn s a r = some t) :
    (∃ above, t.pc.stack = above ++ a.stack) ∨
      ∃ i result caller stack, a = ⟨.answering i result, caller :: stack⟩ ∧
        t = returnTo s (caller :: stack) i result := by
  cases turn_cases ht with
  | asked _ hcall => exact Or.inl (call_stack hcall)
  | changed => exact Or.inl ⟨[], rfl⟩
  | entered => exact Or.inl ⟨[], enter_stack rfl⟩
  | @acquired f stack =>
    generalize hchecked : secondCheck s stack f = t
    cases secondCheck_cases hchecked with
    | shared | absent => exact Or.inl ⟨[], rfl⟩
  | built => exact Or.inl (stepBuild_stack rfl)
  | raisedInCall | returned | raised => exact Or.inl ⟨[], rfl⟩
  | @resolving f stack _ _ _ _ hcall =>
    obtain ⟨above, habove⟩ := call_stack hcall
    refine Or.inl ⟨above ++ [.body f], ?_⟩
    rw [habove, List.append_assoc]
    rfl
  | answered interface result stack =>
    cases stack with
    | nil => exact Or.inl ⟨[], rfl⟩
    | cons caller stack => exact Or.inr ⟨interface, result, caller, stack, rfl, rfl⟩

theorem returnTo_stack {s : ContainerState} {i : PyType} {result : Except Exn Instance}
    {caller : Caller} {stack : List Caller} {t : Turn}
    (h : returnTo s (caller :: stack) i result = t) : t.pc.stack = stack := by
  cases returnTo_cases h with
  | root | body | resumed | failed => rfl

namespace Serving

variable {s : ContainerState} {interface : PyType} {d : ServiceDescriptor} {k : Nat}
  {base : List Caller} {a : Activity} {r : Reply} {t : Turn}

theorem failed {i : PyType} {e : Exn} (hi : i = interface) :
    Serving interface d k base ⟨.answering i (.error e), base⟩ := by
  subst hi
  exact .answering fun _ h => by cases h

theorem found {inst : Instance} (h : d.Produces inst) :
    Serving interface d k base ⟨.answering interface (.ok inst), base⟩ := by
  refine .answering ?_
  intro inst' hq
  cases hq
  exact h

theorem completed {f : Frame} (hf : f.Own interface d k) :
    Serving interface d k base (complete s base f).pc := by
  show Serving interface d k base
    ⟨.answering f.interface (.ok (.built f.descriptor s.serial)), base⟩
  rw [hf.interface]
  exact found hf.descriptor

theorem of_call {above : List Caller} {caller : Caller} {f : Frame} {scope : Option Nat}
    {i : PyType} (hcaller : caller.frame? = some f) (hf : f.Own interface d k)
    (ht : call s (above ++ caller :: base) scope i = some t) :
    Serving interface d k base t.pc := by
  cases call_cases ht with
  | inScope => exact .inner hcaller hf
  | root =>
    have hinner : Serving interface d k base
        ⟨.entering i [] s.nextScope, (.root s.nextScope :: above) ++ caller :: base⟩ :=
      .inner hcaller hf
    exact hinner

theorem of_return {caller : Caller} {f : Frame} (hcaller : caller.frame? = some f)
    (hf : f.Own interface d k) {i : PyType} {result : Except Exn Instance}
    (ht : returnTo s (caller :: base) i result = t) : Serving interface d k base t.pc := by
  cases returnTo_cases ht with
  | root => cases hcaller
  | body =>
    cases hcaller
    exact .inBody hf
  | resumed =>
    cases hcaller
    exact .building hf
  | failed =>
    cases hcaller
    exact failed hf.interface

theorem of_enter {chain : ResolutionChain} (hd : s.registry.get? interface = some d)
    (hcached : ∀ inst, Resolver.cached s d interface k = some inst → d.Produces inst)
    (ht : enter s base interface chain k = t) : Serving interface d k base t.pc := by
  cases enter_cases ht with
  | refused => exact failed rfl
  | cached hd' hinst =>
    obtain rfl := Option.some.inj (hd.symm.trans hd')
    exact found (hcached _ hinst)
  | given _ hd' _ hobject =>
    obtain rfl := Option.some.inj (hd.symm.trans hd')
    exact found hobject
  | @built d' target _ hd' =>
    obtain rfl := Option.some.inj (hd.symm.trans hd')
    generalize hbuild : build .. = t
    cases build_cases hbuild with
    | queued hl => exact .acquiring ⟨rfl, rfl, rfl⟩ hl
    | atOnce => exact .building ⟨rfl, rfl, rfl⟩

theorem of_secondCheck {f : Frame} (hf : f.Own interface d k) (hl : d.lifetime = .SINGLETON)
    (hcached : ∀ inst, Resolver.cached s d interface k = some inst → d.Produces inst)
    (ht : secondCheck s base f = t) : Serving interface d k base t.pc := by
  cases secondCheck_cases ht with
  | @shared inst hinst =>
    show Serving interface d k base ⟨.answering f.interface (.ok inst), base⟩
    rw [hf.interface] at hinst ⊢
    apply found
    apply hcached inst
    rw [Resolver.cached, hl]
    exact hinst
  | absent => exact .building hf

theorem of_stepBuild {f : Frame} {rest : List Parameter} {kwargs : Kwargs}
    (hf : f.Own interface d k) (ht : stepBuild s base f rest kwargs = t) :
    Serving interface d k base t.pc := by
  cases stepBuild_cases ht with
  | unannotated => exact failed hf.interface
  | @parameter p rest kwargs i =>
    have hinner : Serving interface d k base
        ⟨.entering i f.chain f.scope, [] ++ .parameter f p rest kwargs :: base⟩ :=
      .inner rfl hf
    exact hinner
  | coroutine => exact .inBody hf
  | completed => exact completed hf

theorem of_inner {place : Place} {above : List Caller} {caller : Caller} {f : Frame}
    (hcaller : caller.frame? = some f) (hf : f.Own interface d k)
    (ht : turn s ⟨place, above ++ caller :: base⟩ r = some t) :
    Serving interface d k base t.pc := by
  have hdeeper : ∀ {pc : Activity} {above : List Caller}, pc.stack = above ++ caller :: base →
      Serving interface d k base pc := by
    intro pc above hstack
    obtain ⟨place, stack⟩ := pc
    have hstack : stack = above ++ caller :: base := hstack
    subst hstack
    exact .inner hcaller hf
  rcases turn_stack ht with ⟨above', habove'⟩ | ⟨i, result, caller', stack, ha, rfl⟩
  · have hstack : t.pc.stack = (above' ++ above) ++ caller :: base := by
      rw [List.append_assoc, ← habove']
    exact hdeeper hstack
  · cases above with
    | nil =>
      cases ha
      exact of_return hcaller hf rfl
    | cons caller'' above =>
      cases ha
      exact hdeeper (returnTo_stack rfl)

/-- **The call goes on**, as long as it has not come to its end. -/
theorem step (h : Serving interface d k base a) (hd : s.registry.get? interface = some d)
    (hcached : ∀ inst, Resolver.cached s d interface k = some inst → d.Produces inst)
    (hend : ∀ result, a ≠ ⟨.answering interface result, base⟩) (ht : turn s a r = some t) :
    Serving interface d k base t.pc := by
  cases h with
  | asked =>
    cases turn_cases ht with
    | asked hrest | changed _ hrest => exact hrest.elim
    | entered => exact of_enter hd hcached rfl
  | acquiring hf hl =>
    cases turn_cases ht with
    | asked hrest | changed _ hrest => exact hrest.elim
    | acquired => exact of_secondCheck hf hl hcached rfl
  | building hf =>
    cases turn_cases ht with
    | asked hrest | changed _ hrest => exact hrest.elim
    | built => exact of_stepBuild hf rfl
    | raisedInCall => exact failed hf.interface
  | @inBody f hf =>
    cases turn_cases ht with
    | asked hrest | changed _ hrest => exact hrest.elim
    | returned => exact completed hf
    | raised => exact failed hf.interface
    | @resolving _ _ scope i _ _ hcall =>
      have hcaller : (Caller.body f).frame? = some f := rfl
      have hcall : call s ([] ++ .body f :: base) scope i = some t := hcall
      exact of_call hcaller hf hcall
  | inner hcaller hf => exact of_inner hcaller hf ht
  | answering _ => exact absurd rfl (hend _)

theorem result (h : Serving interface d k base a) {result : Except Exn Instance}
    (ha : a = ⟨.answering interface result, base⟩) :
    ∀ inst, result = .ok inst → d.Produces inst := by
  cases h with
  | answering h =>
    cases ha
    exact h
  | @inner place above caller f _ _ =>
    have hstack : above ++ caller :: base = base := congrArg Activity.stack ha
    have hlength := congrArg List.length hstack
    rw [List.length_append, List.length_cons] at hlength
    omega
  | asked | acquiring | building | inBody => cases ha

end Serving

/-! ## What a resolve returns -/

def Ended (interface : PyType) (d : ServiceDescriptor) (a : Activity) : Prop :=
  ∃ result : Except Exn Instance, (∀ inst, result = .ok inst → d.Produces inst) ∧
    (a = ⟨.answering interface result, []⟩ ∨ a = ⟨.finished interface result, []⟩)

/-- The task has not come to rest, and the registration of the interface is not changed. -/
def Underway (i : Nat) (interface : PyType) (s : State) (l : Nat × Reply) : Prop :=
  (l.1 = i → ¬ (s.pcs i).place.AtRest) ∧ Spares interface l.2

structure Resolving (i : Nat) (interface : PyType) (d : ServiceDescriptor) (k : Nat)
    (base : List Caller) (s : State) : Prop where
  registered : s.shared.registry.get? interface = some d
  fresh : Fresh s interface d k
  call : Serving interface d k base (s.pcs i) ∨ Ended interface d (s.pcs i)

namespace Resolving

variable {s : State} {i j k : Nat} {interface : PyType} {d : ServiceDescriptor}
  {base : List Caller}

theorem step (h : Resolving i interface d k base s) (hbase : base = [] ∨ ∃ k', base = [.root k'])
    {r : Reply} {t : Turn} (hr : Underway i interface s (j, r))
    (ht : turn s.shared (s.pcs j) r = some t) : Resolving i interface d k base (s.take j t) := by
  obtain ⟨hfresh, hregistered⟩ := h.fresh.step h.registered hr.2 ht
  refine ⟨hregistered, hfresh, ?_⟩
  by_cases hij : i = j
  · subst hij
    rw [Tasks.take_pcs_self]
    have hback : ∀ result : Except Exn Instance, (∀ inst, result = .ok inst → d.Produces inst) →
        ∀ stack, (stack = [] ∨ ∃ k', stack = [.root k']) →
          s.pcs i = ⟨.answering interface result, stack⟩ → Ended interface d t.pc := by
      intro result hresult stack hstack ha
      rw [ha] at ht
      cases r with
      | go =>
        cases ht
        rcases hstack with rfl | ⟨k', rfl⟩
        · exact ⟨result, hresult, Or.inr rfl⟩
        · exact ⟨result, hresult, Or.inl rfl⟩
      | resolve | raise | change => cases ht
    rcases h.call with hserving | ⟨result, hresult, ha | ha⟩
    · by_cases hend : ∃ result, s.pcs i = ⟨.answering interface result, base⟩
      · obtain ⟨result, ha⟩ := hend
        exact Or.inr (hback result (hserving.result ha) base hbase ha)
      · exact Or.inl (hserving.step h.registered h.fresh.cached
          (fun result ha => hend ⟨result, ha⟩) ht)
    · exact Or.inr (hback result hresult [] (Or.inl rfl) ha)
    · exact absurd (by rw [ha]; trivial) (hr.1 rfl)
  · rw [Tasks.take_pcs_ne hij]
    exact h.call

theorem run (h : Resolving i interface d k base s) (hbase : base = [] ∨ ∃ k', base = [.root k'])
    {ls : List (Nat × Reply)} {s' : State} (hm : system.Meets (Underway i interface) s ls)
    (he : system.exec s ls = some s') : Resolving i interface d k base s' := by
  apply Tasks.exec_turns _ h hm he
  intro s j r t hs hr ht
  exact hs.step hbase hr ht

end Resolving

theorem resolving_of_start {registry : ServiceRegistry} {ls : List (Nat × Reply)} {s s' : State}
    {i : Nat} {scope : Option Nat} {interface : PyType} {d : ServiceDescriptor}
    (he : system.exec (initial registry) ls = some s) (hrest : (s.pcs i).place.AtRest)
    (hd : s.shared.registry.get? interface = some d)
    (hfresh : ∀ k, scope = some k ∨ d.lifetime = .SINGLETON → Fresh s interface d k)
    (hstart : system.step s (i, .resolve scope interface) = some s') :
    ∃ k base, (base = [] ∨ ∃ k', base = [Caller.root k']) ∧
      Resolving i interface d k base s' := by
  obtain ⟨t, ht, rfl⟩ := Tasks.step_some hstart
  have hnil := (exec_linked (initial_linked registry) he i).stack_nil hrest
  have hcall : call s.shared [] scope interface = some t := by
    rw [← hnil]
    cases hp : (s.pcs i).place with
    | idle | finished =>
      simp only [turn, hp] at ht
      exact ht
    | entering | acquiring | building | inBody | answering =>
      rw [hp] at hrest
      exact hrest.elim
  cases scope with
  | some k =>
    simp only [call] at hcall
    split at hcall
    · cases hcall
      have hstarted : Fresh (s.take i ⟨s.shared, ⟨.entering interface [] k, []⟩, []⟩)
          interface d k :=
        (hfresh k (Or.inl rfl)).take (fun _ => Or.inl) fun f hf => absurd hf List.not_mem_nil
      refine ⟨k, [], Or.inl rfl, hd, hstarted, Or.inl ?_⟩
      rw [Tasks.take_pcs_self]
      exact .asked
    · cases hcall
  | none =>
    cases hcall
    refine ⟨s.shared.nextScope, [.root s.shared.nextScope], Or.inr ⟨_, rfl⟩, hd, ?_, Or.inl ?_⟩
    · cases hl : d.lifetime with
      | SINGLETON =>
        have hold := hfresh s.shared.nextScope (Or.inr hl)
        refine hold.take ?_ fun f hf => absurd hf List.not_mem_nil
        intro inst hinst
        refine Or.inl ?_
        rw [cached, hl] at hinst ⊢
        exact hinst
      | SCOPED =>
        refine ⟨?_, ?_⟩
        · intro inst hinst
          rw [cached, hl] at hinst
          change (Function.update s.shared.scopes s.shared.nextScope Dict.empty
            s.shared.nextScope).get? interface = some inst at hinst
          rw [Function.update_self] at hinst
          cases hinst
        · -- the dictionary is new, so nothing is under way to it
          intro _ j f hf _ _ hscope
          have hk := hscope hl
          by_cases hj : j = i
          · subst hj
            rw [Tasks.take_pcs_self] at hf
            cases hf
          · rw [Tasks.take_pcs_ne hj] at hf
            exact absurd hk (Nat.ne_of_lt ((Numbered.run he).frames j f hf))
      | TRANSIENT =>
        refine ⟨?_, fun hne => absurd hl hne⟩
        intro inst hinst
        rw [cached, hl] at hinst
        cases hinst
    · rw [Tasks.take_pcs_self]
      exact .asked

/-- **A resolve returns what the current descriptor provides**, if what is cached when it starts,
and what is then under way to the same cache, is of that descriptor: a singleton's cache, or the
scope's own for a scoped service of a scope; otherwise there is nothing to ask for. -/
theorem resolve_current {registry : ServiceRegistry} {ls₁ ls₂ : List (Nat × Reply)}
    {s₁ s₂ s₃ : State} {i : Nat} {scope : Option Nat} {interface : PyType} {d : ServiceDescriptor}
    {inst : Instance} (h₁ : system.exec (initial registry) ls₁ = some s₁)
    (hrest : (s₁.pcs i).place.AtRest) (hd : s₁.shared.registry.get? interface = some d)
    (hfresh : ∀ k, scope = some k ∨ d.lifetime = .SINGLETON → Fresh s₁ interface d k)
    (hstart : system.step s₁ (i, .resolve scope interface) = some s₂)
    (hm : system.Meets (Underway i interface) s₂ ls₂) (h₂ : system.exec s₂ ls₂ = some s₃)
    (hend : (s₃.pcs i).place = .finished interface (.ok inst)) : d.Produces inst := by
  obtain ⟨k, base, hbase, hresolving⟩ := resolving_of_start h₁ hrest hd hfresh hstart
  have hresolving := hresolving.run hbase hm h₂
  have hlinked : (s₃.pcs i).Linked := by
    have hstarted : system.exec s₁ ((i, .resolve scope interface) :: ls₂) = some s₃ := by
      rw [System.exec_cons_of hstart]
      exact h₂
    exact exec_linked (exec_linked (initial_linked registry) h₁) hstarted i
  have hnil := hlinked.stack_nil (by rw [hend]; trivial)
  rcases hresolving.call with hserving | ⟨result, hresult, ha | ha⟩
  · generalize s₃.pcs i = a at hserving hend hnil
    cases hserving with
    | inner => simp at hnil
    | asked | acquiring | building | inBody | answering => cases hend
  · rw [ha] at hend
    cases hend
  · rw [ha] at hend
    cases hend
    exact hresult inst rfl

/-! ## One interface, registered twice -/

def interfaceService : PyType := ⟨0, "IService", "<class 'app.IService'>"⟩

def implementationOld : Target where
  name := "OldService"
  signature := []

def implementationNew : Target where
  name := "NewService"
  signature := []

/-- `register_singleton(IService, implementation)`, by the first task. -/
def registering (impl : Target) : Nat × Reply :=
  (0, .change (.registerSingleton interfaceService impl))

def resolving : Nat × Reply := (0, .resolve none interfaceService)

def going (n : Nat) : List (Nat × Reply) := List.replicate n (0, .go)

theorem underway_go {s : State} {i : Nat} {interface : PyType} (h : ¬ (s.pcs i).place.AtRest) :
    Underway i interface s (i, .go) :=
  ⟨fun _ => h, fun _ hop => by cases hop⟩

def otherService : PyType := ⟨1, "IOther", "<class 'app.IOther'>"⟩

/-- The first implementation is registered, resolved and removed, and the second is registered; a
second task has begun to resolve another singleton, and is in its build. -/
def replaced : List (Nat × Reply) :=
  [registering implementationOld, resolving] ++ going 5 ++
    [(0, .change (.remove interfaceService)), registering implementationNew,
      (1, .change (.registerSingleton otherService implementationOld)),
      (1, .resolve none otherService), (1, .go), (1, .go)]

/-- The first task resolves once more, while the second goes on and registers its own anew. -/
def overlapping : List (Nat × Reply) :=
  [(0, .go), (1, .go), (0, .go), (1, .go), (1, .go),
    (1, .change (.registerSingleton otherService implementationNew)), (0, .go), (0, .go), (0, .go)]

def stateAfter (ls : List (Nat × Reply)) : State :=
  (system.exec (initial Dict.empty) ls).getD (initial Dict.empty)

theorem exec_replaced :
    system.exec (initial Dict.empty) replaced = some (stateAfter replaced) := rfl

theorem replaced_fresh {d : ServiceDescriptor} (hl : d.lifetime = .SINGLETON) (k : Nat) :
    Fresh (stateAfter replaced) interfaceService d k where
  cached inst hinst := by
    have hnone : (stateAfter replaced).shared.singletonInstances.get? interfaceService = none := rfl
    rw [cached, hl] at hinst
    rw [hnone] at hinst
    cases hinst
  underWay _ i f hf hinterface := by
    have hframes : ((stateAfter replaced).pcs 0).frames = [] ∧
        ∀ f ∈ ((stateAfter replaced).pcs 1).frames, f.interface ≠ interfaceService := by decide
    have hfew : ∀ l ∈ replaced, l.1 < 2 := by decide
    by_cases hzero : i = 0
    · rw [hzero, hframes.1] at hf
      cases hf
    · by_cases hone : i = 1
      · rw [hone] at hf
        exact absurd hinterface (hframes.2 f hf)
      · have hother : ∀ l ∈ replaced, l.1 ≠ i := fun l hl hq => by
          have := hfew l hl
          omega
        rw [Tasks.exec_untouched hother exec_replaced] at hf
        cases hf

theorem underway_other {s : State} {r : Reply} (hr : Spares interfaceService r) :
    Underway 0 interfaceService s (1, r) := ⟨fun h => absurd h Nat.one_ne_zero, hr⟩

theorem overlapping_underway : system.Meets (Underway 0 interfaceService)
    (stateAfter (replaced ++ [resolving])) overlapping := by
  have hgo : Spares interfaceService .go := fun op hop => by cases hop
  have hchange : Spares interfaceService
      (.change (.registerSingleton otherService implementationNew)) := by
    intro op hop
    cases hop
    decide
  refine System.meets_cons (underway_go id) rfl ?_
  refine System.meets_cons (underway_other hgo) rfl ?_
  refine System.meets_cons (underway_go id) rfl ?_
  refine System.meets_cons (underway_other hgo) rfl ?_
  refine System.meets_cons (underway_other hgo) rfl ?_
  refine System.meets_cons (underway_other hchange) rfl ?_
  refine System.meets_cons (underway_go id) rfl ?_
  refine System.meets_cons (underway_go id) rfl ?_
  refine System.meets_cons (underway_go id) rfl ?_
  trivial

/-- It gets what the second registration provides. -/
theorem resolve_current_replaced :
    ∃ (d : ServiceDescriptor) (inst : Instance),
      (stateAfter replaced).shared.registry.get? interfaceService = some d ∧
      d.provider = .implementation implementationNew ∧
      ((stateAfter (replaced ++ resolving :: overlapping)).pcs 0).place =
        .finished interfaceService (.ok inst) ∧ d.Produces inst := by
  refine ⟨_, _, rfl, rfl, rfl, ?_⟩
  have hstart : system.step (stateAfter replaced) resolving =
      some (stateAfter (replaced ++ [resolving])) := rfl
  have hrun : system.exec (stateAfter (replaced ++ [resolving])) overlapping =
      some (stateAfter (replaced ++ resolving :: overlapping)) := rfl
  exact resolve_current exec_replaced (i := 0) trivial rfl (fun k _ => replaced_fresh rfl k)
    hstart overlapping_underway hrun rfl

/-- The second registration is not heard of: what is cached is of the first. -/
theorem reregistered_singleton_is_stale :
    ∃ (s₁ s₃ : State) (d : ServiceDescriptor) (inst : Instance),
      system.exec (initial Dict.empty) ([registering implementationOld, resolving] ++ going 5 ++
        [registering implementationNew]) = some s₁ ∧
      s₁.shared.registry.get? interfaceService = some d ∧ (s₁.pcs 0).place.AtRest ∧
      system.exec s₁ (resolving :: going 3) = some s₃ ∧
      (s₃.pcs 0).place = .finished interfaceService (.ok inst) ∧ ¬ d.Produces inst := by
  refine ⟨_, _, _, _, rfl, rfl, trivial, rfl, rfl, ?_⟩
  intro h
  have href : (0 : Nat) = 1 := congrArg ServiceDescriptor.ref h
  cases href

end Resolver

end IraOS
