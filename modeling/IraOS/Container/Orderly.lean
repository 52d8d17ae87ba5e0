import IraOS.Container.Moves

/-!
# Singletons under construction

While the registry stays as it is, the calls of `resolve` that are past the checks stand in order:
every singleton has at most one lock, its calls queue there, the one in front is past the lock, and
as long as it is, nothing is cached for the singleton (`Orderly`). So of the calls past their locks
no two are of the same singleton, in whatever tasks, and however deep in the stacks of those tasks,
they are; and what the one in front builds is the first there is. Both are read off `Orderly` where
they are used, in `IraOS.Container.Singletons`.

## The parts of the invariant

* The tickets of the calls of all tasks are those in the queues of the locks (`Lib.Queues`).
* Every call that is past the checks builds what the registry says, and has queued at the lock
  that the dictionary of locks has for its interface.
* A call past its lock is in front, and nothing is cached for what it builds.
* No lock is in the dictionary for two singletons, and none has a number yet to be given out.

The third is the reason for the second check: a call that gets the lock after another has built
finds what that one cached, and never is past the lock in this sense.

## How it is kept

`Moved` has nine kinds of moves, and four things can happen to the queues: nothing, a call queues, a
call comes to be past its lock, the call in front leaves. `step` goes through the moves with a lemma
for each of these. A turn that changes a registration is not allowed for: eviction takes a lock out
of the dictionary, whoever is in it.
-/

set_option autoImplicit false

namespace IraOS

open Lib

namespace Resolver

/-- No call changes a registration. -/
def Unchanging (l : Nat × Reply) : Prop := ∀ op, l.2 = .change op → op.changes = none

structure Frame.Known (s : ContainerState) (f : Frame) : Prop where
  registered : f.Registered s
  lock : ∀ c, f.held = some c → s.singletonLocks.get? f.interface = some c.1
  singleton : f.held.isSome = true ↔ f.descriptor.lifetime = .SINGLETON

/-- The call is first in its queue, and nothing is cached for what it builds. -/
def Frame.Alone (s : ContainerState) (f : Frame) : Prop :=
  ∀ c, f.held = some c →
    Front s.locks c ∧ s.singletonInstances.get? f.interface = none

structure Orderly (s : State) : Prop where
  queued : Queued (fun i => (s.pcs i).claims) s.shared.locks s.shared.nextTicket
  known : ∀ i, ∀ f ∈ (s.pcs i).frames, f.Known s.shared
  alone : ∀ i, ∀ f ∈ (s.pcs i).holding, f.Alone s.shared
  injective : ∀ I J k, s.shared.singletonLocks.get? I = some k →
    s.shared.singletonLocks.get? J = some k → I = J
  bounded : ∀ I k, s.shared.singletonLocks.get? I = some k → k < s.shared.nextLock

namespace Orderly

variable {s : State} {i j : Nat}

theorem mem_frames {a : Activity} {f : Frame} (h : f ∈ a.holding) : f ∈ a.frames :=
  Activity.mem_frames.mpr (Or.inr h)

theorem mem_claims {a : Activity} {f : Frame} {c : Nat × Nat} (h : f ∈ a.frames)
    (hc : f.held = some c) : c ∈ a.claims := Activity.mem_claims.mpr ⟨f, h, hc⟩

theorem start (registry : ServiceRegistry) : Orderly (initial registry) where
  queued := Queued.start
  known _ _ hf := absurd hf List.not_mem_nil
  alone _ _ hf := absurd hf List.not_mem_nil
  injective _ _ _ hI := by cases hI
  bounded _ _ hI := by cases hI

/-! ## What a turn leaves standing -/

section Steps

variable {s' : ContainerState} {a' : Activity} {actions : List Action}

theorem claims_update (pcs : Nat → Activity) (i : Nat) (a : Activity) :
    (fun j => (Function.update pcs i a j).claims)
      = Function.update (fun j => (pcs j).claims) i a.claims := by
  funext j
  by_cases hj : j = i
  · subst hj
    rw [Function.update_self, Function.update_self]
  · rw [Function.update_of_ne hj, Function.update_of_ne hj]

theorem forall_take {P : Nat → Activity → Prop} (hold : ∀ j, P j (s.pcs j)) (hnew : P i a')
    (j : Nat) :
    P j ((s.take i ⟨s', a', actions⟩).pcs j) := by
  by_cases hj : j = i
  · subst hj
    rw [Tasks.take_pcs_self]
    exact hnew
  · rw [Tasks.take_pcs_ne hj]
    exact hold j

theorem known_of {f : Frame} (h : f.Known s.shared) (hregistry : s'.registry = s.shared.registry)
    (hlocks : ∀ I k, s.shared.singletonLocks.get? I = some k → s'.singletonLocks.get? I = some k) :
    f.Known s' := by
  refine ⟨⟨?_, h.registered.target⟩, ?_, h.singleton⟩
  · rw [hregistry]
    exact h.registered.current
  · intro c hc
    exact hlocks _ _ (h.lock c hc)

theorem stay (h : Orderly s) (hs : Alike s.shared s')
    (hclaims : a'.claims = (s.pcs i).claims)
    (hframes : ∀ f ∈ a'.frames, f ∈ (s.pcs i).frames ∨ f.Known s.shared)
    (hholding : ∀ f ∈ a'.holding, f ∈ (s.pcs i).holding ∨ f.Alone s.shared) :
    Orderly (s.take i ⟨s', a', actions⟩) := by
  have hknown : ∀ f : Frame, f.Known s.shared → f.Known s' := by
    intro f hf
    exact known_of hf hs.registry (by rw [hs.dictionary]; exact fun _ _ hk => hk)
  have halone : ∀ f : Frame, f.Alone s.shared → f.Alone s' := by
    intro f hf c hc
    rw [hs.locks, hs.instances]
    exact hf c hc
  refine ⟨?_, ?_, ?_, ?_, ?_⟩
  · show Queued (fun j => (Function.update s.pcs i a' j).claims) s'.locks s'.nextTicket
    rw [claims_update, hclaims, Function.update_eq_self, hs.locks, hs.nextTicket]
    exact h.queued
  · refine forall_take (P := fun _ a => ∀ f ∈ a.frames, f.Known s') ?_ ?_
    · intro j f hf
      exact hknown f (h.known j f hf)
    · intro f hf
      rcases hframes f hf with hf | hf
      · exact hknown f (h.known i f hf)
      · exact hknown f hf
  · refine forall_take (P := fun _ a => ∀ f ∈ a.holding, f.Alone s') ?_ ?_
    · intro j f hf
      exact halone f (h.alone j f hf)
    · intro f hf
      rcases hholding f hf with hf | hf
      · exact halone f (h.alone i f hf)
      · exact halone f hf
  · show ∀ I J k, s'.singletonLocks.get? I = some k → s'.singletonLocks.get? J = some k → I = J
    rw [hs.dictionary]
    exact h.injective
  · show ∀ I k, s'.singletonLocks.get? I = some k → k < s'.nextLock
    rw [hs.dictionary, hs.nextLock]
    exact h.bounded

theorem getSingletonLock_get? (s : ContainerState) (interface I : PyType) :
    (getSingletonLock s interface).1.singletonLocks.get? I =
      if I = interface then some (getSingletonLock s interface).2
      else s.singletonLocks.get? I := by
  unfold getSingletonLock
  cases hI : s.singletonLocks.get? interface with
  | some k =>
    by_cases hq : I = interface
    · rw [if_pos hq, hq]
      exact hI
    · rw [if_neg hq]
  | none =>
    simp only
    rw [Dict.get?_set]

theorem getSingletonLock_keeps (s : ContainerState) (interface : PyType) :
    (getSingletonLock s interface).1.registry = s.registry ∧
      (getSingletonLock s interface).1.singletonInstances = s.singletonInstances ∧
      (getSingletonLock s interface).1.locks = s.locks ∧
      (getSingletonLock s interface).1.nextTicket = s.nextTicket := by
  unfold getSingletonLock
  split <;> exact ⟨rfl, rfl, rfl, rfl⟩

theorem getSingletonLock_scopes (s : ContainerState) (interface : PyType) :
    (getSingletonLock s interface).1.scopes = s.scopes := by
  unfold getSingletonLock
  split <;> rfl

theorem getSingletonLock_dictionary (h : Orderly s) (interface : PyType) :
    (∀ I J k, (getSingletonLock s.shared interface).1.singletonLocks.get? I = some k →
      (getSingletonLock s.shared interface).1.singletonLocks.get? J = some k → I = J) ∧
    ∀ I k, (getSingletonLock s.shared interface).1.singletonLocks.get? I = some k →
      k < (getSingletonLock s.shared interface).1.nextLock := by
  unfold getSingletonLock
  cases hI : s.shared.singletonLocks.get? interface with
  | some k => exact ⟨h.injective, h.bounded⟩
  | none =>
    have hother : ∀ I k, (s.shared.singletonLocks.set interface s.shared.nextLock).get? I = some k →
        (I = interface ∧ k = s.shared.nextLock) ∨
          (s.shared.singletonLocks.get? I = some k ∧ k < s.shared.nextLock) := by
      intro I k hk
      rw [Dict.get?_set] at hk
      split at hk
      · next hq => exact Or.inl ⟨hq, (Option.some.inj hk).symm⟩
      · exact Or.inr ⟨hk, h.bounded I k hk⟩
    refine ⟨?_, ?_⟩
    · intro I J k hk hk'
      rcases hother I k hk with ⟨rfl, rfl⟩ | ⟨hk, hlt⟩
      · rcases hother J _ hk' with ⟨rfl, _⟩ | ⟨_, hlt⟩
        · rfl
        · exact absurd hlt (Nat.lt_irrefl _)
      · rcases hother J k hk' with ⟨_, rfl⟩ | ⟨hk', _⟩
        · exact absurd hlt (Nat.lt_irrefl _)
        · exact h.injective I J k hk hk'
    · intro I k hk
      rcases hother I k hk with ⟨_, rfl⟩ | ⟨_, hlt⟩
      · exact Nat.lt_succ_self _
      · exact Nat.lt_succ_of_lt hlt

theorem queue (h : Orderly s) {f : Frame} (hacquiring : (s.pcs i).acquiring? = none)
    (hholding : (s.pcs i).holding = framesOf (s.pcs i).stack) (hf : f.Registered s.shared)
    (hlifetime : f.descriptor.lifetime = .SINGLETON)
    (hheld : f.held = some ((getSingletonLock s.shared f.interface).2, s.shared.nextTicket)) :
    Orderly (s.take i
      ⟨enqueue (getSingletonLock s.shared f.interface).1
        (getSingletonLock s.shared f.interface).2, ⟨.acquiring f, (s.pcs i).stack⟩, actions⟩) := by
  have hget := getSingletonLock_get? s.shared f.interface
  obtain ⟨hregistry, hinstances, hlocks, hticket⟩ := getSingletonLock_keeps s.shared f.interface
  obtain ⟨hinjective, hbounded⟩ := getSingletonLock_dictionary h f.interface
  generalize hL : (getSingletonLock s.shared f.interface).1 = L at *
  generalize hk : (getSingletonLock s.shared f.interface).2 = k at *
  have hgrow : ∀ I k', s.shared.singletonLocks.get? I = some k' →
      L.singletonLocks.get? I = some k' := by
    intro I k' hk'
    rw [hget]
    split
    · next hq =>
      subst hq
      rw [← hk, getSingletonLock, hk']
    · exact hk'
  have hframes : (⟨.acquiring f, (s.pcs i).stack⟩ : Activity).frames = f :: (s.pcs i).frames := by
    rw [Activity.frames_of_not_acquiring hacquiring, hholding]
    rfl
  have hclaims : (⟨.acquiring f, (s.pcs i).stack⟩ : Activity).claims
      = (k, s.shared.nextTicket) :: (s.pcs i).claims := by
    rw [Activity.claims, hframes, List.filterMap_cons, hheld]
    rfl
  have hknown : f.Known (enqueue L k) := by
    refine ⟨⟨?_, hf.target⟩, ?_, ?_⟩
    · show L.registry.get? f.interface = some f.descriptor
      rw [hregistry]
      exact hf.current
    · intro c hc
      rw [hheld, Option.some.injEq] at hc
      subst hc
      show L.singletonLocks.get? f.interface = some k
      rw [hget, if_pos rfl]
    · rw [hheld]
      exact ⟨fun _ => hlifetime, fun _ => rfl⟩
  refine ⟨?_, ?_, ?_, hinjective, hbounded⟩
  · show Queued (fun j => (Function.update s.pcs i _ j).claims)
      (Function.update L.locks k (L.locks k ++ [L.nextTicket])) (L.nextTicket + 1)
    rw [claims_update, hclaims, hlocks, hticket]
    exact h.queued.join i k
  · refine forall_take (P := fun _ a => ∀ f ∈ a.frames, f.Known (enqueue L k)) ?_ ?_
    · intro j g hg
      exact known_of (h.known j g hg) hregistry hgrow
    · intro g hg
      rw [hframes] at hg
      rcases List.mem_cons.mp hg with rfl | hg
      · exact hknown
      · exact known_of (h.known i g hg) hregistry hgrow
  · have halone : ∀ g : Frame, g.Alone s.shared → g.Alone (enqueue L k) := by
      intro g hg c hc
      refine ⟨?_, ?_⟩
      · show Front (Function.update L.locks k (L.locks k ++ [L.nextTicket])) c
        rw [hlocks]
        exact Queued.front_join (hg c hc).1 k
      · show L.singletonInstances.get? g.interface = none
        rw [hinstances]
        exact (hg c hc).2
    refine forall_take (P := fun _ a => ∀ f ∈ a.holding, f.Alone (enqueue L k)) ?_ ?_
    · intro j g hg
      exact halone g (h.alone j g hg)
    · intro g hg
      have hg : g ∈ (s.pcs i).holding := by
        rw [hholding]
        exact hg
      exact halone g (h.alone i g hg)

theorem pop (h : Orderly s) {f : Frame} {rest : List Frame}
    (hframes : (s.pcs i).frames = f :: rest) (hrest : a'.frames = rest)
    (hholding : a'.holding ⊆ (s.pcs i).holding)
    (hfront : ∀ c, f.held = some c → Front s.shared.locks c)
    (hregistry : s'.registry = s.shared.registry)
    (hdictionary : s'.singletonLocks = s.shared.singletonLocks)
    (hnextLock : s'.nextLock = s.shared.nextLock)
    (hnextTicket : s'.nextTicket = s.shared.nextTicket)
    (hlocks : s'.locks = (release s.shared f.held).locks)
    (hinstances : ∀ I, s'.singletonInstances.get? I = s.shared.singletonInstances.get? I ∨
      (I = f.interface ∧ f.held.isSome = true)) :
    Orderly (s.take i ⟨s', a', actions⟩) := by
  have hsub : ∀ f ∈ a'.frames, f ∈ (s.pcs i).frames := by
    intro g hg
    rw [hframes, ← hrest]
    exact List.mem_cons_of_mem _ hg
  have hknown : ∀ f : Frame, f.Known s.shared → f.Known s' := by
    intro g hg
    exact known_of hg hregistry (by rw [hdictionary]; exact fun _ _ hk => hk)
  have hknown' : ∀ j, ∀ f ∈ ((s.take i ⟨s', a', actions⟩).pcs j).frames, f.Known s' := by
    refine forall_take (P := fun _ a => ∀ f ∈ a.frames, f.Known s') ?_ ?_
    · intro j g hg
      exact hknown g (h.known j g hg)
    · intro g hg
      exact hknown g (h.known i g (hsub g hg))
  -- what is past a lock afterwards was so before
  have hheld : ∀ j, ∀ g ∈ ((s.take i ⟨s', a', actions⟩).pcs j).holding, g ∈ (s.pcs j).holding := by
    refine forall_take (P := fun j a => ∀ g ∈ a.holding, g ∈ (s.pcs j).holding) ?_ ?_
    · intro j g hg
      exact hg
    · intro g hg
      exact hholding hg
  have hinjective : ∀ I J k, s'.singletonLocks.get? I = some k →
      s'.singletonLocks.get? J = some k → I = J := by
    rw [hdictionary]
    exact h.injective
  have hbounded : ∀ I k, s'.singletonLocks.get? I = some k → k < s'.nextLock := by
    rw [hdictionary, hnextLock]
    exact h.bounded
  cases hc : f.held with
  | none =>
    rw [hc] at hlocks
    have hclaims : a'.claims = (s.pcs i).claims := by
      rw [Activity.claims, Activity.claims, hframes, hrest, List.filterMap_cons, hc]
    refine ⟨?_, hknown', ?_, hinjective, hbounded⟩
    · show Queued (fun j => (Function.update s.pcs i a' j).claims) s'.locks s'.nextTicket
      rw [claims_update, hclaims, Function.update_eq_self, hlocks, hnextTicket]
      exact h.queued
    · intro j g hg c hg'
      have halone := h.alone j g (hheld j g hg) c hg'
      refine ⟨?_, ?_⟩
      · rw [show (s.take i ⟨s', a', actions⟩).shared = s' from rfl, hlocks]
        exact halone.1
      · rcases hinstances g.interface with hq | ⟨_, hsome⟩
        · rw [show (s.take i ⟨s', a', actions⟩).shared = s' from rfl, hq]
          exact halone.2
        · rw [hc] at hsome
          cases hsome
  | some c =>
    obtain ⟨k, t⟩ := c
    rw [hc] at hlocks
    have hclaims : (s.pcs i).claims = (k, t) :: a'.claims := by
      rw [Activity.claims, Activity.claims, hframes, hrest, List.filterMap_cons, hc]
    have hfront' := hfront (k, t) hc
    refine ⟨?_, hknown', ?_, hinjective, hbounded⟩
    · show Queued (fun j => (Function.update s.pcs i a' j).claims) s'.locks s'.nextTicket
      rw [claims_update, hlocks, hnextTicket]
      exact h.queued.leave hclaims hfront'
    · intro j g hg c hg'
      have halone := h.alone j g (hheld j g hg) c hg'
      have hmem : c ∈ Function.update (fun j => (s.pcs j).claims) i a'.claims j := by
        rw [← claims_update]
        exact mem_claims (mem_frames hg) hg'
      refine ⟨?_, ?_⟩
      · rw [show (s.take i ⟨s', a', actions⟩).shared = s' from rfl, hlocks]
        exact h.queued.front_leave hclaims hfront' hmem halone.1
      · rw [show (s.take i ⟨s', a', actions⟩).shared = s' from rfl]
        rcases hinstances g.interface with hq | ⟨hq, _⟩
        · rw [hq]
          exact halone.2
        · -- the call that is gone was the one of its singleton past the lock
          exfalso
          have hgone : (k, t) ∈ (s.pcs i).claims := hclaims ▸ List.mem_cons_self
          have hf : f ∈ (s.pcs i).frames := hframes ▸ List.mem_cons_self
          have hlock := (h.known j g (mem_frames (hheld j g hg))).lock c hg'
          rw [hq, (h.known i f hf).lock (k, t) hc, Option.some.injEq] at hlock
          have hsame := (h.queued.front_unique (Queued.mem_leave hclaims hmem) hgone
            hlock.symm halone.1 hfront').2
          exact h.queued.ne_of_mem_leave hclaims hmem (by rw [hsame])

end Steps

theorem alike_of_unchanging {s : ContainerState} {op : ContainerOp} (h : op.changes = none) :
    Alike s (op.apply s) := by
  cases op with
  | createScope =>
    refine ⟨rfl, rfl, rfl, rfl, rfl, rfl, scopes_update _ _, Nat.le_succ _, ?_⟩
    intro k hk
    rcases List.mem_cons.mp hk with rfl | hk
    · exact Or.inr (Nat.lt_succ_self _)
    · exact Or.inl hk
  | registerSingleton | registerScoped | registerTransient | registerInstance | registerFactory
  | remove | replace => cases h

theorem release_keeps (s : ContainerState) (held : Option (Nat × Nat)) :
    (release s held).registry = s.registry ∧
      (release s held).singletonInstances = s.singletonInstances ∧
      (release s held).singletonLocks = s.singletonLocks ∧
      (release s held).nextLock = s.nextLock ∧ (release s held).nextTicket = s.nextTicket ∧
      (release s held).scopes = s.scopes := by
  cases held with
  | none => exact ⟨rfl, rfl, rfl, rfl, rfl, rfl⟩
  | some c => exact ⟨rfl, rfl, rfl, rfl, rfl, rfl⟩

theorem release_locks {s s' : ContainerState} (h : s'.locks = s.locks)
    (held : Option (Nat × Nat)) : (release s' held).locks = (release s held).locks := by
  cases held with
  | none => exact h
  | some c =>
    show Function.update s'.locks c.1 (s'.locks c.1).tail
      = Function.update s.locks c.1 (s.locks c.1).tail
    rw [h]

theorem store_keeps (s : ContainerState) (f : Frame) (inst : Instance) :
    (store s f inst).registry = s.registry ∧ (store s f inst).singletonLocks = s.singletonLocks ∧
      (store s f inst).locks = s.locks ∧ (store s f inst).nextLock = s.nextLock ∧
      (store s f inst).nextTicket = s.nextTicket := by
  unfold store
  split <;> exact ⟨rfl, rfl, rfl, rfl, rfl⟩

theorem store_instances (s : ContainerState) (f : Frame) (inst : Instance) (I : PyType) :
    (store s f inst).singletonInstances.get? I =
      if f.descriptor.lifetime = .SINGLETON ∧ I = f.interface then some inst
      else s.singletonInstances.get? I := by
  unfold store
  cases f.descriptor.lifetime with
  | SINGLETON =>
    show (s.singletonInstances.set f.interface inst).get? I = _
    rw [Dict.get?_set]
    by_cases hI : I = f.interface
    · rw [if_pos hI, if_pos ⟨rfl, hI⟩]
    · rw [if_neg hI, if_neg fun hq => hI hq.2]
  | SCOPED | TRANSIENT =>
    rw [if_neg fun hq => Lifetime.noConfusion hq.1]

theorem store_scopes (s : ContainerState) (f : Frame) (inst : Instance) (k : Nat) (I : PyType) :
    ((store s f inst).scopes k).get? I =
      if f.descriptor.lifetime = .SCOPED ∧ k = f.scope ∧ I = f.interface then some inst
      else (s.scopes k).get? I := by
  unfold store
  cases f.descriptor.lifetime with
  | SCOPED =>
    show (Function.update s.scopes f.scope _ k).get? I = _
    by_cases hk : k = f.scope
    · subst hk
      rw [Function.update_self, Dict.get?_set]
      by_cases hI : I = f.interface
      · rw [if_pos hI, if_pos ⟨rfl, rfl, hI⟩]
      · rw [if_neg hI, if_neg fun hq => hI hq.2.2]
    · rw [Function.update_of_ne hk, if_neg fun hq => hk hq.2.1]
  | SINGLETON | TRANSIENT =>
    rw [if_neg fun hq => Lifetime.noConfusion hq.1]

theorem hasLock_front {s : ContainerState} {f : Frame} (h : hasLock s f.held) (c : Nat × Nat)
    (hc : f.held = some c) : Front s.locks c := by
  obtain ⟨k, t, hheld, hhead⟩ := h
  rw [hc, Option.some.injEq] at hheld
  subst hheld
  exact hhead

theorem turn_registry {s : ContainerState} {a : Activity} {r : Reply} {t : Turn}
    (hr : Unchanging (i, r)) (ht : turn s a r = some t) : t.shared.registry = s.registry := by
  obtain ⟨s', a', actions⟩ := t
  have hmoved : Moved s a r s' a' actions := turn_moved ht
  show s'.registry = s.registry
  cases hmoved with
  | still hs _ _ _ _ _ => exact hs.registry
  | changed op hop hs' =>
    rw [hs']
    exact (alike_of_unchanging (hr op hop)).registry
  | unbuilt | pushed | checked => rfl
  | @queued _ f _ _ _ _ _ _ _ hs' =>
    rw [hs']
    exact (getSingletonLock_keeps s f.interface).1
  | @shared _ f _ _ _ _ hs' | @failed _ f _ _ _ _ _ _ hs' =>
    rw [hs']
    exact (release_keeps s f.held).1
  | @completed _ f inst _ _ _ _ _ _ hs' =>
    rw [hs', (release_keeps _ f.held).1]
    exact (store_keeps _ f inst).1

theorem front_release (h : Orderly s) {f : Frame} {rest : List Frame} (hij : j ≠ i)
    (hframes : (s.pcs i).frames = f :: rest)
    (hfront : ∀ c, f.held = some c → Front s.shared.locks c) {c : Nat × Nat}
    (hmem : c ∈ (s.pcs j).claims) (hc : Front s.shared.locks c) :
    Front (release s.shared f.held).locks c := by
  cases hheld : f.held with
  | none => exact hc
  | some c' =>
    obtain ⟨k, t⟩ := c'
    have hclaims : (s.pcs i).claims = (k, t) :: rest.filterMap Frame.held := by
      rw [Activity.claims, hframes, List.filterMap_cons, hheld]
    refine h.queued.front_leave (j := j) hclaims (hfront _ hheld) ?_ hc
    rw [Function.update_of_ne hij]
    exact hmem

theorem front_stays (h : Orderly s) {r : Reply} {t : Turn} (hr : Unchanging (i, r))
    (ht : turn s.shared (s.pcs i) r = some t) (hij : j ≠ i) {c : Nat × Nat}
    (hmem : c ∈ (s.pcs j).claims) (hc : Front s.shared.locks c) : Front t.shared.locks c := by
  obtain ⟨s', a', actions⟩ := t
  have hmoved : Moved s.shared (s.pcs i) r s' a' actions := turn_moved ht
  show Front s'.locks c
  cases hmoved with
  | still hs _ _ _ _ _ =>
    rw [hs.locks]
    exact hc
  | changed op hop hs' =>
    rw [hs', (alike_of_unchanging (hr op hop)).locks]
    exact hc
  | unbuilt | pushed | checked => exact hc
  | @queued _ f _ _ _ _ _ _ _ hs' =>
    obtain ⟨_, _, hlocks, _⟩ := getSingletonLock_keeps s.shared f.interface
    rw [hs', enqueue, hlocks]
    exact Queued.front_join hc _
  | @shared _ f inst hplace hlock _ hs' =>
    have hframes := (Activity.frames_of_acquiring hplace).2
    rw [hs']
    exact h.front_release hij hframes (hasLock_front hlock) hmem hc
  | @failed _ f e stack calls hacquiring hholding _ hs' =>
    have hframes : (s.pcs i).frames = f :: framesOf stack := by
      rw [Activity.frames_of_not_acquiring hacquiring, hholding]
    have hf : f ∈ (s.pcs i).holding := hholding ▸ List.mem_cons_self
    rw [hs']
    exact h.front_release hij hframes (fun c hc => (h.alone i f hf c hc).1) hmem hc
  | @completed _ f inst stack calls hacquiring hholding _ _ hs' =>
    have hframes : (s.pcs i).frames = f :: framesOf stack := by
      rw [Activity.frames_of_not_acquiring hacquiring, hholding]
    have hf : f ∈ (s.pcs i).holding := hholding ▸ List.mem_cons_self
    have hstored : (store { s.shared with serial := s.shared.serial + 1 } f inst).locks
        = s.shared.locks := (store_keeps _ f inst).2.2.1
    rw [hs', release_locks hstored]
    exact h.front_release hij hframes (fun c hc => (h.alone i f hf c hc).1) hmem hc

/-- **Every turn that changes no registration keeps the order.** -/
theorem step (h : Orderly s) {r : Reply} {t : Turn} (hr : Unchanging (i, r))
    (ht : turn s.shared (s.pcs i) r = some t) : Orderly (s.take i t) := by
  obtain ⟨s', a', actions⟩ := t
  have hmoved : Moved s.shared (s.pcs i) r s' a' actions := turn_moved ht
  have hold : ∀ f ∈ (s.pcs i).holding, f ∈ (s.pcs i).holding ∨ f.Alone s.shared := fun _ => Or.inl
  cases hmoved with
  | still hs hacquiring hacquiring' hholding _ _ =>
    have hframes : a'.frames = (s.pcs i).frames := by
      rw [Activity.frames_of_not_acquiring hacquiring, Activity.frames_of_not_acquiring hacquiring',
        hholding]
    refine h.stay hs (by rw [Activity.claims, hframes]; rfl) ?_ (hholding ▸ hold)
    intro f hf
    exact Or.inl (hframes ▸ hf)
  | changed op hop hs' =>
    have hs : Alike s.shared s' := hs' ▸ alike_of_unchanging (hr op hop)
    exact h.stay hs rfl (fun _ => Or.inl) hold
  | @unbuilt interface result hacquiring hholding _ =>
    have hframes : (⟨.answering interface result, (s.pcs i).stack⟩ : Activity).frames
        = (s.pcs i).frames := by
      rw [Activity.frames_of_not_acquiring hacquiring, hholding]
      rfl
    refine h.stay (.refl _) (by rw [Activity.claims, hframes]; rfl) ?_ ?_
    · intro f hf
      exact Or.inl (hframes ▸ hf)
    · intro f hf
      exact Or.inl (hholding ▸ hf)
  | @pushed f hacquiring hholding hf hlifetime _ hheld =>
    have hframes : (⟨.building f f.target.parameters [], (s.pcs i).stack⟩ : Activity).frames
        = f :: (s.pcs i).frames := by
      rw [Activity.frames_of_not_acquiring hacquiring, hholding]
      rfl
    have hknown : f.Known s.shared := by
      refine ⟨hf, ?_, ?_⟩
      · intro c hc
        rw [hheld] at hc
        cases hc
      · rw [hheld]
        exact ⟨fun hq => (by cases hq), fun hq => absurd hq hlifetime⟩
    refine h.stay (.refl _) ?_ ?_ ?_
    · rw [Activity.claims, hframes, List.filterMap_cons, hheld]
      rfl
    · intro g hg
      rw [hframes] at hg
      rcases List.mem_cons.mp hg with rfl | hg
      · exact Or.inr hknown
      · exact Or.inl hg
    · intro g hg
      rcases List.mem_cons.mp (show g ∈ f :: framesOf (s.pcs i).stack from hg) with rfl | hg
      · refine Or.inr ?_
        intro c hc
        rw [hheld] at hc
        cases hc
      · exact Or.inl (hholding ▸ hg)
  | queued hacquiring hholding hf hlifetime _ _ hheld hs' =>
    rw [hs']
    exact h.queue hacquiring hholding hf hlifetime hheld
  | @checked f hplace hlock hcache =>
    have hframes : (⟨.building f f.target.parameters [], (s.pcs i).stack⟩ : Activity).frames
        = (s.pcs i).frames := by
      rw [(Activity.frames_of_acquiring hplace).2]
      rfl
    refine h.stay (.refl _) (by rw [Activity.claims, hframes]; rfl) ?_ ?_
    · intro g hg
      exact Or.inl (hframes ▸ hg)
    · intro g hg
      rcases List.mem_cons.mp (show g ∈ f :: framesOf (s.pcs i).stack from hg) with rfl | hg
      · exact Or.inr fun c hc => ⟨hasLock_front hlock c hc, hcache⟩
      · rw [(Activity.frames_of_acquiring hplace).1]
        exact Or.inl hg
  | @shared _ f inst hplace hlock _ hs' =>
    subst hs'
    obtain ⟨hregistry, hinstances, hdictionary, hnextLock, hnextTicket, _⟩ :=
      release_keeps s.shared f.held
    obtain ⟨hholding, hframes⟩ := Activity.frames_of_acquiring hplace
    refine h.pop hframes rfl ?_ (hasLock_front hlock) hregistry hdictionary hnextLock hnextTicket
      rfl ?_
    · intro g hg
      rw [hholding]
      exact hg
    · intro I
      exact Or.inl (by rw [hinstances])
  | @failed _ f e stack calls hacquiring hholding _ hs' =>
    subst hs'
    obtain ⟨hregistry, hinstances, hdictionary, hnextLock, hnextTicket, _⟩ :=
      release_keeps s.shared f.held
    have hframes : (s.pcs i).frames = f :: framesOf stack := by
      rw [Activity.frames_of_not_acquiring hacquiring, hholding]
    have hf : f ∈ (s.pcs i).holding := hholding ▸ List.mem_cons_self
    refine h.pop hframes rfl ?_ (fun c hc => (h.alone i f hf c hc).1) hregistry hdictionary
      hnextLock hnextTicket rfl ?_
    · intro g hg
      rw [hholding]
      exact List.mem_cons_of_mem _ hg
    · intro I
      exact Or.inl (by rw [hinstances])
  | @completed _ f inst stack calls hacquiring hholding hinst _ hs' =>
    have hframes : (s.pcs i).frames = f :: framesOf stack := by
      rw [Activity.frames_of_not_acquiring hacquiring, hholding]
    have hf : f ∈ (s.pcs i).holding := hholding ▸ List.mem_cons_self
    obtain ⟨hregistry, hinstances, hdictionary, hnextLock, hnextTicket, _⟩ :=
      release_keeps (store { s.shared with serial := s.shared.serial + 1 } f inst) f.held
    obtain ⟨hregistry', hdictionary', hlocks', hnextLock', hnextTicket'⟩ :=
      store_keeps { s.shared with serial := s.shared.serial + 1 } f inst
    have hstored : (store { s.shared with serial := s.shared.serial + 1 } f inst).locks
        = s.shared.locks := hlocks'
    rw [← hs'] at hregistry hinstances hdictionary hnextLock hnextTicket
    refine h.pop hframes rfl ?_ (fun c hc => (h.alone i f hf c hc).1)
      (hregistry.trans hregistry') (hdictionary.trans hdictionary') (hnextLock.trans hnextLock')
      (hnextTicket.trans hnextTicket') ?_ ?_
    · intro g hg
      rw [hholding]
      exact List.mem_cons_of_mem _ hg
    · rw [hs']
      exact release_locks hstored f.held
    · intro I
      rw [hinstances, store_instances]
      split
      · next hq =>
        exact Or.inr ⟨hq.2, (h.known i f (mem_frames hf)).singleton.mpr hq.1⟩
      · exact Or.inl rfl

end Orderly

end Resolver

end IraOS
