import IraOS.Container.Stretches
import IraOS.Lib.Queued

/-!
# What a step of the resolver does

A task is seen here as the calls of `resolve` it is in the middle of, innermost first: the one that
waits for a lock, if it does (`acquiring?`), and those past their locks (`holding`). `Moved` says
what a turn can do to these and to the container, and with what: everything the invariants of whole
runs need to know of the text of the resolver is in `turn_moved`.

## The calls of a task

A call is past its lock from the moment it builds, with a lock or, where its service is no
singleton, without one. It stays so while the calls above it on the stack go on: `_build` resolves
its parameters **with the lock held**. So a task may be past several locks and wait for one more,
which is on top.

## From the text to the moves

The turns of a task are sorted in two steps. `turn_cases` says in which stretch of the text a task
goes on and with what it was told; then each stretch is taken to what it does to the calls
(`Container.Stretches` has what they can end in). Of the nine kinds of moves two leave the calls
alone, three let one past its checks or its lock, and the others end one.

A change of a registration is a turn as well, by a task that is in no call.
-/

set_option autoImplicit false

namespace IraOS

open Lib

namespace Resolver

def Caller.frame? : Caller → Option Frame
  | .root _ => none
  | .parameter frame _ _ _ | .body frame => some frame

def framesOf (stack : List Caller) : List Frame := stack.filterMap Caller.frame?

@[simp] theorem framesOf_nil : framesOf [] = [] := rfl

@[simp] theorem framesOf_root (scope : Nat) (stack : List Caller) :
    framesOf (.root scope :: stack) = framesOf stack := rfl

@[simp] theorem framesOf_parameter (frame : Frame) (p : Parameter) (rest : List Parameter)
    (kwargs : Kwargs) (stack : List Caller) :
    framesOf (.parameter frame p rest kwargs :: stack) = frame :: framesOf stack := rfl

@[simp] theorem framesOf_body (frame : Frame) (stack : List Caller) :
    framesOf (.body frame :: stack) = frame :: framesOf stack := rfl

namespace Place

def acquiring? : Place → Option Frame
  | .acquiring frame => some frame
  | .idle | .entering .. | .building .. | .inBody _ | .answering .. | .finished .. => none

def built? : Place → Option Frame
  | .building frame _ _ | .inBody frame => some frame
  | .idle | .entering .. | .acquiring _ | .answering .. | .finished .. => none

def called? : Place → Option Frame
  | .building frame [] _ | .inBody frame => some frame
  | .idle | .entering .. | .acquiring _ | .building _ (_ :: _) _ | .answering .. | .finished .. =>
    none

def AtRest : Place → Prop
  | .idle | .finished _ _ => True
  | .entering .. | .acquiring _ | .building .. | .inBody _ | .answering .. => False

end Place

namespace Activity

def acquiring? (a : Activity) : Option Frame := a.place.acquiring?

/-- The calls past their locks. -/
def holding (a : Activity) : List Frame := a.place.built?.toList ++ framesOf a.stack

def frames (a : Activity) : List Frame := a.acquiring?.toList ++ a.holding

def claims (a : Activity) : List (Nat × Nat) := a.frames.filterMap Frame.held

theorem frames_of_not_acquiring {a : Activity} (h : a.acquiring? = none) :
    a.frames = a.holding := by
  rw [frames, h]
  rfl

theorem frames_of_acquiring {a : Activity} {f : Frame} (h : a.place = .acquiring f) :
    a.holding = framesOf a.stack ∧ a.frames = f :: framesOf a.stack := by
  rw [frames, holding, acquiring?, h]
  exact ⟨rfl, rfl⟩

theorem mem_frames {a : Activity} {f : Frame} :
    f ∈ a.frames ↔ a.acquiring? = some f ∨ f ∈ a.holding := by
  rw [frames, List.mem_append, Option.mem_toList]

theorem mem_claims {a : Activity} {c : Nat × Nat} :
    c ∈ a.claims ↔ ∃ f ∈ a.frames, f.held = some c := List.mem_filterMap

end Activity

structure Frame.Registered (s : ContainerState) (f : Frame) : Prop where
  current : s.registry.get? f.interface = some f.descriptor
  target : f.descriptor.target? = some f.target

inductive AtHand (s : ContainerState) (interface : PyType) (d : ServiceDescriptor) :
    Instance → Prop
  | ofCache {inst : Instance} (hd : d.lifetime = .SINGLETON)
      (hcache : s.singletonInstances.get? interface = some inst) : AtHand s interface d inst
  | ofScope {inst : Instance} (scope : Nat) (hd : d.lifetime = .SCOPED)
      (hcache : (s.scopes scope).get? interface = some inst) : AtHand s interface d inst
  | given (object : Nat) (hd : d.instance? = some object) : AtHand s interface d (.given object)

/-- The container is as it was, but for dictionaries of scoped instances that are new or gone. What
root calls do to their own dictionaries is nothing to any invariant about singletons. -/
structure Alike (s s' : ContainerState) : Prop where
  registry : s'.registry = s.registry
  instances : s'.singletonInstances = s.singletonInstances
  dictionary : s'.singletonLocks = s.singletonLocks
  locks : s'.locks = s.locks
  nextLock : s'.nextLock = s.nextLock
  nextTicket : s'.nextTicket = s.nextTicket
  scopes : ∀ k, s'.scopes k = s.scopes k ∨ s'.scopes k = Dict.empty
  nextScope : s.nextScope ≤ s'.nextScope
  created : ∀ k ∈ s'.created, k ∈ s.created ∨ k < s'.nextScope

theorem Alike.refl (s : ContainerState) : Alike s s :=
  ⟨rfl, rfl, rfl, rfl, rfl, rfl, fun _ => Or.inl rfl, Nat.le_refl _, fun _ => Or.inl⟩

theorem scopes_update (scopes : Nat → Dict PyType Instance) (k k' : Nat) :
    Function.update scopes k Dict.empty k' = scopes k' ∨
      Function.update scopes k Dict.empty k' = Dict.empty := by
  by_cases hk : k' = k
  · subst hk
    exact Or.inr (Function.update_self ..)
  · exact Or.inl (Function.update_of_ne hk ..)

def Action.IsCall : Action → Prop
  | .called _ _ => True
  | .constructed _ _ | .answered _ _ => False

/-- What a turn does, to the container and to the calls of a task. There is a case for each effect
that an invariant could notice, with what was found out on the way to it as hypotheses. -/
inductive Moved (s : ContainerState) (a : Activity) (r : Reply) :
    ContainerState → Activity → List Action → Prop
  /-- On to another line of the same calls, or of a new one that has not looked yet. -/
  | still {s' : ContainerState} {a' : Activity} {actions : List Action} (hs : Alike s s')
      (hacquiring : a.acquiring? = none) (hacquiring' : a'.acquiring? = none)
      (hholding : a'.holding = a.holding)
      (hentering : ∀ i chain k, a'.place = .entering i chain k →
        k ∈ s.created ∨ k < s'.nextScope ∨ ∃ f ∈ a.holding, f.scope = k)
      (hactions : ∀ x ∈ actions, x.IsCall) : Moved s a r s' a' actions
  | changed {s' : ContainerState} (op : ContainerOp) (hr : r = .change op)
      (hs' : s' = op.apply s) : Moved s a r s' a []
  /-- A call ends without building anything. -/
  | unbuilt {interface : PyType} {result : Except Exn Instance} (hacquiring : a.acquiring? = none)
      (hholding : a.holding = framesOf a.stack)
      (hresult : ∀ inst, result = .ok inst →
        ∃ d, s.registry.get? interface = some d ∧ AtHand s interface d inst) :
      Moved s a r s ⟨.answering interface result, a.stack⟩ [.answered interface result]
  /-- A call starts to build, with no lock to wait for. -/
  | pushed {f : Frame} (hacquiring : a.acquiring? = none) (hholding : a.holding = framesOf a.stack)
      (hf : f.Registered s) (hlifetime : f.descriptor.lifetime ≠ .SINGLETON)
      (hplace : ∃ chain, a.place = .entering f.interface chain f.scope) (hheld : f.held = none) :
      Moved s a r s ⟨.building f f.target.parameters [], a.stack⟩ []
  /-- A call queues for the lock of its singleton. -/
  | queued {s' : ContainerState} {f : Frame} (hacquiring : a.acquiring? = none)
      (hholding : a.holding = framesOf a.stack) (hf : f.Registered s)
      (hlifetime : f.descriptor.lifetime = .SINGLETON)
      (hplace : ∃ chain, a.place = .entering f.interface chain f.scope ∧ f.interface ∉ chain)
      (hcache : s.singletonInstances.get? f.interface = none)
      (hheld : f.held = some ((getSingletonLock s f.interface).2, s.nextTicket))
      (hs' : s' =
        enqueue (getSingletonLock s f.interface).1 (getSingletonLock s f.interface).2) :
      Moved s a r s' ⟨.acquiring f, a.stack⟩ []
  /-- A call in the lock finds nothing built. -/
  | checked {f : Frame} (hplace : a.place = .acquiring f) (hlock : hasLock s f.held)
      (hcache : s.singletonInstances.get? f.interface = none) :
      Moved s a r s ⟨.building f f.target.parameters [], a.stack⟩ []
  /-- A call in the lock finds what another built meanwhile. -/
  | shared {s' : ContainerState} {f : Frame} {inst : Instance} (hplace : a.place = .acquiring f)
      (hlock : hasLock s f.held) (hcache : s.singletonInstances.get? f.interface = some inst)
      (hs' : s' = release s f.held) :
      Moved s a r s' ⟨.answering f.interface (.ok inst), a.stack⟩
        [.answered f.interface (.ok inst)]
  | failed {s' : ContainerState} {f : Frame} {e : Exn} {stack : List Caller}
      (calls : List Action) (hacquiring : a.acquiring? = none)
      (hholding : a.holding = f :: framesOf stack) (hcalls : ∀ x ∈ calls, x.IsCall)
      (hs' : s' = release s f.held) :
      Moved s a r s' ⟨.answering f.interface (.error e), stack⟩
        (calls ++ [.answered f.interface (.error e)])
  | completed {s' : ContainerState} {f : Frame} {inst : Instance} {stack : List Caller}
      (calls : List Action) (hacquiring : a.acquiring? = none)
      (hholding : a.holding = f :: framesOf stack) (hinst : inst = .built f.descriptor s.serial)
      (hcalls : ∀ x ∈ calls, x.IsCall)
      (hs' : s' = release (store { s with serial := s.serial + 1 } f inst) f.held) :
      Moved s a r s'
        ⟨.answering f.interface (.ok inst), stack⟩
        (calls ++ [.constructed f.interface inst, .answered f.interface (.ok inst)])

/-! ## The stretches of the resolver -/

section Stretches

variable {s : ContainerState} {a : Activity} {r : Reply} {t : Turn}

theorem call_moved {stack : List Caller} {scope : Option Nat} {interface : PyType}
    (hacquiring : a.acquiring? = none) (hholding : framesOf stack = a.holding)
    (h : call s stack scope interface = some t) : Moved s a r t.shared t.pc t.actions := by
  cases call_cases h with
  | inScope hcreated =>
    refine .still (.refl s) hacquiring rfl hholding ?_ (by simp)
    intro i chain k hk
    cases hk
    exact Or.inl hcreated
  | root =>
    refine .still ⟨rfl, rfl, rfl, rfl, rfl, rfl, scopes_update _ _, Nat.le_succ _, fun _ => Or.inl⟩
      hacquiring rfl hholding ?_ (by simp)
    intro i chain k hk
    cases hk
    exact Or.inr (Or.inl (Nat.lt_succ_self _))

theorem entering_calls {interface : PyType} {chain : ResolutionChain} {scope : Nat}
    (hplace : a.place = .entering interface chain scope) :
    a.acquiring? = none ∧ a.holding = framesOf a.stack := by
  rw [Activity.acquiring?, Activity.holding, hplace]
  exact ⟨rfl, rfl⟩

theorem build_moved {interface : PyType} {chain : ResolutionChain} {scope : Nat}
    {d : ServiceDescriptor} {target : Target}
    (hplace : a.place = .entering interface chain scope) (hchain : interface ∉ chain)
    (hd : s.registry.get? interface = some d) (hcached : cached s d interface scope = none)
    (htarget : d.target? = some target)
    (ht : build s a.stack interface chain scope d target = t) :
    Moved s a r t.shared t.pc t.actions := by
  obtain ⟨hacquiring, hholding⟩ := entering_calls hplace
  cases build_cases ht with
  | queued hlifetime =>
    have hf : Frame.Registered s
        { interface := interface, descriptor := d, target := target, chain := interface :: chain,
          scope := scope, held := some ((getSingletonLock s interface).2, s.nextTicket) } :=
      ⟨hd, htarget⟩
    have hcache : s.singletonInstances.get? interface = none := by
      rw [cached, hlifetime] at hcached
      exact hcached
    exact .queued hacquiring hholding hf hlifetime ⟨chain, hplace, hchain⟩ hcache rfl rfl
  | atOnce hlifetime =>
    exact .pushed hacquiring hholding ⟨hd, htarget⟩ hlifetime ⟨chain, hplace⟩ rfl

theorem cached_atHand {d : ServiceDescriptor} {interface : PyType} {scope : Nat} {inst : Instance}
    (h : cached s d interface scope = some inst) : AtHand s interface d inst := by
  unfold cached at h
  split at h
  · next hd => exact .ofCache hd h
  · next hd => exact .ofScope scope hd h
  · cases h

theorem enter_moved {interface : PyType} {chain : ResolutionChain} {scope : Nat}
    (hplace : a.place = .entering interface chain scope)
    (ht : enter s a.stack interface chain scope = t) : Moved s a r t.shared t.pc t.actions := by
  obtain ⟨hacquiring, hholding⟩ := entering_calls hplace
  cases enter_cases ht with
  | refused => exact .unbuilt hacquiring hholding (by simp)
  | cached hd hcached =>
    refine .unbuilt hacquiring hholding ?_
    intro inst' hq
    cases hq
    exact ⟨_, hd, cached_atHand hcached⟩
  | given hchain hd hcached hobject =>
    refine .unbuilt hacquiring hholding ?_
    intro inst' hq
    cases hq
    exact ⟨_, hd, .given _ hobject⟩
  | built hchain hd hcached htarget => exact build_moved hplace hchain hd hcached htarget rfl

theorem secondCheck_moved {f : Frame} (hplace : a.place = .acquiring f) (hlock : hasLock s f.held)
    (ht : secondCheck s a.stack f = t) : Moved s a r t.shared t.pc t.actions := by
  cases secondCheck_cases ht with
  | shared hcache => exact .shared hplace hlock hcache rfl
  | absent hcache => exact .checked hplace hlock hcache

theorem fail_moved {f : Frame} {e : Exn} {stack : List Caller} (hacquiring : a.acquiring? = none)
    (hholding : a.holding = f :: framesOf stack) :
    let t := fail s stack f e
    Moved s a r t.shared t.pc t.actions :=
  .failed [] hacquiring hholding (by simp) rfl

theorem isCall_called (f : Frame) (kwargs : Kwargs) :
    ∀ x ∈ [Action.called f.interface kwargs], x.IsCall := by
  intro x hx
  rw [List.mem_singleton.mp hx]
  trivial

theorem stepBuild_moved {f : Frame} {rest : List Parameter} {kwargs : Kwargs}
    (hplace : a.place = .building f rest kwargs) (ht : stepBuild s a.stack f rest kwargs = t) :
    Moved s a r t.shared t.pc t.actions := by
  have hacquiring : a.acquiring? = none := by rw [Activity.acquiring?, hplace]; rfl
  have hholding : a.holding = f :: framesOf a.stack := by rw [Activity.holding, hplace]; rfl
  cases stepBuild_cases ht with
  | unannotated p rest kwargs => exact fail_moved hacquiring hholding
  | parameter p rest kwargs =>
    refine .still (.refl s) hacquiring rfl hholding.symm ?_ (by simp)
    intro i chain k hk
    cases hk
    exact Or.inr (Or.inr ⟨f, hholding ▸ List.mem_cons_self, rfl⟩)
  | coroutine kwargs =>
    exact .still (.refl s) hacquiring rfl hholding.symm (by simp) (isCall_called f kwargs)
  | completed kwargs =>
    exact .completed _ hacquiring hholding rfl (isCall_called f kwargs) rfl

theorem returnTo_moved {interface : PyType} {result : Except Exn Instance}
    (hplace : a.place = .answering interface result)
    (ht : returnTo s a.stack interface result = t) : Moved s a r t.shared t.pc t.actions := by
  obtain ⟨place, stack⟩ := a
  obtain rfl : place = .answering interface result := hplace
  cases returnTo_cases ht with
  | finished | body | resumed => exact .still (.refl s) rfl rfl rfl (by simp) (by simp)
  | root k stack =>
    exact .still ⟨rfl, rfl, rfl, rfl, rfl, rfl, scopes_update _ _, Nat.le_refl _, fun _ => Or.inl⟩
      rfl rfl rfl (by simp) (by simp)
  | failed => exact fail_moved rfl rfl

end Stretches

/-! ## The turns -/

inductive Turned (s : ContainerState) : Activity → Reply → Turn → Prop
  | asked {place : Place} {stack : List Caller} {scope : Option Nat} {interface : PyType} {t : Turn}
      (hrest : place.AtRest) (h : call s stack scope interface = some t) :
      Turned s ⟨place, stack⟩ (.resolve scope interface) t
  | changed {place : Place} {stack : List Caller} (op : ContainerOp) (hrest : place.AtRest) :
      Turned s ⟨place, stack⟩ (.change op) ⟨op.apply s, ⟨place, stack⟩, []⟩
  | entered (interface : PyType) (chain : ResolutionChain) (scope : Nat) (stack : List Caller) :
      Turned s ⟨.entering interface chain scope, stack⟩ .go (enter s stack interface chain scope)
  | acquired {f : Frame} (stack : List Caller) (hlock : hasLock s f.held) :
      Turned s ⟨.acquiring f, stack⟩ .go (secondCheck s stack f)
  | built (f : Frame) (rest : List Parameter) (kwargs : Kwargs) (stack : List Caller) :
      Turned s ⟨.building f rest kwargs, stack⟩ .go (stepBuild s stack f rest kwargs)
  | raisedInCall {f : Frame} (kwargs : Kwargs) (e : Exn) (stack : List Caller)
      (hcoroutine : f.target.isCoroutine ≠ true) :
      Turned s ⟨.building f [] kwargs, stack⟩ (.raise e) (raiseInCall s stack f kwargs e)
  | returned (f : Frame) (stack : List Caller) :
      Turned s ⟨.inBody f, stack⟩ .go (complete s stack f)
  | raised (f : Frame) (e : Exn) (stack : List Caller) :
      Turned s ⟨.inBody f, stack⟩ (.raise e) (fail s stack f e)
  | resolving {f : Frame} {stack : List Caller} {scope : Option Nat} {interface : PyType} {t : Turn}
      (hmay : f.target.mayResolve interface = true)
      (h : call s (.body f :: stack) scope interface = some t) :
      Turned s ⟨.inBody f, stack⟩ (.resolve scope interface) t
  | answered (interface : PyType) (result : Except Exn Instance) (stack : List Caller) :
      Turned s ⟨.answering interface result, stack⟩ .go (returnTo s stack interface result)

theorem turn_cases {s : ContainerState} {a : Activity} {r : Reply} {t : Turn}
    (h : turn s a r = some t) : Turned s a r t := by
  obtain ⟨place, stack⟩ := a
  cases place with
  | idle | finished interface result =>
    cases r with
    | resolve scope interface => exact .asked trivial h
    | change op =>
      cases h
      exact .changed op trivial
    | go | raise e => cases h
  | entering interface chain scope =>
    cases r with
    | go =>
      cases h
      exact .entered interface chain scope stack
    | resolve scope interface | raise e | change op => cases h
  | acquiring f =>
    cases r with
    | go =>
      simp only [turn] at h
      split at h
      · next hlock =>
        cases h
        exact .acquired stack hlock
      · cases h
    | resolve scope interface | raise e | change op => cases h
  | building f rest kwargs =>
    cases r with
    | go =>
      cases h
      exact .built f rest kwargs stack
    | raise e =>
      cases rest with
      | nil =>
        simp only [turn] at h
        split at h
        · cases h
        · next hcoroutine =>
          cases h
          exact .raisedInCall kwargs e stack hcoroutine
      | cons p rest => cases h
    | resolve scope interface | change op => cases h
  | inBody f =>
    cases r with
    | go =>
      cases h
      exact .returned f stack
    | raise e =>
      cases h
      exact .raised f e stack
    | resolve scope interface =>
      simp only [turn] at h
      split at h
      · next hmay => exact .resolving hmay h
      · cases h
    | change op => cases h
  | answering interface result =>
    cases r with
    | go =>
      cases h
      exact .answered interface result stack
    | resolve scope interface | raise e | change op => cases h

/-- **Every turn is one of these moves.** -/
theorem turn_moved {s : ContainerState} {a : Activity} {r : Reply} {t : Turn}
    (h : turn s a r = some t) : Moved s a r t.shared t.pc t.actions := by
  cases turn_cases h with
  | @asked place stack scope interface t hrest h =>
    cases place with
    | idle | finished => exact call_moved rfl rfl h
    | entering | acquiring | building | inBody | answering => exact hrest.elim
  | changed op => exact .changed op rfl rfl
  | entered => exact enter_moved rfl rfl
  | acquired stack hlock => exact secondCheck_moved rfl hlock rfl
  | built => exact stepBuild_moved rfl rfl
  | @raisedInCall f kwargs e stack hcoroutine =>
    exact .failed [.called f.interface kwargs] rfl rfl (isCall_called f kwargs) rfl
  | returned => exact .completed [] rfl rfl rfl (by simp) rfl
  | raised => exact fail_moved rfl rfl
  | resolving _ h => exact call_moved rfl rfl h
  | answered => exact returnTo_moved rfl rfl


namespace Moved

variable {s s' : ContainerState} {a a' : Activity} {r : Reply} {actions : List Action}

theorem frames (h : Moved s a r s' a' actions) {g : Frame} (hg : g ∈ a'.frames) :
    g ∈ a.frames ∨ (g.Registered s ∧ ∃ chain, a.place = .entering g.interface chain g.scope) := by
  have hold : ∀ {g}, g ∈ a.holding → g ∈ a.frames := fun h => Activity.mem_frames.mpr (Or.inr h)
  cases h with
  | still _ _ hacquiring' hholding _ _ =>
    rw [Activity.frames_of_not_acquiring hacquiring', hholding] at hg
    exact Or.inl (hold hg)
  | changed => exact Or.inl hg
  | unbuilt _ hholding _ =>
    have hg : g ∈ framesOf a.stack := hg
    exact Or.inl (hold (hholding ▸ hg))
  | @pushed f _ hholding hf _ hplace _ =>
    have hg : g ∈ f :: framesOf a.stack := hg
    rcases List.mem_cons.mp hg with rfl | hg
    · exact Or.inr ⟨hf, hplace⟩
    · exact Or.inl (hold (hholding ▸ hg))
  | @queued _ f _ hholding hf _ hplace _ _ _ =>
    have hg : g ∈ f :: framesOf a.stack := hg
    rcases List.mem_cons.mp hg with rfl | hg
    · obtain ⟨chain, hplace, _⟩ := hplace
      exact Or.inr ⟨hf, chain, hplace⟩
    · exact Or.inl (hold (hholding ▸ hg))
  | @checked f hplace _ _ =>
    have hg : g ∈ f :: framesOf a.stack := hg
    rw [(Activity.frames_of_acquiring hplace).2]
    exact Or.inl hg
  | @shared _ f _ hplace _ _ _ =>
    have hg : g ∈ framesOf a.stack := hg
    rw [(Activity.frames_of_acquiring hplace).2]
    exact Or.inl (List.mem_cons_of_mem f hg)
  | failed _ _ hholding _ _ | completed _ _ hholding _ _ _ =>
    refine Or.inl (hold ?_)
    rw [hholding]
    exact List.mem_cons_of_mem _ hg

theorem entering (h : Moved s a r s' a' actions) {interface : PyType} {chain : ResolutionChain}
    {k : Nat} (hplace : a'.place = .entering interface chain k) :
    a' = a ∨ k ∈ s.created ∨ k < s'.nextScope ∨ ∃ f ∈ a.frames, f.scope = k := by
  cases h with
  | still _ _ _ _ hentering _ =>
    rcases hentering interface chain k hplace with hk | hk | ⟨f, hf, hk⟩
    · exact Or.inr (Or.inl hk)
    · exact Or.inr (Or.inr (Or.inl hk))
    · exact Or.inr (Or.inr (Or.inr ⟨f, Activity.mem_frames.mpr (Or.inr hf), hk⟩))
  | changed => exact Or.inl rfl
  | unbuilt | pushed | queued | checked | shared | failed | completed => cases hplace

end Moved

end Resolver

end IraOS
