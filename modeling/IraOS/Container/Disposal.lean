import IraOS.Container.Registration

/-!
# Disposal

`Scope.dispose`, `Container.shutdown` and `Resolver.shutdown`, beside any number of tasks that
resolve. Both go over a dictionary of instances and await the `dispose` of each that is
`Disposable`; what a `dispose` raises is passed over. While one is awaited the dictionary can
change, and a loop over it that finds its size changed raises. Where the size is the same and the
keys are not, Python does not say what is visited: here, the keys of the beginning that are left.

A class is called for a new object; a factory returns whatever object it likes, so which object a
construction gave is up to the run (`Objects`).

## The machine

The state is the resolver's and three things besides: where each loop is, what has been built in
which call, and which objects have been disposed, in order. A label is a turn of a task, a call of
`dispose` or `shutdown`, or the next round of a loop; between any two rounds the tasks may take any
number of turns. A scope and the container are owners of a dictionary each, and one loop serves
both.

The flags are set before the first round, so from then on a call of `resolve` on that owner raises
at once, and so does the creation of a scope in a container that is shut down. **A call that is
under way goes on**, and what it builds it stores.

## What a step does

To a dictionary a turn does one of four things: nothing, it stores the instance that has been built
for the owner, it removes what is evicted with a registration, or it empties the dictionary of a
root call. That is all the later modules need to know of it (`turn_touched`).
-/

set_option autoImplicit false

namespace IraOS

open Lib Resolver

namespace Disposal

inductive Owner where
  | container
  | scope (k : Nat)
  deriving DecidableEq

/-- Which object the construction of a number returned, and which objects have a `dispose`. Both are
up to the surroundings: a factory may return an object that it, or anybody, has returned before. -/
structure Objects where
  returned : Nat → Nat
  disposable : Nat → Bool

def allDisposable : Objects where
  returned serial := serial
  disposable _ := true

def Objects.of (objects : Objects) : Instance → Nat
  | .given object => object
  | .built _ serial => objects.returned serial

def Objects.IsDisposable (objects : Objects) (inst : Instance) : Prop :=
  objects.disposable (objects.of inst) = true

instance (objects : Objects) (inst : Instance) : Decidable (objects.IsDisposable inst) :=
  inferInstanceAs (Decidable (_ = true))

/-- Where a loop over a dictionary is; `size` is what its iterator started with. -/
inductive Loop where
  | notStarted
  | next (rest : List PyType) (size : Nat)
  /-- Awaiting a `dispose`. -/
  | disposing (rest : List PyType) (size : Nat)
  /-- `RuntimeError`: dictionary changed size during iteration. -/
  | raised
  | done
  deriving DecidableEq

/-- What was built, in which call of `resolve`. -/
structure Construction where
  scope : Nat
  interface : PyType
  descriptor : ServiceDescriptor
  inst : Instance

/-- The owner whose dictionary is to have it, by the lifetime it was built with. A transient is kept
by nobody, so nobody disposes of it. -/
def Construction.owner (c : Construction) : Option Owner :=
  match c.descriptor.lifetime with
  | .SINGLETON => some .container
  | .SCOPED => some (.scope c.scope)
  | .TRANSIENT => none

def construction (f : Frame) (serial : Nat) : Construction where
  scope := f.scope
  interface := f.interface
  descriptor := f.descriptor
  inst := .built f.descriptor serial

/-- The call of `resolve` whose construction comes back with this turn. -/
def completing? (a : Activity) (r : Reply) : Option Frame :=
  match a.place, r with
  | .building f [] _, .go => if f.target.isCoroutine = true then none else some f
  | .inBody f, .go => some f
  | _, _ => none

theorem completing_go {a : Activity} {r : Reply} {f : Frame} (h : completing? a r = some f) :
    r = .go := by
  obtain ⟨place, stack⟩ := a
  cases r with
  | go => rfl
  | resolve | raise | change =>
    cases place with
    | building g rest kwargs => cases rest <;> cases h
    | idle | entering | acquiring | inBody | answering | finished => cases h

def instances (s : ContainerState) : Owner → Dict PyType Instance
  | .container => s.singletonInstances
  | .scope k => s.scopes k

/-- The end of `dispose`, or of the two `shutdown`s. -/
def clear (s : ContainerState) : Owner → ContainerState
  | .container =>
    { s with
      singletonInstances := Dict.empty
      singletonLocks := Dict.empty
      registry := Dict.empty }
  | .scope k => { s with scopes := Function.update s.scopes k Dict.empty }

structure State where
  base : Resolver.State
  /-- `_is_shutdown` and `_is_disposed` are set where the loop has started. -/
  loops : Owner → Loop := fun _ => .notStarted
  /-- What has been built, in order. -/
  made : List Construction := []
  /-- The objects whose `dispose` has been called, in order. -/
  disposals : List Nat := []

inductive Label where
  | task (i : Nat) (reply : Reply)
  /-- `dispose` or `shutdown` is called. -/
  | close (owner : Owner)
  /-- The loop goes on; what it awaited has returned or raised. -/
  | loop (owner : Owner) (outcome : Except Exn Unit)

/-- "Cannot resolve from a disposed scope." and its like: the call raises at once. -/
def State.refuses (s : State) : Reply → Bool
  | .resolve (some k) _ => s.loops (.scope k) ≠ .notStarted
  | .resolve none _ | .change .createScope => s.loops .container ≠ .notStarted
  | _ => false

def State.setLoop (s : State) (owner : Owner) (loop : Loop) : State :=
  { s with loops := Function.update s.loops owner loop }

@[simp] theorem State.setLoop_self (s : State) (owner : Owner) (loop : Loop) :
    (s.setLoop owner loop).loops owner = loop := Function.update_self ..

theorem State.setLoop_ne {s : State} {owner owner' : Owner} (h : owner' ≠ owner) (loop : Loop) :
    (s.setLoop owner loop).loops owner' = s.loops owner' := Function.update_of_ne h ..

def State.instances (s : State) (owner : Owner) : Dict PyType Instance :=
  Disposal.instances s.base.shared owner

def State.close (s : State) (owner : Owner) : State :=
  match s.loops owner with
  | .notStarted =>
    s.setLoop owner (.next (s.instances owner).keys (s.instances owner).size)
  | _ => s

/-- The next round of a loop. -/
def State.round (objects : Objects) (s : State) (owner : Owner) (size : Nat) :
    List PyType → State
  | [] => { s with base.shared := clear s.base.shared owner }.setLoop owner .done
  | interface :: rest =>
    match (s.instances owner).get? interface with
    | none => s.setLoop owner (.next rest size)
    | some inst =>
      if objects.IsDisposable inst then
        { s with disposals := s.disposals ++ [objects.of inst] }.setLoop owner
          (.disposing rest size)
      else s.setLoop owner (.next rest size)

def State.advance (objects : Objects) (s : State) (owner : Owner) (outcome : Except Exn Unit) :
    Option State :=
  match s.loops owner with
  | .next rest size =>
    if (s.instances owner).size ≠ size then some (s.setLoop owner .raised)
    else some (s.round objects owner size rest)
  | .disposing rest size =>
    match outcome with
    | .ok _ => some (s.setLoop owner (.next rest size))
    | .error _ => some (s.setLoop owner (.next rest size))
  | .notStarted | .raised | .done => none

/-- A turn of task `i`, and what it has built. -/
def State.turned (s : State) (i : Nat) (reply : Reply) (base : Resolver.State) : State :=
  { s with
    base := base
    made := s.made ++ ((completing? (s.base.pcs i) reply).toList.map fun f =>
      construction f s.base.shared.serial) }

def step (objects : Objects) (s : State) : Label → Option State
  | .task i reply =>
    if s.refuses reply = true then some s
    else (Resolver.system.step s.base (i, reply)).map (s.turned i reply)
  | .close .container => some (s.close .container)
  | .close (.scope k) => if k ∈ s.base.shared.created then some (s.close (.scope k)) else none
  | .loop owner outcome => s.advance objects owner outcome

def system (objects : Objects) : System State Label where
  step := step objects

/-- A container with these registrations, nothing built and nothing closed. -/
def initial (registry : ServiceRegistry) : State where
  base := Resolver.initial registry

/-! ## What a step does -/

theorem task_cases {objects : Objects} {s s' : State} {i : Nat} {reply : Reply}
    (h : (system objects).step s (.task i reply) = some s') :
    (s.refuses reply = true ∧ s' = s) ∨ (s.refuses reply = false ∧
      ∃ t, turn s.base.shared (s.base.pcs i) reply = some t ∧
        s' = s.turned i reply (s.base.take i t)) := by
  simp only [system, step] at h
  split at h
  · next hrefused =>
    cases h
    exact Or.inl ⟨hrefused, rfl⟩
  · next hrefused =>
    obtain ⟨base, hbase, rfl⟩ := Option.map_eq_some_iff.mp h
    obtain ⟨t, ht, rfl⟩ := Tasks.step_some hbase
    exact Or.inr ⟨by simpa using hrefused, t, ht, rfl⟩

theorem close_cases {objects : Objects} {s s' : State} {owner : Owner}
    (h : (system objects).step s (.close owner) = some s') :
    (∀ k, owner = .scope k → k ∈ s.base.shared.created) ∧ s' = s.close owner := by
  cases owner with
  | container =>
    cases h
    exact ⟨by simp, rfl⟩
  | scope k =>
    simp only [system, step] at h
    split at h
    · next hk =>
      cases h
      refine ⟨?_, rfl⟩
      rintro _ ⟨⟩
      exact hk
    · cases h


inductive Advanced (objects : Objects) (s : State) (owner : Owner) : State → Prop
  | raised {rest : List PyType} {size : Nat} (hloop : s.loops owner = .next rest size)
      (hsize : (s.instances owner).size ≠ size) :
      Advanced objects s owner (s.setLoop owner .raised)
  | done {size : Nat} (hloop : s.loops owner = .next [] size) :
      Advanced objects s owner
        ({ s with base.shared := clear s.base.shared owner }.setLoop owner .done)
  | passed {interface : PyType} {rest : List PyType} {size : Nat}
      (hloop : s.loops owner = .next (interface :: rest) size)
      (hpass : ∀ inst, (s.instances owner).get? interface = some inst →
        ¬ objects.IsDisposable inst) :
      Advanced objects s owner (s.setLoop owner (.next rest size))
  | disposing {interface : PyType} {rest : List PyType} {size : Nat} {inst : Instance}
      (hloop : s.loops owner = .next (interface :: rest) size)
      (hget : (s.instances owner).get? interface = some inst)
      (hdisposable : objects.IsDisposable inst) :
      Advanced objects s owner
        ({ s with disposals := s.disposals ++ [objects.of inst] }.setLoop owner
          (.disposing rest size))
  | returned {rest : List PyType} {size : Nat} (hloop : s.loops owner = .disposing rest size) :
      Advanced objects s owner (s.setLoop owner (.next rest size))

theorem advance_cases {objects : Objects} {s s' : State} {owner : Owner}
    {outcome : Except Exn Unit} (h : s.advance objects owner outcome = some s') :
    Advanced objects s owner s' := by
  unfold State.advance at h
  cases hloop : s.loops owner with
  | next rest size =>
    simp only [hloop] at h
    split at h
    · next hsize =>
      cases h
      exact .raised hloop hsize
    · cases h
      cases rest with
      | nil => exact .done hloop
      | cons interface rest =>
        cases hget : (s.instances owner).get? interface with
        | none =>
          simp only [State.round, hget]
          exact .passed hloop (by simp [hget])
        | some inst =>
          by_cases hdisposable : objects.IsDisposable inst
          · simp only [State.round, hget, if_pos hdisposable]
            exact .disposing hloop hget hdisposable
          · simp only [State.round, hget, if_neg hdisposable]
            refine .passed hloop ?_
            intro inst' hget'
            rw [hget] at hget'
            cases hget'
            exact hdisposable
  | disposing rest size =>
    simp only [hloop] at h
    cases outcome <;> cases h <;> exact .returned hloop
  | notStarted | raised | done =>
    simp only [hloop] at h
    cases h

/-! ## What a turn does to the dictionaries -/

inductive Touched (s : ContainerState) (a : Activity) (r : Reply) (owner : Owner)
    (d : Dict PyType Instance) : Prop
  | same (hd : d = instances s owner)
      (hother : ∀ f, completing? a r = some f → (construction f s.serial).owner ≠ some owner)
  | stored (f : Frame) (hf : completing? a r = some f)
      (howner : (construction f s.serial).owner = some owner)
      (hd : d = (instances s owner).set f.interface (.built f.descriptor s.serial))
  | evicted (interface : PyType) (howner : owner = .container)
      (hr : r = .change (.remove interface)) (hd : d = (instances s owner).erase interface)
  /-- It is that of a root call, which begins or ends. -/
  | emptied (k : Nat) (howner : owner = .scope k) (hnone : completing? a r = none)
      (hk : k = s.nextScope ∨ .root k ∈ a.stack) (hd : d = Dict.empty)

section Turns

variable {s : ContainerState} {a : Activity} {r : Reply} {t : Turn} {stack : List Caller}

theorem instances_clear_of_ne {owner owner' : Owner} (h : owner' ≠ owner) :
    instances (clear s owner) owner' = instances s owner' := by
  cases owner with
  | container =>
    cases owner' with
    | container => exact absurd rfl h
    | scope k => rfl
  | scope k =>
    cases owner' with
    | container => rfl
    | scope k' => exact Function.update_of_ne (fun hk => h (congrArg Owner.scope hk)) ..

theorem release_instances (s : ContainerState) (held : Option (Nat × Nat)) (owner : Owner) :
    instances (release s held) owner = instances s owner := by
  cases held <;> cases owner <;> rfl

theorem store_instances (s : ContainerState) (f : Frame) (serial : Nat) (owner : Owner) :
    instances (store s f (.built f.descriptor serial)) owner =
      if (construction f serial).owner = some owner then
        (instances s owner).set f.interface (.built f.descriptor serial)
      else instances s owner := by
  unfold store Construction.owner construction
  dsimp only
  cases f.descriptor.lifetime with
  | SINGLETON => cases owner <;> simp [instances]
  | TRANSIENT => simp
  | SCOPED =>
    cases owner with
    | container => simp [instances]
    | scope k =>
      by_cases hk : k = f.scope
      · subst hk
        simp [instances]
      · simp [instances, Function.update_of_ne hk, Ne.symm hk]

theorem enter_instances {interface : PyType} {chain : ResolutionChain} {k : Nat}
    (h : enter s stack interface chain k = t) (owner : Owner) :
    instances t.shared owner = instances s owner := by
  have hlock : instances (enqueue (getSingletonLock s interface).1
      (getSingletonLock s interface).2) owner = instances s owner := by
    have hkeeps := (Orderly.getSingletonLock_keeps s interface).2.1
    have hscopes := Orderly.getSingletonLock_scopes s interface
    cases owner with
    | container => exact hkeeps
    | scope k => exact congrFun hscopes k
  cases enter_cases h with
  | refused | cached | given => rfl
  | built =>
    generalize hbuild : build .. = t
    cases build_cases hbuild with
    | queued => exact hlock
    | atOnce => rfl

theorem touched_same (owner : Owner) (hnone : completing? a r = none)
    (h : instances t.shared owner = instances s owner) :
    Touched s a r owner (instances t.shared owner) := by
  refine .same h ?_
  intro f hf
  rw [hnone] at hf
  cases hf

theorem call_touched {scope : Option Nat} {interface : PyType} (owner : Owner)
    (hnone : completing? a r = none) (h : call s stack scope interface = some t) :
    Touched s a r owner (instances t.shared owner) := by
  cases call_cases h with
  | inScope => exact touched_same owner hnone rfl
  | root =>
    cases owner with
    | container => exact touched_same .container hnone rfl
    | scope k =>
      by_cases hk : k = s.nextScope
      · subst hk
        exact .emptied _ rfl hnone (Or.inl rfl) (Function.update_self ..)
      · exact touched_same _ hnone (Function.update_of_ne hk ..)

theorem complete_touched {f : Frame} (owner : Owner) (hf : completing? a r = some f) :
    Touched s a r owner (instances (complete s stack f).shared owner) := by
  have hd : instances (complete s stack f).shared owner =
      if (construction f s.serial).owner = some owner then
        (instances s owner).set f.interface (.built f.descriptor s.serial)
      else instances s owner := by
    show instances (release _ f.held) owner = _
    rw [release_instances, store_instances]
    cases owner <;> rfl
  by_cases howner : (construction f s.serial).owner = some owner
  · rw [if_pos howner] at hd
    exact .stored f hf howner hd
  · rw [if_neg howner] at hd
    refine .same hd ?_
    intro g hg
    rw [hf] at hg
    cases hg
    exact howner

theorem change_touched (op : ContainerOp) (owner : Owner) (hr : r = .change op)
    (hnone : completing? a r = none) : Touched s a r owner (instances (op.apply s) owner) := by
  cases op with
  | remove interface =>
    cases owner with
    | container => exact .evicted interface rfl hr rfl
    | scope k => exact touched_same (t := ⟨_, a, []⟩) (.scope k) hnone rfl
  | createScope =>
    cases owner with
    | container => exact touched_same (t := ⟨_, a, []⟩) .container hnone rfl
    | scope k =>
      by_cases hk : k = s.nextScope
      · subst hk
        exact .emptied _ rfl hnone (Or.inl rfl) (Function.update_self ..)
      · exact touched_same (t := ⟨_, a, []⟩) _ hnone (Function.update_of_ne hk ..)
  | registerSingleton | registerScoped | registerTransient | registerInstance | registerFactory
  | replace => exact touched_same (t := ⟨_, a, []⟩) owner hnone (by cases owner <;> rfl)

theorem turn_touched (h : turn s a r = some t) (owner : Owner) :
    Touched s a r owner (instances t.shared owner) := by
  cases turn_cases h with
  | @asked place stack scope interface t hrest h =>
    cases place with
    | idle | finished => exact call_touched owner rfl h
    | entering | acquiring | building | inBody | answering => exact hrest.elim
  | @changed place stack op hrest =>
    cases place with
    | idle | finished => exact change_touched op owner rfl rfl
    | entering | acquiring | building | inBody | answering => exact hrest.elim
  | entered => exact touched_same owner rfl (enter_instances rfl owner)
  | @acquired f stack =>
    refine touched_same owner rfl ?_
    generalize hchecked : secondCheck s stack f = t
    cases secondCheck_cases hchecked with
    | shared => exact release_instances s f.held owner
    | absent => rfl
  | built f rest kwargs stack =>
    generalize hstepped : stepBuild s stack f rest kwargs = t
    cases stepBuild_cases hstepped with
    | unannotated => exact touched_same owner rfl (release_instances s f.held owner)
    | parameter => exact touched_same owner rfl rfl
    | coroutine kwargs hcoroutine => exact touched_same owner (if_pos hcoroutine) rfl
    | completed kwargs hcoroutine =>
      show Touched s _ .go owner (instances (complete s stack f).shared owner)
      exact complete_touched owner (if_neg hcoroutine)
  | @raisedInCall f kwargs e stack hcoroutine =>
    exact touched_same owner rfl (release_instances s f.held owner)
  | returned f stack => exact complete_touched owner rfl
  | raised f e stack => exact touched_same owner rfl (release_instances s f.held owner)
  | resolving hmay h => exact call_touched owner rfl h
  | answered interface result stack =>
    generalize hreturned : returnTo s stack interface result = t
    cases returnTo_cases hreturned with
    | finished | body | resumed => exact touched_same owner rfl rfl
    | root k stack =>
      cases owner with
      | container => exact touched_same .container rfl rfl
      | scope k' =>
        by_cases hk : k' = k
        · subst hk
          exact .emptied _ rfl rfl (Or.inr (List.mem_cons_self ..)) (Function.update_self ..)
        · exact touched_same _ rfl (Function.update_of_ne hk ..)
    | failed f => exact touched_same owner rfl (release_instances s f.held owner)

end Turns

end Disposal

end IraOS
