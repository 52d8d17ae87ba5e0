import IraOS.Container.Models
import IraOS.Lib.Tasks

/-!
# The container and its resolver

`core/container/container.py` and `core/container/resolver.py`, with any number of tasks resolving
at once. `Resolver.resolve` calls itself for every parameter, so a task is a place in the code and
the stack of the calls that wait for it. A coroutine function that is called to build something may
itself resolve from the container before it returns or raises; what it does is up to the run.

**Any task may go on between any two steps**, which is more than the event loop lets happen: it
switches only at a lock that is taken and inside a coroutine function. What holds of every run here
holds of every run of the loop.

## Where a task can be

Between two turns a task has just called `resolve`, waits for a lock, is before one of the
parameters in `_build`, is in the coroutine function that `_build` awaits, or is about to return
from a `resolve`. `Caller` says who is waiting for the call on top: `Container.resolve`, with the
dictionary it made for it; a `_build` with its loop over the parameters; or a coroutine function.
`Scope.resolve` has nothing to do when its call returns, and is not among them.

A `_build` catches what the call for a parameter raises by its class: a cycle goes through, any
other `ResolutionError` is made up for by the default, if there is one, and everything else goes
through.

## Errors

The texts are those of the source, but for the chain of a cycle, which the source writes in the
order of a set.
-/

set_option autoImplicit false

namespace IraOS

open Lib

/-- The container, with the resolver it has. An `asyncio.Lock` is the tickets of the calls of
`acquire` that have not been released yet, oldest first: the first holds the lock, the others
wait. -/
structure ContainerState where
  registry : ServiceRegistry
  singletonInstances : Dict PyType Instance := Dict.empty
  singletonLocks : Dict PyType Nat := Dict.empty
  locks : Nat → List Nat := fun _ => []
  nextLock : Nat := 0
  nextTicket : Nat := 0
  /-- The dictionaries of scoped instances, a scope's own and those of root resolves. -/
  scopes : Nat → Dict PyType Instance := fun _ => Dict.empty
  nextScope : Nat := 0
  /-- The dictionaries `create_scope` made. -/
  created : List Nat := []
  nextRef : Nat := 0
  /-- How many constructions have succeeded. -/
  serial : Nat := 0

/-! ## Registration -/

namespace Container

variable (s : ContainerState) (interface : PyType)

def register (lifetime : Lifetime) (provider : Provider) : ContainerState :=
  { s with
    registry := s.registry.set interface ⟨s.nextRef, interface, lifetime, provider⟩
    nextRef := s.nextRef + 1 }

/-- `register_singleton`, given the class `implementation or interface` is. -/
def registerSingleton (impl : Target) : ContainerState :=
  register s interface .SINGLETON (.implementation impl)

def registerScoped (impl : Target) : ContainerState :=
  register s interface .SCOPED (.implementation impl)

def registerTransient (impl : Target) : ContainerState :=
  register s interface .TRANSIENT (.implementation impl)

def registerInstance (object : Nat) : ContainerState :=
  register s interface .SINGLETON (.instance object)

def registerFactory (factory : Target) (lifetime : Lifetime) : ContainerState :=
  register s interface lifetime (.factory factory)

def evictSingleton : ContainerState :=
  { s with
    singletonInstances := s.singletonInstances.erase interface
    singletonLocks := s.singletonLocks.erase interface }

def remove : ContainerState :=
  evictSingleton { s with registry := s.registry.erase interface } interface

def replace (descriptor : ServiceDescriptor) : ContainerState :=
  { s with registry := s.registry.set interface descriptor }

def createScope : ContainerState :=
  { s with
    scopes := Function.update s.scopes s.nextScope Dict.empty
    nextScope := s.nextScope + 1
    created := s.nextScope :: s.created }

end Container

inductive ContainerOp where
  | registerSingleton (interface : PyType) (impl : Target)
  | registerScoped (interface : PyType) (impl : Target)
  | registerTransient (interface : PyType) (impl : Target)
  | registerInstance (interface : PyType) (object : Nat)
  | registerFactory (interface : PyType) (factory : Target) (lifetime : Lifetime)
  | remove (interface : PyType)
  | replace (interface : PyType) (descriptor : ServiceDescriptor)
  | createScope

namespace ContainerOp

def apply (s : ContainerState) : ContainerOp → ContainerState
  | .registerSingleton interface impl => Container.registerSingleton s interface impl
  | .registerScoped interface impl => Container.registerScoped s interface impl
  | .registerTransient interface impl => Container.registerTransient s interface impl
  | .registerInstance interface object => Container.registerInstance s interface object
  | .registerFactory interface factory lifetime =>
    Container.registerFactory s interface factory lifetime
  | .remove interface => Container.remove s interface
  | .replace interface descriptor => Container.replace s interface descriptor
  | .createScope => Container.createScope s

def changes : ContainerOp → Option PyType
  | .registerSingleton interface _ | .registerScoped interface _ | .registerTransient interface _
  | .registerInstance interface _ | .registerFactory interface _ _ | .remove interface
  | .replace interface _ => some interface
  | .createScope => none

end ContainerOp

/-! ## Resolution -/

namespace Resolver

/-- A call of `resolve` that is past its checks, with the `_build` it awaits. It keeps the
descriptor it has looked up, whatever is registered meanwhile. -/
structure Frame where
  interface : PyType
  descriptor : ServiceDescriptor
  target : Target
  /-- `new_resolution_chain`. -/
  chain : ResolutionChain
  /-- `scoped_instances`. -/
  scope : Nat
  /-- The lock it is in, or waits for, and its ticket there. -/
  held : Option (Nat × Nat)

/-- What is passed for a parameter. -/
inductive Argument where
  | resolved (inst : Instance)
  | default

abbrev Kwargs := List (String × Argument)

/-- A call waiting for the one above it. -/
inductive Caller where
  /-- `Container.resolve`, with a dictionary of its own. -/
  | root (scope : Nat)
  /-- Who waits for the call above it, and goes on with what that returns or raises. -/
  | parameter (frame : Frame) (p : Parameter) (rest : List Parameter) (kwargs : Kwargs)
  /-- The coroutine function `_build` awaits. -/
  | body (frame : Frame)

inductive Place where
  | idle
  /-- `resolve` has been called. -/
  | entering (interface : PyType) (chain : ResolutionChain) (scope : Nat)
  /-- `async with lock`. -/
  | acquiring (frame : Frame)
  /-- `_build`, before the first of these parameters. -/
  | building (frame : Frame) (rest : List Parameter) (kwargs : Kwargs)
  /-- In the coroutine function. -/
  | inBody (frame : Frame)
  /-- `resolve` is about to return or raise. -/
  | answering (interface : PyType) (result : Except Exn Instance)
  | finished (interface : PyType) (result : Except Exn Instance)

structure Activity where
  place : Place
  stack : List Caller

/-- What a task hears: to go on, to resolve something (with the scope whose `resolve` it is, or the
container's), that what it called raises, or to change a registration. -/
inductive Reply where
  | go
  | resolve (scope : Option Nat) (interface : PyType)
  | raise (e : Exn)
  | change (op : ContainerOp)

inductive Action where
  /-- A class or a factory was called. -/
  | called (interface : PyType) (kwargs : Kwargs)
  /-- It returned. -/
  | constructed (interface : PyType) (inst : Instance)
  /-- `resolve` returned or raised. -/
  | answered (interface : PyType) (result : Except Exn Instance)

abbrev Turn := Lib.Turn ContainerState Activity Action

/-! ### Errors -/

def circularDependency (chain : ResolutionChain) (interface : PyType) : Exn :=
  ⟨.circularDependencyError, lit (chain.circularMessage interface)⟩

def noRegistration (interface : PyType) : Exn :=
  ⟨.resolutionError, lit ("No registration found for " ++ interface.name)⟩

def unannotated (p : Parameter) (target : Target) : Exn :=
  ⟨.resolutionError,
    lit ("Parameter '" ++ p.name ++ "' in " ++ target.name ++ " lacks type annotation.")⟩

def cannotResolve (p : Parameter) (target : Target) : Exn :=
  ⟨.resolutionError, lit ("Cannot resolve parameter '" ++ p.name ++ "' of type " ++
    (p.annotation.map fun t => t.str).getD "" ++ " for " ++ target.name)⟩

/-! ### One call of `resolve` -/

section Call

variable (s : ContainerState) (stack : List Caller)

def answer (interface : PyType) (result : Except Exn Instance) : Turn :=
  ⟨s, ⟨.answering interface result, stack⟩, [.answered interface result]⟩

/-- Leave the lock, if there is one; whoever has waited longest gets it. A transient and a scoped
service are built without one. -/
def release (held : Option (Nat × Nat)) : ContainerState :=
  match held with
  | none => s
  | some (lock, _) => { s with locks := Function.update s.locks lock (s.locks lock).tail }

def fail (frame : Frame) (e : Exn) : Turn :=
  answer (release s frame.held) stack frame.interface (.error e)

/-- `self._singleton_instances[interface] = instance` or its like. -/
def store (frame : Frame) (inst : Instance) : ContainerState :=
  match frame.descriptor.lifetime with
  | .SINGLETON =>
    { s with singletonInstances := s.singletonInstances.set frame.interface inst }
  | .SCOPED =>
    { s with
      scopes := Function.update s.scopes frame.scope
        ((s.scopes frame.scope).set frame.interface inst) }
  | .TRANSIENT => s

def complete (frame : Frame) : Turn :=
  let inst := Instance.built frame.descriptor s.serial
  let stored := store { s with serial := s.serial + 1 } frame inst
  ⟨release stored frame.held, ⟨.answering frame.interface (.ok inst), stack⟩,
    [.constructed frame.interface inst, .answered frame.interface (.ok inst)]⟩

def cached (d : ServiceDescriptor) (interface : PyType) (scope : Nat) : Option Instance :=
  match d.lifetime with
  | .SINGLETON => s.singletonInstances.get? interface
  | .SCOPED => (s.scopes scope).get? interface
  | .TRANSIENT => none

def getSingletonLock (interface : PyType) : ContainerState × Nat :=
  match s.singletonLocks.get? interface with
  | some lock => (s, lock)
  | none =>
    ({ s with
        singletonLocks := s.singletonLocks.set interface s.nextLock
        nextLock := s.nextLock + 1 }, s.nextLock)

def enqueue (lock : Nat) : ContainerState :=
  { s with
    locks := Function.update s.locks lock (s.locks lock ++ [s.nextTicket])
    nextTicket := s.nextTicket + 1 }

def build (interface : PyType) (chain : ResolutionChain) (scope : Nat) (d : ServiceDescriptor)
    (target : Target) : Turn :=
  if d.lifetime = .SINGLETON then
    let (s, lock) := getSingletonLock s interface
    ⟨enqueue s lock, ⟨.acquiring
      { interface := interface, descriptor := d, target := target, chain := interface :: chain,
        scope := scope, held := some (lock, s.nextTicket) }, stack⟩, []⟩
  else
    ⟨s, ⟨.building
      { interface := interface, descriptor := d, target := target, chain := interface :: chain,
        scope := scope, held := none } target.parameters [], stack⟩, []⟩

/-- `resolve`, up to its first wait. -/
def enter (interface : PyType) (chain : ResolutionChain) (scope : Nat) : Turn :=
  if interface ∈ chain then
    answer s stack interface (.error (circularDependency chain interface))
  else
    match s.registry.get? interface with
    | none => answer s stack interface (.error (noRegistration interface))
    | some d =>
      match cached s d interface scope with
      | some inst => answer s stack interface (.ok inst)
      | none =>
        match d.provider with
        | .instance object => answer s stack interface (.ok (.given object))
        | .implementation target | .factory target =>
          build s stack interface chain scope d target

/-- In the lock: the second check. -/
def secondCheck (frame : Frame) : Turn :=
  match s.singletonInstances.get? frame.interface with
  | some inst => answer (release s frame.held) stack frame.interface (.ok inst)
  | none => ⟨s, ⟨.building frame frame.target.parameters [], stack⟩, []⟩

/-- One round of the loop over the parameters, or the call after it. -/
def stepBuild (frame : Frame) (rest : List Parameter) (kwargs : Kwargs) : Turn :=
  match rest with
  | p :: rest =>
    match p.annotation with
    | none => fail s stack frame (unannotated p frame.target)
    | some t =>
      ⟨s, ⟨.entering t frame.chain frame.scope, .parameter frame p rest kwargs :: stack⟩, []⟩
  | [] =>
    if frame.target.isCoroutine = true then
      ⟨s, ⟨.inBody frame, stack⟩, [.called frame.interface kwargs]⟩
    else
      let done := complete s stack frame
      { done with actions := .called frame.interface kwargs :: done.actions }

def raiseInCall (frame : Frame) (kwargs : Kwargs) (e : Exn) : Turn :=
  let failed := fail s stack frame e
  { failed with actions := .called frame.interface kwargs :: failed.actions }

def returnTo (interface : PyType) (result : Except Exn Instance) : Turn :=
  match stack with
  | [] => ⟨s, ⟨.finished interface result, []⟩, []⟩
  | .root scope :: stack =>
    -- the dictionary goes with the call
    ⟨{ s with scopes := Function.update s.scopes scope Dict.empty },
      ⟨.answering interface result, stack⟩, []⟩
  | .parameter frame p rest kwargs :: stack =>
    match result with
    | .ok inst =>
      ⟨s, ⟨.building frame rest (kwargs ++ [(p.name, .resolved inst)]), stack⟩, []⟩
    | .error e =>
      if e.cls = .circularDependencyError then fail s stack frame e
      else if e.cls = .resolutionError then
        if p.hasDefault = true then
          ⟨s, ⟨.building frame rest (kwargs ++ [(p.name, .default)]), stack⟩, []⟩
        else fail s stack frame (cannotResolve p frame.target)
      else fail s stack frame e
  | .body frame :: stack => ⟨s, ⟨.inBody frame, stack⟩, []⟩

def call (scope : Option Nat) (interface : PyType) : Option Turn :=
  match scope with
  | some scope =>
    if scope ∈ s.created then some ⟨s, ⟨.entering interface [] scope, stack⟩, []⟩ else none
  | none => some
      ⟨{ s with
          scopes := Function.update s.scopes s.nextScope Dict.empty
          nextScope := s.nextScope + 1 },
        ⟨.entering interface [] s.nextScope, .root s.nextScope :: stack⟩, []⟩

end Call

/-! ### The tasks -/

def hasLock (s : ContainerState) (held : Option (Nat × Nat)) : Prop :=
  ∃ lock ticket, held = some (lock, ticket) ∧ (s.locks lock).head? = some ticket

instance (s : ContainerState) (held : Option (Nat × Nat)) : Decidable (hasLock s held) :=
  match held with
  | none => .isFalse fun ⟨_, _, h, _⟩ => by cases h
  | some (lock, ticket) =>
    decidable_of_iff ((s.locks lock).head? = some ticket)
      ⟨fun h => ⟨lock, ticket, rfl, h⟩, fun ⟨_, _, hq, h⟩ => by cases hq; exact h⟩

def turn (s : ContainerState) (a : Activity) (reply : Reply) : Option Turn :=
  match a.place, reply with
  | .idle, .resolve scope interface | .finished _ _, .resolve scope interface =>
    call s a.stack scope interface
  | .idle, .change op | .finished _ _, .change op => some ⟨op.apply s, a, []⟩
  | .entering interface chain scope, .go => some (enter s a.stack interface chain scope)
  | .acquiring frame, .go =>
    if hasLock s frame.held then some (secondCheck s a.stack frame) else none
  | .building frame rest kwargs, .go => some (stepBuild s a.stack frame rest kwargs)
  | .building frame [] kwargs, .raise e =>
    if frame.target.isCoroutine = true then none else some (raiseInCall s a.stack frame kwargs e)
  | .inBody frame, .go => some (complete s a.stack frame)
  | .inBody frame, .raise e => some (fail s a.stack frame e)
  | .inBody frame, .resolve scope interface =>
    if frame.target.mayResolve interface = true then
      call s (.body frame :: a.stack) scope interface
    else none
  | .answering interface result, .go => some (returnTo s a.stack interface result)
  | _, _ => none

abbrev State := Tasks.State ContainerState Activity Action

/-- A label is the task that goes on and what it hears, so a run is one interleaving. -/
def system : System State (Nat × Reply) := Tasks.system fun _ => turn

/-- A container with these registrations and nothing built, and no task in it. -/
def initial (registry : ServiceRegistry) : State where
  shared := { registry := registry }
  pcs _ := ⟨.idle, []⟩
  log := []

end Resolver

end IraOS
