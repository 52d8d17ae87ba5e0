import IraOS.Core.Value
import IraOS.Lib.Settle

/-!
# Service descriptors

`core/container/lifetime.py` and `core/container/registration.py`. A class or a factory is what
`inspect` finds out about it: its name, its parameters in order with their annotated types, and
whether it is a coroutine function. What a coroutine function asks the container for while it runs
cannot be seen from outside; it is a field of its own, which only statements look at.

A type is known by which one it is; its name and its `str()` are for messages, and two types may
have the same. A descriptor is known by which object it is too, since registering the same class
twice gives two descriptors, and a statement about the current one has to tell them apart. An
instance is the object that was registered, or the product of one construction, known by the number
of that construction.

A registry has what is to be built as a graph (`graph`): for every interface the types of the
parameters that have to be resolved, each with whether there is a default to fall back on.
-/

set_option autoImplicit false

namespace IraOS

open Lib

/-- The words by which the validator knows a circular dependency when it has caught one. -/
def circularPhrase : String := "Circular dependency detected"

/-- A type used as an interface: which one, its `__name__` and its `str()`. Both are any text at
all: `type("a b", (), {})` is a class of that name. -/
structure PyType where
  ref : Nat
  name : String
  str : String
  deriving DecidableEq

/-- `resolution_chain`, its newest first; the source keeps a set, and what it writes of the chain is
in the order of that set. -/
abbrev ResolutionChain := List PyType

namespace ResolutionChain

def str (chain : ResolutionChain) (interface : PyType) : String :=
  String.intercalate " -> " (chain.map fun t => t.name) ++ " -> " ++ interface.name

/-- What both walks say of a cycle. -/
def circularMessage (chain : ResolutionChain) (interface : PyType) : String :=
  circularPhrase ++ ": " ++ chain.str interface

end ResolutionChain

inductive Lifetime where
  | SINGLETON | SCOPED | TRANSIENT
  deriving DecidableEq, Repr

/-- `inspect.Parameter`, its annotation as `get_type_hints` resolves it. -/
structure Parameter where
  name : String
  annotation : Option PyType
  hasDefault : Bool := false
  deriving DecidableEq

/-- A class or a factory, as `inspect` and `get_type_hints` see it. That it may resolve something
while it runs cannot be seen and is not used by the resolver. -/
structure Target where
  name : String
  signature : List Parameter
  isCoroutine : Bool := false
  /-- What it may resolve from the container while it runs. -/
  mayResolve : PyType → Bool := fun _ => false

namespace Target

/-- The parameters the loop does not pass over. -/
def parameters (target : Target) : List Parameter :=
  target.signature.filter fun p => p.name ≠ "self"

def needs (target : Target) : List (Need PyType) :=
  target.parameters.map fun p => ⟨p.annotation, p.hasDefault⟩

end Target

inductive Provider where
  | implementation (target : Target)
  | instance (object : Nat)
  | factory (target : Target)

/-- `ServiceDescriptor`: which object it is, and what it says. -/
structure ServiceDescriptor where
  ref : Nat
  interface : PyType
  lifetime : Lifetime
  provider : Provider

namespace ServiceDescriptor

def instance? (d : ServiceDescriptor) : Option Nat :=
  match d.provider with
  | .instance object => some object
  | .implementation _ | .factory _ => none

def target? (d : ServiceDescriptor) : Option Target :=
  match d.provider with
  | .instance _ => none
  | .implementation target | .factory target => some target

end ServiceDescriptor

theorem ServiceDescriptor.instance?_of_target? {d : ServiceDescriptor} {target : Target}
    (h : d.target? = some target) : d.instance? = none := by
  unfold ServiceDescriptor.target? at h
  unfold ServiceDescriptor.instance?
  cases hp : d.provider with
  | implementation | factory => rfl
  | «instance» =>
    rw [hp] at h
    cases h

/-- An object the container hands out: one it was given, or the product of one construction. -/
inductive Instance where
  | given (object : Nat)
  | built (origin : ServiceDescriptor) (serial : Nat)

/-- The object is what this very descriptor provides. -/
def ServiceDescriptor.Produces (d : ServiceDescriptor) : Instance → Prop
  | .given object => d.instance? = some object
  | .built origin _ => origin = d

abbrev ServiceRegistry := Dict PyType ServiceDescriptor

namespace ServiceRegistry

/-- What the registry says of an interface. -/
def graph (registry : ServiceRegistry) (interface : PyType) : Node PyType :=
  match registry.get? interface with
  | none => .missing
  | some d =>
    match d.target? with
    | none => .leaf
    | some target => .built target.needs

variable {registry : ServiceRegistry} {interface : PyType} {d : ServiceDescriptor}
  {target : Target}

theorem graph_missing (h : registry.get? interface = none) :
    registry.graph interface = .missing := by
  rw [graph, h]

theorem graph_leaf (h : registry.get? interface = some d) (ht : d.target? = none) :
    registry.graph interface = .leaf := by
  rw [graph, h]
  simp only [ht]

theorem graph_built (h : registry.get? interface = some d) (ht : d.target? = some target) :
    registry.graph interface = .built target.needs := by
  rw [graph, h]
  simp only [ht]

end ServiceRegistry

end IraOS
