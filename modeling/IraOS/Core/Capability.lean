import IraOS.Core.Models
import IraOS.Lib.Act

/-!
# Capabilities and the registry that holds them

`core.runtime.interfaces.Capability` with the part `MutatingCapability` adds, over whatever device
state `δ` its bridge keeps, and `core/runtime/registry.py`.

A capability is an object, and the pipeline looks it up three times by id; which object it got each
time is what several of its guarantees are about. So the registry maps ids to *references*, and two
references are one instance exactly when they are equal, however alike the objects are.

## What a capability may do

Its two methods are programs on the device: they may raise anything, and what they have changed by
then stays changed. Nothing is assumed of them. Whether a capability can undo what it did is a
question the source asks of the object itself (`supports_rollback`), which may raise as well, and an
object that is no `MutatingCapability` is never asked.

## The registry between two awaits

`register` and `unregister` write the dictionary and publish an event last, so up to that publish
they are functions of the registry (`InMemoryCapabilityRegistry.register`, `unregister`). Calls that
other tasks make while this one waits are `RegistryOp`s; one that raises leaves the registry as it
was. `register` under an id that is taken raises, so an id changes its instance only by an
`unregister` first (`get?_apply_bound`).
-/

set_option autoImplicit false

namespace IraOS

open Lib

variable {δ : Type}

abbrev DeviceAct (δ α : Type) : Type := Act δ Exn Empty α

/-- What `MutatingCapability` adds to a capability: its own opinion on whether it can undo an
outcome, and the undoing. -/
structure MutatingCapability (δ : Type) where
  supportsRollback : PyDict → Except Exn Bool
  rollback : PyDict → PyAny → DeviceAct δ Unit

structure Capability (δ : Type) where
  metadata : CapabilityMetadata
  execute : ExecutionContext → DeviceAct δ PyAny
  /-- `none`: not an instance of `MutatingCapability`. -/
  mutating : Option (MutatingCapability δ) := none

abbrev CapabilityRef := Nat

/-- The objects there are, by reference. A reference stands for the same object all through a
run. -/
abbrev Objects (δ : Type) := CapabilityRef → Capability δ

namespace InMemoryCapabilityRegistry

abbrev Capabilities := Dict String CapabilityRef

/-- `register`, up to the event it publishes last: a capability with an empty id is refused, and so
is one whose id is taken. -/
def register (objects : Objects δ) (caps : Capabilities) (inst : CapabilityRef) :
    Except Exn Capabilities :=
  let metadata := (objects inst).metadata
  if metadata.id.isEmpty then
    .error ⟨.validationError, lit "Capability must have valid metadata and ID."⟩
  else if caps.contains metadata.id then
    .error ⟨.validationError,
      lit ("Capability with ID '" ++ metadata.id ++ "' is already registered.")⟩
  else .ok (caps.set metadata.id inst)

def unregister (caps : Capabilities) (capabilityId : String) : Except Exn Capabilities :=
  if caps.contains capabilityId then .ok (caps.erase capabilityId)
  else .error ⟨.capabilityNotFoundError, lit ("Capability '" ++ capabilityId ++ "' not found.")⟩

def lookup (caps : Capabilities) (capabilityId : String) : Except Exn CapabilityRef :=
  match caps.get? capabilityId with
  | some inst => .ok inst
  | none =>
      .error ⟨.capabilityNotFoundError, lit ("Capability '" ++ capabilityId ++ "' not found.")⟩

theorem lookup_ok {caps : Capabilities} {capabilityId : String} {inst : CapabilityRef}
    (h : lookup caps capabilityId = .ok inst) : caps.get? capabilityId = some inst := by
  unfold lookup at h
  split at h
  · next hg => rw [hg, Except.ok.inj h]
  · exact absurd h (by simp)

theorem lookup_of_get? {caps : Capabilities} {capabilityId : String} {inst : CapabilityRef}
    (h : caps.get? capabilityId = some inst) : lookup caps capabilityId = .ok inst := by
  rw [lookup, h]

end InMemoryCapabilityRegistry

/-- What another task can do to the registry while this one waits: `register` or `unregister`, with
any arguments. -/
inductive RegistryOp where
  | register (inst : CapabilityRef)
  | unregister (capabilityId : String)

namespace RegistryOp

open InMemoryCapabilityRegistry

def apply (objects : Objects δ) (caps : Capabilities) : RegistryOp → Capabilities
  | .register inst => (InMemoryCapabilityRegistry.register objects caps inst).toOption.getD caps
  | .unregister id => (InMemoryCapabilityRegistry.unregister caps id).toOption.getD caps

def target (objects : Objects δ) : RegistryOp → String
  | .register inst => (objects inst).metadata.id
  | .unregister id => id

def applyAll (objects : Objects δ) (caps : Capabilities) (ops : List RegistryOp) : Capabilities :=
  ops.foldl (apply objects) caps

/-- An operation leaves every id but its target alone, whether it raises or not. -/
theorem get?_apply_ne {objects : Objects δ} {caps : Capabilities} {op : RegistryOp} {id : String}
    (h : op.target objects ≠ id) : (op.apply objects caps).get? id = caps.get? id := by
  cases op with
  | register inst =>
    simp only [apply, InMemoryCapabilityRegistry.register]
    split
    · rfl
    · split
      · rfl
      · exact Dict.get?_set_ne (Ne.symm h)
  | unregister id' =>
    simp only [apply, InMemoryCapabilityRegistry.unregister]
    split
    · exact Dict.get?_erase_ne (Ne.symm h)
    · rfl

theorem get?_applyAll_ne {objects : Objects δ} {id : String} {ops : List RegistryOp}
    {caps : Capabilities} (h : ∀ op ∈ ops, op.target objects ≠ id) :
    (applyAll objects caps ops).get? id = caps.get? id := by
  induction ops generalizing caps with
  | nil => rfl
  | cons op ops ih =>
    obtain ⟨hop, hops⟩ := List.forall_mem_cons.mp h
    exact (ih hops).trans (get?_apply_ne hop)

/-- An id that stands for an instance and is not unregistered still stands for it: a `register`
under an id that is taken raises. -/
theorem get?_apply_bound {objects : Objects δ} {caps : Capabilities} {op : RegistryOp} {id : String}
    {inst : CapabilityRef} (hbound : caps.get? id = some inst) (hop : op ≠ .unregister id) :
    (op.apply objects caps).get? id = some inst := by
  by_cases ht : op.target objects = id
  · cases op with
    | unregister id' => exact absurd (congrArg unregister ht) hop
    | register i =>
      have htaken : caps.contains (objects i).metadata.id = true := by
        rw [show (objects i).metadata.id = id from ht, Dict.contains_iff]
        exact ⟨inst, hbound⟩
      simp only [apply, InMemoryCapabilityRegistry.register, htaken]
      split <;> exact hbound
  · rw [get?_apply_ne ht, hbound]

theorem get?_applyAll_bound {objects : Objects δ} {id : String} {ops : List RegistryOp}
    {caps : Capabilities} {inst : CapabilityRef} (hbound : caps.get? id = some inst)
    (hkept : .unregister id ∉ ops) : (applyAll objects caps ops).get? id = some inst := by
  induction ops generalizing caps with
  | nil => exact hbound
  | cons op ops ih =>
    rw [List.mem_cons, not_or] at hkept
    exact ih (get?_apply_bound hbound (Ne.symm hkept.1)) hkept.2

end RegistryOp

end IraOS
