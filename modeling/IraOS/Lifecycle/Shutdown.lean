import IraOS.Lifecycle.Orchestrator

/-!
# The shutdown phases and the manager

`stop()`, `shutdown()` and `restart()` of `core/lifecycle/orchestrator.py`, and the facade
`core/lifecycle/manager.py` over the registry, the health monitor and the orchestrator. Unlike a
startup phase, a shutdown phase goes on whatever a component raises, and it has an order even where
the dependencies have none.

That order is by priority, and reversed like the other, for a registry whose dependencies cannot be
ordered: such a registry is not started, but its components may have been registered or updated
since they were.

The facade adds the health record of a new component, and nothing else to most calls. Updating a
component goes through keyword arguments, of which a name that the registration does not have, or
may not change, raises. `restart` is a stop and a start, and its answer is whether the start
succeeded, if the stop did.
-/

set_option autoImplicit false

namespace IraOS

open Lib

inductive ShutdownPhase where
  | stop | shutdown
  deriving DecidableEq, Repr

namespace ShutdownPhase

def name : ShutdownPhase → String
  | .stop => "stop"
  | .shutdown => "shutdown"

def hooks : ShutdownPhase → List Hook
  | .stop => [.beforeStop, .stop, .afterStop]
  | .shutdown => [.beforeShutdown, .shutdown, .afterShutdown]

def inProgress : ShutdownPhase → ComponentState
  | .stop => .STOPPING
  | .shutdown => .SHUTTING_DOWN

end ShutdownPhase

structure ShutdownReport where
  success : Bool
  stoppedComponents : List String
  errors : Dict String Text

namespace LifecycleOrchestrator

variable (env : LifecycleEnv)

/-- The order to shut down in: the execution order reversed, and by priority, reversed too, where
there is none. -/
def shutdownOrder (r : ComponentRegistry) : List ComponentRegistration :=
  match buildExecutionOrder r with
  | .ok executionOrder => executionOrder.reverse
  | .error _ => (ComponentRegistration.sorted r.getAll).reverse

def takeDown (phase : ShutdownPhase) (comp : ComponentRegistration) : LifecycleAct Unit := do
  executeHooks env comp phase.hooks
  updateState comp.name .STOPPED []

def stopComponents (phase : ShutdownPhase) : List ComponentRegistration → List String →
    Dict String Text → LifecycleAct ShutdownReport
  | [], stopped, errors => pure
      { success := decide (errors.size = 0), stoppedComponents := stopped, errors := errors }
  | comp :: rest, stopped, errors =>
    if comp.enabled = false then stopComponents phase rest stopped errors
    else do
      updateState comp.name phase.inProgress []
      match ← Act.attempt (takeDown env phase comp) with
      | .ok () => stopComponents phase rest (stopped ++ [comp.name]) errors
      | .error e => do
        updateState comp.name .FAILED (lit ("Failed to " ++ phase.name ++ ": ") ++ e.message)
        stopComponents phase rest stopped (errors.set comp.name e.message)

def runShutdownPhase (phase : ShutdownPhase) : LifecycleAct ShutdownReport :=
  stopComponents env phase (shutdownOrder env.registry) [] Dict.empty

def stop : LifecycleAct ShutdownReport := runShutdownPhase env .stop

def shutdown : LifecycleAct ShutdownReport := runShutdownPhase env .shutdown

def restart : LifecycleAct Bool := do
  let shutdownReport ← stop env
  if shutdownReport.success = false then pure false
  else do
    let startupReport ← start env
    pure startupReport.success

end LifecycleOrchestrator

/-! ## core/lifecycle/manager.py -/

/-- The keyword arguments of an update; `others` are those `ComponentRegistration` has no field for,
or has one that must not change. -/
structure ComponentUpdate where
  dependencies : Option (List String) := none
  priority : Option Int := none
  enabled : Option Bool := none
  critical : Option Bool := none
  startupTimeout : Option (Option PyFloat) := none
  shutdownTimeout : Option (Option PyFloat) := none
  others : List String := []

def ComponentUpdate.apply (u : ComponentUpdate) (current : ComponentRegistration) :
    ComponentRegistration where
  name := current.name
  instanceHooks := current.instanceHooks
  dependencies := u.dependencies.getD current.dependencies
  priority := u.priority.getD current.priority
  enabled := u.enabled.getD current.enabled
  critical := u.critical.getD current.critical
  startupTimeout := u.startupTimeout.getD current.startupTimeout
  shutdownTimeout := u.shutdownTimeout.getD current.shutdownTimeout

namespace ComponentRegistry

def remove (r : ComponentRegistry) (name : String) : ComponentRegistry where
  components := r.components.erase name
  named := by
    intro n c h
    rw [Dict.get?_erase] at h
    split at h
    · cases h
    · exact r.named n c h

def update (r : ComponentRegistry) (name : String) (u : ComponentUpdate) :
    Except Exn ComponentRegistry :=
  match hc : r.components.get? name with
  | none => .error ⟨.other "RegistrationError",
      lit ("Component '" ++ name ++ "' not found for update.")⟩
  | some current =>
    match u.others with
    | k :: _ => .error ⟨.other "RegistrationError",
        lit ("Cannot update field '" ++ k ++ "' on ComponentRegistration.")⟩
    | [] => .ok
      { components := r.components.set name (u.apply current)
        named := by
          intro n c h
          rw [Dict.get?_set] at h
          split at h
          · next hn =>
            cases h
            rw [hn]
            exact r.named name current hc
          · exact r.named n c h }

end ComponentRegistry

namespace LifecycleManager

structure State where
  registry : ComponentRegistry := ComponentRegistry.empty
  life : LifecycleState := { health := Dict.empty }

abbrev Op (α : Type) := Act State Exn LifecycleEntry α

variable (outcomes : Nat → HookOutcome)

def orchestrate {α : Type} (m : LifecycleEnv → LifecycleAct α) : Op α := fun s =>
  let run := m ⟨s.registry, outcomes⟩ s.life
  ⟨run.result, { s with life := run.state }, run.trace⟩

def register (registration : ComponentRegistration) : Op Unit := do
  let s ← Act.get
  let registry ← Act.ofExcept (s.registry.register registration)
  Act.modify fun s => { s with registry := registry }
  orchestrate outcomes fun _ => LifecycleOrchestrator.updateState registration.name .CREATED []

def remove (name : String) : Op Unit :=
  Act.modify fun s => { s with registry := s.registry.remove name }

def update (name : String) (u : ComponentUpdate) : Op Unit := do
  let s ← Act.get
  let registry ← Act.ofExcept (s.registry.update name u)
  Act.modify fun s => { s with registry := registry }

def State.state (s : State) (name : String) : Option ComponentState :=
  (s.life.health.get? name).map ComponentHealth.state

inductive Call where
  | register (registration : ComponentRegistration)
  | remove (name : String)
  | update (name : String) (u : ComponentUpdate)
  | boot | start | stop | shutdown | restart

def Call.run : Call → Op Unit
  | .register registration => LifecycleManager.register outcomes registration
  | .remove name => LifecycleManager.remove name
  | .update name u => LifecycleManager.update name u
  | .boot => do let _ ← orchestrate outcomes LifecycleOrchestrator.boot
  | .start => do let _ ← orchestrate outcomes LifecycleOrchestrator.start
  | .stop => do let _ ← orchestrate outcomes LifecycleOrchestrator.stop
  | .shutdown => do let _ ← orchestrate outcomes LifecycleOrchestrator.shutdown
  | .restart => do let _ ← orchestrate outcomes LifecycleOrchestrator.restart

def runAll : State → List Call → State × List LifecycleEntry
  | s, [] => (s, [])
  | s, call :: calls =>
    let run := call.run outcomes s
    ((runAll run.state calls).1, run.trace ++ (runAll run.state calls).2)

end LifecycleManager

end IraOS
