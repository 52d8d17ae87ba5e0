import IraOS.Lib.Act
import IraOS.Lifecycle.Order

/-!
# The startup phases

`boot()` and `start()` of `core/lifecycle/orchestrator.py`, with the rollback. What a hook does when
it is awaited is given from outside, one outcome for each call, so a sequence of outcomes is one
pattern of failures and timeouts. The trace has every hook that was awaited, under its component,
and every health update.

A phase orders its components first, and if that fails it reports the failure and touches nothing.
Then it brings them up one by one: three hooks each, those that the instance has. A component that
raises is marked as failed; if it is critical, those that completed the phase are rolled back in
reverse, and the phase is over, and if it is not, the phase goes on.

Which timeout applies to a hook goes by the hook's name, and a timeout of zero counts as none. A
hook that raises a timeout error of its own is reported like one that was too late.

The rollback calls the hooks of stopping for a failed `start` and those of shutting down for a
failed `boot`, whatever it meets: an exception of a hook stays with its component.
-/

set_option autoImplicit false

namespace IraOS

open Lib

structure HookOutcome where
  late : Bool
  ending : Except Exn Unit

structure LifecycleEnv where
  registry : ComponentRegistry
  outcomes : Nat → HookOutcome

structure LifecycleState where
  health : Dict String ComponentHealth
  awaited : Nat := 0

inductive LifecycleEntry where
  | hook (component : String) (hook : Hook) (result : Except Exn Unit)
  | health (component : String) (state : ComponentState)

abbrev LifecycleAct := Act LifecycleState Exn LifecycleEntry

inductive Phase where
  | boot | start
  deriving DecidableEq, Repr

namespace Phase

def hooks : Phase → List Hook
  | .boot => [.beforeBoot, .boot, .afterBoot]
  | .start => [.beforeStart, .start, .afterStart]

def inProgress : Phase → ComponentState
  | .boot => .BOOTING
  | .start => .STARTING

def success : Phase → ComponentState
  | .boot => .BOOTED
  | .start => .RUNNING

def teardown : Phase → List Hook
  | .boot => [.beforeShutdown, .shutdown, .afterShutdown]
  | .start => [.beforeStop, .stop, .afterStop]

def rollbackDetails : Phase → Text
  | .boot => lit "Rolling back boot"
  | .start => lit "Rolling back start"

end Phase

structure StartupReport where
  success : Bool
  startedComponents : List String
  failedComponent : Option String := none
  errorDetails : Option Text := none

def timeoutSet : Option PyFloat → Bool
  | none => false
  | some (.finite q) => q ≠ 0
  | some _ => true

def ComponentRegistration.timeout (c : ComponentRegistration) : Hook → Option PyFloat
  | .beforeBoot | .boot | .afterBoot | .beforeStart | .start | .afterStart => c.startupTimeout
  | .beforeStop | .stop | .afterStop | .beforeShutdown | .shutdown | .afterShutdown =>
    c.shutdownTimeout

namespace LifecycleOrchestrator

variable (env : LifecycleEnv)

def timedOut (component : ComponentRegistration) (hook : Hook) : Exn :=
  ⟨.timeoutError,
    lit ("Component '" ++ component.name ++ "' timed out during '" ++ hook.name ++ "'.")⟩

def hookResult (component : ComponentRegistration) (hook : Hook) (outcome : HookOutcome) :
    Except Exn Unit :=
  if timeoutSet (component.timeout hook) = true ∧ outcome.late = true then
    .error (timedOut component hook)
  else
    match outcome.ending with
    | .ok () => .ok ()
    | .error e => if e.cls = .timeoutError then .error (timedOut component hook) else .error e

def executeHook (component : ComponentRegistration) (hook : Hook) : LifecycleAct Unit :=
  match component.instanceHooks hook with
  | .absent => pure ()
  | .plain => Act.throw ⟨.typeError, lit ("Lifecycle hook '" ++ hook.name ++ "' on '" ++
      component.name ++ "' must be an async function.")⟩
  | .coroutine => do
    let s ← Act.get
    let result := hookResult component hook (env.outcomes s.awaited)
    Act.modify fun s => { s with awaited := s.awaited + 1 }
    Act.emit (.hook component.name hook result)
    Act.ofExcept result

def executeHooks (component : ComponentRegistration) : List Hook → LifecycleAct Unit
  | [] => pure ()
  | hook :: hooks => do
    executeHook env component hook
    executeHooks component hooks

def updateState (name : String) (state : ComponentState) (details : Text) : LifecycleAct Unit := do
  Act.modify fun s => { s with health := s.health.set name ⟨state, details⟩ }
  Act.emit (.health name state)

/-- Bring one component back down; whatever goes wrong stays with it. -/
def rollbackComponent (phase : Phase) (name : String) : LifecycleAct Unit :=
  match env.registry.get name with
  | none => pure ()
  | some component => do
    match ← Act.attempt (do
      updateState name .SHUTTING_DOWN phase.rollbackDetails
      executeHooks env component phase.teardown
      updateState name .STOPPED []) with
    | .ok () => pure ()
    | .error e => updateState name .FAILED (lit "Rollback failed: " ++ e.message)

def rollbackAll (phase : Phase) : List String → LifecycleAct Unit
  | [] => pure ()
  | name :: names => do
    rollbackComponent env phase name
    rollbackAll phase names

def rollback (phase : Phase) (startedComponents : List String) : LifecycleAct Unit :=
  rollbackAll env phase startedComponents.reverse

def bringUp (phase : Phase) (comp : ComponentRegistration) : LifecycleAct Unit := do
  executeHooks env comp phase.hooks
  updateState comp.name phase.success []

def runComponents (phase : Phase) : List ComponentRegistration → List String →
    LifecycleAct StartupReport
  | [], started => pure { success := true, startedComponents := started }
  | comp :: rest, started =>
    if comp.enabled = false then runComponents phase rest started
    else do
      updateState comp.name phase.inProgress []
      match ← Act.attempt (bringUp env phase comp) with
      | .ok () => runComponents phase rest (started ++ [comp.name])
      | .error e => do
        updateState comp.name .FAILED e.message
        if comp.critical = true then do
          rollback env phase started
          pure
            { success := false
              startedComponents := started
              failedComponent := some comp.name
              errorDetails := some e.message }
        else runComponents phase rest started

def runStartupPhase (phase : Phase) : LifecycleAct StartupReport :=
  match buildExecutionOrder env.registry with
  | .error e => pure
      { success := false, startedComponents := [], errorDetails := some e.message }
  | .ok executionOrder => runComponents env phase executionOrder []

def boot : LifecycleAct StartupReport := runStartupPhase env .boot

def start : LifecycleAct StartupReport := runStartupPhase env .start

end LifecycleOrchestrator

end IraOS
