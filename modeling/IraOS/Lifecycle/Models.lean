import IraOS.Core.Value
import Mathlib.Data.List.Sort
import Mathlib.Data.Prod.Lex
import Mathlib.Data.String.Basic

/-!
# Components

`core/lifecycle/models.py`, `core/lifecycle/states.py`, `core/lifecycle/registry.py` and
`core/lifecycle/health.py`. What a component's instance is, is which of the hooks it has and whether
they are coroutine functions; what a hook does when it is awaited is left to the run.

That a hook may be a callable which is no coroutine function is a case of its own: the orchestrator
does not call such a hook, and raises a `TypeError` instead. An attribute that is not callable
counts as absent.

The registry keeps the components in the order of their registration and refuses a second one of the
same name, so a name stands for one component (`name_inj`). Sorting is by priority and then by name,
and is stable; since names differ, stability never matters.
-/

set_option autoImplicit false

namespace IraOS

open Lib

inductive ComponentState where
  | CREATED | BOOTING | BOOTED | STARTING | RUNNING | STOPPING | STOPPED | SHUTTING_DOWN | FAILED
  | RESTARTING
  deriving DecidableEq, Repr

structure ComponentHealth where
  state : ComponentState
  details : Text := []

inductive Hook where
  | beforeBoot | boot | afterBoot
  | beforeStart | start | afterStart
  | beforeStop | stop | afterStop
  | beforeShutdown | shutdown | afterShutdown
  deriving DecidableEq, Repr

def Hook.name : Hook → String
  | .beforeBoot => "before_boot"
  | .boot => "boot"
  | .afterBoot => "after_boot"
  | .beforeStart => "before_start"
  | .start => "start"
  | .afterStart => "after_start"
  | .beforeStop => "before_stop"
  | .stop => "stop"
  | .afterStop => "after_stop"
  | .beforeShutdown => "before_shutdown"
  | .shutdown => "shutdown"
  | .afterShutdown => "after_shutdown"

/-- What `getattr(instance, hook_name)` is. Only a coroutine function is ever called; a plain
callable is an error, and anything else is passed over. -/
inductive HookKind where
  /-- Not there, or not callable. -/
  | absent
  /-- A callable that is no coroutine function. -/
  | plain
  | coroutine
  deriving DecidableEq, Repr

structure ComponentRegistration where
  name : String
  instanceHooks : Hook → HookKind
  dependencies : List String := []
  priority : Int := 0
  enabled : Bool := true
  critical : Bool := true
  startupTimeout : Option PyFloat := none
  shutdownTimeout : Option PyFloat := none

namespace ComponentRegistration

def sortKey (c : ComponentRegistration) : Int ×ₗ String := toLex (c.priority, c.name)

def sorted (cs : List ComponentRegistration) : List ComponentRegistration :=
  cs.insertionSort fun a b => a.sortKey ≤ b.sortKey

end ComponentRegistration

/-! ## The registry -/

/-- `ComponentRegistry`: the components in the order in which they were registered, each under its
own name. -/
structure ComponentRegistry where
  components : Dict String ComponentRegistration
  named : ∀ n c, components.get? n = some c → c.name = n

namespace ComponentRegistry

variable (r : ComponentRegistry)

def get (name : String) : Option ComponentRegistration := r.components.get? name

def getAll : List ComponentRegistration := r.components.values

def empty : ComponentRegistry where
  components := Dict.empty
  named := by simp

def register (registration : ComponentRegistration) : Except Exn ComponentRegistry :=
  if r.components.contains registration.name = true then
    .error ⟨.other "RegistrationError",
      lit ("Component '" ++ registration.name ++ "' is already registered.")⟩
  else .ok
    { components := r.components.set registration.name registration
      named := by
        intro n c h
        rw [Dict.get?_set] at h
        split at h
        · next hn => cases h; exact hn.symm
        · exact r.named n c h }

def ofList (registrations : List ComponentRegistration) : ComponentRegistry :=
  registrations.foldl (fun r c => (r.register c).toOption.getD r) empty

variable {r}

theorem mem_getAll {c : ComponentRegistration} : c ∈ r.getAll ↔ r.get c.name = some c := by
  rw [getAll, Dict.mem_values_iff]
  constructor
  · rintro ⟨n, hn⟩
    rw [get, r.named n c hn]
    exact hn
  · intro h
    exact ⟨c.name, h⟩

theorem get_some {n : String} {c : ComponentRegistration} (h : r.get n = some c) :
    c ∈ r.getAll ∧ c.name = n :=
  ⟨Dict.mem_values_iff.mpr ⟨n, h⟩, r.named n c h⟩

theorem name_inj {c d : ComponentRegistration} (hc : c ∈ r.getAll) (hd : d ∈ r.getAll)
    (h : c.name = d.name) : c = d := by
  have hc := mem_getAll.mp hc
  rw [h, mem_getAll.mp hd, Option.some.injEq] at hc
  exact hc.symm

theorem nodup_names : (r.getAll.map ComponentRegistration.name).Nodup := by
  have hkeys : r.getAll.map ComponentRegistration.name = r.components.keys := by
    rw [getAll, Dict.values, Dict.keys, List.map_map]
    refine List.map_congr_left ?_
    intro e he
    exact r.named e.1 e.2 (Dict.get?_of_mem_entries he)
  rw [hkeys]
  exact r.components.keys_nodup

theorem nodup_getAll : r.getAll.Nodup := List.Nodup.of_map _ nodup_names

end ComponentRegistry

end IraOS
