import IraOS.Core.Value
import IraOS.Lib.Buckets
import IraOS.Lib.Tasks

/-!
# The event bus

`EventBus` and its `Dispatcher` (`core/events/bus.py`, `dispatcher.py`). A publish goes through the
middlewares one inside the other: each is given the rest of the chain as a function, and may call it
or not, with the event or another one, and do what it likes before and after. So what a middleware
does next is given with its turn, and so is which handler goes on; in between anybody may subscribe,
unsubscribe, add a middleware or publish.

The dispatcher takes its handlers from the two tables once and invokes those. What a handler raises
is one of the results that `gather` gives back. What the dispatcher writes to its log is left out.

## Where a publish is

It is as deep in the chain as it has run middlewares, which the place keeps by how often each of
them has called the rest of the chain. The index that the source passes along is the number of them,
and `_run_middlewares` reads the list of middlewares by it each time, so that one which is added
while a publish is under way is run by it too, if it is not yet at the end of the list.

In the dispatcher there are handlers yet to begin and handlers that have begun, and any of them may
go on. The publish goes back up the chain when none is left.

The classes of events are any type. `Event` itself is one more class, whose handlers get every event
and are kept in a table of their own.
-/

set_option autoImplicit false

namespace IraOS

open Lib

/-! ## core/events/models.py -/

/-- `Event` itself, or one of the classes below it. A handler of `Event` gets everything; a handler
of a class gets the events of that very class, and none of the classes below. -/
inductive EventType (κ : Type) where
  | base
  | sub (cls : κ)
  deriving DecidableEq

/-- An event object: its class, and what else there is to it. -/
structure EventObject (κ α : Type) where
  type : EventType κ
  content : α

/-! ## core/events/dispatcher.py -/

structure Dispatcher (κ η : Type) where
  subscribers : Dict (EventType κ) (Finset η) := .empty
  wildcardSubscribers : Finset η := ∅

structure DispatchError (η : Type) where
  handler : η
  cause : Exn

namespace Dispatcher

variable {κ α η : Type} [DecidableEq κ] [DecidableEq η]

def subscribe (self : Dispatcher κ η) (eventType : EventType κ) (handler : η) : Dispatcher κ η :=
  if eventType = .base then
    { self with wildcardSubscribers := insert handler self.wildcardSubscribers }
  else { self with subscribers := self.subscribers.addTo eventType handler }

def unsubscribe (self : Dispatcher κ η) (eventType : EventType κ) (handler : η) :
    Dispatcher κ η :=
  if eventType = .base then
    { self with wildcardSubscribers := self.wildcardSubscribers.erase handler }
  else
    -- a class that nobody has subscribed to gets an empty set
    { self with subscribers :=
        self.subscribers.set eventType ((self.subscribers.bucket eventType).erase handler) }

/-- The handlers that `dispatch` invokes. -/
def handlers (self : Dispatcher κ η) (event : EventObject κ α) : Finset η :=
  let exact :=
    if self.subscribers.contains event.type then self.subscribers.bucket event.type else ∅
  exact ∪ self.wildcardSubscribers

omit [DecidableEq κ] [DecidableEq η] in
/-- `_safe_invoke`, for what came of the handler. -/
def safeInvoke (handler : η) : Except Exn Unit → Except (DispatchError η) Unit
  | .ok () => .ok ()
  | .error exc => .error ⟨handler, exc⟩

end Dispatcher


structure EventBus (κ η μ : Type) where
  dispatcher : Dispatcher κ η := {}
  middlewares : List μ := []

/-- A call of one of the bus's methods. -/
inductive BusCall (κ α η μ : Type) where
  | publish (event : EventObject κ α)
  | subscribe (eventType : EventType κ) (handler : η)
  | unsubscribe (eventType : EventType κ) (handler : η)
  | use (middleware : μ)

namespace EventBus

/-- Where a call is. A chain is as deep as there are middlewares around; `outer` says of each how
often it has called the rest of the chain, the innermost first. -/
inductive Pc (κ α η : Type) where
  | idle
  -- in a middleware that has called the rest of the chain so often
  | inside (called : Nat) (outer : List Nat)
  -- in the `gather`, with the handlers that have not begun and those that have not ended
  | dispatching (event : EventObject κ α) (waiting running : Finset η) (outer : List Nat)
  | returned
  | raised (exc : Exn)

/-- What happens next: in the call itself, in the middleware it is in, or in one of the handlers.
What a middleware or a handler does is not the bus's affair, so it is told and not computed. -/
inductive Reply (κ α η : Type) where
  | proceed
  -- the middleware calls `next_call(event)`, returns or raises
  | next (event : EventObject κ α)
  | returns
  | raises (exc : Exn)
  -- the handler begins, or has ended
  | start (handler : η)
  | handled (handler : η) (result : Except Exn Unit)

inductive Action (κ α η μ : Type) where
  | subscribed (eventType : EventType κ) (handler : η)
  | unsubscribed (eventType : EventType κ) (handler : η)
  | used (middleware : μ)
  | entered (middleware : μ) (event : EventObject κ α)
  -- the end of the chain: `self._dispatcher.dispatch(event)`
  | dispatched (event : EventObject κ α)
  | invoked (handler : η) (event : EventObject κ α)
  | failed (error : DispatchError η)

variable {κ α η μ : Type}

abbrev Turn (κ α η μ : Type) := Lib.Turn (EventBus κ η μ) (Pc κ α η) (Action κ α η μ)

/-- The chain has come to an end: the middleware that called it goes on, or the publish ends. -/
def resume (bus : EventBus κ η μ) (result : Except Exn Unit) (actions : List (Action κ α η μ)) :
    List Nat → Turn κ α η μ
  | called :: outer => ⟨bus, .inside called outer, actions⟩
  | [] =>
    match result with
    | .ok () => ⟨bus, .returned, actions⟩
    | .error exc => ⟨bus, .raised exc, actions⟩

section Decidable

variable [DecidableEq κ] [DecidableEq η]

/-- `dispatch`, up to its `gather`. -/
def dispatch (bus : EventBus κ η μ) (event : EventObject κ α) (outer : List Nat) :
    Turn κ α η μ :=
  if bus.dispatcher.handlers event = ∅ then resume bus (.ok ()) [.dispatched event] outer
  else ⟨bus, .dispatching event (bus.dispatcher.handlers event) ∅ outer, [.dispatched event]⟩

/-- `_run_middlewares`: the index is the number of middlewares around. -/
def runMiddlewares (bus : EventBus κ η μ) (event : EventObject κ α) (outer : List Nat) :
    Turn κ α η μ :=
  match bus.middlewares[outer.length]? with
  | some middleware => ⟨bus, .inside 0 outer, [.entered middleware event]⟩
  | none => dispatch bus event outer

def start (bus : EventBus κ η μ) : BusCall κ α η μ → Turn κ α η μ
  | .publish event => runMiddlewares bus event []
  | .subscribe eventType handler =>
    { shared := { bus with dispatcher := bus.dispatcher.subscribe eventType handler }
      pc := .returned
      actions := [.subscribed eventType handler] }
  | .unsubscribe eventType handler =>
    { shared := { bus with dispatcher := bus.dispatcher.unsubscribe eventType handler }
      pc := .returned
      actions := [.unsubscribed eventType handler] }
  | .use middleware =>
    { shared := { bus with middlewares := bus.middlewares ++ [middleware] }
      pc := .returned
      actions := [.used middleware] }

omit [DecidableEq κ] [DecidableEq η] in
def failures : Except (DispatchError η) Unit → List (Action κ α η μ)
  | .ok () => []
  | .error error => [.failed error]

omit [DecidableEq κ] in
/-- A handler has ended; when all have, so has the `gather`, whatever they raised. -/
def gather (bus : EventBus κ η μ) (event : EventObject κ α) (waiting running : Finset η)
    (outer : List Nat) (result : Except (DispatchError η) Unit) : Turn κ α η μ :=
  if waiting = ∅ ∧ running = ∅ then resume bus (.ok ()) (failures result) outer
  else ⟨bus, .dispatching event waiting running outer, failures result⟩

def turn (calls : Nat → BusCall κ α η μ) (i : Nat) (bus : EventBus κ η μ) :
    Pc κ α η → Reply κ α η → Option (Turn κ α η μ)
  | .idle, .proceed => some (start bus (calls i))
  | .inside called outer, .next event => some (runMiddlewares bus event ((called + 1) :: outer))
  | .inside _ outer, .returns => some (resume bus (.ok ()) [] outer)
  | .inside _ outer, .raises exc => some (resume bus (.error exc) [] outer)
  | .dispatching event waiting running outer, .start handler =>
    if handler ∈ waiting then
      some ⟨bus, .dispatching event (waiting.erase handler) (insert handler running) outer,
        [.invoked handler event]⟩
    else none
  | .dispatching event waiting running outer, .handled handler result =>
    if handler ∈ running then
      some (gather bus event waiting (running.erase handler) outer
        (Dispatcher.safeInvoke handler result))
    else none
  | _, _ => none

end Decidable

end EventBus

end IraOS
