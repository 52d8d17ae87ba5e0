import IraOS.Lib.Ancestry
import IraOS.Core.Value

/-!
# Loggers and their factory

`Logger` and `LoggerFactory` (`core/logging/logger.py`, `factory.py`). A logger's name and parent
are set when it is made and never again, so a logger is a value with its parent in it; its level and
its sinks change, and are kept by the object's number.

A sink that raises is nobody's concern: `_dispatch` goes on with the next one. So a dispatch is the
list of the `emit` calls it makes, in order.

The metadata of an entry are the keyword arguments of the call that logs it, and these may be
anything. `LogValue` tells apart what a formatter tells apart: the values JSON has a form for, lists
and dictionaries of these (with keys of any kind, and possibly within themselves), and all other
objects, of which only what `str` makes of them is ever looked at.

## Names

`_find_parent` splits a name at its last dot, looks up what is before it, and goes on with that. On
the characters read backwards this is a recursion that drops one at a time; a name that ends in a
dot, or has two in a row, has an ancestor with an empty part, as in the source.

`get` makes a logger under the lock of the factory, so calls of it come one after the other, and a
history is a list of calls. `child` makes one that the factory does not know of, and that `get` will
not find.
-/

set_option autoImplicit false

namespace IraOS

open Lib

/-! ## core/logging/levels.py, models.py, context.py -/

inductive LogLevel where
  | trace
  | debug
  | info
  | warning
  | error
  | critical
  deriving DecidableEq, Repr

def LogLevel.value : LogLevel → Nat
  | .trace => 5
  | .debug => 10
  | .info => 20
  | .warning => 30
  | .error => 40
  | .critical => 50

structure LogContext where
  correlationId : Option Text := none
  eventId : Option Text := none

/-- A key of a dictionary that is logged, as far as JSON tells keys apart: strings, the numbers and
constants that are made into strings, and all others, which are refused. -/
inductive LogKey where
  | none
  | bool (b : Bool)
  | int (i : Int)
  | float (x : PyFloat)
  | str (s : String)
  /-- Any other: a tuple, say. -/
  | other (typeName : String)

/-- A value that is logged. -/
inductive LogValue where
  | none
  | bool (b : Bool)
  | int (i : Int)
  | float (x : PyFloat)
  | str (s : String)
  /-- A list or a tuple. -/
  | list (xs : List LogValue)
  | dict (entries : List (LogKey × LogValue))
  /-- A list or dictionary once more, at a place within itself. -/
  | enclosing
  /-- Any other object, by what `str` of it returns or raises. -/
  | object (str : Except Exn String)

/-- `**metadata`: what is passed by keywords that are none of `level`, `message` and `exception`. -/
abbrev LogMetadata := Dict String LogValue

structure LogEntry where
  level : LogLevel
  logger : String
  message : Text
  correlationId : Option Text
  eventId : Option Text
  exception : Option Exn
  metadata : LogMetadata

/-! ## core/logging/logger.py -/

inductive Logger where
  | root (id : Nat) (name : String)
  | under (id : Nat) (name : String) (parent : Logger)
  deriving DecidableEq, Repr

namespace Logger

def id : Logger → Nat
  | .root id _ | .under id _ _ => id

def name : Logger → String
  | .root _ name | .under _ name _ => name

/-- The names of the loggers it dispatches upward to, the nearest first. -/
def parents : Logger → List String
  | .root _ _ => []
  | .under _ _ parent => parent.name :: parent.parents

/-- `effective_level`, over the levels of the objects. -/
def effectiveLevel (levels : Nat → Option LogLevel) : Logger → LogLevel
  | .root id _ => (levels id).getD .debug
  | .under id _ parent =>
    match levels id with
    | some level => level
    | none => parent.effectiveLevel levels

variable {σ : Type}

/-- `_dispatch`: its own sinks, then those of its parent. -/
def dispatch (sinks : Nat → List σ) : Logger → LogEntry → List (σ × LogEntry)
  | .root id _, entry => (sinks id).map fun sink => (sink, entry)
  | .under id _ parent, entry =>
    ((sinks id).map fun sink => (sink, entry)) ++ parent.dispatch sinks entry

def buildEntry (self : Logger) (ctx : LogContext) (level : LogLevel) (message : Text)
    (exception : Option Exn) (metadata : LogMetadata) : LogEntry where
  level := level
  logger := self.name
  message := message
  correlationId := ctx.correlationId
  eventId := ctx.eventId
  exception := exception
  metadata := metadata

end Logger

/-! ## core/logging/factory.py -/

/-- A factory, and the objects it has made: the levels and the sinks by their numbers, of which
`next` is the first that is free. -/
structure LoggerFactory (σ : Type) where
  defaultLevel : LogLevel
  defaultSinks : List σ
  loggers : Dict String Logger := .empty
  levels : Nat → Option LogLevel := fun _ => none
  sinks : Nat → List σ := fun _ => []
  next : Nat := 0

def ancestorsAux : List Char → List String
  | [] => []
  | c :: cs => if c = '.' then String.ofList cs.reverse :: ancestorsAux cs else ancestorsAux cs

def ancestors (name : String) : List String := ancestorsAux name.toList.reverse

namespace LoggerFactory

variable {σ : Type}

/-- `LoggerFactory(level, sinks)`; `console` is the `ConsoleSink()` it makes if it is given none. -/
def new (level : LogLevel) (sinks : List σ) (console : σ) : LoggerFactory σ where
  defaultLevel := level
  defaultSinks := if sinks.isEmpty then [console] else sinks

def findParentAux (self : LoggerFactory σ) : List Char → Option Logger
  | [] => none
  | c :: cs =>
    if c = '.' then
      match self.loggers.get? (String.ofList cs.reverse) with
      | some logger => some logger
      | none => self.findParentAux cs
    else self.findParentAux cs

def findParent (self : LoggerFactory σ) (name : String) : Option Logger :=
  self.findParentAux name.toList.reverse

def register (self : LoggerFactory σ) (logger : Logger) (sinks : List σ) : LoggerFactory σ :=
  { self with
    loggers := self.loggers.set logger.name logger
    levels := Function.update self.levels logger.id (some self.defaultLevel)
    sinks := Function.update self.sinks logger.id sinks
    next := self.next + 1 }

def get (self : LoggerFactory σ) (name : String) : Logger × LoggerFactory σ :=
  match self.loggers.get? name with
  | some logger => (logger, self)
  | none =>
    match self.findParent name with
    | none =>
      -- only a logger with nothing above it writes to the default sinks itself
      let logger := .root self.next name
      (logger, self.register logger self.defaultSinks)
    | some parent =>
      let logger := .under self.next name parent
      (logger, self.register logger [])

def setLevel (self : LoggerFactory σ) (name : String) (level : LogLevel) : LoggerFactory σ :=
  let (logger, self) := self.get name
  { self with levels := Function.update self.levels logger.id (some level) }

def addSink (self : LoggerFactory σ) (name : String) (sink : σ) : LoggerFactory σ :=
  let (logger, self) := self.get name
  { self with sinks := Function.update self.sinks logger.id (self.sinks logger.id ++ [sink]) }

/-- `set_level` of a logger. -/
def setLevelOf (self : LoggerFactory σ) (logger : Logger) (level : LogLevel) : LoggerFactory σ :=
  { self with levels := Function.update self.levels logger.id (some level) }

/-- `child` of a logger: an object that the factory does not know. -/
def child (self : LoggerFactory σ) (logger : Logger) (suffix : String) :
    Logger × LoggerFactory σ :=
  (.under self.next (logger.name ++ "." ++ suffix) logger,
    { self with
      levels := Function.update self.levels self.next (self.levels logger.id)
      sinks := Function.update self.sinks self.next []
      next := self.next + 1 })

/-- `_log` of a logger: the `emit` calls it makes. -/
def log (self : LoggerFactory σ) (logger : Logger) (ctx : LogContext) (level : LogLevel)
    (message : Text) (exception : Option Exn) (metadata : LogMetadata) : List (σ × LogEntry) :=
  if level.value < (logger.effectiveLevel self.levels).value then []
  else logger.dispatch self.sinks (logger.buildEntry ctx level message exception metadata)

end LoggerFactory


inductive FactoryCall (σ : Type) where
  | get (name : String)
  | addSink (name : String) (sink : σ)
  | setLevel (name : String) (level : LogLevel)

namespace FactoryCall

variable {σ : Type}

def name : FactoryCall σ → String
  | .get name | .addSink name _ | .setLevel name _ => name

def apply (self : LoggerFactory σ) : FactoryCall σ → LoggerFactory σ
  | .get name => (self.get name).2
  | .addSink name sink => self.addSink name sink
  | .setLevel name level => self.setLevel name level

def run (self : LoggerFactory σ) (calls : List (FactoryCall σ)) : LoggerFactory σ :=
  calls.foldl apply self

/-- A name is requested; the first time, it goes to the end. -/
def enter (names : List String) (name : String) : List String :=
  if name ∈ names then names else names ++ [name]

/-- The names in the order in which they were first requested. -/
def requested (calls : List (FactoryCall σ)) : List String :=
  calls.foldl (fun names call => enter names call.name) []

def sinkFor (name : String) : FactoryCall σ → Option σ
  | .addSink name' sink => if name' = name then some sink else none
  | _ => none

/-- The sinks attached to a name, one for each `add_sink`. -/
def attached (calls : List (FactoryCall σ)) (name : String) : List σ :=
  calls.filterMap (sinkFor name)

end FactoryCall

end IraOS
