import IraOS.Lib.Json
import IraOS.Logging.Factory

/-!
# Lines of JSON, and the file they go to

`JsonFormatter` (`core/logging/formatters.py`) and `FileSink` (`core/logging/sinks.py`). The
formatter hands the entry to `json.dumps`, which prints what is there on one line of printable
ASCII; an object JSON has no form for goes through `str`. A write comes after the line is there in
full, and under the sink's lock, so an `emit` writes its line or nothing.

Not everything that is logged can be printed. `json.dumps` raises

* at an integer of more than 4300 digits, as a value or as a key;
* at a key that is no string, number, boolean or `None`;
* at a list or dictionary that comes up within itself;
* when `str` of an object does.

The file is what was written to it, buffered or not. A disk that is full is not modelled, nor is
metadata nested so deeply that the interpreter runs out of stack, nor an exception that `str` does
not print.

`flush` and `close` of a file that is closed raise, and so does `emit`, whose exception is a
`SinkError` like that of an entry that cannot be printed. What is raised goes to the caller of the
sink. The caller is a logger, as a rule, and goes on with the next sink.

What is not digits or text is not computed here: how a float prints, how the moment of an entry and
the traceback of its exception read, and what an f-string comes to, are given from outside.
-/

set_option autoImplicit false

namespace IraOS

open Lib

def LogLevel.name : LogLevel → String
  | .trace => "TRACE"
  | .debug => "DEBUG"
  | .info => "INFO"
  | .warning => "WARNING"
  | .error => "ERROR"
  | .critical => "CRITICAL"

/-- A `LogEntry` with what the formatter has others say of it. -/
structure LogRecord extends LogEntry where
  /-- `entry.timestamp.isoformat()`. -/
  timestamp : String
  /-- The lines of `traceback.format_exception`, where there is an exception. -/
  traceback : String

/-- What Python makes of a value in text. Nothing is assumed of it but what JSON says of a number's
spelling, which is in its type. -/
structure Printing where
  /-- An f-string, formatted. -/
  textOf : Text → String
  /-- `float.__repr__`, or the name JSON readers have for a float that is not finite. -/
  floatRepr : PyFloat → Json.Numeral

namespace JsonFormatter

variable (py : Printing)

/-- `int.__repr__`, which gives up on a number that is too long. -/
def ofInt (i : Int) : Except Exn Json :=
  if maxStrDigits < (Nat.toDigits 10 i.natAbs).length then
    .error ⟨.valueError, lit ("Exceeds the limit (4300 digits) for integer string conversion; " ++
      "use sys.set_int_max_str_digits() to increase the limit")⟩
  else .ok (.int i)

/-- The string a key is made into. -/
def ofKey : LogKey → Except Exn String
  | .none => .ok "null"
  | .bool b => .ok (if b then "true" else "false")
  | .int i => (ofInt i).map fun _ => String.ofList (Json.printInt i)
  | .float x => .ok (String.ofList (py.floatRepr x).spelling)
  | .str s => .ok s
  | .other typeName => .error ⟨.typeError,
      lit ("keys must be str, int, float, bool or None, not " ++ typeName)⟩

mutual

/-- What `json.dumps(v, default=str)` is to print. -/
def ofValue : LogValue → Except Exn Json
  | .none => .ok .null
  | .bool b => .ok (.bool b)
  | .int i => ofInt i
  | .float x => .ok (.number (py.floatRepr x))
  | .str s => .ok (.str s)
  | .list xs => (ofValues xs).map .arr
  | .dict entries => (ofEntries entries).map .obj
  | .enclosing => .error ⟨.valueError, lit "Circular reference detected"⟩
  | .object str => str.map .str

def ofValues : List LogValue → Except Exn (List Json)
  | [] => .ok []
  | v :: vs => do
    let x ← ofValue v
    let xs ← ofValues vs
    pure (x :: xs)

def ofEntries : List (LogKey × LogValue) → Except Exn (List (String × Json))
  | [] => .ok []
  | (k, v) :: entries => do
    let s ← ofKey py k
    let x ← ofValue v
    let xs ← ofEntries entries
    pure ((s, x) :: xs)

end

/-- `if value: payload[key] = value`. -/
def textMember (key : String) (value : Option Text) : List (String × Json) :=
  match value with
  | none => []
  | some t => if py.textOf t = "" then [] else [(key, .str (py.textOf t))]

/-- The payload, its metadata already gone through. -/
def members (r : LogRecord) (metadata : List (String × Json)) : List (String × Json) :=
  [("timestamp", .str r.timestamp), ("level", .str r.level.name), ("logger", .str r.logger),
    ("message", .str (py.textOf r.message))] ++
  textMember py "correlation_id" r.correlationId ++ textMember py "event_id" r.eventId ++
  (if metadata.isEmpty then [] else [("metadata", .obj metadata)]) ++
  match r.exception with
  | none => []
  | some e => [("exception", .obj [("type", .str e.cls.name),
      ("message", .str (py.textOf e.message)), ("traceback", .str r.traceback)])]

/-- `payload`, as `json.dumps` goes through it: the texts are no trouble, so it is the metadata that
an entry may fail by. -/
def payload (r : LogRecord) : Except Exn Json :=
  (ofEntries py (r.metadata.entries.map fun entry => (.str entry.1, entry.2))).map fun metadata =>
    .obj (members py r metadata)

def format (r : LogRecord) : Except Exn (List Char) :=
  match payload py r with
  | .ok v => .ok v.print
  | .error e =>
    .error ⟨.other "FormatterError", lit "Failed to serialize LogEntry to JSON: " ++ e.message⟩

end JsonFormatter

/-! ## FileSink -/

structure FileSink where
  filepath : String
  content : List Char
  closed : Bool := false

namespace FileSink

variable (py : Printing)

def closedFile : Exn := ⟨.valueError, lit "I/O operation on closed file."⟩

/-- `emit(entry)`, with a `JsonFormatter`. -/
def emit (sink : FileSink) (r : LogRecord) : FileSink × Except Exn Unit :=
  let written : Except Exn (List Char) := do
    let line ← JsonFormatter.format py r
    if sink.closed then .error closedFile else .ok (line ++ ['\n'])
  match written with
  | .ok line => ({ sink with content := sink.content ++ line }, .ok ())
  | .error e =>
    (sink, .error ⟨.other "SinkError",
      lit ("FileSink failed to emit to '" ++ sink.filepath ++ "': ") ++ e.message⟩)

def flush (sink : FileSink) : FileSink × Except Exn Unit :=
  if sink.closed then (sink, .error closedFile) else (sink, .ok ())

def close (sink : FileSink) : FileSink × Except Exn Unit :=
  if sink.closed then (sink, .error closedFile) else ({ sink with closed := true }, .ok ())

/-- A use of the sink. -/
inductive Call where
  | emit (r : LogRecord)
  | flush
  | close

def Call.run (sink : FileSink) : Call → FileSink × Except Exn Unit
  | .emit r => sink.emit py r
  | .flush => sink.flush
  | .close => sink.close

/-- The sink after some uses, and what came of each. -/
def runAll (sink : FileSink) : List Call → FileSink × List (Except Exn Unit)
  | [] => (sink, [])
  | call :: calls =>
    let first := call.run py sink
    let rest := first.1.runAll calls
    (rest.1, first.2 :: rest.2)

end FileSink

/-! ## Loggers that write to a file -/

/-- A call of `_log` of the logger of a name, and the moment it is made at. -/
structure LogCall where
  name : String
  ctx : LogContext
  level : LogLevel
  message : Text
  exception : Option Exn := none
  metadata : LogMetadata := Dict.empty
  timestamp : String
  traceback : String

/-- What is done with a factory: it is set up, or one of its loggers is used. -/
inductive LoggingCall (σ : Type) where
  | factory (call : FactoryCall σ)
  | log (call : LogCall)

namespace LoggingCall

variable {σ : Type} [DecidableEq σ] (py : Printing)

/-- The entries that reach the sink `s` of one call of `_log`, with what is said of them. -/
def reaching (factory : LoggerFactory σ) (s : σ) (c : LogCall) : List LogRecord :=
  let (logger, factory) := factory.get c.name
  ((factory.log logger c.ctx c.level c.message c.exception c.metadata).filter
    fun p => p.1 = s).map fun p => ⟨p.2, c.timestamp, c.traceback⟩

/-- The factory, and the file of the sink `s`. `_dispatch` lets nothing a sink raises through. -/
def run (s : σ) (state : LoggerFactory σ × FileSink) :
    LoggingCall σ → LoggerFactory σ × FileSink
  | .factory call => (call.apply state.1, state.2)
  | .log c => ((state.1.get c.name).2,
      (state.2.runAll py ((reaching state.1 s c).map .emit)).1)

def runAll (s : σ) (state : LoggerFactory σ × FileSink) (calls : List (LoggingCall σ)) :
    LoggerFactory σ × FileSink :=
  calls.foldl (run py s) state

end LoggingCall

end IraOS
