import IraOS.Logging.Delivery
import IraOS.Logging.Sinks

/-!
# What a log file holds

Whatever is logged, **the file of a sink reads back line by line as the entries that reached the
sink**, in order: a line is one entry, whatever line breaks or quotes there are in its texts, and
what is not in the file was refused with an exception (`filed_runAll`). Put together with the way
entries reach a sink (`logs_read_back`), a file tells what was logged, each entry as many times as
the sink has places on the way up from its logger.

Some entries are missing from the file, and nobody is told of it: the formatter raises, and the
logger passes over what a sink raises. Which ones these are is a matter of their metadata alone
(`Refused`, `payload_error_iff`). Those that are there are read as JSON has them: a tuple is an
array, an object the string that `str` made of it, and a key that was no string is one.

## Reading back

That a document of lines reads back is a fact about JSON (`Lib.Json`): what is printed has no line
break in it, since a break within a text is printed as an escape, and a printed value read again is
the value. So a file that has grown by one line has grown by one value at its end.

Two things follow in opposite directions. Of the uses of a sink it is said which of them wrote, by
what they returned; and of the calls of the loggers it is said which entries reach the sink at all,
which is a matter of levels and of the ways up (`Logging.Delivery`), and of the order of the calls.
-/

set_option autoImplicit false

namespace IraOS

open Lib

variable {py : Printing}

/-! ## What cannot be printed -/

/-- It has more digits than the interpreter converts. -/
def LongInt (i : Int) : Prop := maxStrDigits < (Nat.toDigits 10 i.natAbs).length

inductive LogKey.Refused : LogKey → Prop
  | int {i : Int} (h : LongInt i) : LogKey.Refused (.int i)
  | other (typeName : String) : LogKey.Refused (.other typeName)

/-- A value that has something in it which `json.dumps` raises at. -/
inductive LogValue.Refused : LogValue → Prop
  | int {i : Int} (h : LongInt i) : LogValue.Refused (.int i)
  | enclosing : LogValue.Refused .enclosing
  | object (e : Exn) : LogValue.Refused (.object (.error e))
  | list {xs : List LogValue} {x : LogValue} (hx : x ∈ xs) (h : x.Refused) :
      LogValue.Refused (.list xs)
  | key {entries : List (LogKey × LogValue)} {entry : LogKey × LogValue} (he : entry ∈ entries)
      (h : entry.1.Refused) : LogValue.Refused (.dict entries)
  | value {entries : List (LogKey × LogValue)} {entry : LogKey × LogValue} (he : entry ∈ entries)
      (h : entry.2.Refused) : LogValue.Refused (.dict entries)

namespace JsonFormatter

theorem not_error {α : Type} {a : α} : ¬ ∃ e, (Except.ok a : Except Exn α) = .error e := by
  rintro ⟨e, he⟩
  cases he

theorem ofInt_error_iff {i : Int} : (∃ e, ofInt i = .error e) ↔ LongInt i := by
  unfold ofInt LongInt
  split
  · next h => exact iff_of_true ⟨_, rfl⟩ h
  · next h => exact iff_of_false not_error h

theorem map_error_iff {α β : Type} {x : Except Exn α} {f : α → β} :
    (∃ e, x.map f = .error e) ↔ ∃ e, x = .error e := by
  cases x with
  | ok a => exact iff_of_false not_error not_error
  | error e => exact iff_of_true ⟨e, rfl⟩ ⟨e, rfl⟩

theorem bind_error_iff {α β : Type} {x : Except Exn α} {f : α → Except Exn β} {p : Prop}
    (hf : ∀ a, (∃ e, f a = .error e) ↔ p) :
    (∃ e, x >>= f = .error e) ↔ (∃ e, x = .error e) ∨ p := by
  cases x with
  | ok a => exact (hf a).trans (or_iff_right not_error).symm
  | error e => exact iff_of_true ⟨e, rfl⟩ (Or.inl ⟨e, rfl⟩)

theorem ofKey_error_iff {k : LogKey} : (∃ e, ofKey py k = .error e) ↔ k.Refused := by
  cases k with
  | none => exact iff_of_false not_error (by rintro ⟨⟩)
  | bool b => exact iff_of_false not_error (by rintro ⟨⟩)
  | int i =>
    refine (map_error_iff.trans ofInt_error_iff).trans ⟨.int, ?_⟩
    rintro ⟨h⟩
    exact h
  | float x => exact iff_of_false not_error (by rintro ⟨⟩)
  | str s => exact iff_of_false not_error (by rintro ⟨⟩)
  | other typeName => exact iff_of_true ⟨_, rfl⟩ (.other typeName)

mutual

/-- **What raises is what has something in it to raise at**, however deep. -/
theorem ofValue_error_iff : ∀ v : LogValue, (∃ e, ofValue py v = .error e) ↔ v.Refused
  | .none => iff_of_false not_error (by rintro ⟨⟩)
  | .bool b => iff_of_false not_error (by rintro ⟨⟩)
  | .int i => by
    refine ofInt_error_iff.trans ⟨.int, ?_⟩
    rintro ⟨h⟩
    exact h
  | .float x => iff_of_false not_error (by rintro ⟨⟩)
  | .str s => iff_of_false not_error (by rintro ⟨⟩)
  | .list xs => by
    refine (map_error_iff.trans (ofValues_error_iff xs)).trans ⟨?_, ?_⟩
    · rintro ⟨x, hx, h⟩
      exact .list hx h
    · intro h
      cases h with
      | list hx h => exact ⟨_, hx, h⟩
  | .dict entries => by
    refine (map_error_iff.trans (ofEntries_error_iff entries)).trans ⟨?_, ?_⟩
    · rintro ⟨entry, he, hkey | hvalue⟩
      · exact .key he hkey
      · exact .value he hvalue
    · intro h
      cases h with
      | key he h => exact ⟨_, he, Or.inl h⟩
      | value he h => exact ⟨_, he, Or.inr h⟩
  | .enclosing => iff_of_true ⟨_, rfl⟩ .enclosing
  | .object (.ok s) => iff_of_false not_error (by rintro ⟨⟩)
  | .object (.error e) => iff_of_true ⟨e, rfl⟩ (.object e)

theorem ofValues_error_iff : ∀ xs : List LogValue,
    (∃ e, ofValues py xs = .error e) ↔ ∃ x ∈ xs, x.Refused
  | [] => iff_of_false not_error (by simp)
  | x :: xs => by
    rw [ofValues, bind_error_iff fun _ => bind_error_iff (p := False) fun _ => ?_,
      ofValue_error_iff x, ofValues_error_iff xs]
    · simp
    · exact iff_of_false not_error id

theorem ofEntries_error_iff : ∀ entries : List (LogKey × LogValue),
    (∃ e, ofEntries py entries = .error e) ↔
      ∃ entry ∈ entries, entry.1.Refused ∨ entry.2.Refused
  | [] => iff_of_false not_error (by simp)
  | (k, v) :: entries => by
    rw [ofEntries, bind_error_iff fun _ => bind_error_iff fun _ => bind_error_iff (p := False)
      fun _ => ?_, ofKey_error_iff, ofValue_error_iff v, ofEntries_error_iff entries]
    · simp [or_assoc]
    · exact iff_of_false not_error id

end

/-- An entry is refused for its metadata. -/
theorem payload_error_iff (r : LogRecord) : (∃ e, payload py r = .error e) ↔
    ∃ entry ∈ r.metadata.entries, entry.2.Refused := by
  refine (map_error_iff.trans (ofEntries_error_iff _)).trans ⟨?_, ?_⟩
  · rintro ⟨_, he, h⟩
    obtain ⟨entry, hmem, rfl⟩ := List.mem_map.mp he
    rcases h with ⟨⟨⟩⟩ | h
    exact ⟨entry, hmem, h⟩
  · rintro ⟨entry, hmem, h⟩
    exact ⟨_, List.mem_map_of_mem hmem, Or.inr h⟩

end JsonFormatter

/-! ## One sink -/

namespace FileSink

variable {sink : FileSink} {r : LogRecord}

/-- What uses of a sink leave in its file, from a moment when it is closed or is not. -/
def kept (py : Printing) : Bool → List Call → List Json
  | _, [] => []
  | false, .emit r :: calls =>
    match JsonFormatter.payload py r with
    | .ok v => v :: kept py false calls
    | .error _ => kept py false calls
  | false, .flush :: calls => kept py false calls
  | false, .close :: _ => []
  | true, _ => []

/-- The entries whose `emit` returned. -/
def returned : List Call → List (Except Exn Unit) → List LogRecord
  | .emit r :: calls, .ok () :: results => r :: returned calls results
  | _ :: calls, _ :: results => returned calls results
  | _, _ => []

theorem emit_ok {v : Json} (hopen : sink.closed = false)
    (hv : JsonFormatter.payload py r = .ok v) :
    sink.emit py r = ({ sink with content := sink.content ++ v.printLine }, .ok ()) := by
  unfold emit JsonFormatter.format
  rw [hv, hopen]
  rfl

theorem emit_error {e : Exn} (h : JsonFormatter.payload py r = .error e) :
    ∃ exc, sink.emit py r = (sink, .error exc) := by
  unfold emit JsonFormatter.format
  rw [h]
  exact ⟨_, rfl⟩

theorem emit_closed (h : sink.closed = true) (r : LogRecord) :
    ∃ exc, sink.emit py r = (sink, .error exc) := by
  unfold emit
  cases JsonFormatter.format py r with
  | error e => exact ⟨_, rfl⟩
  | ok line =>
    rw [h]
    exact ⟨_, rfl⟩

@[simp] theorem kept_closed (calls : List Call) : kept py true calls = [] := by
  cases calls <;> simp [kept]

theorem runAll_cons (sink : FileSink) (call : Call) (calls : List Call) :
    sink.runAll py (call :: calls) = (((call.run py sink).1.runAll py calls).1,
      (call.run py sink).2 :: ((call.run py sink).1.runAll py calls).2) := rfl

theorem runAll_closed (calls : List Call) (h : sink.closed = true) :
    (sink.runAll py calls).1 = sink ∧ returned calls (sink.runAll py calls).2 = [] := by
  induction calls with
  | nil => exact ⟨rfl, rfl⟩
  | cons call calls ih =>
    have hraised : ∃ exc, call.run py sink = (sink, .error exc) := by
      cases call with
      | emit r => exact emit_closed h r
      | flush => exact ⟨_, by rw [Call.run, flush, if_pos h]⟩
      | close => exact ⟨_, by rw [Call.run, close, if_pos h]⟩
    obtain ⟨exc, hraised⟩ := hraised
    rw [runAll_cons, hraised]
    refine ⟨ih.1, ?_⟩
    cases call <;> exact ih.2

structure Filed (py : Printing) (sink : FileSink) (calls : List Call)
    (after : FileSink × List (Except Exn Unit)) : Prop where
  content : after.1.content =
    sink.content ++ (kept py sink.closed calls).flatMap Json.printLine
  returned : (returned calls after.2).mapM (JsonFormatter.payload py) =
    .ok (kept py sink.closed calls)

theorem Filed.cons {call : Call} {calls : List Call} {sink' : FileSink}
    {result : Except Exn Unit} (vs : List Json) (rs : List LogRecord)
    (hrun : call.run py sink = (sink', result))
    (hcontent : sink'.content = sink.content ++ vs.flatMap Json.printLine)
    (hkept : kept py sink.closed (call :: calls) = vs ++ kept py sink'.closed calls)
    (hreturned : ∀ results, FileSink.returned (call :: calls) (result :: results) =
      rs ++ FileSink.returned calls results)
    (hpayload : rs.mapM (JsonFormatter.payload py) = .ok vs)
    (hrest : Filed py sink' calls (sink'.runAll py calls)) :
    Filed py sink (call :: calls) (sink.runAll py (call :: calls)) where
  content := by
    rw [runAll_cons, hrun]
    show (sink'.runAll py calls).1.content = _
    rw [hrest.content, hcontent, hkept, List.flatMap_append, List.append_assoc]
  returned := by
    rw [runAll_cons, hrun]
    show (FileSink.returned (call :: calls) (result :: (sink'.runAll py calls).2)).mapM _ = _
    rw [hreturned, List.mapM_append, hpayload, hrest.returned, hkept]
    rfl

theorem filed_closed (h : sink.closed = true) (calls : List Call) :
    Filed py sink calls (sink.runAll py calls) := by
  obtain ⟨hsame, hnone⟩ :
      (sink.runAll py calls).1 = sink ∧ returned calls (sink.runAll py calls).2 = [] :=
    runAll_closed calls h
  refine ⟨?_, ?_⟩
  · rw [hsame, h, kept_closed]
    simp
  · rw [hnone, h, kept_closed]
    rfl

/-- **The file is the lines of the entries whose `emit` returned**, and those are what was emitted
while the sink was open, but for what cannot be printed. -/
theorem filed_runAll (sink : FileSink) (calls : List Call) :
    Filed py sink calls (sink.runAll py calls) := by
  induction calls generalizing sink with
  | nil =>
    refine ⟨?_, ?_⟩
    · cases sink.closed <;> simp [runAll, kept]
    · cases sink.closed <;> rfl
  | cons call calls ih =>
    cases hc : sink.closed with
    | true => exact filed_closed hc _
    | false =>
      cases call with
      | emit r =>
        cases hv : JsonFormatter.payload py r with
        | ok v =>
          refine Filed.cons [v] [r] (emit_ok hc hv) ?_ ?_ (fun _ => rfl) ?_ (ih _)
          · simp
          · rw [hc, kept, hv]
            simp
          · rw [List.mapM_cons, hv]
            rfl
        | error e =>
          obtain ⟨exc, hraised⟩ : ∃ exc, sink.emit py r = (sink, .error exc) := emit_error hv
          refine Filed.cons [] [] hraised ?_ ?_ (fun _ => rfl) rfl (ih _)
          · simp
          · rw [hc, kept, hv]
            rfl
      | flush =>
        have hflush : Call.flush.run py sink = (sink, .ok ()) := by
          rw [Call.run, flush, if_neg (by simp [hc])]
        refine Filed.cons [] [] hflush ?_ ?_ (fun _ => rfl) rfl (ih _)
        · simp
        · rw [hc]
          rfl
      | close =>
        have hclose : Call.close.run py sink = ({ sink with closed := true }, .ok ()) := by
          rw [Call.run, close, if_neg (by simp [hc])]
        refine Filed.cons [] [] hclose ?_ ?_ (fun _ => rfl) rfl (ih _)
        · simp
        · rw [hc, kept, kept_closed]
          rfl

theorem runAll_emits (rs : List LogRecord) (h : sink.closed = false) :
    (sink.runAll py (rs.map .emit)).1 = { sink with
      content := sink.content ++
        (rs.filterMap fun r => (JsonFormatter.payload py r).toOption).flatMap Json.printLine } := by
  induction rs generalizing sink with
  | nil =>
    obtain ⟨filepath, content, closed⟩ := sink
    simp [runAll]
  | cons r rs ih =>
    rw [List.map_cons, runAll_cons, List.filterMap_cons]
    cases hv : JsonFormatter.payload py r with
    | ok v =>
      have hrest : ({ sink with content := sink.content ++ v.printLine }.runAll py
        (rs.map .emit)).1 = _ := ih h
      rw [Call.run, emit_ok h hv]
      refine hrest.trans ?_
      simp [Except.toOption]
    | error e =>
      obtain ⟨exc, hraised⟩ : ∃ exc, sink.emit py r = (sink, .error exc) := emit_error hv
      rw [Call.run, hraised]
      exact ih h

end FileSink

/-! ## Loggers and the file of one sink -/

def LogCall.record (c : LogCall) : LogRecord where
  level := c.level
  logger := c.name
  message := c.message
  correlationId := c.ctx.correlationId
  eventId := c.ctx.eventId
  exception := c.exception
  metadata := c.metadata
  timestamp := c.timestamp
  traceback := c.traceback

namespace LoggingCall

open FactoryCall

variable {σ : Type} [DecidableEq σ] (level : LogLevel) (sinks : List σ) (console : σ)

def factoryAfter (history : List (FactoryCall σ)) : LoggerFactory σ :=
  FactoryCall.run (LoggerFactory.new level sinks console) history

/-- How often the entry of a call is written that comes after a history: not at all where the level
of its logger is above its own, and else once for every place the sink has. -/
def copies (history : List (FactoryCall σ)) (s : σ) (c : LogCall) : Nat :=
  let factory := factoryAfter level sinks console (history ++ [.get c.name])
  if c.level.value < ((factory.get c.name).1.effectiveLevel factory.levels).value then 0
  else places (if sinks.isEmpty then [console] else sinks) (history ++ [.get c.name]) c.name s

/-- What is to be read in the file of the sink. -/
def expected (py : Printing) (s : σ) (history : List (FactoryCall σ)) :
    List (LoggingCall σ) → List Json
  | [] => []
  | .factory call :: calls => expected py s (history ++ [call]) calls
  | .log c :: calls =>
    (match JsonFormatter.payload py c.record with
      | .ok v => List.replicate (copies level sinks console history s c) v
      | .error _ => []) ++
    expected py s (history ++ [.get c.name]) calls

variable {level} {sinks} {console}

omit [DecidableEq σ] in
theorem factoryAfter_snoc (history : List (FactoryCall σ)) (call : FactoryCall σ) :
    factoryAfter level sinks console (history ++ [call]) =
      call.apply (factoryAfter level sinks console history) := by
  unfold factoryAfter FactoryCall.run
  rw [List.foldl_append]
  rfl

omit [DecidableEq σ] in
theorem get_get (factory : LoggerFactory σ) (name : String) :
    ((factory.get name).2.get name).1 = (factory.get name).1 := by
  unfold LoggerFactory.get
  cases hthere : factory.loggers.get? name with
  | some logger => simp only [hthere]
  | none =>
    cases factory.findParent name <;>
      simp [LoggerFactory.register, Logger.name]

omit [DecidableEq σ] in
theorem mem_requested_get (history : List (FactoryCall σ)) (name : String) :
    name ∈ requested (history ++ [.get name]) := by
  unfold requested
  rw [List.foldl_append]
  show name ∈ enter _ name
  unfold enter
  split
  · assumption
  · simp

theorem reaching_eq (history : List (FactoryCall σ)) (s : σ) (c : LogCall) :
    reaching (factoryAfter level sinks console history) s c =
      List.replicate (copies level sinks console history s c) c.record := by
  have hafter : factoryAfter level sinks console (history ++ [.get c.name]) =
      ((factoryAfter level sinks console history).get c.name).2 := factoryAfter_snoc history _
  have hsame : ((factoryAfter level sinks console (history ++ [.get c.name])).get c.name).1 =
      ((factoryAfter level sinks console history).get c.name).1 := by
    rw [hafter]
    exact get_get _ _
  have hreaching : reaching (factoryAfter level sinks console history) s c =
      (((factoryAfter level sinks console (history ++ [.get c.name])).log
        ((factoryAfter level sinks console (history ++ [.get c.name])).get c.name).1
        c.ctx c.level c.message c.exception c.metadata).filter fun p => p.1 = s).map
        fun p => ⟨p.2, c.timestamp, c.traceback⟩ := by
    rw [hsame, hafter]
    rfl
  have hwellformed := LoggerFactory.wellformed_run level sinks console (history ++ [.get c.name])
  obtain ⟨l, hl⟩ := (hwellformed.entered c.name).mp (mem_requested_get history c.name)
  have hget : ((factoryAfter level sinks console (history ++ [.get c.name])).get c.name).1 = l := by
    unfold factoryAfter LoggerFactory.get
    rw [hl]
  rw [hreaching, copies, hget]
  split
  · next hbelow =>
    rw [LoggerFactory.log, if_pos hbelow]
    rfl
  · next henabled =>
    rw [factoryAfter, LoggerFactory.log_filter (mem_requested_get history c.name) hget
      (Nat.le_of_not_lt henabled), List.map_replicate, Logger.buildEntry, hwellformed.named hl]
    rfl

theorem run_log (history : List (FactoryCall σ)) (s : σ) (file : FileSink) (c : LogCall)
    (h : file.closed = false) :
    run py s (factoryAfter level sinks console history, file) (.log c) =
      (factoryAfter level sinks console (history ++ [.get c.name]), { file with
        content := file.content ++ (match JsonFormatter.payload py c.record with
          | .ok v => List.replicate (copies level sinks console history s c) v
          | .error _ => []).flatMap Json.printLine }) := by
  rw [run, factoryAfter_snoc, reaching_eq, FileSink.runAll_emits _ h]
  congr 3
  cases hv : JsonFormatter.payload py c.record with
  | ok v => simp [hv, Except.toOption]
  | error e => simp [hv, Except.toOption]

/-- **What a file tells.** However a factory is set up and its loggers are used, in whatever order,
the file of a sink reads back as what was logged on its way: nothing is run together or put in,
nothing comes out of turn, and nothing is lost but the entries that have something in their metadata
that cannot be printed. -/
theorem logs_read_back (py : Printing) (level : LogLevel) (sinks : List σ) (console s : σ)
    (filepath : String) (before : List Char) (calls : List (LoggingCall σ)) :
    ∃ written, (runAll py s (LoggerFactory.new level sinks console, ⟨filepath, before, false⟩)
        calls).2.content = before ++ written ∧
      Json.readLines written = some (expected level sinks console py s [] calls) ∧
      ∀ c, .log c ∈ calls → ((∃ e, JsonFormatter.payload py c.record = .error e) ↔
        ∃ entry ∈ c.metadata.entries, entry.2.Refused) := by
  have hruns : ∀ (calls : List (LoggingCall σ)) (history : List (FactoryCall σ))
      (content : List Char),
      (runAll py s (factoryAfter level sinks console history, ⟨filepath, content, false⟩)
        calls).2.content =
        content ++ (expected level sinks console py s history calls).flatMap Json.printLine := by
    intro calls
    induction calls with
    | nil =>
      intro history content
      simp [runAll, expected]
    | cons call calls ih =>
      intro history content
      rw [runAll, List.foldl_cons]
      cases call with
      | factory call =>
        rw [run, ← factoryAfter_snoc]
        exact ih (history ++ [call]) content
      | log c =>
        rw [run_log history s _ c rfl]
        refine (ih (history ++ [.get c.name]) _).trans ?_
        rw [expected, List.flatMap_append, List.append_assoc]
  exact ⟨_, hruns calls [] before, Json.readLines_printLines _,
    fun c _ => JsonFormatter.payload_error_iff c.record⟩

end LoggingCall

end IraOS
