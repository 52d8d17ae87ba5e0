import IraOS.Lib.Calls
import IraOS.Lib.Seen
import IraOS.Logging.Factory

/-!
# Log scopes

`core/logging/context.py`: what an entry carries of its surroundings is in a context variable, and
every task has its own, which begins as a copy of the one of the task that started it. `LogScope`
writes it on the way in and resets it on the way out, by its token. A logger takes the two ids of
the context into its entries; the scope stays in the context, for `get_context()` to give.

A task is taken by the way it goes: what it logs, looks up and sets, the `with` and `try` statements
it goes through, the tasks it starts, and where it raises. **What its entries carry and what it
looks up can be read off that way alone** (`scoped_run`), whatever other tasks do in between:

* inside a `with LogScope(..)` the scope is that of the innermost one;
* what was set in a `with` is over with it, whether it is left at its end or by an exception;
* the exception itself is not: `__exit__` returns nothing, so it goes on to the nearest `except`
  around it, past what was left to do in the `with`.

A `LogScope` is entered once here, as in `with LogScope(..):`. One that is entered again before it
is left has one token for both.

## Two meanings of a way

The machine has a stack of what is left to do, an exception that may be on its way up, and the
variable, and takes one statement at a time; other tasks go on in between. The meaning of a way is a
recursion over its statements, with the context going in and coming out and no stack at all. That
they agree is shown for one turn: what is left after it means what was left before, less what has
been seen (`LogTask.turn_meaning`).

In a run every task is at some point of its own way, so what it has done is an initial part of what
its way means, and all of it when the task is over (`OnItsWay`). A task that is started by another
begins with the context its parent had in that turn.
-/

set_option autoImplicit false

namespace IraOS

open Lib Lib.Tasks

/-! ## core/logging/context.py -/

structure ScopedContext where
  correlationId : Option String := none
  eventId : Option String := none
  scope : Option String := none
  deriving DecidableEq, Repr

/-- What a logger reads of it. -/
def ScopedContext.toLogContext (ctx : ScopedContext) : LogContext where
  correlationId := ctx.correlationId.map lit
  eventId := ctx.eventId.map lit

def ScopedContext.either (a b : Option String) : Option String :=
  match a with
  | none => b
  | some s => if s.isEmpty then b else some s

def setCorrelationId (correlationId : String) (ctx : ScopedContext) : ScopedContext where
  correlationId := some correlationId
  eventId := ctx.eventId
  scope := ctx.scope

def setEventId (eventId : String) (ctx : ScopedContext) : ScopedContext where
  correlationId := ctx.correlationId
  eventId := some eventId
  scope := ctx.scope

def LogScope.enter (scope : String) (correlationId : Option String) (ctx : ScopedContext) :
    ScopedContext where
  correlationId := ScopedContext.either correlationId ctx.correlationId
  eventId := ctx.eventId
  scope := some scope

/-! ## Tasks -/

/-- What a task does, as far as the log is concerned. Whatever else it does between these has no
part in a context, and what it raises is told with the statement that raises it. -/
inductive LogStmt where
  /-- `_log` of a logger, at a level that is enabled. -/
  | log (logger : Logger) (level : LogLevel) (message : Text) (exception : Option Exn)
      (metadata : LogMetadata)
  /-- `get_context()`. -/
  | getContext
  | setCorrelationId (correlationId : String)
  | setEventId (eventId : String)
  /-- `with LogScope(scope, correlation_id):` -/
  | scope (scope : String) (correlationId : Option String) (body : List LogStmt)
  /-- `try:` … `except Exception: pass` -/
  | attempt (body : List LogStmt)
  | raise
  /-- `asyncio.create_task`. -/
  | spawn (body : List LogStmt)

/-- What a task has in front of it. -/
inductive LogFrame where
  | rest (stmts : List LogStmt)
  /-- `LogScope.__exit__`, with the scope's token: what the variable was before. -/
  | exit (token : ScopedContext)
  /-- The `except` clause of a `try`. -/
  | caught

structure LogTask where
  context : ScopedContext
  frames : List LogFrame
  /-- An exception is on its way up. -/
  raising : Bool := false

/-- What is seen of a task: an entry it hands to the sinks, the context it is given, and a task it
starts. -/
inductive LogHappening where
  | logged (entry : LogEntry)
  | looked (context : ScopedContext)
  | spawned (context : ScopedContext) (body : List LogStmt)

def LogHappening.built (ctx : ScopedContext) (logger : Logger) (level : LogLevel) (message : Text)
    (exception : Option Exn) (metadata : LogMetadata) : LogHappening :=
  .logged (logger.buildEntry ctx.toLogContext level message exception metadata)

def LogTask.start (context : ScopedContext) (body : List LogStmt) : LogTask where
  context := context
  frames := [.rest body]

/-- A turn of a task, and what is seen of it; `none` when the task is over. -/
def LogTask.turn (t : LogTask) : Option (LogTask × List LogHappening) :=
  match t.frames, t.raising with
  | [], _ => none
  | .rest _ :: frames, true => some ({ t with frames := frames }, [])
  | .rest [] :: frames, false => some ({ t with frames := frames }, [])
  | .rest (stmt :: stmts) :: frames, false =>
    let next := .rest stmts :: frames
    match stmt with
    | .log logger level message exception metadata =>
      some ({ t with frames := next },
        [.built t.context logger level message exception metadata])
    | .getContext => some ({ t with frames := next }, [.looked t.context])
    | .setCorrelationId correlationId =>
      some ({ t with context := setCorrelationId correlationId t.context, frames := next }, [])
    | .setEventId eventId =>
      some ({ t with context := setEventId eventId t.context, frames := next }, [])
    | .scope scope correlationId body =>
      some ({ t with
        context := LogScope.enter scope correlationId t.context
        frames := .rest body :: .exit t.context :: next }, [])
    | .attempt body => some ({ t with frames := .rest body :: .caught :: next }, [])
    | .raise => some ({ t with frames := next, raising := true }, [])
    | .spawn body => some ({ t with frames := next }, [.spawned t.context body])
  | .exit token :: frames, _ => some ({ t with context := token, frames := frames }, [])
  | .caught :: frames, _ => some ({ t with frames := frames, raising := false }, [])

def LogHappening.started : LogHappening → Option LogTask
  | .logged _ | .looked _ => none
  | .spawned context body => some (.start context body)

/-- All tasks, by their numbers. -/
def logSystem : System (List LogTask) Nat where
  step tasks i :=
    match tasks[i]? with
    | none => none
    | some t => t.turn.map fun r => tasks.set i r.1 ++ r.2.filterMap LogHappening.started

def logLook (tasks : List LogTask) (i : Nat) : List (Nat × LogHappening) :=
  match tasks[i]?.bind LogTask.turn with
  | none => []
  | some r => r.2.map (Prod.mk i)

/-! ## What a way means -/

structure LogMeaning where
  seen : List LogHappening
  context : ScopedContext
  raised : Bool

mutual

def LogStmt.meaning (ctx : ScopedContext) : LogStmt → LogMeaning
  | .log logger level message exception metadata =>
    ⟨[.built ctx logger level message exception metadata], ctx, false⟩
  | .getContext => ⟨[.looked ctx], ctx, false⟩
  | .setCorrelationId correlationId => ⟨[], IraOS.setCorrelationId correlationId ctx, false⟩
  | .setEventId eventId => ⟨[], IraOS.setEventId eventId ctx, false⟩
  | .scope scope correlationId body =>
    { stmtsMeaning (LogScope.enter scope correlationId ctx) body with context := ctx }
  | .attempt body => { stmtsMeaning ctx body with raised := false }
  | .raise => ⟨[], ctx, true⟩
  | .spawn body => ⟨[.spawned ctx body], ctx, false⟩

/-- One after another, up to an exception. -/
def stmtsMeaning (ctx : ScopedContext) : List LogStmt → LogMeaning
  | [] => ⟨[], ctx, false⟩
  | stmt :: stmts =>
    let first := stmt.meaning ctx
    if first.raised then first
    else
      let others := stmtsMeaning first.context stmts
      { others with seen := first.seen ++ others.seen }

end

/-- What a task has in front of it means, where it is. -/
def LogFrame.meaning (ctx : ScopedContext) (raising : Bool) : List LogFrame → LogMeaning
  | [] => ⟨[], ctx, raising⟩
  | .rest stmts :: frames =>
    if raising then LogFrame.meaning ctx true frames
    else
      let first := stmtsMeaning ctx stmts
      let others := LogFrame.meaning first.context first.raised frames
      { others with seen := first.seen ++ others.seen }
  | .exit token :: frames => LogFrame.meaning token raising frames
  | .caught :: frames => LogFrame.meaning ctx false frames

namespace LogTask

def meaning (t : LogTask) : LogMeaning := LogFrame.meaning t.context t.raising t.frames

@[simp] theorem meaning_start (ctx : ScopedContext) (body : List LogStmt) :
    (start ctx body).meaning = stmtsMeaning ctx body := by
  simp [meaning, start, LogFrame.meaning]

end LogTask

def LogMeaning.after (m : LogMeaning) (seen : List LogHappening) : LogMeaning :=
  { m with seen := seen ++ m.seen }

@[simp] theorem LogMeaning.after_nil (m : LogMeaning) : m.after [] = m := rfl

@[simp] theorem LogMeaning.after_after (m : LogMeaning) (seen seen' : List LogHappening) :
    (m.after seen').after seen = m.after (seen ++ seen') := by
  simp [after]

theorem LogFrame.meaning_cons (ctx : ScopedContext) (stmt : LogStmt) (stmts : List LogStmt)
    (frames : List LogFrame) : meaning ctx false (.rest (stmt :: stmts) :: frames) =
      (meaning (stmt.meaning ctx).context (stmt.meaning ctx).raised
        (.rest stmts :: frames)).after (stmt.meaning ctx).seen := by
  cases hraised : (stmt.meaning ctx).raised <;>
    simp [LogFrame.meaning, stmtsMeaning, hraised, LogMeaning.after]

/-- **A turn does what the way ahead means.** -/
theorem LogTask.turn_meaning {t t' : LogTask} {seen : List LogHappening}
    (h : t.turn = some (t', seen)) : t.meaning = t'.meaning.after seen := by
  obtain ⟨ctx, frames, raising⟩ := t
  match frames, raising, h with
  | [], _, h => cases h
  -- an exception passes by what was left to do
  | .rest _ :: frames, true, h =>
    cases h
    rfl
  | .rest [] :: frames, false, h =>
    cases h
    simp [meaning, LogFrame.meaning, stmtsMeaning]
  | .exit token :: frames, raising, h =>
    cases h
    rfl
  | .caught :: frames, raising, h =>
    cases h
    rfl
  | .rest (stmt :: stmts) :: frames, false, h =>
    rw [meaning, LogFrame.meaning_cons]
    cases stmt with
    | log logger level message exception metadata =>
      cases h
      rfl
    | getContext =>
      cases h
      rfl
    | setCorrelationId correlationId | setEventId eventId =>
      cases h
      rfl
    | raise =>
      cases h
      rfl
    | spawn body =>
      cases h
      rfl
    -- the body, and then the way out
    | scope scope correlationId body | attempt body =>
      cases h
      rfl

/-! ## Whole runs -/

/-- The tasks there have been, by where each began and with what. -/
def logStarts (first : List (ScopedContext × List LogStmt)) (seen : List (Nat × LogHappening)) :
    List (ScopedContext × List LogStmt) :=
  first ++ seen.filterMap fun
    | (_, .logged _) | (_, .looked _) => none
    | (_, .spawned ctx body) => some (ctx, body)

structure OnItsWay (ctx : ScopedContext) (body : List LogStmt) (mine : List LogHappening)
    (t : LogTask) : Prop where
  soFar : mine <+: (stmtsMeaning ctx body).seen
  finished : t.frames = [] → mine = (stmtsMeaning ctx body).seen ∧
    t.context = (stmtsMeaning ctx body).context ∧ t.raising = (stmtsMeaning ctx body).raised

/-- What is promised of a run: each task that was started is there, and on its own way. -/
structure Scoped (first : List (ScopedContext × List LogStmt)) (seen : List (Nat × LogHappening))
    (tasks : List LogTask) : Prop where
  count : tasks.length = (logStarts first seen).length
  ways : ∀ i ctx body (t : LogTask), (logStarts first seen)[i]? = some (ctx, body) →
    tasks[i]? = some t →
    OnItsWay ctx body (own i seen) t

/-- What the induction over a run carries: `Scoped`, and where every task is on its way. -/
structure Underway (first : List (ScopedContext × List LogStmt))
    (seen : List (Nat × LogHappening)) (tasks : List LogTask) : Prop where
  count : tasks.length = (logStarts first seen).length
  known : ∀ x ∈ seen, x.1 < tasks.length
  ways : ∀ i ctx body (t : LogTask), (logStarts first seen)[i]? = some (ctx, body) →
    tasks[i]? = some t →
    stmtsMeaning ctx body = t.meaning.after (own i seen)

theorem Underway.scoped {first : List (ScopedContext × List LogStmt)}
    {seen : List (Nat × LogHappening)} {tasks : List LogTask} (h : Underway first seen tasks) :
    Scoped first seen tasks where
  count := h.count
  ways i ctx body t hstart ht := by
    have hway := h.ways i ctx body t hstart ht
    constructor
    · rw [hway]
      exact List.prefix_append _ _
    · intro hframes
      rw [hway, LogTask.meaning, hframes]
      simp [LogFrame.meaning, LogMeaning.after]

theorem underway_first (first : List (ScopedContext × List LogStmt)) :
    Underway first [] (first.map fun st => LogTask.start st.1 st.2) where
  count := by simp [logStarts]
  known := by simp
  ways i ctx body t hstart ht := by
    have hi : first[i]? = some (ctx, body) := by simpa [logStarts] using hstart
    rw [List.getElem?_map, hi] at ht
    cases ht
    simp

theorem logStarts_append (first : List (ScopedContext × List LogStmt))
    (seen seen' : List (Nat × LogHappening)) :
    logStarts first (seen ++ seen') = logStarts (logStarts first seen) seen' := by
  simp [logStarts]

theorem started_eq (first : List (ScopedContext × List LogStmt)) (i : Nat)
    (hs : List LogHappening) : ∃ more : List (ScopedContext × List LogStmt),
      logStarts first (hs.map (Prod.mk i)) = first ++ more ∧
      hs.filterMap LogHappening.started = more.map fun st => LogTask.start st.1 st.2 := by
  induction hs with
  | nil => exact ⟨[], by simp [logStarts], rfl⟩
  | cons happening hs ih =>
    obtain ⟨more, hstarts, hstarted⟩ := ih
    cases happening with
    | logged entry | looked context => exact ⟨more, hstarts, hstarted⟩
    | spawned ctx body =>
      refine ⟨(ctx, body) :: more, ?_, ?_⟩
      · simpa [logStarts] using hstarts
      · simp [LogHappening.started, hstarted]

/-- **One turn.** -/
theorem Underway.step {first : List (ScopedContext × List LogStmt)}
    {seen : List (Nat × LogHappening)} {tasks tasks' : List LogTask} {i : Nat}
    (h : Underway first seen tasks) (hstep : logSystem.step tasks i = some tasks') :
    Underway first (seen ++ logLook tasks i) tasks' := by
  obtain ⟨t, t', hs, ht, hturn, rfl⟩ : ∃ t t' hs, tasks[i]? = some t ∧ t.turn = some (t', hs) ∧
      tasks' = tasks.set i t' ++ hs.filterMap LogHappening.started := by
    unfold logSystem at hstep
    dsimp only at hstep
    split at hstep
    · cases hstep
    · rename_i t ht
      obtain ⟨r, hr, rfl⟩ := Option.map_eq_some_iff.mp hstep
      exact ⟨t, r.1, r.2, ht, hr, rfl⟩
  have hlook : logLook tasks i = hs.map (Prod.mk i) := by simp [logLook, ht, hturn]
  have hi : i < tasks.length := (List.getElem?_eq_some_iff.mp ht).1
  obtain ⟨more, hstarts, hstarted⟩ := started_eq (logStarts first seen) i hs
  rw [hlook, hstarted]
  have hall : logStarts first (seen ++ hs.map (Prod.mk i)) = logStarts first seen ++ more := by
    rw [logStarts_append, hstarts]
  constructor
  case count =>
    rw [hall]
    simp [h.count]
  case known =>
    intro x hx
    rw [List.length_append, List.length_set]
    rcases List.mem_append.mp hx with hx | hx
    · exact Nat.lt_add_right _ (h.known x hx)
    · obtain ⟨_, _, rfl⟩ := List.mem_map.mp hx
      exact Nat.lt_add_right _ hi
  case ways =>
    intro j ctx body u hstart hu
    rw [hall] at hstart
    by_cases hold : j < tasks.length
    · rw [List.getElem?_append_left (h.count ▸ hold)] at hstart
      rw [List.getElem?_append_left (by rwa [List.length_set])] at hu
      by_cases hj : j = i
      · subst hj
        rw [List.getElem?_set_self hi] at hu
        cases hu
        rw [own_append, own_self, h.ways j ctx body t hstart ht, LogTask.turn_meaning hturn]
        simp
      · rw [List.getElem?_set_ne (Ne.symm hj)] at hu
        rw [own_append, own_other (Ne.symm hj), List.append_nil]
        exact h.ways j ctx body u hstart hu
    -- a task that this turn has started, of which nothing has been seen
    · rw [List.getElem?_append_right (by rw [← h.count]; omega), ← h.count] at hstart
      rw [List.getElem?_append_right (by rw [List.length_set]; omega), List.length_set,
        List.getElem?_map, hstart] at hu
      cases hu
      have hnone : own j (seen ++ hs.map (Prod.mk i)) = [] := by
        rw [own_append, own_other (by omega), List.append_nil]
        refine List.filterMap_eq_nil_iff.mpr fun x hx => ?_
        have hne : x.1 ≠ j := by
          have := h.known x hx
          omega
        simp [hne]
      rw [hnone]
      simp

/-- **Log scopes are lexical**: however the tasks take turns, what each one logs and looks up is
what its own way means, from the context it was started in. -/
theorem scoped_run {first : List (ScopedContext × List LogStmt)} {turns : List Nat}
    {tasks : List LogTask}
    (run : logSystem.exec (first.map fun st => LogTask.start st.1 st.2) turns = some tasks) :
    Scoped first (logSystem.seen logLook (first.map fun st => LogTask.start st.1 st.2) turns)
      tasks := by
  have h : Underway first
      ([] ++ logSystem.seen logLook (first.map fun st => LogTask.start st.1 st.2) turns) tasks :=
    System.exec_seen (P := Underway first) (fun _ _ _ _ h hstep => h.step hstep)
      (underway_first first) run
  rw [List.nil_append] at h
  exact h.scoped

/-! Two requests at once, each with an id of its own. Both fail in their scope, and log and look
once more when they have caught what they raised. -/

def logMessage (message : String) : LogStmt :=
  .log (.root 0 "app") .info (lit message) none .empty

def request (correlationId : String) : List LogStmt :=
  [.attempt [.scope "request" (some correlationId)
      [logMessage "in", .spawn [logMessage "aside", .getContext], .raise, logMessage "never"]],
    logMessage "out", .getContext]

def requests : List (ScopedContext × List LogStmt) := [({}, request "a"), ({}, request "b")]

def crossedTurns : List Nat :=
  [0, 1, 0, 1, 0, 1, 0, 1, 2, 0, 1, 3, 2, 0, 1, 0, 3, 1, 0, 1, 0, 1, 0, 1, 0, 1, 0, 1]

/-- What an entry or a context says of the surroundings. -/
def LogHappening.tag : LogHappening → Option (Option Text × Option Text × Option String)
  | .logged entry => some (some entry.message, entry.correlationId, none)
  | .looked context => some (none, context.correlationId.map lit, context.scope)
  | .spawned _ _ => none

def crossedTasks : List LogTask :=
  (logSystem.exec (requests.map fun st => LogTask.start st.1 st.2) crossedTurns).getD []

theorem scoped_crossed :
    Scoped requests (logSystem.seen logLook (requests.map fun st => LogTask.start st.1 st.2)
        crossedTurns) crossedTasks ∧
      (logSystem.seen logLook (requests.map fun st => LogTask.start st.1 st.2)
          crossedTurns).filterMap (fun x => x.2.tag) =
        [(some (lit "in"), some (lit "a"), none), (some (lit "in"), some (lit "b"), none),
          (some (lit "aside"), some (lit "a"), none), (some (lit "aside"), some (lit "b"), none),
          (none, some (lit "a"), some "request"), (none, some (lit "b"), some "request"),
          (some (lit "out"), none, none), (some (lit "out"), none, none),
          (none, none, none), (none, none, none)] :=
  ⟨scoped_run rfl, rfl⟩

end IraOS
