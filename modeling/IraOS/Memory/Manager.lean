import IraOS.Memory.Store

/-!
# The memory manager and its tasks

`MemoryManager` (`core/memory/manager.py`) with the bus it publishes to. Every operation takes the
manager's `asyncio.Lock`, does what it does to the store without a wait, and publishes its event, if
it has one, **with the lock still held**: it goes on when every handler is through
(`Dispatcher.dispatch` gathers them). A handler is a task like any other and may call the manager
itself.

A task's program is what it does between its waits: the operations it awaits, one after another, as
many as it likes but finitely many. A turn is a task going on, with what the clock shows and the
order in which the set of all ids enumerates.

## Operations, and loops of them

Most calls of the manager are one operation under the lock. `cleanup` and `expire` are two steps: a
scan that asks the policy under the lock, and then one `forget` after another, each of which takes
the lock anew (`forgetAll`). What other tasks do between two of these is not the manager's to
decide.

## The lock

`asyncio.Lock` hands itself on in the order of asking, and a task that finds it free takes it
without waiting unless others wait already. Awaiting a publish keeps it. The state has the holder
and the waiters in order, and a task's place says which operation it waits with.

What the bus does is given by the handlers that an event invokes, one program each (`Bus`); that the
manager has no bus at all is a case of its own.
-/

set_option autoImplicit false

namespace IraOS

open Lib

/-! ## core/memory/events.py, retention.py -/

inductive MemoryEventType where
  | memoryStored
  | memoryUpdated
  | memoryDeleted
  | memoryAccessed
  | memoryForgotten
  deriving DecidableEq, Repr

structure MemoryEvent where
  type : MemoryEventType
  payloadId : String
  memoryId : String
  ownerId : String
  «namespace» : String

def MemoryEvent.about (type : MemoryEventType) (r : MemoryRecord) : MemoryEvent where
  type := type
  payloadId := r.id
  memoryId := r.id
  ownerId := r.ownerId
  «namespace» := r.namespace

inductive RetentionPolicy where
  | neverForget
  | ttl (ttlSeconds : Int) (positive : 0 < ttlSeconds)
  | leastRecentlyUsed (maxRecords : Nat)
  | importanceThreshold (threshold : Int)

def RetentionPolicy.selectCandidates (now : Int) (records : List MemoryRecord) :
    RetentionPolicy → List String
  | .neverForget => []
  | .ttl ttlSeconds _ =>
    (records.filter fun r => now - r.updatedAt > ttlSeconds * 1000000).map (·.id)
  | .leastRecentlyUsed maxRecords =>
    ((records.mergeSort fun r r' => r.lastAccessed ≤ r'.lastAccessed).take
      (records.length - maxRecords)).map (·.id)
  | .importanceThreshold threshold =>
    (records.filter fun r => r.importance < threshold).map (·.id)

def MemoryRecord.withAccess (r : MemoryRecord) (now : Int) : MemoryRecord :=
  { r with
    lastAccessed := now
    accessCount := r.accessCount + 1
    valid := r.valid }

/-- `MemoryStore.list()`, where the set of all ids enumerates as `order`. -/
def MemoryStore.list (order : List String) (index : MemoryIndex) : List MemoryRecord :=
  order.filterMap index.byId.get?

namespace MemoryManager

/-! ## core/memory/manager.py -/

inductive Reply where
  | unit
  | record (r : MemoryRecord)
  | records (rs : List MemoryRecord)
  | ids (ids : List String)
  | stats (s : MemoryStats)

/-- What is done under the lock. `read` is what only looks: `list`, `stats`, `search`, and the first
half of `cleanup`. -/
inductive Op where
  | remember (record : MemoryRecord)
  | recall (memoryId : String)
  | forget (memoryId : String)
  | delete (memoryId : String)
  | update (memoryId : String) (fields : UpdateFields)
  | replace (record : MemoryRecord)
  | clear
  | read (look : Int → List MemoryRecord → Reply)

def Op.body (now : Int) (order : List String) :
    Op → MemoryStore.Operation (Reply × Option MemoryEvent)
  | .remember record => do
    MemoryStore.add record
    pure (.unit, some (.about .memoryStored record))
  | .recall memoryId => do
    let record ← MemoryStore.get memoryId
    let updated := record.withAccess now
    MemoryStore.replace updated
    pure (.record updated, some { MemoryEvent.about .memoryAccessed record with
      payloadId := memoryId, memoryId := memoryId })
  | .forget memoryId => do
    let record ← MemoryStore.get memoryId
    MemoryStore.delete memoryId
    pure (.unit, some { MemoryEvent.about .memoryForgotten record with
      payloadId := memoryId, memoryId := memoryId })
  | .delete memoryId => do
    let record ← MemoryStore.get memoryId
    MemoryStore.delete memoryId
    pure (.unit, some { MemoryEvent.about .memoryDeleted record with
      payloadId := memoryId, memoryId := memoryId })
  | .update memoryId fields => do
    let updated ← MemoryStore.update memoryId fields now
    -- the payload has the id that was asked for, the event the one the record has now
    pure (.record updated, some { MemoryEvent.about .memoryUpdated updated with
      payloadId := memoryId })
  | .replace record => do
    MemoryStore.replace record
    pure (.unit, some (.about .memoryUpdated record))
  | .clear => do
    MemoryStore.clear order
    pure (.unit, none)
  | .read look => do
    let index ← Act.get
    pure (look now (MemoryStore.list order index), none)

/-! ## Tasks -/

/-- What a task has left to do: to return or raise, or to await an operation and go on with what it
gave. -/
inductive Prog where
  | done (result : Except Exn Unit)
  | call (op : Op) (next : Except Exn Reply → Prog)

def Prog.andThen (rest : Prog) : Except Exn Reply → Prog
  | .ok _ => rest
  | .error exc => .done (.error exc)

def forgetAll : List String → Prog
  | [] => .done (.ok ())
  | memoryId :: rest => .call (.forget memoryId) (forgetAll rest).andThen

def scan (policy : RetentionPolicy) : Op :=
  .read fun now records => .ids (policy.selectCandidates now records)

def afterScan : Except Exn Reply → Prog
  | .ok (.ids candidates) => forgetAll candidates
  | .ok _ => .done (.ok ())
  | .error exc => .done (.error exc)

def cleanup (policy : RetentionPolicy) : Prog := .call (scan policy) afterScan

inductive Thread where
  | absent
  | ready (prog : Prog)
  /-- Awaiting `acquire`. -/
  | queued (op : Op) (next : Except Exn Reply → Prog)
  /-- Awaiting `publish`, that is, its handlers. -/
  | publishing (handlers : List Nat) (rest : Prog)
  | finished (result : Except Exn Unit)

def Thread.isFinished : Thread → Bool
  | .finished _ => true
  | _ => false

structure State where
  index : MemoryIndex := {}
  /-- The task that holds the lock, and those that wait for it, the next one first. -/
  holder : Option Nat := none
  waiters : List Nat := []
  threads : Nat → Thread
  /-- No task has this number or a later one. -/
  next : Nat
  clock : Int := 0

structure Label where
  thread : Nat
  now : Int := 0
  order : List String := []

abbrev Bus := MemoryEvent → List Prog

def spawn (threads : Nat → Thread) (next : Nat) (progs : List Prog) : Nat → Thread := fun j =>
  if j < next then threads j
  else
    match progs[j - next]? with
    | some p => .ready p
    | none => threads j

def started (bus : Option Bus) :
    Except Exn (Reply × Option MemoryEvent) → Option (List Prog)
  | .ok (_, some event) => bus.map fun handlers => handlers event
  | _ => none

def replied (result : Except Exn (Reply × Option MemoryEvent)) : Except Exn Reply :=
  result.map Prod.fst

/-- A task that has the lock: the operation runs up to its publish, and without one to its end. -/
def State.enter (bus : Option Bus) (s : State) (l : Label) (op : Op)
    (next : Except Exn Reply → Prog) : State :=
  let run := op.body l.now l.order s.index
  match started bus run.result with
  | none =>
    { s with
      index := run.state
      clock := l.now
      threads := Function.update s.threads l.thread (.ready (next (replied run.result))) }
  | some progs =>
    { s with
      index := run.state
      clock := l.now
      holder := some l.thread
      threads := Function.update (spawn s.threads s.next progs) l.thread
        (.publishing (List.range' s.next progs.length) (next (replied run.result)))
      next := s.next + progs.length }

/-- A turn. A task that finds the lock taken, or others waiting for it, waits behind them. -/
def step (bus : Option Bus) (s : State) (l : Label) : Option State :=
  match s.threads l.thread with
  | .ready (.done result) =>
    some { s with threads := Function.update s.threads l.thread (.finished result) }
  | .ready (.call op next) =>
    if s.holder = none ∧ s.waiters = [] then
      if l.order.Perm s.index.byId.keys then some (s.enter bus l op next) else none
    else
      some { s with
        waiters := s.waiters ++ [l.thread]
        threads := Function.update s.threads l.thread (.queued op next) }
  | .queued op next =>
    if s.holder = none ∧ s.waiters.head? = some l.thread then
      if l.order.Perm s.index.byId.keys then
        some ({ s with waiters := s.waiters.tail }.enter bus l op next)
      else none
    else none
  | .publishing handlers rest =>
    if handlers.all fun h => (s.threads h).isFinished then
      some { s with
        holder := none
        threads := Function.update s.threads l.thread (.ready rest) }
    else none
  | .absent | .finished _ => none

def system (bus : Option Bus) : System State Label where
  step := step bus

/-- The tasks there are at first, over an empty store: those with a number below `n`. -/
def initial (n : Nat) (progs : Nat → Prog) : State where
  threads := fun i => if i < n then .ready (progs i) else .absent
  next := n

end MemoryManager

end IraOS
