import IraOS.Events.Bus
import IraOS.Lib.Trace

/-!
# Who gets an event

A publish whose middlewares each call the rest of the chain once goes through all of them, in the
order in which they were registered, and then to the dispatcher. Which handlers it finds there is a
matter of the calls made so far, whoever made them: those of `subscribe` and not of `unsubscribe`
since, for the class of the event or for `Event` (`Subscribed`). Each of them is invoked once,
whatever the others do (`publish_delivers`).

What arrives is the event that the last middleware passed on, and no handler can make the publish
raise. A middleware can, after its call (`not_delivered_and_returned`).

## The moment that counts

Subscriptions change while a publish is under way. The handlers are those that listen when the
dispatcher is called, and the middlewares those registered by then; the log shows that moment as the
boundary between `pre` and `post`, and what comes before it decides. What a handler does in between
makes no difference to the others.

## Never held up

That something is so of a publish that has ended is only worth something if publishes end. Nobody
can make a middleware or a handler return, but the bus never holds one up: at every moment before
the end there is a turn the publish can take, and one that keeps to the condition on middlewares
(`Place.goes_on`). In the dispatcher every handler that is left can begin, and every one that has
begun can end, with whatever result.

## The proof

`Place` follows one publish through its three stretches, on the way in, in the dispatcher, on the
way out. Its own turns are gone through one by one (`Takes` has what there is), and a turn of
another task changes the tables but not what this publish has done.
-/

set_option autoImplicit false

namespace IraOS

open Lib

/-! ## The two tables -/

namespace Dispatcher

variable {κ α η : Type} [DecidableEq κ] [DecidableEq η] (self : Dispatcher κ η)

def table : EventType κ → Finset η
  | .base => self.wildcardSubscribers
  | .sub cls => self.subscribers.bucket (.sub cls)

theorem table_subscribe (eventType eventType' : EventType κ) (handler : η) :
    (self.subscribe eventType handler).table eventType' =
      if eventType' = eventType then insert handler (self.table eventType')
      else self.table eventType' := by
  unfold subscribe
  cases eventType with
  | base => cases eventType' <;> simp [table]
  | sub cls =>
    cases eventType' with
    | base => simp [table]
    | sub cls' =>
      rw [if_neg (by simp), table, table, Dict.bucket_addTo]
      split
      · next heq => rw [heq]
      · rfl

theorem table_unsubscribe (eventType eventType' : EventType κ) (handler : η) :
    (self.unsubscribe eventType handler).table eventType' =
      if eventType' = eventType then (self.table eventType').erase handler
      else self.table eventType' := by
  unfold unsubscribe
  cases eventType with
  | base => cases eventType' <;> simp [table]
  | sub cls =>
    cases eventType' with
    | base => simp [table]
    | sub cls' =>
      rw [if_neg (by simp), table, table, Dict.bucket, Dict.get?_set]
      split
      · next heq =>
        rw [heq]
        rfl
      · rfl

/-- `Event` has no entry of its own among the classes. -/
theorem subscribers_base (eventType : EventType κ) (handler : η) :
    (self.subscribe eventType handler).subscribers.get? .base = self.subscribers.get? .base ∧
      (self.unsubscribe eventType handler).subscribers.get? .base =
        self.subscribers.get? .base := by
  unfold subscribe unsubscribe
  split
  · exact ⟨rfl, rfl⟩
  · next hne => exact ⟨Dict.get?_set_ne (Ne.symm hne), Dict.get?_set_ne (Ne.symm hne)⟩

theorem handlers_eq (hbase : self.subscribers.get? .base = none) (event : EventObject κ α) :
    self.handlers event = self.table event.type ∪ self.table .base := by
  unfold handlers
  dsimp only
  cases event.type with
  | base =>
    rw [Dict.contains, hbase]
    simp [table]
  | sub cls =>
    rw [Dict.contains, table, table, Dict.bucket]
    cases self.subscribers.get? (.sub cls) <;> simp

end Dispatcher

namespace EventBus

variable {κ α η μ : Type}


/-- The handler has subscribed to the class, and has not unsubscribed since. -/
def Subscribed (history : List (Action κ α η μ)) (eventType : EventType κ) (handler : η) : Prop :=
  Since (.subscribed eventType handler) (.unsubscribed eventType handler) history

/-- The event is for the handler. -/
def Listens (history : List (Action κ α η μ)) (event : EventObject κ α) (handler : η) : Prop :=
  Subscribed history event.type handler ∨ Subscribed history .base handler

def Action.usedBy : Action κ α η μ → Option μ
  | .used middleware => some middleware
  | _ => none

def Action.enteredBy : Action κ α η μ → Option μ
  | .entered middleware _ => some middleware
  | _ => none

def Action.invokedWith : Action κ α η μ → Option (η × EventObject κ α)
  | .invoked handler event => some (handler, event)
  | _ => none

def registered (history : List (Action κ α η μ)) : List μ := history.filterMap Action.usedBy

/-- The middlewares that were run, in order. -/
def entered (actions : List (Action κ α η μ)) : List μ := actions.filterMap Action.enteredBy

/-- The handlers that were invoked, in order, and with what. -/
def invocations (actions : List (Action κ α η μ)) : List (η × EventObject κ α) :=
  actions.filterMap Action.invokedWith

theorem registered_append (actions more : List (Action κ α η μ)) :
    registered (actions ++ more) = registered actions ++ registered more :=
  List.filterMap_append ..

theorem entered_append (actions more : List (Action κ α η μ)) :
    entered (actions ++ more) = entered actions ++ entered more := List.filterMap_append ..

theorem invocations_append (actions more : List (Action κ α η μ)) :
    invocations (actions ++ more) = invocations actions ++ invocations more :=
  List.filterMap_append ..


abbrev Log (κ α η μ : Type) := List (Nat × Action κ α η μ)

def history (log : Log κ α η μ) : List (Action κ α η μ) := log.map Prod.snd

def logOf (i : Nat) (log : Log κ α η μ) : List (Action κ α η μ) :=
  log.filterMap fun x => if x.1 = i then some x.2 else none

section Logs

variable {i j : Nat} {log : Log κ α η μ}

theorem logOf_append (more : Log κ α η μ) : logOf i (log ++ more) = logOf i log ++ logOf i more :=
  List.filterMap_append ..

theorem logOf_own (actions : List (Action κ α η μ)) :
    logOf i (actions.map (Prod.mk i)) = actions := by
  rw [logOf, List.filterMap_map]
  simp

theorem logOf_other (hj : j ≠ i) (actions : List (Action κ α η μ)) :
    logOf i (actions.map (Prod.mk j)) = [] := by
  rw [logOf, List.filterMap_map]
  simp [hj]

theorem history_append (more : Log κ α η μ) :
    history (log ++ more) = history log ++ history more := List.map_append

theorem history_own (actions : List (Action κ α η μ)) :
    history (actions.map (Prod.mk i)) = actions := by
  rw [history, List.map_map]
  exact List.map_id actions

end Logs

/-- What publish `i` does around its call of the dispatcher: **all middlewares, in their order, and
then every handler that listens, once**; those in `left` are yet to come. -/
structure Delivers (i : Nat) (event : EventObject κ α) (pre post : Log κ α η μ)
    (left : Finset η) : Prop where
  middlewares : entered (logOf i pre) = registered (history pre)
  before : invocations (logOf i pre) = []
  after : entered (logOf i post) = []
  once : ((invocations (logOf i post)).map Prod.fst).Nodup
  handlers : ∀ handler, handler ∈ (invocations (logOf i post)).map Prod.fst ↔
    Listens (history pre) event handler ∧ handler ∉ left
  argument : ∀ call ∈ invocations (logOf i post), call.2 = event
  left : ∀ handler ∈ left, Listens (history pre) event handler

/-- There is such a call in the log. -/
def Delivered (i : Nat) (event : EventObject κ α) (log : Log κ α η μ) (left : Finset η) : Prop :=
  ∃ pre post, log = pre ++ (i, .dispatched event) :: post ∧ Delivers i event pre post left

def passedBy (i : Nat) : Nat × Reply κ α η → Option (EventObject κ α)
  | (j, .next event) => if j = i then some event else none
  | _ => none

/-- The event that a middleware of publish `i` last passed on, or the one it was called with. -/
def passedOn (i : Nat) (event : EventObject κ α) (ls : List (Nat × Reply κ α η)) :
    EventObject κ α :=
  (ls.filterMap (passedBy i)).getLast?.getD event

/-- The call has returned or raised. -/
def Pc.Ended : Pc κ α η → Prop
  | .returned | .raised _ => True
  | _ => False

/-- A middleware that has called the rest of the chain so often may do that. -/
def once : Nat → Reply κ α η → Prop
  | called, .next _ => called = 0
  | called, .returns => called = 1
  | called, .raises _ => called = 1
  | _, _ => True

section Decidable

variable [DecidableEq κ] [DecidableEq η] (calls : Nat → BusCall κ α η μ)

abbrev State (κ α η μ : Type) := Tasks.State (EventBus κ η μ) (Pc κ α η) (Action κ α η μ)

/-- Every task makes its call, once, and any of them goes on next. -/
def bus : System (State κ α η μ) (Nat × Reply κ α η) := Tasks.system (turn calls)

omit [DecidableEq κ] [DecidableEq η] in
def initial : State κ α η μ := ⟨{}, fun _ => .idle, []⟩

omit [DecidableEq κ] [DecidableEq η] in
/-- **Each middleware of publish `i` calls the rest of the chain exactly once.** -/
def CallsNextOnce (i : Nat) (s : State κ α η μ) (l : Nat × Reply κ α η) : Prop :=
  l.1 = i → ∀ called outer, s.pcs i = .inside called outer → once called l.2

end Decidable

/-! ## What the calls leave -/

/-- The bus has what the calls so far have left on it: in either table those who have subscribed and
not unsubscribed since, and the middlewares in their order. -/
structure Kept [DecidableEq κ] [DecidableEq η] (log : List (Action κ α η μ))
    (bus : EventBus κ η μ) : Prop where
  table : ∀ eventType handler, handler ∈ bus.dispatcher.table eventType ↔
    Subscribed log eventType handler
  base : bus.dispatcher.subscribers.get? .base = none
  middlewares : bus.middlewares = registered log

def Action.on [DecidableEq κ] [DecidableEq η] (bus : EventBus κ η μ) :
    Action κ α η μ → EventBus κ η μ
  | .subscribed eventType handler =>
    { bus with dispatcher := bus.dispatcher.subscribe eventType handler }
  | .unsubscribed eventType handler =>
    { bus with dispatcher := bus.dispatcher.unsubscribe eventType handler }
  | .used middleware => { bus with middlewares := bus.middlewares ++ [middleware] }
  | _ => bus

section Kept

variable [DecidableEq κ] [DecidableEq η] {log : List (Action κ α η μ)} {bus : EventBus κ η μ}

theorem kept_new : Kept ([] : List (Action κ α η μ)) ({} : EventBus κ η μ) where
  table eventType handler := by
    refine iff_of_false ?_ Since.not_nil
    cases eventType <;> exact Finset.notMem_empty handler
  base := rfl
  middlewares := rfl

theorem Kept.append (h : Kept log bus) (action : Action κ α η μ) :
    Kept (log ++ [action]) (action.on bus) where
  table eventType handler := by
    rw [Subscribed, Since.append_iff, ← Subscribed, ← h.table]
    cases action with
    | subscribed eventType' handler' =>
      rw [Action.on, Dispatcher.table_subscribe]
      split
      · next heq => simp [heq, eq_comm]
      · next hne => simp [Ne.symm hne]
    | unsubscribed eventType' handler' =>
      rw [Action.on, Dispatcher.table_unsubscribe]
      split
      · next heq => simp [heq, and_comm, eq_comm]
      · next hne => simp [Ne.symm hne]
    | _ => simp [Action.on]
  base := by
    cases action with
    | subscribed eventType handler =>
      exact (Dispatcher.subscribers_base _ eventType handler).1.trans h.base
    | unsubscribed eventType handler =>
      exact (Dispatcher.subscribers_base _ eventType handler).2.trans h.base
    | _ => exact h.base
  middlewares := by
    rw [registered_append]
    cases action with
    | used middleware => exact congrArg (· ++ [middleware]) h.middlewares
    | _ => exact h.middlewares.trans (List.append_nil _).symm

/-- The dispatcher finds those that listen. -/
theorem Kept.mem_handlers_iff (h : Kept log bus) {event : EventObject κ α} {handler : η} :
    handler ∈ bus.dispatcher.handlers event ↔ Listens log event handler := by
  rw [Dispatcher.handlers_eq _ h.base, Finset.mem_union, h.table, h.table]
  exact Iff.rfl

end Kept


inductive Ends : Reply κ α η → Except Exn Unit → Prop where
  | returns : Ends .returns (.ok ())
  | raises (exc : Exn) : Ends (.raises exc) (.error exc)

theorem Ends.spec {reply : Reply κ α η} {result : Except Exn Unit} (h : Ends reply result) (i : Nat)
    {called : Nat} (honce : once called reply) :
    called = 1 ∧ passedBy i (i, reply) = none ∧
      ∀ exc, result = .error exc → reply = .raises exc := by
  cases h with
  | returns => exact ⟨honce, rfl, fun exc hraised => by cases hraised⟩
  | raises exc =>
    refine ⟨honce, rfl, ?_⟩
    rintro exc' ⟨⟩
    rfl

section Turns

variable [DecidableEq κ] [DecidableEq η] {calls : Nat → BusCall κ α η μ} {i : Nat}
  {bus : EventBus κ η μ}

/-- The turns there are, one case for each way in which a call can go on. What a turn of a publish
does to its place and its log is gone through here once. -/
inductive Takes (calls : Nat → BusCall κ α η μ) (i : Nat) (bus : EventBus κ η μ) :
    Pc κ α η → Reply κ α η → Turn κ α η μ → Prop where
  | begins : Takes calls i bus .idle .proceed (start bus (calls i))
  | passes (called : Nat) (outer : List Nat) (event : EventObject κ α) :
      Takes calls i bus (.inside called outer) (.next event)
        (runMiddlewares bus event ((called + 1) :: outer))
  | ends (called : Nat) (outer : List Nat) (reply : Reply κ α η) (result : Except Exn Unit)
      (hends : Ends reply result) :
      Takes calls i bus (.inside called outer) reply (resume bus result [] outer)
  | starts (event : EventObject κ α) (waiting running : Finset η) (outer : List Nat) (handler : η)
      (hwaiting : handler ∈ waiting) :
      Takes calls i bus (.dispatching event waiting running outer) (.start handler)
        ⟨bus, .dispatching event (waiting.erase handler) (insert handler running) outer,
          [.invoked handler event]⟩
  | handles (event : EventObject κ α) (waiting running : Finset η) (outer : List Nat) (handler : η)
      (result : Except Exn Unit) (hrunning : handler ∈ running) :
      Takes calls i bus (.dispatching event waiting running outer) (.handled handler result)
        (gather bus event waiting (running.erase handler) outer
          (Dispatcher.safeInvoke handler result))

theorem turn_cases {pc : Pc κ α η} {reply : Reply κ α η} {t : Turn κ α η μ}
    (ht : turn calls i bus pc reply = some t) : Takes calls i bus pc reply t := by
  cases pc with
  | idle =>
    cases reply with
    | proceed =>
      cases ht
      exact .begins
    | _ => cases ht
  | inside called outer =>
    cases reply with
    | next event =>
      cases ht
      exact .passes called outer event
    | returns =>
      cases ht
      exact .ends called outer _ _ .returns
    | raises exc =>
      cases ht
      exact .ends called outer _ _ (.raises exc)
    | _ => cases ht
  | dispatching event waiting running outer =>
    cases reply with
    | start handler =>
      obtain ⟨hwaiting, ⟨⟩⟩ := Option.ite_none_right_eq_some.mp ht
      exact .starts event waiting running outer handler hwaiting
    | handled handler result =>
      obtain ⟨hrunning, ⟨⟩⟩ := Option.ite_none_right_eq_some.mp ht
      exact .handles event waiting running outer handler result hrunning
    | _ => cases ht
  | returned => cases reply <;> cases ht
  | raised exc => cases reply <;> cases ht

omit [DecidableEq κ] [DecidableEq η] in
theorem resume_actions {result : Except Exn Unit} {actions : List (Action κ α η μ)}
    {outer : List Nat} : (resume bus result actions outer).actions = actions ∧
      (resume bus result actions outer).shared = bus := by
  cases outer with
  | nil => cases result <;> exact ⟨rfl, rfl⟩
  | cons called outer => exact ⟨rfl, rfl⟩

theorem runMiddlewares_shared (event : EventObject κ α) (outer : List Nat) :
    (runMiddlewares bus event outer).shared = (runMiddlewares bus event outer).actions.foldl
      (fun bus action => action.on bus) bus := by
  unfold runMiddlewares dispatch
  cases bus.middlewares[outer.length]? with
  | some middleware => rfl
  | none =>
    dsimp only
    split
    · rw [resume_actions.1, resume_actions.2]
      rfl
    · rfl

theorem turn_shared {pc : Pc κ α η} {reply : Reply κ α η} {t : Turn κ α η μ}
    (ht : turn calls i bus pc reply = some t) :
    t.shared = t.actions.foldl (fun bus action => action.on bus) bus := by
  cases turn_cases ht with
  | begins =>
    cases calls i with
    | publish event => exact runMiddlewares_shared event []
    | _ => rfl
  | passes called outer event => exact runMiddlewares_shared event _
  | ends called outer reply result hends =>
    rw [resume_actions.1, resume_actions.2]
    rfl
  | starts event waiting running outer handler hwaiting => rfl
  | handles event waiting running outer handler result hrunning =>
    unfold gather
    split
    · rw [resume_actions.1, resume_actions.2]
      cases result <;> rfl
    · cases result <;> rfl

end Turns


/-- The publish has run so many middlewares, and no handler. -/
structure Entering (i : Nat) (log : Log κ α η μ) (depth : Nat) : Prop where
  entered : entered (logOf i log) = (registered (history log)).take depth
  depth : depth ≤ (registered (history log)).length
  quiet : invocations (logOf i log) = []

/-- Where a publish is: on its way in, in the dispatcher, or on its way out. It is in the dispatcher
only as long as some handler there has not begun or has not ended. -/
def Place (i : Nat) (event : EventObject κ α) (past : List (Nat × Reply κ α η))
    (log : Log κ α η μ) : Pc κ α η → Prop
  | .idle => logOf i log = [] ∧ passedOn i event past = event
  | .inside called outer => (∀ c ∈ outer, c = 1) ∧
      ((called = 0 ∧ Entering i log (outer.length + 1)) ∨
        (called = 1 ∧ Delivered i (passedOn i event past) log ∅))
  | .dispatching event' left running outer => (∀ c ∈ outer, c = 1) ∧
      event' = passedOn i event past ∧ Delivered i event' log left ∧ ¬ (left = ∅ ∧ running = ∅)
  | .returned => Delivered i (passedOn i event past) log ∅
  | .raised exc => Delivered i (passedOn i event past) log ∅ ∧ (i, .raises exc) ∈ past

section Steps

variable {i : Nat} {event : EventObject κ α} {past : List (Nat × Reply κ α η)}
  {log more : Log κ α η μ} {left : Finset η} {outer : List Nat} {depth : Nat}

theorem Delivered.append (h : Delivered i event log left) (hentered : entered (logOf i more) = [])
    (hinvoked : invocations (logOf i more) = []) : Delivered i event (log ++ more) left := by
  obtain ⟨pre, post, rfl, hd⟩ := h
  refine ⟨pre, post ++ more, by simp, hd.middlewares, hd.before, ?_, ?_, ?_, ?_, hd.left⟩
  · rw [logOf_append, entered_append, hd.after, hentered]
    rfl
  all_goals rw [logOf_append, invocations_append, hinvoked, List.append_nil]
  · exact hd.once
  · exact hd.handlers
  · exact hd.argument

theorem Delivered.invoke [DecidableEq η] (h : Delivered i event log left) {handler : η}
    (hleft : handler ∈ left) :
    Delivered i event (log ++ [(i, .invoked handler event)]) (left.erase handler) := by
  obtain ⟨pre, post, rfl, hd⟩ := h
  have hlog : logOf i (post ++ [(i, .invoked handler event)]) =
      logOf i post ++ [.invoked handler event] := by
    rw [logOf_append]
    simp [logOf]
  have hinvoked : invocations (logOf i (post ++ [(i, .invoked handler event)])) =
      invocations (logOf i post) ++ [(handler, event)] := by
    rw [hlog, invocations_append]
    rfl
  have hnew : handler ∉ (invocations (logOf i post)).map Prod.fst := by
    intro hmem
    exact ((hd.handlers handler).mp hmem).2 hleft
  refine ⟨pre, post ++ [(i, .invoked handler event)], by simp, hd.middlewares, hd.before, ?_, ?_,
    ?_, ?_, ?_⟩
  · rw [hlog, entered_append, hd.after]
    rfl
  · rw [hinvoked, List.map_append]
    exact hd.once.append (List.nodup_singleton _) (by simpa using hnew)
  · intro handler'
    rw [hinvoked, List.map_append, List.mem_append, hd.handlers, Finset.mem_erase]
    by_cases heq : handler' = handler
    · subst heq
      simp [hd.left handler' hleft]
    · simp [heq]
  · intro call hcall
    rw [hinvoked] at hcall
    rcases List.mem_append.mp hcall with hcall | hcall
    · exact hd.argument call hcall
    · rw [List.mem_singleton.mp hcall]
  · intro handler' hmem
    exact hd.left handler' (Finset.mem_of_mem_erase hmem)

theorem Entering.enter (h : Entering i log depth) {middleware : μ}
    (hnext : (registered (history log))[depth]? = some middleware) :
    Entering i (log ++ [(i, .entered middleware event)]) (depth + 1) := by
  have hlog : logOf i (log ++ [(i, .entered middleware event)]) =
      logOf i log ++ [.entered middleware event] := by
    rw [logOf_append]
    simp [logOf]
  have hregistered : registered (history (log ++ [(i, .entered middleware event)])) =
      registered (history log) := by
    rw [history_append, registered_append]
    exact List.append_nil _
  constructor
  · rw [hlog, entered_append, h.entered, hregistered, List.take_add_one, hnext]
    rfl
  · rw [hregistered]
    exact (List.getElem?_eq_some_iff.mp hnext).1
  · rw [hlog, invocations_append, h.quiet]
    rfl

theorem Entering.dispatch (h : Entering i log depth)
    (hall : (registered (history log)).length ≤ depth)
    (hleft : ∀ handler, handler ∈ left ↔ Listens (history log) event handler) :
    Delivered i event (log ++ [(i, .dispatched event)]) left := by
  refine ⟨log, [], rfl, ?_, h.quiet, rfl, List.nodup_nil, ?_, ?_, fun handler => (hleft handler).mp⟩
  · rw [h.entered, List.take_of_length_le hall]
  · intro handler
    rw [← hleft]
    refine iff_of_false List.not_mem_nil ?_
    rintro ⟨hmem, hnot⟩
    exact hnot hmem
  · intro call hcall
    cases hcall

theorem resume_place {bus : EventBus κ η μ} {result : Except Exn Unit}
    {actions : List (Action κ α η μ)} (houter : ∀ c ∈ outer, c = 1)
    (h : Delivered i (passedOn i event past) log ∅)
    (hraised : ∀ exc, result = .error exc → (i, .raises exc) ∈ past) :
    Place i event past log (resume bus result actions outer).pc := by
  cases outer with
  | nil =>
    cases result with
    | ok u => exact h
    | error exc => exact ⟨h, hraised exc rfl⟩
  | cons called outer =>
    refine ⟨fun c hc => houter c (List.mem_cons_of_mem _ hc), Or.inr ⟨?_, h⟩⟩
    exact houter called List.mem_cons_self

variable [DecidableEq κ] [DecidableEq η] {bus : EventBus κ η μ}

/-- **One call of `_run_middlewares`**: the next middleware, or the dispatcher. -/
theorem runMiddlewares_place {event' : EventObject κ α} (hkept : Kept (history log) bus)
    (hevent : passedOn i event past = event') (houter : ∀ c ∈ outer, c = 1)
    (h : Entering i log outer.length) :
    Place i event past (log ++ (runMiddlewares bus event' outer).actions.map (Prod.mk i))
      (runMiddlewares bus event' outer).pc := by
  subst hevent
  unfold runMiddlewares
  cases hget : bus.middlewares[outer.length]? with
  | some middleware =>
    rw [hkept.middlewares] at hget
    exact ⟨houter, Or.inl ⟨rfl, h.enter hget⟩⟩
  | none =>
    have hall : (registered (history log)).length ≤ outer.length := by
      rw [← hkept.middlewares]
      exact List.getElem?_eq_none_iff.mp hget
    unfold dispatch
    dsimp only
    split
    · next hempty =>
      rw [resume_actions.1]
      refine resume_place houter (h.dispatch hall ?_) ?_
      · intro handler
        rw [← hempty]
        exact hkept.mem_handlers_iff
      · intro exc hraised
        cases hraised
    · next hsome =>
      refine ⟨houter, rfl, h.dispatch hall fun handler => hkept.mem_handlers_iff, ?_⟩
      exact fun hnone => hsome hnone.1

omit [DecidableEq κ] [DecidableEq η] in
theorem passedOn_next (event' : EventObject κ α) :
    passedOn i event (past ++ [(i, .next event')]) = event' := by
  simp [passedOn, passedBy]

omit [DecidableEq κ] [DecidableEq η] in
theorem passedOn_other {l : Nat × Reply κ α η} (h : passedBy i l = none) :
    passedOn i event (past ++ [l]) = passedOn i event past := by
  rw [passedOn, List.filterMap_append]
  simp [passedOn, h]

omit [DecidableEq κ] in
theorem gather_place {event' : EventObject κ α} {running : Finset η} {handler : η}
    (result : Except Exn Unit) (houter : ∀ c ∈ outer, c = 1)
    (hevent : event' = passedOn i event past) (h : Delivered i event' log left) :
    Place i event past (log ++ (gather bus event' left running outer
        (Dispatcher.safeInvoke handler result)).actions.map (Prod.mk i))
      (gather bus event' left running outer (Dispatcher.safeInvoke handler result)).pc := by
  -- that it failed is one more action, and nothing else
  have hdone : Delivered i event'
      (log ++ (failures (Dispatcher.safeInvoke handler result)).map (Prod.mk i)) left := by
    apply h.append
    · rw [logOf_own]
      cases result <;> rfl
    · rw [logOf_own]
      cases result <;> rfl
  unfold gather
  split
  · next hended =>
    obtain ⟨rfl, rfl⟩ := hended
    rw [resume_actions.1]
    refine resume_place houter (hevent ▸ hdone) ?_
    intro exc hraised
    cases hraised
  · next hsome => exact ⟨houter, hevent, hdone, hsome⟩

/-- **A turn of the publish.** -/
theorem Place.of_turn {calls : Nat → BusCall κ α η μ} {pc : Pc κ α η} {reply : Reply κ α η}
    {t : Turn κ α η μ} (h : Place i event past log pc) (hkept : Kept (history log) bus)
    (hcall : calls i = .publish event)
    (honce : ∀ called outer, pc = .inside called outer → once called reply)
    (ht : turn calls i bus pc reply = some t) :
    Place i event (past ++ [(i, reply)]) (log ++ t.actions.map (Prod.mk i)) t.pc := by
  cases turn_cases ht with
  | begins =>
    obtain ⟨hlog, hpassed⟩ := h
    have hstart : start bus (calls i) = runMiddlewares bus event [] := by
      rw [hcall]
      rfl
    rw [hstart]
    refine runMiddlewares_place hkept ((passedOn_other rfl).trans hpassed) (by simp) ?_
    exact ⟨by rw [hlog]; rfl, Nat.zero_le _, by rw [hlog]; rfl⟩
  | passes called outer event' =>
    obtain ⟨houter, hwhere⟩ := h
    have hcalled : called = 0 := honce called outer rfl
    rcases hwhere with ⟨-, hentering⟩ | ⟨hone, -⟩
    · subst hcalled
      refine runMiddlewares_place hkept (passedOn_next event') ?_ hentering
      exact List.forall_mem_cons.mpr ⟨rfl, houter⟩
    · omega
  | ends called outer reply result hends =>
    obtain ⟨houter, hwhere⟩ := h
    obtain ⟨hone, hpassed, hraises⟩ := hends.spec i (honce called outer rfl)
    rcases hwhere with ⟨hzero, -⟩ | ⟨-, hdone⟩
    · omega
    · rw [resume_actions.1, List.map_nil, List.append_nil]
      refine resume_place houter ?_ ?_
      · rw [passedOn_other hpassed]
        exact hdone
      · intro exc hraised
        rw [hraises exc hraised]
        simp
  | starts event' waiting running outer handler hwaiting =>
    obtain ⟨houter, hevent, hdone, -⟩ := h
    refine ⟨houter, hevent.trans (passedOn_other rfl).symm, hdone.invoke hwaiting, ?_⟩
    exact fun hnone => Finset.insert_ne_empty handler running hnone.2
  | handles event' waiting running outer handler result hrunning =>
    obtain ⟨houter, hevent, hdone, -⟩ := h
    exact gather_place result houter (hevent.trans (passedOn_other rfl).symm) hdone

end Steps

/-! ## Whole runs -/

section Runs

variable [DecidableEq κ] [DecidableEq η] {calls : Nat → BusCall κ α η μ} {i : Nat}
  {event : EventObject κ α}

theorem Kept.appendAll {log : List (Action κ α η μ)} {bus : EventBus κ η μ} (h : Kept log bus)
    (actions : List (Action κ α η μ)) :
    Kept (log ++ actions) (actions.foldl (fun bus action => action.on bus) bus) := by
  induction actions generalizing log bus with
  | nil =>
    rw [List.append_nil]
    exact h
  | cons action rest ih =>
    rw [List.append_cons]
    exact ih (h.append action)

omit [DecidableEq κ] [DecidableEq η] in
/-- What another task does is nothing to a publish. -/
theorem Place.other {past : List (Nat × Reply κ α η)} {log : Log κ α η μ} {pc : Pc κ α η} {j : Nat}
    (h : Place i event past log pc) (hj : j ≠ i) (reply : Reply κ α η)
    (actions : List (Action κ α η μ)) :
    Place i event (past ++ [(j, reply)]) (log ++ actions.map (Prod.mk j)) pc := by
  have hpassed : passedOn i event (past ++ [(j, reply)]) = passedOn i event past := by
    apply passedOn_other
    cases reply with
    | next event' => exact if_neg hj
    | _ => rfl
  have hlog : logOf i (log ++ actions.map (Prod.mk j)) = logOf i log := by
    rw [logOf_append, logOf_other hj, List.append_nil]
  have hdone : ∀ {event' left}, Delivered i event' log left →
      Delivered i event' (log ++ actions.map (Prod.mk j)) left := by
    intro event' left h
    apply h.append
    · rw [logOf_other hj]
      rfl
    · rw [logOf_other hj]
      rfl
  cases pc with
  | idle => exact ⟨hlog.trans h.1, hpassed.trans h.2⟩
  | inside called outer =>
    refine ⟨h.1, ?_⟩
    rcases h.2 with ⟨hzero, hentering⟩ | ⟨hone, hdelivered⟩
    · refine Or.inl ⟨hzero, ?_, ?_, ?_⟩
      · rw [hlog, hentering.entered, history_append, registered_append,
          List.take_append_of_le_length hentering.depth]
      · rw [history_append, registered_append, List.length_append]
        exact Nat.le_add_right_of_le hentering.depth
      · rw [hlog, hentering.quiet]
    · exact Or.inr ⟨hone, hpassed.symm ▸ hdone hdelivered⟩
  | dispatching event' waiting running outer =>
    exact ⟨h.1, h.2.1.trans hpassed.symm, hdone h.2.2.1, h.2.2.2⟩
  | returned =>
    show Delivered i _ _ ∅
    rw [hpassed]
    exact hdone h
  | raised exc =>
    refine ⟨?_, List.mem_append_left _ h.2⟩
    rw [hpassed]
    exact hdone h.1

/-- What there is after the labels of a run. -/
structure Publishes (i : Nat) (event : EventObject κ α) (past : List (Nat × Reply κ α η))
    (s : State κ α η μ) : Prop where
  kept : Kept (history s.log) s.shared
  place : Place i event past s.log (s.pcs i)

theorem Publishes.step (hcall : calls i = .publish event) {past : List (Nat × Reply κ α η)}
    {s s' : State κ α η μ} {l : Nat × Reply κ α η} (h : Publishes i event past s)
    (honce : CallsNextOnce i s l) (hstep : (bus calls).step s l = some s') :
    Publishes i event (past ++ [l]) s' := by
  obtain ⟨j, reply⟩ := l
  obtain ⟨t, ht, rfl⟩ := Tasks.step_some hstep
  constructor
  · show Kept (history (s.log ++ t.actions.map (Prod.mk j))) t.shared
    rw [history_append, history_own, turn_shared ht]
    exact h.kept.appendAll t.actions
  · by_cases hj : j = i
    · subst hj
      rw [Tasks.take_pcs_self]
      exact h.place.of_turn h.kept hcall (honce rfl) ht
    · rw [Tasks.take_pcs_ne (Ne.symm hj)]
      exact h.place.other hj reply t.actions

theorem publishes (hcall : calls i = .publish event) {ls : List (Nat × Reply κ α η)}
    {s : State κ α η μ} (hrun : (bus calls).exec initial ls = some s)
    (honce : (bus calls).Meets (CallsNextOnce i) initial ls) : Publishes i event ls s := by
  have hstart : Publishes i event [] (initial : State κ α η μ) := ⟨kept_new, rfl, rfl⟩
  exact System.exec_history_guarded (fun past s l s' h hC hstep => h.step hcall hC hstep) hstart
    honce hrun

theorem can_start {s : State κ α η μ} {event' : EventObject κ α} {left running : Finset η}
    {outer : List Nat} {handler : η} (hpc : s.pcs i = .dispatching event' left running outer)
    (hleft : handler ∈ left) : ∃ s', (bus calls).step s (i, .start handler) = some s' := by
  have ht : turn calls i s.shared (s.pcs i) (.start handler) =
      some ⟨s.shared, .dispatching event' (left.erase handler) (insert handler running) outer,
        [.invoked handler event']⟩ := by
    rw [hpc]
    exact if_pos hleft
  exact ⟨_, Tasks.step_of ht⟩

theorem can_end {s : State κ α η μ} {event' : EventObject κ α} {left running : Finset η}
    {outer : List Nat} {handler : η} (hpc : s.pcs i = .dispatching event' left running outer)
    (hrunning : handler ∈ running) (result : Except Exn Unit) :
    ∃ s', (bus calls).step s (i, .handled handler result) = some s' := by
  have ht : turn calls i s.shared (s.pcs i) (.handled handler result) =
      some (gather s.shared event' left (running.erase handler) outer
        (Dispatcher.safeInvoke handler result)) := by
    rw [hpc]
    exact if_pos hrunning
  exact ⟨_, Tasks.step_of ht⟩

/-- Wherever a publish is, there is a way on: it begins, a middleware calls the rest of the chain or
returns, or a handler begins or ends. The turn is one of those that `CallsNextOnce` allows, so the
condition on the middlewares never holds a publish up. -/
theorem Place.goes_on {past : List (Nat × Reply κ α η)} {s : State κ α η μ}
    (h : Place i event past s.log (s.pcs i)) (hnot : ¬ (s.pcs i).Ended) :
    ∃ reply s', CallsNextOnce i s (i, reply) ∧ (bus calls).step s (i, reply) = some s' := by
  cases hpc : s.pcs i with
  | idle =>
    refine ⟨.proceed, _, ?_, Tasks.step_of (by rw [hpc]; rfl)⟩
    intro _ called outer hinside
    rw [hpc] at hinside
    cases hinside
  | inside called outer =>
    rw [hpc] at h
    rcases h.2 with ⟨hzero, -⟩ | ⟨hone, -⟩
    · refine ⟨.next event, _, ?_, Tasks.step_of (by rw [hpc]; rfl)⟩
      intro _ called' outer' hinside
      rw [hpc] at hinside
      cases hinside
      exact hzero
    · refine ⟨.returns, _, ?_, Tasks.step_of (by rw [hpc]; rfl)⟩
      intro _ called' outer' hinside
      rw [hpc] at hinside
      cases hinside
      exact hone
  | dispatching event' left running outer =>
    have hfree : ∀ reply, CallsNextOnce i s (i, reply) := by
      intro reply _ called outer' hinside
      rw [hpc] at hinside
      cases hinside
    rw [hpc] at h
    by_cases hleft : left = ∅
    · have hrunning : running.Nonempty :=
        Finset.nonempty_iff_ne_empty.mpr fun hnone => h.2.2.2 ⟨hleft, hnone⟩
      obtain ⟨handler, hmem⟩ := hrunning
      obtain ⟨s', hstep⟩ := can_end hpc hmem (.ok ())
      exact ⟨_, s', hfree _, hstep⟩
    · obtain ⟨handler, hmem⟩ := Finset.nonempty_iff_ne_empty.mpr hleft
      obtain ⟨s', hstep⟩ := can_start hpc hmem
      exact ⟨_, s', hfree _, hstep⟩
  | returned =>
    rw [hpc] at hnot
    exact absurd trivial hnot
  | raised exc =>
    rw [hpc] at hnot
    exact absurd trivial hnot

/-- **Who gets an event.** In every run of any calls, in any interleaving, with handlers that raise
what they like: a publish whose middlewares each call the rest of the chain once has, when it has
ended, run all of them in their order and then invoked every handler that listens once, with the
event that was passed on; and it has returned, or raised what a middleware raised. While it is in
the dispatcher, every handler still to come can begin, and every one under way can end as it likes,
whatever came of the others; and as long as it has not ended there is a turn it can take. -/
theorem publish_delivers (hcall : calls i = .publish event) {ls : List (Nat × Reply κ α η)}
    {s : State κ α η μ} (hrun : (bus calls).exec initial ls = some s)
    (honce : (bus calls).Meets (CallsNextOnce i) initial ls) :
    ((s.pcs i).Ended → Delivered i (passedOn i event ls) s.log ∅ ∧
      (s.pcs i = .returned ∨ ∃ exc, s.pcs i = .raised exc ∧ (i, .raises exc) ∈ ls)) ∧
    (∀ event' left running outer, s.pcs i = .dispatching event' left running outer →
      Delivered i (passedOn i event ls) s.log left ∧
        (∀ handler ∈ left, ∃ s', (bus calls).step s (i, .start handler) = some s') ∧
        ∀ handler ∈ running, ∀ result, ∃ s',
          (bus calls).step s (i, .handled handler result) = some s') ∧
    (¬ (s.pcs i).Ended →
      ∃ reply s', CallsNextOnce i s (i, reply) ∧ (bus calls).step s (i, reply) = some s') := by
  have hplace := (publishes hcall hrun honce).place
  refine ⟨?_, ?_, hplace.goes_on⟩
  · intro hended
    cases hpc : s.pcs i with
    | returned =>
      rw [hpc] at hplace
      exact ⟨hplace, Or.inl rfl⟩
    | raised exc =>
      rw [hpc] at hplace
      exact ⟨hplace.1, Or.inr ⟨exc, rfl, hplace.2⟩⟩
    | _ =>
      rw [hpc] at hended
      exact hended.elim
  · intro event' left running outer hpc
    rw [hpc] at hplace
    obtain ⟨-, hevent, hdelivered, -⟩ := hplace
    refine ⟨hevent ▸ hdelivered, ?_, ?_⟩
    · exact fun handler hleft => can_start hpc hleft
    · exact fun handler hrunning result => can_end hpc hrunning result

end Runs

/-! ## A bus with one middleware and one handler -/

def pinged : EventObject Unit Unit := ⟨.sub (), ()⟩

/-- The middleware is registered, the handler subscribes to `Event`, and an event is published. -/
def watched : Nat → BusCall Unit Unit Unit Unit
  | 0 => .use ()
  | 1 => .subscribe .base ()
  | _ => .publish pinged

/-- The middleware passes the event on, the handler raises, and then the middleware ends. -/
def watching (ending : Reply Unit Unit Unit) : List (Nat × Reply Unit Unit Unit) :=
  [(0, .proceed), (1, .proceed), (2, .proceed), (2, .next pinged), (2, .start ()),
    (2, .handled () (.error ⟨.runtimeError, lit "handler"⟩)), (2, ending)]

theorem watching_once (ending : Reply Unit Unit Unit) (h : once 1 ending) :
    (bus watched).Meets (CallsNextOnce 2) initial (watching ending) := by
  have hidle : ∀ (s : State Unit Unit Unit Unit) (j : Nat), j ≠ 2 →
      CallsNextOnce 2 s (j, .proceed) := fun s j hj heq => absurd heq hj
  refine System.meets_cons (hidle _ 0 (by decide)) rfl ?_
  refine System.meets_cons (hidle _ 1 (by decide)) rfl ?_
  refine System.meets_cons (fun _ _ _ hpc => by cases hpc) rfl ?_
  refine System.meets_cons (fun _ _ _ hpc => by cases hpc; rfl) rfl ?_
  refine System.meets_cons (fun _ _ _ _ => trivial) rfl ?_
  refine System.meets_cons (fun _ _ _ _ => trivial) rfl ?_
  refine ⟨fun _ _ _ hpc => by cases hpc; exact h, fun _ _ => trivial⟩

theorem publish_delivers_watched : ∃ s, (bus watched).exec initial (watching .returns) = some s ∧
    s.pcs 2 = .returned ∧ Delivered 2 pinged s.log ∅ := by
  obtain ⟨s, hrun, hpc⟩ : ∃ s, (bus watched).exec initial (watching .returns) = some s ∧
      s.pcs 2 = .returned := ⟨_, rfl, rfl⟩
  have hended : (s.pcs 2).Ended := by
    rw [hpc]
    trivial
  have hcall : watched 2 = .publish pinged := rfl
  have honce := watching_once .returns rfl
  exact ⟨s, hrun, hpc, ((publish_delivers hcall hrun honce).1 hended).1⟩

/-- A middleware that raises after its call makes the publish raise. -/
theorem not_delivered_and_returned : ¬ ∀ (calls : Nat → BusCall Unit Unit Unit Unit) (i : Nat)
    (event : EventObject Unit Unit) (ls : List (Nat × Reply Unit Unit Unit))
    (s : State Unit Unit Unit Unit), calls i = .publish event →
      (bus calls).exec initial ls = some s → (bus calls).Meets (CallsNextOnce i) initial ls →
        (s.pcs i).Ended → Delivered i event s.log ∅ ∧ s.pcs i = .returned := by
  intro h
  let exc : Exn := ⟨.runtimeError, lit "middleware"⟩
  obtain ⟨s, hrun, hpc⟩ : ∃ s, (bus watched).exec initial (watching (.raises exc)) = some s ∧
      s.pcs 2 = .raised exc := ⟨_, rfl, rfl⟩
  have hended : (s.pcs 2).Ended := by
    rw [hpc]
    trivial
  have hreturned := (h watched 2 pinged _ s rfl hrun
    (watching_once (.raises exc) rfl) hended).2
  rw [hpc] at hreturned
  cases hreturned

end EventBus

end IraOS
