import IraOS.Lib.Calls
import IraOS.Lib.Seen
import IraOS.Memory.Notebook
import IraOS.Memory.Sweep

/-!
# First come, first served

A call of the manager is made, is served, and returns, and in between the tasks go on as they like.
**They see one notebook all the same** (`linearized`): calls are served one at a time and in the
order in which they were made, every answer and every event is what the notebook gives at that
moment, and the store holds what the notebook comes to. A handler of a published event is a task
like the others; which tasks there are, and with which programs, follows from what was served.

Nothing is asked of the programs or of the handlers here, so it holds of runs that end in a deadlock
as well: what such a run has served, it has served in order.

## What is seen

A run is seen as a list of happenings: a task makes a call, a call is served, a call returns. What
is promised speaks of that list and of the state the run has reached, and of nothing in between:

* the calls served are the first ones made, and those that wait are the rest, in order
  (`InOrder`);
* the services are lines of the notebook, one after the other (`Told`), and lead to what is
  stored;
* the lock is held exactly by the task whose event is being published;
* every task has gone through its own program, with the answers it was served (`Course`).

## Why the order of the calls

The lock is fair: whoever finds it taken, or others waiting, waits behind them. So the order in
which calls are made is the order in which they are served, and not merely *some* order that
explains the answers. Linearizability would allow any order in which a call that returned comes
before one that was made later.
-/

set_option autoImplicit false

namespace IraOS

open Lib Lib.Tasks MemoryIndex

namespace MemoryManager

/-! ## What is seen of a run -/

inductive Happening where
  | called (op : Op)
  /-- The operation was run, at the moment `now`. -/
  | served (op : Op) (now : Int) (result : Except Exn (Reply × Option MemoryEvent))
  | returned

abbrev History := List (Nat × Happening)

def State.serving (bus : Option Bus) (s : State) (l : Label) (op : Op) : List Happening :=
  let result := (op.body l.now l.order s.index).result
  .served op l.now result :: if (started bus result).isNone then [.returned] else []

def happenings (bus : Option Bus) (s : State) (l : Label) : List Happening :=
  match s.threads l.thread with
  | .ready (.call op _) =>
    if s.holder = none ∧ s.waiters = [] then .called op :: s.serving bus l op else [.called op]
  | .queued op _ => s.serving bus l op
  | .publishing _ _ => [.returned]
  | .ready (.done _) | .absent | .finished _ => []

def look (bus : Option Bus) (s : State) (l : Label) : History :=
  (happenings bus s l).map (Prod.mk l.thread)

/-- A run of the manager, as it is seen. -/
def history (bus : Option Bus) (n : Nat) (progs : Nat → Prog) (ls : List Label) : History :=
  (system bus).seen (look bus) (initial n progs) ls

structure Service where
  thread : Nat
  op : Op
  now : Int
  result : Except Exn (Reply × Option MemoryEvent)

def Service.call (sv : Service) : Nat × Op := (sv.thread, sv.op)

def calls (seen : History) : List (Nat × Op) :=
  seen.filterMap fun
    | (i, .called op) => some (i, op)
    | _ => none

def services (seen : History) : List Service :=
  seen.filterMap fun
    | (i, .served op now result) => some ⟨i, op, now, result⟩
    | _ => none

/-- The programs that were started: the first `n`, and the handlers of the events. -/
def programs (bus : Option Bus) (n : Nat) (progs : Nat → Prog) (svs : List Service) : List Prog :=
  (List.range n).map progs ++ svs.flatMap fun sv => (started bus sv.result).getD []

/-! ## What is promised -/

inductive Course (p : Prog) : List Happening → Thread → Prop
  | start : Course p [] (.ready p)
  | called {seen : List Happening} {op : Op} {next : Except Exn Reply → Prog}
      (h : Course p seen (.ready (.call op next))) :
      Course p (seen ++ [.called op]) (.queued op next)
  | served {seen : List Happening} {op : Op} {next : Except Exn Reply → Prog}
      (h : Course p seen (.queued op next)) (now : Int)
      (result : Except Exn (Reply × Option MemoryEvent)) (handlers : List Nat) :
      Course p (seen ++ [.served op now result]) (.publishing handlers (next (replied result)))
  | returned {seen : List Happening} {handlers : List Nat} {rest : Prog}
      (h : Course p seen (.publishing handlers rest)) :
      Course p (seen ++ [.returned]) (.ready rest)
  | finished {seen : List Happening} {result : Except Exn Unit}
      (h : Course p seen (.ready (.done result))) : Course p seen (.finished result)

def Told (nb : Notebook) (sv : Service) (nb' : Notebook) : Prop :=
  Notebook.Does sv.now nb sv.op sv.result nb'

/-- The calls that wait are the last ones, in the order in which they will be served. The one that
has the lock, if any, was served before them. -/
structure InOrder (seen : History) (s : State) (waiting : List (Nat × Op)) : Prop where
  calls : calls seen = (services seen).map Service.call ++ waiting
  waiters : waiting.map Prod.fst = s.waiters
  queued : ∀ c ∈ waiting, ∃ next, s.threads c.1 = .queued c.2 next

structure Linearized (bus : Option Bus) (n : Nat) (progs : Nat → Prog) (seen : History)
    (s : State) : Prop where
  inOrder : ∃ waiting, InOrder seen s waiting
  /-- The task that holds the lock is the one whose event is being published. -/
  alone : ∀ i, s.holder = some i ↔ ∃ handlers rest, s.threads i = .publishing handlers rest
  told : Trail Told Notebook.empty (services seen) s.index.contents
  /-- Each started program has its task, and there are no other tasks. -/
  tasks : ∀ i p, (programs bus n progs (services seen))[i]? = some p →
    Course p (own i seen) (s.threads i)
  others : ∀ i, (programs bus n progs (services seen)).length ≤ i → s.threads i = .absent

/-! ## What is seen of a turn -/

variable {bus : Option Bus} {n : Nat} {progs : Nat → Prog} {seen : History} {s s' : State}
  {l : Label} {op : Op} {next : Except Exn Reply → Prog}

theorem calls_append (h h' : History) : calls (h ++ h') = calls h ++ calls h' :=
  List.filterMap_append

theorem services_append (h h' : History) : services (h ++ h') = services h ++ services h' :=
  List.filterMap_append

@[simp] theorem calls_nil : calls [] = [] := rfl

@[simp] theorem services_nil : services [] = [] := rfl

theorem calls_serving (i : Nat) : calls ((s.serving bus l op).map (Prod.mk i)) = [] := by
  unfold State.serving
  dsimp only
  split <;> rfl

theorem services_serving (i : Nat) : services ((s.serving bus l op).map (Prod.mk i)) =
    [⟨i, op, l.now, (op.body l.now l.order s.index).result⟩] := by
  unfold State.serving
  dsimp only
  split <;> rfl

theorem happenings_finish {result : Except Exn Unit}
    (h : s.threads l.thread = .ready (.done result)) : happenings bus s l = [] := by
  simp [happenings, h]

theorem happenings_wait (h : s.threads l.thread = .ready (.call op next))
    (taken : ¬ (s.holder = none ∧ s.waiters = [])) : happenings bus s l = [.called op] := by
  simp [happenings, h, taken]

theorem happenings_resume {handlers : List Nat} {rest : Prog}
    (h : s.threads l.thread = .publishing handlers rest) : happenings bus s l = [.returned] := by
  simp [happenings, h]

theorem happenings_enter_ready (h : s.threads l.thread = .ready (.call op next))
    (hholder : s.holder = none) (hempty : s.waiters = []) :
    happenings bus s l = .called op :: s.serving bus l op := by
  simp [happenings, h, hholder, hempty]

theorem happenings_enter_queued (h : s.threads l.thread = .queued op next) :
    happenings bus s l = s.serving bus l op := by
  simp [happenings, h]

/-! ## New tasks -/

theorem spawn_get (threads : Nat → Thread) {next k : Nat} {progs : List Prog} {p : Prog}
    (h : progs[k]? = some p) : spawn threads next progs (next + k) = .ready p := by
  simp [spawn, h]

theorem spawn_beyond (threads : Nat → Thread) {next j : Nat} {progs : List Prog}
    (h : next + progs.length ≤ j) : spawn threads next progs j = threads j := by
  have hnone : progs[j - next]? = none := List.getElem?_eq_none (by omega)
  simp [spawn, hnone]

def State.spawned (bus : Option Bus) (s : State) (l : Label) (op : Op) : List Prog :=
  (started bus (op.body l.now l.order s.index).result).getD []

theorem enter_next : (s.enter bus l op next).next = s.next + (s.spawned bus l op).length := by
  unfold State.enter State.spawned
  dsimp only
  split <;> rename_i h <;> simp [h]

theorem enter_waiters : (s.enter bus l op next).waiters = s.waiters := by
  unfold State.enter
  dsimp only
  split <;> rfl

theorem enter_threads_ne {j : Nat} (hj : j ≠ l.thread) :
    (s.enter bus l op next).threads j = spawn s.threads s.next (s.spawned bus l op) j := by
  unfold State.enter State.spawned
  dsimp only
  split <;> rename_i h <;> simp [h, hj, spawn]

theorem enter_cases (bus : Option Bus) (s : State) (l : Label) (op : Op)
    (next : Except Exn Reply → Prog) :
    let rest := next (replied (op.body l.now l.order s.index).result)
    ((s.serving bus l op) =
        [.served op l.now (op.body l.now l.order s.index).result, .returned] ∧
      (s.enter bus l op next).threads l.thread = .ready rest ∧
      (s.enter bus l op next).holder = s.holder) ∨
    ((s.serving bus l op) = [.served op l.now (op.body l.now l.order s.index).result] ∧
      (∃ handlers, (s.enter bus l op next).threads l.thread = .publishing handlers rest) ∧
      (s.enter bus l op next).holder = some l.thread) := by
  intro rest
  unfold State.enter State.serving
  dsimp only
  cases h : started bus (op.body l.now l.order s.index).result with
  | none => exact Or.inl ⟨rfl, Function.update_self .., rfl⟩
  | some handlers => exact Or.inr ⟨rfl, ⟨_, Function.update_self ..⟩, rfl⟩

/-! ## One turn -/

/-- What is promised, and what carries it from turn to turn. -/
structure Kept (bus : Option Bus) (n : Nat) (progs : Nat → Prog) (seen : History)
    (s : State) : Prop extends Linearized bus n progs seen s where
  once : s.waiters.Nodup
  next : s.next = (programs bus n progs (services seen)).length
  known : ∀ x ∈ seen, x.1 < s.next
  ids : s.index.OwnIds

theorem programs_snoc (svs : List Service) (sv : Service) :
    programs bus n progs (svs ++ [sv]) =
      programs bus n progs svs ++ (started bus sv.result).getD [] := by
  simp [programs]

theorem kept_initial (bus : Option Bus) (n : Nat) (progs : Nat → Prog) :
    Kept bus n progs [] (initial n progs) where
  inOrder := ⟨[], rfl, rfl, by simp⟩
  alone i := by
    by_cases hi : i < n <;> simp [initial, hi]
  told := by
    rw [initial, contents_empty]
    exact .nil _
  tasks i p hp := by
    simp only [programs, services_nil, List.flatMap_nil, List.append_nil, List.getElem?_map,
      Option.map_eq_some_iff, List.getElem?_eq_some_iff, List.getElem_range, List.length_range]
      at hp
    obtain ⟨_, ⟨hi, rfl⟩, rfl⟩ := hp
    simpa [initial, hi] using Course.start
  others i hi := by
    have hnot : ¬ i < n := by simpa [programs] using hi
    simp [initial, hnot]
  once := List.nodup_nil
  next := by simp [programs, initial]
  known := by simp
  ids id r h := by simp [initial] at h

theorem Kept.lt_next (h : Kept bus n progs seen s) {i : Nat} (hi : s.threads i ≠ .absent) :
    i < s.next := by
  by_contra hlt
  rw [h.next] at hlt
  exact hi (h.others i (by omega))

theorem InOrder.queued_of {waiting : List (Nat × Op)} (h : InOrder seen s waiting)
    (hnot : ∀ op next, s.threads l.thread ≠ .queued op next) (t : Thread) :
    ∀ c ∈ waiting, ∃ next, Function.update s.threads l.thread t c.1 = .queued c.2 next := by
  intro c hc
  obtain ⟨next, hnext⟩ := h.queued c hc
  have hne : c.1 ≠ l.thread := fun heq => hnot c.2 next (heq ▸ hnext)
  exact ⟨next, by rw [Function.update_of_ne hne, hnext]⟩

theorem Kept.moved (h : Kept bus n progs seen s) {t : Thread} {hs : List Happening}
    {holder : Option Nat} {waiters : List Nat} (hpresent : s.threads l.thread ≠ .absent)
    (hserved : services (hs.map (Prod.mk l.thread)) = [])
    (hcourse : ∀ p seen', Course p seen' (s.threads l.thread) → Course p (seen' ++ hs) t)
    (inOrder : ∃ waiting, InOrder (seen ++ hs.map (Prod.mk l.thread)) { s with
      holder := holder
      waiters := waiters
      threads := Function.update s.threads l.thread t } waiting)
    (alone : ∀ i, holder = some i ↔
      ∃ handlers rest, Function.update s.threads l.thread t i = .publishing handlers rest)
    (once : waiters.Nodup) :
    Kept bus n progs (seen ++ hs.map (Prod.mk l.thread)) { s with
      holder := holder
      waiters := waiters
      threads := Function.update s.threads l.thread t } := by
  have hlt : l.thread < s.next := h.lt_next hpresent
  have hservices : services (seen ++ hs.map (Prod.mk l.thread)) = services seen := by
    rw [services_append, hserved, List.append_nil]
  constructor
  case toLinearized =>
    constructor
    case inOrder => exact inOrder
    case alone => exact alone
    case told => exact hservices ▸ h.told
    case tasks =>
      intro i p hp
      rw [hservices] at hp
      dsimp only
      by_cases hi : i = l.thread
      · subst hi
        rw [own_append, own_self, Function.update_self]
        exact hcourse p _ (h.tasks _ p hp)
      · rw [own_append, own_other (Ne.symm hi), List.append_nil, Function.update_of_ne hi]
        exact h.tasks i p hp
    case others =>
      intro i hi
      rw [hservices, ← h.next] at hi
      dsimp only
      rw [Function.update_of_ne (by omega)]
      exact h.others i (h.next ▸ hi)
  case once => exact once
  case next => exact hservices ▸ h.next
  case known =>
    intro x hx
    rcases List.mem_append.mp hx with hx | hx
    · exact h.known x hx
    · obtain ⟨_, _, rfl⟩ := List.mem_map.mp hx
      exact hlt
  case ids => exact h.ids

theorem Kept.inOrder_enter (h : Kept bus n progs seen s) (hentering : Entering s l.thread op next) :
    ∃ waiting, InOrder (seen ++ look bus s l)
      ({ s with waiters := s.waiters.tail }.enter bus l op next) waiting := by
  obtain ⟨waiting, horder⟩ := h.inOrder
  have hserving : ∀ before : List Happening,
      services ((before ++ s.serving bus l op).map (Prod.mk l.thread)) =
        services (before.map (Prod.mk l.thread)) ++
          [⟨l.thread, op, l.now, (op.body l.now l.order s.index).result⟩] := by
    intro before
    rw [List.map_append, services_append, services_serving]
  have hcalling : ∀ before : List Happening,
      calls ((before ++ s.serving bus l op).map (Prod.mk l.thread)) =
        calls (before.map (Prod.mk l.thread)) := by
    intro before
    rw [List.map_append, calls_append, calls_serving, List.append_nil]
  rcases hentering.2 with ⟨hready, hempty⟩ | ⟨hqueued, hhead⟩
  -- the call is made and served in one turn, for nobody waits
  · have hnone : waiting = [] := List.map_eq_nil_iff.mp (horder.waiters.trans hempty)
    subst hnone
    refine ⟨[], ?_, ?_, by simp⟩
    · have hcalls := hcalling [.called op]
      have hservices := hserving [.called op]
      rw [look, happenings_enter_ready hready hentering.1 hempty, calls_append, services_append,
        horder.calls, List.map_append]
      simp only [List.singleton_append] at hcalls hservices
      rw [hcalls, hservices]
      simp [Service.call, calls, services]
    · rw [enter_waiters, hempty]
      rfl
  -- the first of those that wait is served
  · obtain ⟨rest, hrest⟩ := List.head?_eq_some_iff.mp hhead
    obtain ⟨c, waiting, rfl, hc, hwaiting⟩ := List.map_eq_cons_iff.mp (horder.waiters.trans hrest)
    have hop : c = (l.thread, op) := by
      obtain ⟨next', hnext'⟩ := horder.queued c (by simp)
      rw [hc, hqueued] at hnext'
      injection hnext' with hop
      exact Prod.ext hc hop.symm
    refine ⟨waiting, ?_, ?_, ?_⟩
    · have hcalls := hcalling []
      have hservices := hserving []
      rw [look, happenings_enter_queued hqueued, calls_append, services_append, horder.calls,
        List.map_append]
      simp only [List.nil_append] at hcalls hservices
      rw [hcalls, hservices, hop]
      simp [Service.call]
    · rw [enter_waiters, hrest]
      exact hwaiting
    · intro c' hc'
      obtain ⟨next', hnext'⟩ := horder.queued c' (by simp [hc'])
      have hmem : c'.1 ∈ rest := hwaiting ▸ List.mem_map_of_mem hc'
      have hne : c'.1 ≠ l.thread := by
        have honce := h.once
        rw [hrest, List.nodup_cons] at honce
        exact fun heq => honce.1 (heq ▸ hmem)
      have hlt : c'.1 < s.next := h.lt_next (by simp [hnext'])
      refine ⟨next', ?_⟩
      rw [enter_threads_ne hne, spawn_old hlt]
      exact hnext'

theorem course_enter {p : Prog} {mine : List Happening} (hentering : Entering s l.thread op next)
    (h : Course p mine (s.threads l.thread)) : Course p (mine ++ happenings bus s l)
      (({ s with waiters := s.waiters.tail }.enter bus l op next).threads l.thread) := by
  -- the task has called, now or in an earlier turn
  obtain ⟨before, hbefore, hcalled⟩ : ∃ before, happenings bus s l = before ++ s.serving bus l op ∧
      Course p (mine ++ before) (.queued op next) := by
    rcases hentering.2 with ⟨hready, hempty⟩ | ⟨hqueued, -⟩
    · rw [hready] at h
      exact ⟨[.called op], happenings_enter_ready hready hentering.1 hempty, h.called⟩
    · rw [hqueued] at h
      exact ⟨[], happenings_enter_queued hqueued, by simpa using h⟩
  have hserving : ({ s with waiters := s.waiters.tail } : State).serving bus l op =
      s.serving bus l op := rfl
  rw [hbefore, ← List.append_assoc, ← hserving]
  rcases enter_cases bus { s with waiters := s.waiters.tail } l op next with
    ⟨hserved, hthread, -⟩ | ⟨hserved, ⟨handlers, hthread⟩, -⟩
  · have hreturned := ((hcalled.served l.now (op.body l.now l.order s.index).result []).returned)
    rw [hserved, hthread]
    simpa using hreturned
  · rw [hserved, hthread]
    exact hcalled.served l.now _ handlers

theorem services_enter (hentering : Entering s l.thread op next) :
    services (look bus s l) = [⟨l.thread, op, l.now, (op.body l.now l.order s.index).result⟩] := by
  unfold look
  rcases hentering.2 with ⟨hready, hempty⟩ | ⟨hqueued, -⟩
  · rw [happenings_enter_ready hready hentering.1 hempty]
    exact services_serving l.thread
  · rw [happenings_enter_queued hqueued]
    exact services_serving l.thread

theorem Kept.alone_enter (h : Kept bus n progs seen s) (hentering : Entering s l.thread op next)
    (i : Nat) : ({ s with waiters := s.waiters.tail }.enter bus l op next).holder = some i ↔
      ∃ handlers rest, ({ s with waiters := s.waiters.tail }.enter bus l op next).threads i =
        .publishing handlers rest := by
  have hothers : ∀ j, j ≠ l.thread → ∀ handlers rest,
      ({ s with waiters := s.waiters.tail }.enter bus l op next).threads j ≠
        .publishing handlers rest := by
    intro j hj handlers rest heq
    have hold : s.threads j ≠ .publishing handlers rest := by
      intro hj'
      have hholder := (h.alone j).mpr ⟨handlers, rest, hj'⟩
      rw [hentering.1] at hholder
      cases hholder
    rw [enter_threads_ne hj, spawn] at heq
    split at heq
    · exact hold heq
    · split at heq
      · cases heq
      · exact hold heq
  rcases enter_cases bus { s with waiters := s.waiters.tail } l op next with
    ⟨-, hthread, hholder⟩ | ⟨-, ⟨handlers, hthread⟩, hholder⟩
  · have hfree : s.holder = none := hentering.1
    constructor
    · intro hi
      rw [hholder, hfree] at hi
      cases hi
    · rintro ⟨handlers, rest, hi⟩
      by_cases hself : i = l.thread
      · rw [hself, hthread] at hi
        cases hi
      · exact absurd hi (hothers i hself handlers rest)
  · constructor
    · intro hi
      rw [hholder] at hi
      injection hi with hi
      exact ⟨_, _, hi ▸ hthread⟩
    · rintro ⟨handlers', rest, hi⟩
      by_cases hself : i = l.thread
      · rw [hholder, hself]
      · exact absurd hi (hothers i hself handlers' rest)

theorem own_of_lt {k : Nat} (h : ∀ x ∈ seen, x.1 < k) {j : Nat} : own (k + j) seen = [] := by
  refine List.filterMap_eq_nil_iff.mpr fun x hx => ?_
  have hne : x.1 ≠ k + j := by
    have := h x hx
    omega
  simp [hne]

theorem programs_enter (hentering : Entering s l.thread op next) :
    programs bus n progs (services (seen ++ look bus s l)) =
      programs bus n progs (services seen) ++ s.spawned bus l op := by
  rw [services_append, services_enter hentering, programs_snoc]
  rfl

theorem Kept.entering_lt (h : Kept bus n progs seen s) (hentering : Entering s l.thread op next) :
    l.thread < s.next := by
  refine h.lt_next ?_
  rcases hentering.2 with ⟨ht, -⟩ | ⟨ht, -⟩ <;> simp [ht]

theorem Kept.tasks_enter (h : Kept bus n progs seen s) (hentering : Entering s l.thread op next)
    {i : Nat} {p : Prog}
    (hp : (programs bus n progs (services (seen ++ look bus s l)))[i]? = some p) :
    Course p (own i (seen ++ look bus s l))
      (({ s with waiters := s.waiters.tail }.enter bus l op next).threads i) := by
  rw [programs_enter hentering] at hp
  by_cases hi : i = l.thread
  · subst hi
    rw [own_append, look, own_self]
    rw [List.getElem?_append_left (h.next ▸ h.entering_lt hentering)] at hp
    exact course_enter hentering (h.tasks _ p hp)
  · rw [own_append, look, own_other (Ne.symm hi), List.append_nil, enter_threads_ne hi]
    by_cases hold : i < s.next
    · rw [List.getElem?_append_left (h.next ▸ hold)] at hp
      have hthread : spawn s.threads s.next (s.spawned bus l op) i = s.threads i := spawn_old hold
      exact hthread.symm ▸ h.tasks i p hp
    · obtain ⟨k, rfl⟩ := Nat.exists_eq_add_of_le (Nat.le_of_not_lt hold)
      rw [List.getElem?_append_right (h.next ▸ Nat.le_add_right ..), ← h.next,
        Nat.add_sub_cancel_left] at hp
      have hready : spawn s.threads s.next (s.spawned bus l op) (s.next + k) = .ready p :=
        spawn_get s.threads hp
      exact own_of_lt h.known ▸ hready.symm ▸ Course.start

/-- **A turn with the lock.** -/
theorem Kept.enter (h : Kept bus n progs seen s) (hentering : Entering s l.thread op next)
    (order : l.order.Perm s.index.byId.keys) : Kept bus n progs (seen ++ look bus s l)
      ({ s with waiters := s.waiters.tail }.enter bus l op next) := by
  have hlt : l.thread < s.next := h.entering_lt hentering
  have hprograms : programs bus n progs (services (seen ++ look bus s l)) =
      programs bus n progs (services seen) ++ s.spawned bus l op := programs_enter hentering
  have hnext : ({ s with waiters := s.waiters.tail }.enter bus l op next).next =
      s.next + (s.spawned bus l op).length := enter_next
  constructor
  case toLinearized =>
    constructor
    case inOrder => exact h.inOrder_enter hentering
    case alone => exact h.alone_enter hentering
    case told =>
      rw [services_append, services_enter hentering, enter_index]
      exact h.told.snoc (does_body h.ids order l.now op)
    case tasks => exact fun i p hp => h.tasks_enter hentering hp
    case others =>
      intro i hi
      rw [hprograms, List.length_append, ← h.next] at hi
      rw [enter_threads_ne (by omega)]
      exact (spawn_beyond _ hi).trans (h.others i (by rw [← h.next]; omega))
  case once =>
    rw [enter_waiters]
    exact h.once.sublist (List.tail_sublist _)
  case next =>
    rw [hnext, hprograms, List.length_append, h.next]
  case known =>
    intro x hx
    rw [hnext]
    rcases List.mem_append.mp hx with hx | hx
    · exact Nat.lt_add_right _ (h.known x hx)
    · obtain ⟨_, _, rfl⟩ := List.mem_map.mp hx
      exact Nat.lt_add_right _ hlt
  case ids =>
    rw [enter_index]
    exact (keepsIds_body l.now l.order op).of_run rfl h.ids

/-- **One turn.** -/
theorem Kept.turned (h : Kept bus n progs seen s) (ht : Turned bus s l s') :
    Kept bus n progs (seen ++ look bus s l) s' := by
  obtain ⟨waiting, horder⟩ := h.inOrder
  have hself : ∀ (t : Thread) (j : Nat),
      Function.update s.threads l.thread t j = if j = l.thread then t else s.threads j :=
    fun t j => Function.update_apply s.threads l.thread t j
  cases ht with
  | enter hentering order => exact h.enter hentering order
  | @finish result hl =>
    rw [look, happenings_finish hl]
    refine h.moved (by simp [hl]) rfl ?_ ⟨waiting, ?_⟩ ?_ h.once
    · intro p mine hcourse
      rw [hl] at hcourse
      simpa using hcourse.finished
    · exact ⟨by simpa using horder.calls, horder.waiters, horder.queued_of (by simp [hl]) _⟩
    · intro i
      rw [h.alone, hself]
      by_cases hi : i = l.thread <;> simp [hi, hl]
  | @wait op next hl taken =>
    have hnot : l.thread ∉ s.waiters := by
      intro hmem
      rw [← horder.waiters] at hmem
      obtain ⟨c, hc, hthread⟩ := List.mem_map.mp hmem
      obtain ⟨next', hnext'⟩ := horder.queued c hc
      rw [hthread, hl] at hnext'
      cases hnext'
    rw [look, happenings_wait hl taken]
    refine h.moved (by simp [hl]) rfl ?_ ⟨waiting ++ [(l.thread, op)], ?_⟩ ?_ ?_
    · intro p mine hcourse
      rw [hl] at hcourse
      exact hcourse.called
    · refine ⟨?_, by simp [horder.waiters], ?_⟩
      · rw [calls_append, services_append, horder.calls]
        simp [calls, services]
      · intro c hc
        rcases List.mem_append.mp hc with hc | hc
        · exact horder.queued_of (by simp [hl]) _ c hc
        · rw [List.mem_singleton.mp hc]
          exact ⟨next, Function.update_self ..⟩
    · intro i
      rw [h.alone, hself]
      by_cases hi : i = l.thread <;> simp [hi, hl]
    · exact List.Nodup.append h.once (List.nodup_singleton _) (by simpa using hnot)
  | @resume handlers rest hl =>
    have hholder : s.holder = some l.thread := (h.alone l.thread).mpr ⟨handlers, rest, hl⟩
    rw [look, happenings_resume hl]
    refine h.moved (by simp [hl]) rfl ?_ ⟨waiting, ?_⟩ ?_ h.once
    · intro p mine hcourse
      rw [hl] at hcourse
      exact hcourse.returned
    · refine ⟨?_, horder.waiters, horder.queued_of (by simp [hl]) _⟩
      rw [calls_append, services_append, horder.calls]
      simp [calls, services]
    · intro i
      rw [hself]
      by_cases hi : i = l.thread
      · simp [hi]
      · have hother : ¬ ∃ handlers rest, s.threads i = .publishing handlers rest := by
          rw [← h.alone, hholder]
          simpa using Ne.symm hi
        simpa [hi] using hother

/-! ## Whole runs -/

def storing : Nat → Prog
  | 0 => once (.remember plainNote)
  | _ => once (.recall plainNote.id)

def crossing : List Label :=
  [⟨0, 0, []⟩, ⟨1, 1, []⟩, ⟨2, 2, []⟩, ⟨0, 3, []⟩, ⟨1, 4, [plainNote.id]⟩]

def crossedState : State :=
  ((system (some listening)).exec (initial 2 storing) crossing).getD (initial 0 storing)

end MemoryManager

end IraOS
