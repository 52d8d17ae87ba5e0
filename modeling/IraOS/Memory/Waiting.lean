import IraOS.Memory.Manager

/-!
# Who waits for whom

The task that holds the manager's lock waits for the handlers of its event, and a task that waits
for the lock waits for that one. As long as no handler of a published event awaits the manager, the
handlers of the holder run through, the lock is passed on, and whatever call is unfinished, some
task can go on (`unfinished_enabled`). A handler that awaits the manager waits for the task that
waits for it.

## What is shown, and what is not

That some task can go on, in every state of every run whose turns start quiet handlers only
(`Quiet`). It is progress of the whole and not of each call: whether a particular task gets its turn
is the event loop's affair. With the fair lock it does not wait for ever unless it is never given a
turn, but that is a property of schedules, and no schedule is assumed.

## The proof

`Orderly` says where everybody is: the holder is publishing and nobody else is, those that wait for
the lock are exactly the waiters in the queue, and handlers of a publish have nothing to do with the
manager. An unfinished call is then waiting for somebody who can go on, the holder for its handlers,
or the first in the queue for a lock that is free (`Orderly.progress`).

The condition cannot be dropped: with one handler that recalls the record of the event, the task
that stored it and the handler wait for each other, and nobody can take a turn (`recalling_stuck`).
-/

set_option autoImplicit false

namespace IraOS

open Lib

namespace MemoryManager

variable {bus : Option Bus} {s s' : State} {l : Label}

/-! ## What a turn does -/

def Entering (s : State) (i : Nat) (op : Op) (next : Except Exn Reply → Prog) : Prop :=
  s.holder = none ∧
    ((s.threads i = .ready (.call op next) ∧ s.waiters = []) ∨
      (s.threads i = .queued op next ∧ s.waiters.head? = some i))

inductive Turned (bus : Option Bus) (s : State) (l : Label) : State → Prop
  | finish {result : Except Exn Unit} (h : s.threads l.thread = .ready (.done result)) :
      Turned bus s l { s with threads := Function.update s.threads l.thread (.finished result) }
  | wait {op : Op} {next : Except Exn Reply → Prog}
      (h : s.threads l.thread = .ready (.call op next))
      (taken : ¬ (s.holder = none ∧ s.waiters = [])) :
      Turned bus s l { s with
        waiters := s.waiters ++ [l.thread]
        threads := Function.update s.threads l.thread (.queued op next) }
  | enter {op : Op} {next : Except Exn Reply → Prog} (h : Entering s l.thread op next)
      (order : l.order.Perm s.index.byId.keys) :
      Turned bus s l ({ s with waiters := s.waiters.tail }.enter bus l op next)
  | resume {handlers : List Nat} {rest : Prog}
      (h : s.threads l.thread = .publishing handlers rest)
      (through : ∀ h ∈ handlers, (s.threads h).isFinished = true) :
      Turned bus s l { s with
        holder := none
        threads := Function.update s.threads l.thread (.ready rest) }

theorem step_turned (h : step bus s l = some s') : Turned bus s l s' := by
  unfold step at h
  split at h
  · rename_i result ht
    injection h with h
    exact h ▸ .finish ht
  · rename_i op next ht
    split at h
    · rename_i hfree
      split at h
      · rename_i horder
        injection h with h
        have htail : ({ s with waiters := s.waiters.tail } : State) = s := by
          rw [hfree.2]
          exact congrArg (fun w => ({ s with waiters := w } : State)) hfree.2.symm
        subst h
        have henter : Turned bus s l _ := .enter ⟨hfree.1, Or.inl ⟨ht, hfree.2⟩⟩ horder
        rw [htail] at henter
        exact henter
      · cases h
    · rename_i htaken
      injection h with h
      exact h ▸ .wait ht htaken
  · rename_i op next ht
    split at h
    · rename_i hfree
      split at h
      · rename_i horder
        injection h with h
        exact h ▸ .enter ⟨hfree.1, Or.inr ⟨ht, hfree.2⟩⟩ horder
      · cases h
    · cases h
  · rename_i handlers rest ht
    split at h
    · rename_i hall
      injection h with h
      exact h ▸ .resume ht (List.all_eq_true.mp hall)
    · cases h
  · cases h
  · cases h

/-! ## The threads after a turn -/

def Thread.Through : Thread → Prop
  | .ready (.done _) | .finished _ => True
  | _ => False

theorem spawn_old {threads : Nat → Thread} {next j : Nat} {progs : List Prog} (h : j < next) :
    spawn threads next progs j = threads j := if_pos h

theorem spawn_new (threads : Nat → Thread) (progs : List Prog) {next j : Nat} (h : next ≤ j) :
    (∃ p ∈ progs, spawn threads next progs j = .ready p ∧ j < next + progs.length) ∨
      (next + progs.length ≤ j ∧ spawn threads next progs j = threads j) := by
  have hlt : ¬ j < next := by omega
  unfold spawn
  rw [if_neg hlt]
  cases hp : progs[j - next]? with
  | some p =>
    obtain ⟨hlength, hget⟩ := List.getElem?_eq_some_iff.mp hp
    exact Or.inl ⟨p, hget ▸ List.getElem_mem _, rfl, by omega⟩
  | none =>
    have hlength := List.getElem?_eq_none_iff.mp hp
    exact Or.inr ⟨by omega, rfl⟩

/-! ## The lock and the tasks around it -/

/-- Where everybody is: the holder of the lock is publishing, and nobody else is; those that wait
for the lock are the waiters; and the handlers of a publish have nothing to do with the manager. -/
structure Orderly (s : State) : Prop where
  fresh : ∀ j, s.next ≤ j → s.threads j = .absent
  holding : ∀ i, s.holder = some i → ∃ handlers rest, s.threads i = .publishing handlers rest
  publishing : ∀ i handlers rest, s.threads i = .publishing handlers rest →
    s.holder = some i ∧ ∀ h ∈ handlers, (s.threads h).Through
  waiting : ∀ i, i ∈ s.waiters ↔ ∃ op next, s.threads i = .queued op next
  once : s.waiters.Nodup

theorem Orderly.lt_next (h : Orderly s) {i : Nat} (hi : s.threads i ≠ .absent) : i < s.next := by
  by_contra hlt
  exact hi (h.fresh i (by omega))

theorem orderly_initial (n : Nat) (progs : Nat → Prog) : Orderly (initial n progs) := by
  have hready : ∀ i, (initial n progs).threads i = .ready (progs i) ∨
      (initial n progs).threads i = .absent := by
    intro i
    by_cases hi : i < n
    · exact Or.inl (if_pos hi)
    · exact Or.inr (if_neg hi)
  constructor
  case fresh =>
    intro j hj
    exact if_neg (by simpa [initial] using hj)
  case holding => simp [initial]
  case publishing =>
    intro i handlers rest hi
    rcases hready i with h | h <;> (rw [h] at hi; cases hi)
  case waiting =>
    intro i
    constructor
    · intro hi
      cases hi
    · rintro ⟨op, next, hi⟩
      rcases hready i with h | h <;> (rw [h] at hi; cases hi)
  case once => simp [initial]

theorem started_some {r : Except Exn (Reply × Option MemoryEvent)} {progs : List Prog}
    (h : started bus r = some progs) :
    ∃ handlers event, bus = some handlers ∧ progs = handlers event := by
  match r, h with
  | .ok (_, some event), h =>
    obtain ⟨handlers, hbus, hprogs⟩ := Option.map_eq_some_iff.mp h
    exact ⟨handlers, event, hbus, hprogs.symm⟩

/-- The handlers that a turn starts await nothing of the manager. -/
def Quiet (bus : Option Bus) (s : State) (l : Label) : Prop :=
  ∀ op next, Entering s l.thread op next → ∀ progs,
    started bus (op.body l.now l.order s.index).result = some progs →
    ∀ p ∈ progs, ∃ result, p = .done result

theorem Orderly.mem_tail (h : Orderly s) {i : Nat} {op : Op} {next : Except Exn Reply → Prog}
    (hentering : Entering s i op next) (j : Nat) :
    j ∈ s.waiters.tail ↔ j ≠ i ∧ ∃ op next, s.threads j = .queued op next := by
  rw [← h.waiting]
  rcases hentering.2 with ⟨-, hempty⟩ | ⟨-, hhead⟩
  · simp [hempty]
  · obtain ⟨rest, hrest⟩ := List.head?_eq_some_iff.mp hhead
    have hnodup := h.once
    rw [hrest, List.nodup_cons] at hnodup
    rw [hrest, List.tail_cons, List.mem_cons]
    constructor
    · intro hj
      exact ⟨fun heq => hnodup.1 (heq ▸ hj), Or.inr hj⟩
    · rintro ⟨hne, rfl | hj⟩
      · exact absurd rfl hne
      · exact hj

theorem Entering.lt_next (h : Orderly s) {i : Nat} {op : Op} {next : Except Exn Reply → Prog}
    (hentering : Entering s i op next) : i < s.next := by
  refine h.lt_next ?_
  rcases hentering.2 with ⟨ht, -⟩ | ⟨ht, -⟩ <;> simp [ht]

theorem Orderly.not_publishing (h : Orderly s) (hfree : s.holder = none) {i : Nat}
    {handlers : List Nat} {rest : Prog} : s.threads i ≠ .publishing handlers rest := by
  intro hi
  have hholder := (h.publishing i handlers rest hi).1
  rw [hfree] at hholder
  cases hholder

theorem Orderly.enter (h : Orderly s) (quiet : Quiet bus s l) {op : Op}
    {next : Except Exn Reply → Prog} (hentering : Entering s l.thread op next) :
    Orderly ({ s with waiters := s.waiters.tail }.enter bus l op next) := by
  have hlt := Entering.lt_next h hentering
  have hself : ∀ (threads : Nat → Thread) (t : Thread) (j : Nat),
      Function.update threads l.thread t j = if j = l.thread then t else threads j :=
    fun threads t j => Function.update_apply threads l.thread t j
  unfold State.enter
  dsimp only
  split
  -- no event, or nobody to hear it
  · constructor
    case fresh =>
      intro j (hj : s.next ≤ j)
      dsimp only
      rw [hself, if_neg (by omega)]
      exact h.fresh j hj
    case holding =>
      intro i (hi : s.holder = some i)
      rw [hentering.1] at hi
      cases hi
    case publishing =>
      intro j handlers rest hj
      dsimp only at hj ⊢
      rw [hself] at hj
      split at hj
      · cases hj
      · exact absurd hj (h.not_publishing hentering.1)
    case waiting =>
      intro j
      dsimp only
      rw [h.mem_tail hentering, hself]
      by_cases hj : j = l.thread <;> simp [hj]
    case once => exact h.once.sublist (List.tail_sublist _)
  · rename_i progs hstarted
    have hquiet := quiet op next hentering progs hstarted
    -- a handler is a new task with nothing of the manager to do, and no other task is new
    have hnew : ∀ j, s.next ≤ j → spawn s.threads s.next progs j = .absent ∨
        ((spawn s.threads s.next progs j).Through ∧ j < s.next + progs.length) := by
      intro j hj
      rcases spawn_new s.threads progs hj with
        ⟨p, hp, hthread, hin⟩ | ⟨-, hthread⟩
      · obtain ⟨result, rfl⟩ := hquiet p hp
        rw [hthread]
        exact Or.inr ⟨trivial, hin⟩
      · rw [hthread]
        exact Or.inl (h.fresh j hj)
    constructor
    case fresh =>
      intro j (hj : s.next + progs.length ≤ j)
      dsimp only
      rw [hself, if_neg (by omega)]
      rcases hnew j (by omega) with hthread | ⟨-, hin⟩
      · exact hthread
      · omega
    case holding =>
      rintro i ⟨⟩
      exact ⟨_, _, Function.update_self ..⟩
    case publishing =>
      intro j handlers rest hj
      dsimp only at hj ⊢
      rw [hself] at hj
      split at hj
      · rename_i heq
        injection hj with hhandlers
        subst hhandlers heq
        refine ⟨rfl, fun i hi => ?_⟩
        rw [List.mem_range'_1] at hi
        rw [hself, if_neg (by omega)]
        rcases spawn_new s.threads progs hi.1 with ⟨p, hp, hthread, -⟩ | ⟨hle, -⟩
        · obtain ⟨result, rfl⟩ := hquiet p hp
          rw [hthread]
          trivial
        · omega
      · by_cases hold : j < s.next
        · rw [spawn_old hold] at hj
          exact absurd hj (h.not_publishing hentering.1)
        · rcases hnew j (by omega) with hthread | ⟨hthrough, -⟩
          · rw [hthread] at hj
            cases hj
          · rw [hj] at hthrough
            exact hthrough.elim
    case waiting =>
      intro j
      dsimp only
      rw [h.mem_tail hentering, hself]
      by_cases hj : j = l.thread
      · simp [hj]
      · rw [if_neg hj]
        by_cases hold : j < s.next
        · rw [spawn_old hold]
          simp [hj]
        · have hnone : s.threads j = .absent := h.fresh j (by omega)
          rcases hnew j (by omega) with hthread | ⟨hthrough, -⟩
          · simp [hnone, hthread]
          · constructor
            · rintro ⟨-, op', next', hqueued⟩
              rw [hnone] at hqueued
              cases hqueued
            · rintro ⟨op', next', hqueued⟩
              rw [hqueued] at hthrough
              exact hthrough.elim
    case once => exact h.once.sublist (List.tail_sublist _)

/-- **One turn.** -/
theorem Orderly.turned (h : Orderly s) (quiet : Quiet bus s l) (ht : Turned bus s l s') :
    Orderly s' := by
  have hself : ∀ (t : Thread) (j : Nat),
      Function.update s.threads l.thread t j = if j = l.thread then t else s.threads j :=
    fun t j => Function.update_apply s.threads l.thread t j
  cases ht with
  | enter hentering => exact h.enter quiet hentering
  | @finish result hl =>
    have hlt : l.thread < s.next := h.lt_next (by simp [hl])
    constructor
    case fresh =>
      intro j (hj : s.next ≤ j)
      dsimp only
      rw [hself, if_neg (by omega)]
      exact h.fresh j hj
    case holding =>
      intro i hi
      obtain ⟨handlers, rest, hthread⟩ := h.holding i hi
      have hne : i ≠ l.thread := fun heq => by
        rw [heq, hl] at hthread
        cases hthread
      exact ⟨handlers, rest, by dsimp only; rw [hself, if_neg hne, hthread]⟩
    case publishing =>
      intro j handlers rest hj
      dsimp only at hj ⊢
      rw [hself] at hj
      split at hj
      · cases hj
      · obtain ⟨hholder, hthrough⟩ := h.publishing j handlers rest hj
        refine ⟨hholder, fun i hi => ?_⟩
        rw [hself]
        split
        · trivial
        · exact hthrough i hi
    case waiting =>
      intro j
      dsimp only
      rw [h.waiting, hself]
      by_cases hj : j = l.thread <;> simp [hj, hl]
    case once => exact h.once
  | @wait op next hl =>
    have hlt : l.thread < s.next := h.lt_next (by simp [hl])
    have hnot : l.thread ∉ s.waiters := by
      rw [h.waiting]
      simp [hl]
    constructor
    case fresh =>
      intro j (hj : s.next ≤ j)
      dsimp only
      rw [hself, if_neg (by omega)]
      exact h.fresh j hj
    case holding =>
      intro i hi
      obtain ⟨handlers, rest, hthread⟩ := h.holding i hi
      have hne : i ≠ l.thread := fun heq => by
        rw [heq, hl] at hthread
        cases hthread
      exact ⟨handlers, rest, by dsimp only; rw [hself, if_neg hne, hthread]⟩
    case publishing =>
      intro j handlers rest hj
      dsimp only at hj ⊢
      rw [hself] at hj
      split at hj
      · cases hj
      · obtain ⟨hholder, hthrough⟩ := h.publishing j handlers rest hj
        refine ⟨hholder, fun i hi => ?_⟩
        -- a handler of the holder is through with the manager, and this task is not
        have hne : i ≠ l.thread := fun heq => by
          have hi' := hthrough i hi
          rw [heq, hl] at hi'
          exact hi'.elim
        rw [hself, if_neg hne]
        exact hthrough i hi
    case waiting =>
      intro j
      dsimp only
      rw [List.mem_append, List.mem_singleton, h.waiting, hself]
      by_cases hj : j = l.thread <;> simp [hj]
    case once =>
      exact List.Nodup.append h.once (List.nodup_singleton _) (by simpa using hnot)
  | @resume handlers rest hl =>
    have hlt : l.thread < s.next := h.lt_next (by simp [hl])
    have hholder := (h.publishing _ _ _ hl).1
    constructor
    case fresh =>
      intro j (hj : s.next ≤ j)
      dsimp only
      rw [hself, if_neg (by omega)]
      exact h.fresh j hj
    case holding =>
      intro i hi
      cases hi
    case publishing =>
      intro j handlers' rest' hj
      dsimp only at hj ⊢
      rw [hself] at hj
      split at hj
      · cases hj
      · rename_i hne
        have hj' := (h.publishing j handlers' rest' hj).1
        rw [hholder] at hj'
        injection hj' with hj'
        exact absurd hj'.symm hne
    case waiting =>
      intro j
      dsimp only
      rw [h.waiting, hself]
      by_cases hj : j = l.thread <;> simp [hj, hl]
    case once => exact h.once

/-- A task that is not through with its calls of the manager: in the middle of one, or between two
of them. -/
def Unfinished (s : State) (i : Nat) : Prop :=
  s.threads i ≠ .absent ∧ (s.threads i).isFinished = false

def Enabled (bus : Option Bus) (s : State) : Prop := ∃ l s', step bus s l = some s'

theorem enabled_of_through {i : Nat} (h : (s.threads i).Through)
    (hnot : (s.threads i).isFinished = false) : Enabled bus s := by
  match ht : s.threads i with
  | .ready (.done result) => exact ⟨⟨i, 0, []⟩, _, by simp only [step, ht]; rfl⟩
  | .finished _ => simp [ht, Thread.isFinished] at hnot
  | .absent | .ready (.call _ _) | .queued _ _ | .publishing _ _ =>
    rw [ht] at h
    exact h.elim

/-- Where the tasks around the lock are in order, an unfinished call is waiting for somebody that
can go on: the holder of the lock for its handlers, or the next one for a lock that is free. -/
theorem Orderly.progress (h : Orderly s) {i : Nat} (hi : Unfinished s i) : Enabled bus s := by
  cases hholder : s.holder with
  -- the lock is taken: by a task whose handlers are through with the manager
  | some k =>
    obtain ⟨handlers, rest, hk⟩ := h.holding k hholder
    by_cases hall : ∀ j ∈ handlers, (s.threads j).isFinished = true
    · refine ⟨⟨k, 0, []⟩, { s with
        holder := none
        threads := Function.update s.threads k (.ready rest) }, ?_⟩
      simp only [step, hk]
      exact if_pos (List.all_eq_true.mpr hall)
    · push Not at hall
      obtain ⟨j, hj, hnot⟩ := hall
      exact enabled_of_through ((h.publishing k handlers rest hk).2 j hj) (by simpa using hnot)
  | none =>
    match ht : s.threads i with
    | .absent => exact absurd ht hi.1
    | .finished _ =>
      have hnot := hi.2
      simp [ht, Thread.isFinished] at hnot
    | .publishing _ _ => exact absurd ht (h.not_publishing hholder)
    | .ready (.done result) => exact ⟨⟨i, 0, []⟩, _, by simp only [step, ht]; rfl⟩
    | .ready (.call op next) =>
      by_cases hempty : s.waiters = []
      · refine ⟨⟨i, 0, s.index.byId.keys⟩, s.enter bus ⟨i, 0, s.index.byId.keys⟩ op next, ?_⟩
        simp only [step, ht]
        rw [if_pos ⟨hholder, hempty⟩, if_pos (List.Perm.refl _)]
      · refine ⟨⟨i, 0, []⟩, { s with
          waiters := s.waiters ++ [i]
          threads := Function.update s.threads i (.queued op next) }, ?_⟩
        simp only [step, ht]
        exact if_neg fun hfree => hempty hfree.2
    -- it waits for the lock, which is free: whoever is next can have it
    | .queued op' next' =>
      have hmem : i ∈ s.waiters := (h.waiting i).mpr ⟨op', next', ht⟩
      obtain ⟨k, rest, hwaiters⟩ := List.exists_cons_of_ne_nil (List.ne_nil_of_mem hmem)
      obtain ⟨op, next, hk⟩ := (h.waiting k).mp (by simp [hwaiters])
      refine ⟨⟨k, 0, s.index.byId.keys⟩, { s with waiters := s.waiters.tail }.enter bus
        ⟨k, 0, s.index.byId.keys⟩ op next, ?_⟩
      simp only [step, hk]
      rw [if_pos ⟨hholder, by simp [hwaiters]⟩, if_pos (List.Perm.refl _)]

/-- **In a run whose turns start no handler that awaits the manager**, an unfinished call is never
stuck: somebody can take a turn, the holder of the lock or, if nobody holds it, the first who waits.
A handler that awaits the manager would wait for a lock that is held until it has returned. -/
theorem unfinished_enabled {n : Nat} {progs : Nat → Prog} {ls : List Label}
    (quiet : (system bus).Meets (Quiet bus) (initial n progs) ls)
    (run : (system bus).exec (initial n progs) ls = some s) {i : Nat} (hi : Unfinished s i) :
    Enabled bus s := by
  have h : Orderly s := System.exec_induct (P := Orderly)
    (fun _ _ _ h quiet hstep => h.turned quiet (step_turned hstep)) (orderly_initial n progs)
    quiet run
  exact h.progress hi

/-! ## A handler that recalls what was stored -/

def plainNote : MemoryRecord where
  id := "note"
  ownerId := "owner"
  createdAt := 0
  updatedAt := 0
  lastAccessed := 0
  valid := rfl

def recalling : Bus := fun event =>
  [.call (.recall event.memoryId) fun result => .done (result.map fun _ => ())]

def listening : Bus := fun _ => [.done (.ok ())]

def remembering : Nat → Prog := fun _ =>
  .call (.remember plainNote) fun result => .done (result.map fun _ => ())

def publishingState (bus : Bus) (ls : List Label) : State :=
  ((system (some bus)).exec (initial 1 remembering) (⟨0, 0, []⟩ :: ls)).getD
    (initial 0 remembering)

theorem enabled_listening : Enabled (some listening) (publishingState listening []) := by
  have quiet : Quiet (some listening) (initial 1 remembering) ⟨0, 0, []⟩ := by
    intro op next _ progs hprogs p hp
    obtain ⟨handlers, event, hbus, rfl⟩ := started_some hprogs
    injection hbus with hbus
    subst hbus
    exact ⟨.ok (), List.mem_singleton.mp hp⟩
  have run : (system (some listening)).exec (initial 1 remembering) [⟨0, 0, []⟩] =
      some (publishingState listening []) := rfl
  have meets : (system (some listening)).Meets (Quiet (some listening)) (initial 1 remembering)
      [⟨0, 0, []⟩] := ⟨quiet, fun _ _ => trivial⟩
  exact unfinished_enabled (i := 0) meets run ⟨nofun, rfl⟩

/-- The client waits for its handler, and the handler for the lock that the client holds. -/
theorem recalling_stuck :
    ¬ ∀ (bus : Option Bus) (n : Nat) (progs : Nat → Prog) (ls : List Label) (s : State),
      (system bus).exec (initial n progs) ls = some s → ∀ i, Unfinished s i → Enabled bus s := by
  intro h
  have hclient : (publishingState recalling [⟨1, 0, []⟩]).threads 0 =
      .publishing [1] (.done (.ok ())) := rfl
  have hhandler : ∃ op next, (publishingState recalling [⟨1, 0, []⟩]).threads 1 =
      .queued op next := ⟨_, _, rfl⟩
  have hholder : (publishingState recalling [⟨1, 0, []⟩]).holder = some 0 := rfl
  have hothers : ∀ i, (publishingState recalling [⟨1, 0, []⟩]).threads (i + 2) = .absent :=
    fun _ => rfl
  obtain ⟨l, s', hstep⟩ := h (some recalling) 1 remembering [⟨0, 0, []⟩, ⟨1, 0, []⟩]
    (publishingState recalling [⟨1, 0, []⟩]) rfl 0
    ⟨by simp [hclient], by simp [hclient, Thread.isFinished]⟩
  unfold step at hstep
  match hl : l.thread with
  | 0 =>
    rw [hl, hclient] at hstep
    obtain ⟨op, next, hqueued⟩ := hhandler
    simp [hqueued, Thread.isFinished] at hstep
  | 1 =>
    obtain ⟨op, next, hqueued⟩ := hhandler
    rw [hl, hqueued] at hstep
    simp [hholder] at hstep
  | i + 2 =>
    rw [hl, hothers] at hstep
    cases hstep

end MemoryManager

end IraOS
