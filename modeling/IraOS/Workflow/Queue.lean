import IraOS.Lib.Machine
import IraOS.Workflow.Components

/-!
# The task queue against a queue of tasks

`InMemoryWorkflowQueue` keeps its tasks twice: in a list, and in a dictionary by their ids. What the
two stand for is one list of tasks, `fifo`, and what `lookup` and `status` say should be said of
that list (`Speaks`).

Two tasks may have one id: `remove` takes all of them out of the list. But `dequeue` takes the id of
the task it pops out of the dictionary, also where a second task with that id is queued behind. From
then on `lookup` does not find the second one and `remove` does not remove it. That is all that goes
wrong: the queue does what it should just if no `dequeue` meets such a second task
(`refinesFifo_iff`).

## Refinement

The specification is the list, with the operations of `Lib.Machine`'s `fifo`, and refinement has two
parts: the answers to all operations agree, and at every moment the queue's two readers say of the
list what is so. The second is what the first is proved by, and it is the part that can break.
`Speaks.step_iff` says for each operation when it survives, and the rule `throughout_iff` makes the
condition on single operations one on whole histories.

The condition is on the state in which a `dequeue` is called, and on that operation only: enqueueing
two tasks under one id is harmless until the first of them is dequeued, and stays so if both are
removed before.
-/

set_option autoImplicit false

namespace IraOS

open Lib

namespace InMemoryWorkflowQueue

abbrev Op := Fifo.Op WorkflowTask String

def apply (q : InMemoryWorkflowQueue) : Op → Fifo.Reply WorkflowTask × InMemoryWorkflowQueue
  | .enqueue task => (.done, q.enqueue task)
  | .dequeue => (.taken q.dequeue.1, q.dequeue.2)
  | .remove taskId => (.removed (q.remove taskId).1, (q.remove taskId).2)

def machine : Machine InMemoryWorkflowQueue Op (Fifo.Reply WorkflowTask) where
  apply := apply

def tasks : Machine (List WorkflowTask) Op (Fifo.Reply WorkflowTask) := fifo WorkflowTask.taskId

abbrev both : System (InMemoryWorkflowQueue × List WorkflowTask) Op := machine.beside tasks

structure Speaks (q : InMemoryWorkflowQueue) (queued : List WorkflowTask) : Prop where
  queue : q.queue = queued
  found : ∀ id, (∃ task, q.lookupTask id = some task) ↔ ∃ task ∈ queued, task.taskId = id
  own : ∀ id task, q.lookupTask id = some task → task ∈ queued ∧ task.taskId = id
  front : q.peek = queued.head?
  counts : (queued.map WorkflowTask.taskId).Nodup →
    q.status.get? "queued_tasks" = q.status.get? "tracked_tasks"

/-- **The queue is a FIFO with lookup** along the operations: it answers each as the list of tasks
does, and wherever it comes it speaks of that list. -/
structure RefinesFifo (ops : List Op) : Prop where
  replies : both.Meets (machine.SameReply tasks) ({}, []) ops
  speaks : ∀ past q queued, past <+: ops → both.exec ({}, []) past = some (q, queued) →
    Speaks q queued

def LastOfItsId (s : InMemoryWorkflowQueue × List WorkflowTask) : Op → Prop
  | .dequeue => ∀ task rest, s.2 = task :: rest → ∀ t ∈ rest, t.taskId ≠ task.taskId
  | _ => True

/-! ## One operation -/

theorem speaks_of {q : InMemoryWorkflowQueue}
    (hfound : ∀ task ∈ q.queue, ∃ t, q.lookupTask task.taskId = some t)
    (hown : ∀ id task, q.lookupTask id = some task → task ∈ q.queue ∧ task.taskId = id) :
    Speaks q q.queue := by
  have hboth : ∀ id, (∃ task, q.lookupTask id = some task) ↔
      ∃ task ∈ q.queue, task.taskId = id := by
    intro id
    constructor
    · rintro ⟨task, htask⟩
      exact ⟨task, hown id task htask⟩
    · rintro ⟨task, hmem, rfl⟩
      exact hfound task hmem
  refine ⟨rfl, hboth, hown, ?_, ?_⟩
  · unfold peek
    cases q.queue <;> rfl
  · intro hnodup
    have hsize : q.lookup.size = q.queue.length := Dict.size_eq_length hboth hnodup
    rw [status, Dict.get?_set_self, hsize]
    rfl

section Operations

variable {q : InMemoryWorkflowQueue} {queued : List WorkflowTask} (h : Speaks q queued)

include h

theorem Speaks.sameReply (op : Op) : machine.SameReply tasks (q, queued) op := by
  obtain rfl := h.queue
  cases op with
  | enqueue task => rfl
  | dequeue =>
    show Fifo.Reply.taken q.dequeue.1 = .taken q.queue.head?
    unfold dequeue
    cases q.queue <;> rfl
  | remove taskId =>
    show Fifo.Reply.removed (q.remove taskId).1 = .removed (decide _)
    have hfound := h.found taskId
    unfold remove
    cases hget : q.lookup.get? taskId with
    | none =>
      have hnone : ¬ ∃ task ∈ q.queue, task.taskId = taskId := by
        rw [← hfound, lookupTask, hget]
        simp
      rw [decide_eq_false hnone]
    | some task => rw [decide_eq_true (hfound.mp ⟨task, hget⟩)]

theorem Speaks.enqueue (task : WorkflowTask) : Speaks (q.enqueue task) (queued ++ [task]) := by
  obtain rfl := h.queue
  apply speaks_of (q := q.enqueue task)
  · intro t ht
    show ∃ t', (q.lookup.set task.taskId task).get? t.taskId = some t'
    rw [Dict.get?_set]
    split
    · exact ⟨task, rfl⟩
    · next hne =>
      rcases List.mem_append.mp ht with ht | ht
      · exact (h.found t.taskId).mpr ⟨t, ht, rfl⟩
      · exact absurd (congrArg WorkflowTask.taskId (List.mem_singleton.mp ht)) hne
  · intro id t hget
    replace hget : (q.lookup.set task.taskId task).get? id = some t := hget
    show t ∈ q.queue ++ [task] ∧ t.taskId = id
    rw [Dict.get?_set] at hget
    split at hget
    · next hid =>
      obtain rfl := Option.some.inj hget
      exact ⟨by simp, hid.symm⟩
    · exact ⟨List.mem_append_left _ (h.own id t hget).1, (h.own id t hget).2⟩

theorem Speaks.remove (taskId : String) :
    Speaks (q.remove taskId).2 (queued.filter fun t => t.taskId ≠ taskId) := by
  obtain rfl := h.queue
  have hqueue : (q.remove taskId).2.queue = q.queue.filter fun t => t.taskId ≠ taskId := by
    unfold InMemoryWorkflowQueue.remove
    cases hget : q.lookup.get? taskId with
    | some _ => rfl
    | none =>
      refine (List.filter_eq_self.mpr ?_).symm
      intro t ht
      refine decide_eq_true ?_
      rintro rfl
      obtain ⟨t', ht'⟩ := (h.found t.taskId).mpr ⟨t, ht, rfl⟩
      rw [lookupTask, hget] at ht'
      cases ht'
  have hlookup : (q.remove taskId).2.lookup = q.lookup.erase taskId := by
    unfold InMemoryWorkflowQueue.remove
    cases q.lookup.get? taskId <;> rfl
  rw [← hqueue]
  apply speaks_of
  · intro t ht
    rw [hqueue, List.mem_filter, decide_eq_true_eq] at ht
    rw [lookupTask, hlookup, Dict.get?_erase_ne ht.2]
    exact (h.found t.taskId).mpr ⟨t, ht.1, rfl⟩
  · intro id t hget
    rw [lookupTask, hlookup, Dict.get?_erase] at hget
    split at hget
    · cases hget
    · next hne =>
      obtain ⟨hmem, hid⟩ := h.own id t hget
      rw [hqueue, List.mem_filter, decide_eq_true_eq]
      exact ⟨⟨hmem, fun heq => hne (hid.symm.trans heq)⟩, hid⟩

theorem Speaks.dequeue_iff : Speaks q.dequeue.2 queued.tail ↔ LastOfItsId (q, queued) .dequeue := by
  obtain rfl := h.queue
  cases hqueue : q.queue with
  | nil =>
    have hstill : q.dequeue.2 = q := by
      rw [dequeue, hqueue]
    rw [hstill, List.tail_nil, ← hqueue]
    refine iff_of_true h ?_
    intro task rest hcons
    rw [hqueue] at hcons
    cases hcons
  | cons task rest =>
    have hleft : q.dequeue.2 = ⟨rest, q.lookup.erase task.taskId⟩ := by
      rw [dequeue, hqueue]
    rw [hleft, List.tail_cons]
    constructor
    · intro hs task' rest' hcons t ht heq
      obtain ⟨rfl, rfl⟩ := List.cons.inj hcons
      obtain ⟨t', ht'⟩ := (hs.found t.taskId).mpr ⟨t, ht, rfl⟩
      rw [lookupTask, heq, Dict.get?_erase_self] at ht'
      cases ht'
    · intro hlast
      have hne : ∀ t ∈ rest, t.taskId ≠ task.taskId := hlast task rest rfl
      apply speaks_of (q := ⟨rest, q.lookup.erase task.taskId⟩)
      · intro t ht
        rw [lookupTask, Dict.get?_erase_ne (hne t ht)]
        refine (h.found t.taskId).mpr ⟨t, ?_, rfl⟩
        rw [hqueue]
        exact List.mem_cons_of_mem _ ht
      · intro id t hget
        rw [lookupTask, Dict.get?_erase] at hget
        split at hget
        · cases hget
        · next hother =>
          obtain ⟨hmem, hid⟩ := h.own id t hget
          rw [hqueue] at hmem
          rcases List.mem_cons.mp hmem with rfl | hmem
          · exact absurd hid.symm hother
          · exact ⟨hmem, hid⟩

theorem Speaks.step_iff (op : Op) : Speaks (machine.apply q op).2 (tasks.apply queued op).2 ↔
    LastOfItsId (q, queued) op := by
  cases op with
  | enqueue task => exact iff_of_true (h.enqueue task) trivial
  | dequeue => exact h.dequeue_iff
  | remove taskId => exact iff_of_true (h.remove taskId) trivial

end Operations

/-! ## Histories -/

theorem speaks_new : Speaks {} [] := by
  apply speaks_of (q := {})
  · intro task hmem
    cases hmem
  · intro id task hget
    cases hget

/-- **The queue is a FIFO with lookup just if no task is dequeued while another with its id is
queued behind it.** Such a task is still in line, but the dictionary that finds it by its id has
given up the entry with the one that was taken out. -/
theorem refinesFifo_iff (ops : List Op) :
    RefinesFifo ops ↔ both.Meets LastOfItsId ({}, []) ops := by
  rw [← Machine.throughout_iff (P := fun s => Speaks s.1 s.2) (fun s op h => h.step_iff op)
    speaks_new]
  constructor
  · intro h past s hpast he
    exact h.speaks past s.1 s.2 hpast he
  · intro h
    refine ⟨?_, fun past q queued => h past (q, queued)⟩
    exact Machine.meets_sameReply (fun s op hs => hs.sameReply op) h

/-- The same id twice: the second task is queued, but `lookup` and `remove` know of none. -/
theorem not_refinesFifo_twice : ¬ ∀ ops, RefinesFifo ops := by
  intro h
  let task : WorkflowTask := ⟨"t", "w", "c", .empty, .NORMAL, .PENDING, 0⟩
  have hspeaks := (h [.enqueue task, .enqueue task, .dequeue]).speaks _ _ _ List.prefix_rfl rfl
  obtain ⟨found, hfound⟩ := (hspeaks.found "t").mpr ⟨task, List.mem_cons_self, rfl⟩
  cases hfound

end InMemoryWorkflowQueue

end IraOS
