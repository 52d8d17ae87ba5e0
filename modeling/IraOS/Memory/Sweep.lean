import IraOS.Memory.Retention
import IraOS.Memory.Waiting

/-!
# Cleaning up

`cleanup` and `expire` ask the policy once, under the lock, and then forget what it named, one
`forget` after another, each with the lock taken anew. Between two of them the store is anybody's: a
candidate can be gone by then, or have been used, or be no longer one of too many.

What the run does itself spares no candidate, and neither does what is stored in the meantime. So as
long as the operations of the other tasks that change or remove records leave the candidates that
are left condemned, every one of them is when its turn comes — and is there.

## The condition

`Undisturbed` is a condition on the steps taken with the lock. Whoever takes one, the clock has not
been set back since the last. And a step of another task that removes or changes records has to
leave the candidates that are left condemned, in the store as it is afterwards; a step that only
stores or looks (`Op.Sparing`) meets it in any case. Recalling a record changes it, namely its last
use, and meets the condition where the policy does not go by that.

## What is promised

`Retains` is about every moment of the run: what it has deleted was condemned when it was deleted,
and no exception has come out of it. A candidate that somebody else has deleted makes `forget`
raise, the loop ends, and the candidates behind it stay (`deleted_spoils`).

## The proof

`Sweeping` is the invariant: the task has not asked yet, or what is left of its candidates is
condemned in the store as it stands. Each kind of turn keeps it, by the lemmas of
`Memory.Retention`.
-/

set_option autoImplicit false

namespace IraOS

open Lib MemoryIndex

namespace MemoryManager

variable {bus : Option Bus} {policy : RetentionPolicy} {s s' : State} {l : Label} {c : Nat}

/-! ## Operations on the store -/

theorem body_forget {index : MemoryIndex} {memoryId : String} {r : MemoryRecord}
    (h : index.byId.get? memoryId = some r) (now : Int) (order : List String) :
    ∃ event, (Op.forget memoryId).body now order index =
      ⟨.ok (.unit, some event), index.remove memoryId, []⟩ := by
  have hdelete : MemoryStore.delete memoryId index = ⟨.ok (), index.remove memoryId, []⟩ := by
    rw [MemoryStore.delete_str, Act.bind_get, if_pos (Dict.contains_iff.mpr ⟨r, h⟩)]
    rfl
  have hget : MemoryStore.get memoryId index = ⟨.ok r, index, []⟩ := by
    rcases MemoryStore.get_run memoryId index with ⟨r', hr', hrun⟩ | ⟨hnone, -⟩
    · rw [h] at hr'
      injection hr' with hr'
      exact hr' ▸ hrun
    · rw [h] at hnone
      cases hnone
  refine ⟨{ MemoryEvent.about .memoryForgotten r with
    payloadId := memoryId, memoryId := memoryId }, ?_⟩
  rw [Op.body, Act.run_bind_of_ok hget, Act.run_bind_of_ok hdelete]
  rfl

theorem body_remember (record : MemoryRecord) (now : Int) (order : List String)
    (index : MemoryIndex) :
    ((Op.remember record).body now order index).state = index ∨
      index.byId.get? record.id = none ∧
        ((Op.remember record).body now order index).state = index.add record := by
  cases hget : index.byId.get? record.id with
  | some r =>
    left
    rw [Op.body, MemoryStore.add_str, Act.run_bind, Act.bind_get,
      if_pos (Dict.contains_iff.mpr ⟨r, hget⟩)]
    rfl
  | none =>
    refine Or.inr ⟨rfl, ?_⟩
    have hnot : ¬ index.byId.contains record.id = true := by
      rw [Dict.contains, hget]
      simp
    rw [Op.body, MemoryStore.add_str, Act.run_bind, Act.bind_get, if_neg hnot]
    rfl

def Op.Sparing : Op → Prop
  | .remember _ | .read _ => True
  | _ => False

/-- Such an operation spares no candidate. -/
theorem condemned_of_sparing {op : Op} (hop : op.Sparing) {index : MemoryIndex} {now : Int}
    {ids : List String} (h : policy.Condemned index now ids) (order : List String) :
    policy.Condemned (op.body now order index).state now ids := by
  cases op with
  | remember record =>
    rcases body_remember record now order index with hstate | ⟨hfree, hstate⟩
    · rw [hstate]
      exact h
    · rw [hstate]
      exact h.add hfree
  | read look => exact h
  | «recall» | forget | delete | update | replace | clear => exact hop.elim

/-! ## Where the run is -/

inductive Pending : Thread → List String → Prop
  | ready (ids : List String) : Pending (.ready (forgetAll ids)) ids
  | queued (id : String) (rest : List String) :
      Pending (.queued (.forget id) (forgetAll rest).andThen) (id :: rest)
  | publishing (handlers : List Nat) (rest : List String) :
      Pending (.publishing handlers (forgetAll rest)) rest
  | finished : Pending (.finished (.ok ())) []

/-- Task `c` has not asked the policy yet, or what is left of the candidates is condemned. -/
structure Sweeping (policy : RetentionPolicy) (c : Nat) (s : State) : Prop where
  known : c < s.next
  ownIds : s.index.OwnIds
  phase : s.threads c = .ready (cleanup policy) ∨ s.threads c = .queued (scan policy) afterScan ∨
    ∃ ids, Pending (s.threads c) ids ∧ ids.Nodup ∧ policy.Condemned s.index s.clock ids

/-- Where a task has the lock, the clock has not been set back since somebody had it last; and an
operation of another task that changes or removes records leaves the candidates that are left
condemned. -/
def Undisturbed (policy : RetentionPolicy) (c : Nat) (s : State) (l : Label) : Prop :=
  ∀ op next, Entering s l.thread op next → s.clock ≤ l.now ∧
    (l.thread ≠ c → ¬ op.Sparing → ∀ ids, Pending (s.threads c) ids →
      policy.Condemned s.index l.now ids →
      policy.Condemned (op.body l.now l.order s.index).state l.now ids)

theorem undisturbed_of_sparing {op : Op} {next : Except Exn Reply → Prog}
    (ht : s.threads l.thread = .ready (.call op next)) (hop : op.Sparing)
    (hclock : s.clock ≤ l.now) : Undisturbed policy c s l := by
  intro op' next' hentering
  rcases hentering.2 with ⟨ht', -⟩ | ⟨ht', -⟩
  · rw [ht] at ht'
    injection ht' with ht'
    injection ht' with hop'
    exact ⟨hclock, fun _ hnot => absurd (hop' ▸ hop) hnot⟩
  · rw [ht] at ht'
    cases ht'

theorem sweeping_initial {n : Nat} {progs : Nat → Prog} (hc : c < n)
    (hprog : progs c = cleanup policy) : Sweeping policy c (initial n progs) where
  known := hc
  ownIds := by
    intro id r h
    cases h
  phase := by
    left
    rw [← hprog]
    exact if_pos hc

/-! ## The loop, by where its task is -/

theorem Pending.of_ready {p : Prog} {ids : List String} (h : Pending (.ready p) ids) :
    p = forgetAll ids := by
  cases h
  rfl

theorem Pending.of_publishing {p : Prog} {handlers : List Nat} {ids : List String}
    (h : Pending (.publishing handlers p) ids) : p = forgetAll ids := by
  cases h
  rfl

theorem Pending.of_queued {op : Op} {next : Except Exn Reply → Prog} {ids : List String}
    (h : Pending (.queued op next) ids) :
    ∃ id rest, ids = id :: rest ∧ op = .forget id ∧ next = (forgetAll rest).andThen := by
  cases h with
  | queued id rest => exact ⟨id, rest, rfl, rfl, rfl⟩

theorem Pending.of_done {result : Except Exn Unit} {ids : List String}
    (h : Pending (.ready (.done result)) ids) : ids = [] ∧ result = .ok () := by
  have hdone := h.of_ready
  cases ids with
  | nil =>
    injection hdone with hdone
    exact ⟨rfl, hdone⟩
  | cons id rest => cases hdone

theorem Pending.of_call {op : Op} {next : Except Exn Reply → Prog} {ids : List String}
    (h : Pending (.ready (.call op next)) ids) :
    ∃ id rest, ids = id :: rest ∧ op = .forget id ∧ next = (forgetAll rest).andThen := by
  have hcall := h.of_ready
  cases ids with
  | nil => cases hcall
  | cons id rest =>
    injection hcall with hop hnext
    exact ⟨id, rest, rfl, hop, hnext⟩

theorem Pending.of_entering {ids : List String} {op : Op} {next : Except Exn Reply → Prog}
    (hp : Pending (s.threads c) ids) (h : Entering s c op next) :
    ∃ id rest, ids = id :: rest ∧ op = .forget id ∧ next = (forgetAll rest).andThen := by
  rcases h.2 with ⟨ht, -⟩ | ⟨ht, -⟩
  · rw [ht] at hp
    exact hp.of_call
  · rw [ht] at hp
    exact hp.of_queued

/-! ## A turn with the lock -/

theorem enter_index (op : Op) (next : Except Exn Reply → Prog) :
    (s.enter bus l op next).index = (op.body l.now l.order s.index).state := by
  unfold State.enter
  dsimp only
  split <;> rfl

theorem enter_clock (op : Op) (next : Except Exn Reply → Prog) :
    (s.enter bus l op next).clock = l.now := by
  unfold State.enter
  dsimp only
  split <;> rfl

theorem next_le_enter (op : Op) (next : Except Exn Reply → Prog) :
    s.next ≤ (s.enter bus l op next).next := by
  unfold State.enter
  dsimp only
  split
  · exact Nat.le_refl _
  · exact Nat.le_add_right _ _

theorem enter_other (op : Op) (next : Except Exn Reply → Prog) {j : Nat} (hj : j < s.next)
    (hne : j ≠ l.thread) : (s.enter bus l op next).threads j = s.threads j := by
  unfold State.enter
  dsimp only
  split
  · exact Function.update_of_ne hne ..
  · exact (Function.update_of_ne hne ..).trans (spawn_old hj)

theorem enter_self (op : Op) (next : Except Exn Reply → Prog) :
    let rest := next (replied (op.body l.now l.order s.index).result)
    (s.enter bus l op next).threads l.thread = .ready rest ∨
      ∃ handlers, (s.enter bus l op next).threads l.thread = .publishing handlers rest := by
  intro rest
  unfold State.enter
  dsimp only
  split
  · exact Or.inl (Function.update_self ..)
  · exact Or.inr ⟨_, Function.update_self ..⟩

theorem pending_of_enter {op : Op} {next : Except Exn Reply → Prog} {ids : List String}
    (h : next (replied (op.body l.now l.order s.index).result) = forgetAll ids) :
    Pending ((s.enter bus l op next).threads l.thread) ids := by
  rcases @enter_self bus s l op next with ht | ⟨handlers, ht⟩
  · rw [ht, h]
    exact .ready ids
  · rw [ht, h]
    exact .publishing handlers ids

/-! ## Whole runs -/

theorem Sweeping.entering (h : Sweeping policy c s) {op : Op} {next : Except Exn Reply → Prog}
    (hentering : Entering s c op next) :
    (op = scan policy ∧ next = afterScan) ∨
      ∃ ids, Pending (s.threads c) ids ∧ ids.Nodup ∧ policy.Condemned s.index s.clock ids := by
  rcases h.phase with ht | ht | hp
  case inl =>
    rcases hentering.2 with ⟨ht', -⟩ | ⟨ht', -⟩
    · rw [ht] at ht'
      injection ht' with ht'
      injection ht' with hop hnext
      exact Or.inl ⟨hop.symm, hnext.symm⟩
    · rw [ht] at ht'
      cases ht'
  case inr.inl =>
    rcases hentering.2 with ⟨ht', -⟩ | ⟨ht', -⟩
    · rw [ht] at ht'
      cases ht'
    · rw [ht] at ht'
      injection ht' with hop hnext
      exact Or.inl ⟨hop.symm, hnext.symm⟩
  case inr.inr => exact Or.inr hp

theorem Sweeping.enter_own (h : Sweeping policy c s) (undisturbed : Undisturbed policy c s l)
    (hl : l.thread = c) {op : Op} {next : Except Exn Reply → Prog}
    (hentering : Entering s l.thread op next) (order : l.order.Perm s.index.byId.keys) :
    Sweeping policy c ({ s with waiters := s.waiters.tail }.enter bus l op next) := by
  have hclock := (undisturbed op next hentering).1
  subst hl
  constructor
  case known =>
    exact Nat.lt_of_lt_of_le h.known
      (@next_le_enter bus { s with waiters := s.waiters.tail } l op next)
  case ownIds =>
    rw [enter_index]
    exact (keepsIds_body l.now l.order op).state s.index h.ownIds
  case phase =>
    right; right
    rw [enter_index, enter_clock]
    rcases h.entering hentering with ⟨rfl, rfl⟩ | ⟨ids, hp, hnodup, hcondemned⟩
    · have hlist := list_perm order
      exact ⟨_, pending_of_enter rfl, RetentionPolicy.select_nodup (h.ownIds.nodup hlist),
        _, hlist, fun _ hid => hid⟩
    · obtain ⟨id, rest, rfl, rfl, rfl⟩ := hp.of_entering hentering
      have hcondemned := hcondemned.later hclock
      obtain ⟨r, hr⟩ := hcondemned.stored h.ownIds (List.mem_cons_self (a := id))
      obtain ⟨event, hbody⟩ := body_forget hr l.now l.order
      rw [List.nodup_cons] at hnodup
      refine ⟨rest, pending_of_enter ?_, hnodup.2, ?_⟩
      · dsimp only
        rw [hbody]
        rfl
      · rw [hbody]
        exact hcondemned.remove h.ownIds hnodup.1

theorem Sweeping.enter_other (h : Sweeping policy c s) (undisturbed : Undisturbed policy c s l)
    (hl : l.thread ≠ c) {op : Op} {next : Except Exn Reply → Prog}
    (hentering : Entering s l.thread op next) :
    Sweeping policy c ({ s with waiters := s.waiters.tail }.enter bus l op next) := by
  obtain ⟨hclock, hother⟩ := undisturbed op next hentering
  have hsame : ({ s with waiters := s.waiters.tail }.enter bus l op next).threads c =
      s.threads c := MemoryManager.enter_other op next h.known (Ne.symm hl)
  constructor
  case known =>
    exact Nat.lt_of_lt_of_le h.known
      (@next_le_enter bus { s with waiters := s.waiters.tail } l op next)
  case ownIds =>
    rw [enter_index]
    exact (keepsIds_body l.now l.order op).state s.index h.ownIds
  case phase =>
    rw [hsame, enter_index, enter_clock]
    rcases h.phase with ht | ht | ⟨ids, hp, hnodup, hcondemned⟩
    · exact Or.inl ht
    · exact Or.inr (Or.inl ht)
    · refine Or.inr (Or.inr ⟨ids, hp, hnodup, ?_⟩)
      have hcondemned := hcondemned.later hclock
      by_cases hop : op.Sparing
      · exact condemned_of_sparing hop hcondemned l.order
      · exact hother hl hop ids hp hcondemned

theorem Sweeping.moved (h : Sweeping policy c s) {t : Thread} (holder : Option Nat)
    (waiters : List Nat)
    (ht : l.thread = c → t = .queued (scan policy) afterScan ∨
      ∃ ids, Pending t ids ∧ ids.Nodup ∧ policy.Condemned s.index s.clock ids) :
    Sweeping policy c { s with
      holder := holder
      waiters := waiters
      threads := Function.update s.threads l.thread t } where
  known := h.known
  ownIds := h.ownIds
  phase := by
    dsimp only
    by_cases hl : l.thread = c
    · rw [← hl, Function.update_self]
      exact Or.inr (ht hl)
    · rw [Function.update_of_ne (Ne.symm hl)]
      exact h.phase

/-- **One turn.** -/
theorem Sweeping.turned (h : Sweeping policy c s) (undisturbed : Undisturbed policy c s l)
    (ht : Turned bus s l s') : Sweeping policy c s' := by
  cases ht with
  | enter hentering order =>
    by_cases hl : l.thread = c
    · exact h.enter_own undisturbed hl hentering order
    · exact h.enter_other undisturbed hl hentering
  | finish hdone =>
    refine h.moved s.holder s.waiters fun hl => ?_
    rw [hl] at hdone
    rcases h.phase with ht | ht | ⟨ids, hp, hnodup, hcondemned⟩
    · rw [hdone] at ht
      cases ht
    · rw [hdone] at ht
      cases ht
    · rw [hdone] at hp
      obtain ⟨rfl, rfl⟩ := hp.of_done
      exact Or.inr ⟨[], .finished, hnodup, hcondemned⟩
  | wait hcall taken =>
    refine h.moved s.holder (s.waiters ++ [l.thread]) fun hl => ?_
    rw [hl] at hcall
    rcases h.phase with ht | ht | ⟨ids, hp, hnodup, hcondemned⟩
    · rw [hcall] at ht
      injection ht with ht
      injection ht with hop hnext
      exact Or.inl (by rw [hop, hnext])
    · rw [hcall] at ht
      cases ht
    · rw [hcall] at hp
      obtain ⟨id, rest, rfl, rfl, rfl⟩ := hp.of_call
      exact Or.inr ⟨id :: rest, .queued id rest, hnodup, hcondemned⟩
  | resume hpublishing through =>
    refine h.moved none s.waiters fun hl => ?_
    rw [hl] at hpublishing
    rcases h.phase with ht | ht | ⟨ids, hp, hnodup, hcondemned⟩
    · rw [hpublishing] at ht
      cases ht
    · rw [hpublishing] at ht
      cases ht
    · rw [hpublishing] at hp
      rw [hp.of_publishing]
      exact Or.inr ⟨ids, .ready ids, hnodup, hcondemned⟩

/-- The run deletes what the policy condemns at that moment and nothing else, and no exception has
come out of it. -/
structure Retains (policy : RetentionPolicy) (c : Nat) (s : State) : Prop where
  deletes : ∀ id next now, Entering s c (.forget id) next → s.clock ≤ now →
    policy.Condemned s.index now [id]
  raises : ∀ exc, s.threads c ≠ .ready (.done (.error exc)) ∧ s.threads c ≠ .finished (.error exc)

theorem Sweeping.retains (h : Sweeping policy c s) : Retains policy c s where
  deletes := by
    intro id next now hentering hclock
    rcases h.entering hentering with ⟨hop, -⟩ | ⟨ids, hp, -, hcondemned⟩
    · cases hop
    · obtain ⟨id', rest, rfl, hop, -⟩ := hp.of_entering hentering
      injection hop with hop
      subst hop
      exact (hcondemned.later hclock).mono (by simp)
  raises := by
    intro exc
    rcases h.phase with ht | ht | ⟨ids, hp, -, -⟩
    · simp [ht, cleanup]
    · simp [ht]
    · constructor
      · intro ht
        rw [ht] at hp
        cases hp.of_done.2
      · intro ht
        rw [ht] at hp
        cases hp

/-- **In a run whose other tasks leave the pending candidates condemned**, `cleanup` deletes nothing
that is not, and runs through. The others may do to all other records what they like, and to the
candidates that are left whatever leaves them condemned; and the clock is not set back. -/
theorem cleanup_retains {n : Nat} {progs : Nat → Prog} {ls : List Label} (hc : c < n)
    (hprog : progs c = cleanup policy)
    (undisturbed : (system bus).Meets (Undisturbed policy c) (initial n progs) ls)
    (run : (system bus).exec (initial n progs) ls = some s) : Retains policy c s := by
  have h : Sweeping policy c s := System.exec_induct (P := Sweeping policy c)
    (fun _ _ _ h undisturbed hstep => h.turned undisturbed (step_turned hstep))
    (sweeping_initial hc hprog) undisturbed run
  exact h.retains

/-! Two notes of no importance, a cleanup of everything below 1, and a task that deletes the first
note. -/

def secondNote : MemoryRecord where
  toRecordData := { plainNote.toRecordData with id := "second" }
  valid := rfl

def once (op : Op) : Prog := .call op fun result => .done (result.map fun _ => ())

def untidy : Nat → Prog
  | 0 => once (.remember plainNote)
  | 1 => once (.remember secondNote)
  | 2 => cleanup (.importanceThreshold 1)
  | _ => once (.delete plainNote.id)

def scanned : List Label :=
  [⟨0, 0, []⟩, ⟨1, 0, [plainNote.id]⟩, ⟨2, 0, [plainNote.id, secondNote.id]⟩]

def untidyState (ls : List Label) : State :=
  ((system none).exec (initial 4 untidy) ls).getD (initial 0 untidy)

def tidy : Nat → Prog
  | 0 => once (.remember plainNote)
  | 1 => once (.remember secondNote)
  | 2 => cleanup (.importanceThreshold 1)
  | _ => once (.recall secondNote.id)

def tidyState (ls : List Label) : State :=
  ((system none).exec (initial 4 tidy) ls).getD (initial 0 tidy)

def recalled : List Label :=
  scanned ++ [⟨3, 1, [plainNote.id, secondNote.id]⟩, ⟨2, 2, [plainNote.id, secondNote.id]⟩,
    ⟨2, 3, [secondNote.id]⟩, ⟨2, 4, []⟩]

theorem forgetAll_injective : Function.Injective forgetAll := by
  intro ids ids' h
  induction ids generalizing ids' with
  | nil =>
    cases ids' with
    | nil => rfl
    | cons id' rest' => cases h
  | cons id rest ih =>
    cases ids' with
    | nil => cases h
    | cons id' rest' =>
      injection h with hop hnext
      injection hop with hid
      rw [hid, ih (congrFun hnext (.ok .unit))]

/-- Recalling the second note leaves it as unimportant as it was. -/
theorem recall_undisturbed : Undisturbed (.importanceThreshold 1) 2 (tidyState scanned)
    ⟨3, 1, [plainNote.id, secondNote.id]⟩ := by
  intro op next hentering
  refine ⟨by decide, ?_⟩
  intro _ _ ids hpending _
  have hids : [plainNote.id, secondNote.id] = ids := forgetAll_injective hpending.of_ready
  have hop : Op.recall secondNote.id = op := by
    rcases hentering.2 with ⟨ht, -⟩ | ⟨ht, -⟩
    · injection ht with ht
      injection ht
    · cases ht
  rw [← hids, ← hop]
  exact ⟨_, List.Perm.refl _, by decide⟩

theorem tidy_retains : (tidyState recalled).index.byId.entries = [] ∧
    Retains (.importanceThreshold 1) 2 (tidyState recalled) := by
  have own : ∀ (s : State) (l : Label), l.thread = 2 → s.clock ≤ l.now →
      Undisturbed (.importanceThreshold 1) 2 s l :=
    fun s l hl hclock op next _ => ⟨hclock, fun hne => absurd hl hne⟩
  have forgetting : (system none).Meets (Undisturbed (.importanceThreshold 1) 2)
      (tidyState (recalled.take 4)) (recalled.drop 4) :=
    System.meets_cons (own _ _ rfl (by decide)) rfl (System.meets_cons (own _ _ rfl (by decide)) rfl
      (System.meets_cons (own _ _ rfl (by decide)) rfl trivial))
  have recalling : (system none).step (tidyState scanned)
      ⟨3, 1, [plainNote.id, secondNote.id]⟩ = some (tidyState (recalled.take 4)) := rfl
  have undisturbed : (system none).Meets (Undisturbed (.importanceThreshold 1) 2)
      (initial 4 tidy) recalled := by
    refine System.meets_cons (undisturbed_of_sparing rfl trivial (by decide)) rfl ?_
    refine System.meets_cons (undisturbed_of_sparing rfl trivial (by decide)) rfl ?_
    refine System.meets_cons (own _ _ rfl (by decide)) rfl ?_
    exact System.meets_cons recall_undisturbed recalling forgetting
  have run : (system none).exec (initial 4 tidy) recalled = some (tidyState recalled) := rfl
  exact ⟨rfl, cleanup_retains (by decide) rfl undisturbed run⟩

theorem deleted_spoils :
    ¬ ∀ (bus : Option Bus) (policy : RetentionPolicy) (c n : Nat) (progs : Nat → Prog)
      (ls : List Label) (s : State), c < n → progs c = cleanup policy →
        (system bus).exec (initial n progs) ls = some s → Retains policy c s := by
  intro h
  have hspoiled := h none (.importanceThreshold 1) 2 4 untidy
    (scanned ++ [⟨3, 0, [plainNote.id, secondNote.id]⟩, ⟨2, 0, [secondNote.id]⟩])
    (untidyState (scanned ++ [⟨3, 0, [plainNote.id, secondNote.id]⟩, ⟨2, 0, [secondNote.id]⟩]))
    (by decide) rfl rfl
  exact (hspoiled.raises _).1 rfl

end MemoryManager

end IraOS
