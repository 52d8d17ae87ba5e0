import Mathlib.Data.List.Nodup
import Mathlib.Logic.Function.Basic

/-!
# Locks as queues of tickets

A lock that is fair is a queue: whoever comes takes a new ticket and goes to the end, the one in
front has the lock, and leaving takes the front away. A task may be in several queues, and in the
same one twice (the second time it waits for itself), so what a task has is a list of claims, a lock
and a ticket each, the newest first.

Tickets are drawn from one counter for all locks and are never used again. That is what makes a
claim something a proof can name: two claims with one ticket are one claim of one task
(`Queued.unique`), whatever has joined and left in between.

`Queued` says that claims and queues fit; `join` and `leave` keep it. That two claims in front of
one queue are one claim, which is mutual exclusion, is `Queued.front_unique`. What the tasks do
while they hold a lock is not looked at here, nor in which order they take several of them: a
deadlock is a state in which everybody is behind somebody, and whether there can be one is for the
program that uses the locks to say.
-/

set_option autoImplicit false

namespace Lib

/-- The claims of every task and the queue of every lock fit: each queue has the tickets of the
claims made on it, once each, and all of them come before the next ticket. -/
structure Queued (claims : Nat → List (Nat × Nat)) (queues : Nat → List Nat) (next : Nat) :
    Prop where
  once : ∀ i, ((claims i).map Prod.snd).Nodup
  apart : ∀ i j, i ≠ j → ∀ c ∈ claims i, ∀ c' ∈ claims j, c.2 ≠ c'.2
  fresh : ∀ i, ∀ c ∈ claims i, c.2 < next
  queued : ∀ i, ∀ c ∈ claims i, c.2 ∈ queues c.1
  owned : ∀ k, ∀ t ∈ queues k, ∃ i, (k, t) ∈ claims i
  nodup : ∀ k, (queues k).Nodup

def Front (queues : Nat → List Nat) (c : Nat × Nat) : Prop := (queues c.1).head? = some c.2

namespace Queued

variable {claims : Nat → List (Nat × Nat)} {queues : Nat → List Nat} {next i j k t : Nat}
  {rest : List (Nat × Nat)}

theorem start : Queued (fun _ => []) (fun _ => []) next where
  once _ := List.nodup_nil
  apart _ _ _ _ hc := absurd hc List.not_mem_nil
  fresh _ _ hc := absurd hc List.not_mem_nil
  queued _ _ hc := absurd hc List.not_mem_nil
  owned _ _ ht := absurd ht List.not_mem_nil
  nodup _ := List.nodup_nil

theorem unique (h : Queued claims queues next) {c c' : Nat × Nat} (hc : c ∈ claims i)
    (hc' : c' ∈ claims j) (hq : c.2 = c'.2) : i = j ∧ c = c' := by
  by_cases hij : i = j
  · subst hij
    exact ⟨rfl, List.inj_on_of_nodup_map (h.once i) hc hc' hq⟩
  · exact absurd hq (h.apart i j hij c hc c' hc')

/-- **One at a time**: two claims in front of the same queue are the same. -/
theorem front_unique (h : Queued claims queues next) {c c' : Nat × Nat} (hc : c ∈ claims i)
    (hc' : c' ∈ claims j) (hq : c.1 = c'.1) (hf : Front queues c) (hf' : Front queues c') :
    i = j ∧ c = c' := by
  have hsame : some c.2 = some c'.2 := by
    rw [← hf, ← hf', hq]
  exact h.unique hc hc' (Option.some.inj hsame)

/-! ## Joining a queue -/

theorem join (h : Queued claims queues next) (i k : Nat) :
    Queued (Function.update claims i ((k, next) :: claims i))
      (Function.update queues k (queues k ++ [next])) (next + 1) := by
  have hmem : ∀ j c, c ∈ Function.update claims i ((k, next) :: claims i) j →
      (j = i ∧ c = (k, next)) ∨ c ∈ claims j := by
    intro j c hc
    by_cases hj : j = i
    · subst hj
      rw [Function.update_self] at hc
      rcases List.mem_cons.mp hc with hc | hc
      · exact Or.inl ⟨rfl, hc⟩
      · exact Or.inr hc
    · rw [Function.update_of_ne hj] at hc
      exact Or.inr hc
  have hle : ∀ k', queues k' ⊆ Function.update queues k (queues k ++ [next]) k' := by
    intro k' t ht
    by_cases hk : k' = k
    · subst hk
      rw [Function.update_self]
      exact List.mem_append_left _ ht
    · rwa [Function.update_of_ne hk]
  refine ⟨?_, ?_, ?_, ?_, ?_, ?_⟩
  · intro j
    by_cases hj : j = i
    · subst hj
      rw [Function.update_self, List.map_cons, List.nodup_cons]
      refine ⟨?_, h.once j⟩
      intro hnext
      obtain ⟨c, hc, hq⟩ := List.mem_map.mp hnext
      exact absurd (h.fresh j c hc) (by simp [hq])
    · rw [Function.update_of_ne hj]
      exact h.once j
  · intro j j' hne c hc c' hc'
    rcases hmem j c hc with ⟨hj, rfl⟩ | hold
    · rcases hmem j' c' hc' with ⟨hj', _⟩ | hold'
      · exact absurd (hj.trans hj'.symm) hne
      · exact (Nat.ne_of_lt (h.fresh j' c' hold')).symm
    · rcases hmem j' c' hc' with ⟨_, rfl⟩ | hold'
      · exact Nat.ne_of_lt (h.fresh j c hold)
      · exact h.apart j j' hne c hold c' hold'
  · intro j c hc
    rcases hmem j c hc with ⟨_, rfl⟩ | hc
    · exact Nat.lt_succ_self next
    · exact Nat.lt_succ_of_lt (h.fresh j c hc)
  · intro j c hc
    rcases hmem j c hc with ⟨_, rfl⟩ | hc
    · show next ∈ Function.update queues k (queues k ++ [next]) k
      rw [Function.update_self]
      exact List.mem_append_right _ List.mem_cons_self
    · exact hle c.1 (h.queued j c hc)
  · intro k' t ht
    have hold : t ∈ queues k' ∨ (k' = k ∧ t = next) := by
      by_cases hk : k' = k
      · subst hk
        rw [Function.update_self] at ht
        rcases List.mem_append.mp ht with ht | ht
        · exact Or.inl ht
        · exact Or.inr ⟨rfl, List.mem_singleton.mp ht⟩
      · rw [Function.update_of_ne hk] at ht
        exact Or.inl ht
    rcases hold with ht | ⟨rfl, rfl⟩
    · obtain ⟨j, hj⟩ := h.owned k' t ht
      refine ⟨j, ?_⟩
      by_cases hji : j = i
      · subst hji
        rw [Function.update_self]
        exact List.mem_cons_of_mem _ hj
      · rwa [Function.update_of_ne hji]
    · refine ⟨i, ?_⟩
      rw [Function.update_self]
      exact List.mem_cons_self
  · intro k'
    by_cases hk : k' = k
    · subst hk
      rw [Function.update_self, List.nodup_append]
      refine ⟨h.nodup k', List.nodup_singleton next, ?_⟩
      intro t ht t' ht'
      rw [List.mem_singleton.mp ht']
      obtain ⟨j, hj⟩ := h.owned k' t ht
      exact Nat.ne_of_lt (h.fresh j _ hj)
    · rw [Function.update_of_ne hk]
      exact h.nodup k'

/-- Who is in front of a queue stays there when somebody joins. -/
theorem front_join {c : Nat × Nat} (hf : Front queues c) (k : Nat) :
    Front (Function.update queues k (queues k ++ [next])) c := by
  unfold Front at hf ⊢
  by_cases hk : c.1 = k
  · rw [hk] at hf ⊢
    rw [Function.update_self, List.head?_append, hf]
    rfl
  · rwa [Function.update_of_ne hk]

/-! ## Leaving the front -/

theorem mem_leave (hc : claims i = (k, t) :: rest) {c : Nat × Nat}
    (hmem : c ∈ Function.update claims i rest j) : c ∈ claims j := by
  by_cases hj : j = i
  · subst hj
    rw [Function.update_self] at hmem
    rw [hc]
    exact List.mem_cons_of_mem _ hmem
  · rwa [Function.update_of_ne hj] at hmem

theorem ne_of_mem_leave (h : Queued claims queues next) (hc : claims i = (k, t) :: rest)
    {c : Nat × Nat} (hmem : c ∈ Function.update claims i rest j) : c.2 ≠ t := by
  intro hq
  have hgone : (k, t) ∈ claims i := hc ▸ List.mem_cons_self
  by_cases hj : j = i
  · subst hj
    rw [Function.update_self] at hmem
    have honce := h.once j
    rw [hc, List.map_cons, List.nodup_cons] at honce
    have hin : c.2 ∈ rest.map Prod.snd := List.mem_map_of_mem hmem
    rw [hq] at hin
    exact honce.1 hin
  · rw [Function.update_of_ne hj] at hmem
    exact h.apart j i hj c hmem (k, t) hgone hq

theorem queue_eq (hf : Front queues (k, t)) : queues k = t :: (queues k).tail :=
  List.eq_cons_of_mem_head? hf

theorem leave (h : Queued claims queues next) (hc : claims i = (k, t) :: rest)
    (hf : Front queues (k, t)) :
    Queued (Function.update claims i rest) (Function.update queues k (queues k).tail) next := by
  have hqueue := queue_eq hf
  have htail : ∀ k', ∀ t' ∈ Function.update queues k (queues k).tail k', t' ∈ queues k' := by
    intro k' t' ht'
    by_cases hk : k' = k
    · subst hk
      rw [Function.update_self] at ht'
      exact List.mem_of_mem_tail ht'
    · rwa [Function.update_of_ne hk] at ht'
  refine ⟨?_, ?_, ?_, ?_, ?_, ?_⟩
  · intro j
    by_cases hj : j = i
    · subst hj
      rw [Function.update_self]
      have honce := h.once j
      rw [hc, List.map_cons, List.nodup_cons] at honce
      exact honce.2
    · rw [Function.update_of_ne hj]
      exact h.once j
  · intro j j' hne c hmem c' hmem'
    exact h.apart j j' hne c (mem_leave hc hmem) c' (mem_leave hc hmem')
  · intro j c hmem
    exact h.fresh j c (mem_leave hc hmem)
  · intro j c hmem
    have hold := h.queued j c (mem_leave hc hmem)
    by_cases hk : c.1 = k
    · rw [hk] at hold ⊢
      rw [Function.update_self]
      rw [hqueue] at hold
      exact (List.mem_cons.mp hold).resolve_left (h.ne_of_mem_leave hc hmem)
    · rwa [Function.update_of_ne hk]
  · intro k' t' ht'
    obtain ⟨j, hj⟩ := h.owned k' t' (htail k' t' ht')
    refine ⟨j, ?_⟩
    by_cases hji : j = i
    · subst hji
      rw [Function.update_self]
      rw [hc] at hj
      rcases List.mem_cons.mp hj with hq | hj
      · -- the ticket that is gone is not in the tail
        obtain ⟨rfl, rfl⟩ := Prod.mk.inj hq
        rw [Function.update_self] at ht'
        have hnodup := h.nodup k'
        rw [hqueue, List.nodup_cons] at hnodup
        exact absurd ht' hnodup.1
      · exact hj
    · rwa [Function.update_of_ne hji]
  · intro k'
    by_cases hk : k' = k
    · subst hk
      rw [Function.update_self]
      exact (h.nodup k').tail
    · rw [Function.update_of_ne hk]
      exact h.nodup k'

/-- Who else is in front of a queue is in front of another one, and stays there when a claim is
left. -/
theorem front_leave (h : Queued claims queues next) (hc : claims i = (k, t) :: rest)
    (hf : Front queues (k, t)) {c : Nat × Nat} (hmem : c ∈ Function.update claims i rest j)
    (hf' : Front queues c) : Front (Function.update queues k (queues k).tail) c := by
  have hk : c.1 ≠ k := by
    intro hk
    have hgone : (k, t) ∈ claims i := hc ▸ List.mem_cons_self
    have hq := (h.front_unique (mem_leave hc hmem) hgone hk hf' hf).2
    exact h.ne_of_mem_leave hc hmem (by rw [hq])
  unfold Front at hf' ⊢
  rwa [Function.update_of_ne hk]

end Queued

end Lib
