import IraOS.Memory.Manager
import IraOS.Memory.Coherence
import Mathlib.Data.List.Sort

/-!
# Retention policies over a store

What a policy names, asked about the records of a store in whatever order they come (`Condemned`).
Forgetting a named record spares none of the others, and neither does storing another one: the
policy goes on naming the rest.

That is what a loop needs that has asked the policy once and forgets one record after another. It is
plain of the policies that look at one record at a time. The one that keeps the most recently used
looks at all of them, and how many it names goes down by one with each record that is forgotten;
`Condemned.remove` is the reason that the ones left are still among them.

Time condemns and does not spare (`mem_select_of_le`), so a candidate may be looked at later than it
was named. Reading a record does spare it where the policy goes by its last use, which is why the
results on `cleanup` ask what other tasks do.

The order in which a store lists its records is the order of a set, and ties in the last use are
broken by it. A set of ids counts as condemned if *some* order names them all.
-/

set_option autoImplicit false

namespace IraOS

open Lib

namespace MemoryIndex

/-! ## Every record under its own id -/

def OwnIds (index : MemoryIndex) : Prop := ∀ id r, index.byId.get? id = some r → r.id = id

theorem OwnIds.add {index : MemoryIndex} (h : index.OwnIds) (r : MemoryRecord) :
    (index.add r).OwnIds := by
  intro id r' hget
  rw [add_get?] at hget
  split at hget
  · rename_i hid
    injection hget with hget
    rw [← hget, hid]
  · exact h id r' hget

theorem OwnIds.remove {index : MemoryIndex} (h : index.OwnIds) (id : String) :
    (index.remove id).OwnIds := by
  intro id' r hget
  rw [remove_get?] at hget
  split at hget
  · cases hget
  · exact h id' r hget

theorem OwnIds.removeAll {index : MemoryIndex} (h : index.OwnIds) (ids : List String) :
    (ids.foldl MemoryIndex.remove index).OwnIds := by
  induction ids generalizing index with
  | nil => exact h
  | cons id ids ih => exact ih (h.remove id)

end MemoryIndex

namespace MemoryStore

open MemoryIndex

def KeepsIds {α : Type} (m : Operation α) : Prop :=
  Act.Moves (fun index index' : MemoryIndex => index.OwnIds → index'.OwnIds) m

theorem KeepsIds.bind {α β : Type} {m : Operation α} {f : α → Operation β} (hm : KeepsIds m)
    (hf : ∀ a, KeepsIds (f a)) : KeepsIds (m >>= f) :=
  Act.Moves.bind (fun _ _ _ h h' hi => h' (h hi)) hm hf

theorem KeepsIds.pure {α : Type} (a : α) : KeepsIds (pure a : Operation α) := ⟨fun _ h => h⟩

theorem keepsIds_get (recordId : String) : KeepsIds (get recordId) := by
  refine ⟨fun index h => ?_⟩
  rcases get_run recordId index with ⟨record, -, hrun⟩ | ⟨-, hrun⟩ <;>
    · rw [hrun]
      exact h

theorem keepsIds_delete (recordId : String) : KeepsIds (delete recordId) := by
  rw [delete_str]
  refine .bind ⟨fun _ h => h⟩ fun index => ?_
  split
  · exact ⟨fun _ h => h.remove recordId⟩
  · exact ⟨fun _ h => h⟩

theorem keepsIds_add (record : MemoryRecord) : KeepsIds (add record) := by
  rw [add_str]
  refine .bind ⟨fun _ h => h⟩ fun index => ?_
  split
  · exact ⟨fun _ h => h⟩
  · exact ⟨fun _ h => h.add record⟩

theorem keepsIds_indexUpdate (oldRecord newRecord : MemoryRecord) :
    KeepsIds (indexUpdate oldRecord newRecord) := by
  rw [indexUpdate_str]
  exact ⟨fun _ h => (h.remove oldRecord.id).add newRecord⟩

theorem keepsIds_clear (ids : List String) : KeepsIds (clear ids) := by
  rw [clear_str]
  exact ⟨fun _ h => h.removeAll ids⟩

theorem keepsIds_replace (record : MemoryRecord) : KeepsIds (replace record) :=
  (keepsIds_get record.id).bind fun existing => keepsIds_indexUpdate existing record

theorem keepsIds_update (recordId : String) (fields : UpdateFields) (now : Int) :
    KeepsIds (update recordId fields now) :=
  (keepsIds_get recordId).bind fun current => .bind ⟨fun _ h => h⟩ fun updated =>
    .bind (keepsIds_indexUpdate current updated) fun _ => .pure updated

end MemoryStore

namespace MemoryManager

open MemoryIndex MemoryStore

theorem keepsIds_body (now : Int) (order : List String) (op : Op) :
    KeepsIds (op.body now order) := by
  cases op with
  | remember record => exact (keepsIds_add record).bind fun _ => .pure _
  | «recall» memoryId =>
    exact (keepsIds_get memoryId).bind fun record =>
      (keepsIds_replace _).bind fun _ => .pure _
  | forget memoryId | delete memoryId =>
    exact (keepsIds_get memoryId).bind fun record =>
      (keepsIds_delete memoryId).bind fun _ => .pure _
  | update memoryId fields => exact (keepsIds_update memoryId fields now).bind fun _ => .pure _
  | replace record => exact (keepsIds_replace record).bind fun _ => .pure _
  | clear => exact KeepsIds.bind (keepsIds_clear order) fun _ => .pure _
  | read look => exact KeepsIds.bind ⟨fun _ h => h⟩ fun _ => .pure _

end MemoryManager

/-! ## The records of a store -/

namespace MemoryIndex

variable {index : MemoryIndex}

theorem list_perm {order : List String} (h : order.Perm index.byId.keys) :
    (MemoryStore.list order index).Perm index.byId.values := by
  rw [MemoryStore.list, ← Dict.filterMap_keys]
  exact h.filterMap _

theorem OwnIds.mem_values (h : index.OwnIds) {r : MemoryRecord} :
    r ∈ index.byId.values ↔ index.byId.get? r.id = some r := by
  rw [Dict.mem_values_iff]
  constructor
  · rintro ⟨id, hget⟩
    rw [h id r hget]
    exact hget
  · intro hget
    exact ⟨r.id, hget⟩

theorem OwnIds.map_id (h : index.OwnIds) : index.byId.values.map (·.id) = index.byId.keys := by
  rw [Dict.values, Dict.keys, List.map_map]
  refine List.map_congr_left fun e he => ?_
  exact h e.1 e.2 (Dict.get?_of_mem_entries he)

theorem OwnIds.nodup (h : index.OwnIds) {records : List MemoryRecord}
    (hperm : records.Perm index.byId.values) : (records.map (·.id)).Nodup := by
  rw [(hperm.map _).nodup_iff, h.map_id]
  exact index.byId.keys_nodup

theorem OwnIds.filterMap_nodup (h : index.OwnIds) {order : List String} (horder : order.Nodup) :
    (order.filterMap index.byId.get?).Nodup := by
  apply List.Nodup.filterMap _ horder
  intro id id' r hr hr'
  rw [← h id r hr, ← h id' r hr']

theorem OwnIds.values_remove (h : index.OwnIds) {id : String} {r : MemoryRecord}
    (hget : index.byId.get? id = some r) :
    (index.remove id).byId.values = index.byId.values.filter fun r => r.id ≠ id := by
  have hbyId : (index.remove id).byId = index.byId.erase id := by
    unfold MemoryIndex.remove
    rw [hget]
  rw [hbyId, Dict.values, Dict.values, List.filter_map]
  refine congrArg (List.map Prod.snd) ?_
  refine List.filter_congr fun e he => ?_
  have heq : e.2.id = e.1 := h e.1 e.2 (Dict.get?_of_mem_entries he)
  simp [heq]

theorem values_add {r : MemoryRecord} (hfree : index.byId.get? r.id = none) :
    (index.add r).byId.values = index.byId.values ++ [r] :=
  Dict.values_set_of_absent hfree r

end MemoryIndex

/-! ## What a policy names -/

namespace RetentionPolicy

variable {policy : RetentionPolicy} {now now' : Int} {records : List MemoryRecord} {id : String}

theorem exists_of_mem_select (h : id ∈ policy.selectCandidates now records) :
    ∃ r ∈ records, r.id = id := by
  cases policy with
  | neverForget => cases h
  | ttl ttlSeconds _ | importanceThreshold threshold =>
    obtain ⟨r, hr, rfl⟩ := List.mem_map.mp h
    exact ⟨r, (List.mem_filter.mp hr).1, rfl⟩
  | leastRecentlyUsed maxRecords =>
    obtain ⟨r, hr, rfl⟩ := List.mem_map.mp h
    exact ⟨r, List.mem_mergeSort.mp (List.mem_of_mem_take hr), rfl⟩

theorem select_nodup (h : (records.map (·.id)).Nodup) :
    (policy.selectCandidates now records).Nodup := by
  cases policy with
  | neverForget => exact List.nodup_nil
  | ttl ttlSeconds _ | importanceThreshold threshold =>
    exact h.sublist (List.filter_sublist.map _)
  | leastRecentlyUsed maxRecords =>
    have hsorted := ((List.mergeSort_perm records
      fun r r' => r.lastAccessed ≤ r'.lastAccessed).map (·.id)).nodup_iff.mpr h
    exact hsorted.sublist ((List.take_sublist _ _).map _)

/-- Time condemns, and does not spare. -/
theorem mem_select_of_le (hle : now ≤ now') (h : id ∈ policy.selectCandidates now records) :
    id ∈ policy.selectCandidates now' records := by
  cases policy with
  | neverForget | leastRecentlyUsed _ | importanceThreshold _ => exact h
  | ttl ttlSeconds _ =>
    obtain ⟨r, hr, rfl⟩ := List.mem_map.mp h
    obtain ⟨hmem, hold⟩ := List.mem_filter.mp hr
    have hold : now - r.updatedAt > ttlSeconds * 1000000 := of_decide_eq_true hold
    refine List.mem_map_of_mem (List.mem_filter.mpr ⟨hmem, decide_eq_true ?_⟩)
    omega

def oldest (maxRecords : Nat) (records : List MemoryRecord) : List MemoryRecord :=
  records.take (records.length - maxRecords)

theorem select_leastRecentlyUsed {maxRecords : Nat}
    (h : records.Pairwise fun r r' => r.lastAccessed ≤ r'.lastAccessed) :
    (leastRecentlyUsed maxRecords).selectCandidates now records =
      (oldest maxRecords records).map (·.id) := by
  have hsorted : records.Pairwise fun r r' =>
      (decide (r.lastAccessed ≤ r'.lastAccessed)) = true := h.imp fun hle => decide_eq_true hle
  rw [selectCandidates, List.mergeSort_of_pairwise hsorted, oldest]

theorem oldest_filter {maxRecords : Nat} (hnodup : (records.map (·.id)).Nodup)
    {r r' : MemoryRecord} (hr : r ∈ oldest maxRecords records)
    (hr' : r' ∈ oldest maxRecords records) (hne : r'.id ≠ r.id) :
    r' ∈ oldest maxRecords (records.filter fun x => x.id ≠ r.id) := by
  have hlt : maxRecords < records.length := by
    by_contra hle
    have hzero : records.length - maxRecords = 0 := by omega
    rw [oldest, hzero] at hr
    cases hr
  -- the rest of the list does not have it
  have hrest : ((records.drop (records.length - maxRecords)).filter fun x => x.id ≠ r.id) =
      records.drop (records.length - maxRecords) := by
    rw [List.filter_eq_self]
    intro x hx
    rw [← List.take_append_drop (records.length - maxRecords) records, List.map_append,
      List.nodup_append'] at hnodup
    exact decide_eq_true fun heq =>
      hnodup.2.2 (List.mem_map_of_mem hr) (heq ▸ List.mem_map_of_mem hx)
  have hsplit : (records.filter fun x => x.id ≠ r.id) =
      ((oldest maxRecords records).filter fun x => x.id ≠ r.id) ++
        records.drop (records.length - maxRecords) := by
    conv_lhs => rw [← List.take_append_drop (records.length - maxRecords) records]
    rw [List.filter_append, hrest]
    rfl
  have hmem : r' ∈ (oldest maxRecords records).filter fun x => x.id ≠ r.id :=
    List.mem_filter.mpr ⟨hr', decide_eq_true hne⟩
  rw [oldest, hsplit, List.length_append, List.length_drop]
  have hlength : ((oldest maxRecords records).filter fun x => x.id ≠ r.id).length +
      (records.length - (records.length - maxRecords)) - maxRecords =
      ((oldest maxRecords records).filter fun x => x.id ≠ r.id).length := by omega
  rw [hlength, List.take_left]
  exact hmem

theorem oldest_insert {maxRecords : Nat} {l₁ l₂ : List MemoryRecord} {r r' : MemoryRecord}
    (hr' : r' ∈ oldest maxRecords (l₁ ++ l₂)) : r' ∈ oldest maxRecords (l₁ ++ r :: l₂) := by
  rw [oldest, List.take_append, List.mem_append] at hr' ⊢
  rw [List.length_append] at hr'
  rw [List.length_append, List.length_cons]
  rcases hr' with h | h
  · left
    exact (List.take_subset_take_left l₁ (by omega)) h
  · right
    have hpos : l₁.length + (l₂.length + 1) - maxRecords - l₁.length =
        l₁.length + l₂.length - maxRecords - l₁.length + 1 := by
      have hne : l₁.length + l₂.length - maxRecords - l₁.length ≠ 0 := by
        intro hzero
        rw [hzero] at h
        cases h
      omega
    rw [hpos, List.take_succ_cons]
    exact List.mem_cons_of_mem _ h

/-! ## Records that a policy names together -/

/-- Asked about the records of the store, in some order, the policy names all of these. -/
def Condemned (policy : RetentionPolicy) (index : MemoryIndex) (now : Int) (ids : List String) :
    Prop :=
  ∃ records : List MemoryRecord, records.Perm index.byId.values ∧
    ∀ id ∈ ids, id ∈ policy.selectCandidates now records

variable {index : MemoryIndex} {ids : List String}

theorem Condemned.mono {ids' : List String} (h : policy.Condemned index now ids)
    (hsub : ∀ id ∈ ids', id ∈ ids) : policy.Condemned index now ids' := by
  obtain ⟨records, hperm, hall⟩ := h
  exact ⟨records, hperm, fun id hid => hall id (hsub id hid)⟩

theorem Condemned.later (h : policy.Condemned index now ids) (hle : now ≤ now') :
    policy.Condemned index now' ids := by
  obtain ⟨records, hperm, hall⟩ := h
  exact ⟨records, hperm, fun id hid => mem_select_of_le hle (hall id hid)⟩

theorem Condemned.stored (h : policy.Condemned index now ids) (hown : index.OwnIds)
    (hid : id ∈ ids) : ∃ r, index.byId.get? id = some r := by
  obtain ⟨records, hperm, hall⟩ := h
  obtain ⟨r, hr, rfl⟩ := exists_of_mem_select (hall id hid)
  exact ⟨r, hown.mem_values.mp (hperm.mem_iff.mp hr)⟩

theorem condemned_leastRecentlyUsed {maxRecords : Nat} :
    (leastRecentlyUsed maxRecords).Condemned index now ids ↔
      ∃ records : List MemoryRecord, records.Perm index.byId.values ∧
        (records.Pairwise fun r r' => r.lastAccessed ≤ r'.lastAccessed) ∧
        ∀ id ∈ ids, id ∈ (oldest maxRecords records).map (·.id) := by
  constructor
  · rintro ⟨records, hperm, hall⟩
    have hsorted : (records.mergeSort fun r r' => r.lastAccessed ≤ r'.lastAccessed).Pairwise
        fun r r' => r.lastAccessed ≤ r'.lastAccessed := by
      have h := @List.pairwise_mergeSort MemoryRecord
        (fun r r' => decide (r.lastAccessed ≤ r'.lastAccessed))
        (fun a b c hab hbc => by simp only [decide_eq_true_eq] at *; omega)
        (fun a b => by simp only [Bool.or_eq_true, decide_eq_true_eq]; omega) records
      exact h.imp fun hle => of_decide_eq_true hle
    refine ⟨_, (List.mergeSort_perm records _).trans hperm, hsorted, fun id hid => ?_⟩
    rw [oldest, List.length_mergeSort]
    exact hall id hid
  · rintro ⟨records, hperm, hsorted, hall⟩
    refine ⟨records, hperm, fun id hid => ?_⟩
    rw [select_leastRecentlyUsed hsorted]
    exact hall id hid

/-- **Forgetting a candidate spares none of the others.** -/
theorem Condemned.remove (hown : index.OwnIds) (h : policy.Condemned index now (id :: ids))
    (hnot : id ∉ ids) : policy.Condemned (index.remove id) now ids := by
  obtain ⟨removed, hremoved⟩ := h.stored hown (List.mem_cons_self (a := id))
  have hvalues : ∀ records : List MemoryRecord, records.Perm index.byId.values →
      (records.filter fun r => r.id ≠ id).Perm (index.remove id).byId.values := by
    intro records hperm
    rw [hown.values_remove hremoved]
    exact hperm.filter _
  have hne : ∀ id' ∈ ids, id' ≠ id := fun id' hid' heq => hnot (heq ▸ hid')
  cases policy with
  | neverForget => exact ⟨_, hvalues _ (List.Perm.refl _), fun id' hid' => by
      obtain ⟨records, -, hall⟩ := h
      exact hall id' (List.mem_cons_of_mem _ hid')⟩
  | ttl _ _ | importanceThreshold _ =>
    -- each record is condemned for itself
    obtain ⟨records, hperm, hall⟩ := h
    refine ⟨_, hvalues records hperm, fun id' hid' => ?_⟩
    obtain ⟨r, hr, rfl⟩ := List.mem_map.mp (hall id' (List.mem_cons_of_mem _ hid'))
    obtain ⟨hmem, hcond⟩ := List.mem_filter.mp hr
    refine List.mem_map_of_mem (List.mem_filter.mpr ⟨?_, hcond⟩)
    exact List.mem_filter.mpr ⟨hmem, decide_eq_true (hne r.id hid')⟩
  | leastRecentlyUsed maxRecords =>
    -- the store is one smaller, and so is the excess
    rw [condemned_leastRecentlyUsed] at h ⊢
    obtain ⟨records, hperm, hsorted, hall⟩ := h
    refine ⟨_, hvalues records hperm, hsorted.sublist List.filter_sublist, fun id' hid' => ?_⟩
    obtain ⟨r, hr, hrid⟩ := List.mem_map.mp (hall id (by simp))
    obtain ⟨r', hr', rfl⟩ := List.mem_map.mp (hall id' (List.mem_cons_of_mem _ hid'))
    have hmem := oldest_filter (hown.nodup hperm) hr hr' (by rw [hrid]; exact hne r'.id hid')
    rw [hrid] at hmem
    exact List.mem_map_of_mem hmem

/-- **Storing another record spares none of them.** -/
theorem Condemned.add {r : MemoryRecord} (hfree : index.byId.get? r.id = none)
    (h : policy.Condemned index now ids) : policy.Condemned (index.add r) now ids := by
  have hvalues : ∀ records : List MemoryRecord, records.Perm (r :: index.byId.values) →
      records.Perm (index.add r).byId.values := by
    intro records hperm
    rw [MemoryIndex.values_add hfree]
    exact hperm.trans (List.perm_append_singleton r _).symm
  cases policy with
  | neverForget => exact ⟨_, List.Perm.refl _, fun id' hid' => by
      obtain ⟨records, -, hall⟩ := h
      exact hall id' hid'⟩
  | ttl _ _ | importanceThreshold _ =>
    obtain ⟨records, hperm, hall⟩ := h
    refine ⟨_, hvalues (r :: records) (hperm.cons r), fun id' hid' => ?_⟩
    obtain ⟨r', hr', rfl⟩ := List.mem_map.mp (hall id' hid')
    obtain ⟨hmem, hcond⟩ := List.mem_filter.mp hr'
    exact List.mem_map_of_mem (List.mem_filter.mpr ⟨List.mem_cons_of_mem _ hmem, hcond⟩)
  | leastRecentlyUsed maxRecords =>
    rw [condemned_leastRecentlyUsed] at h ⊢
    obtain ⟨records, hperm, hsorted, hall⟩ := h
    have htotal : Std.Total fun r r' : MemoryRecord => r.lastAccessed ≤ r'.lastAccessed :=
      ⟨fun r r' => le_total r.lastAccessed r'.lastAccessed⟩
    have htrans : IsTrans MemoryRecord fun r r' => r.lastAccessed ≤ r'.lastAccessed :=
      ⟨fun _ _ _ => le_trans⟩
    refine ⟨records.orderedInsert (fun r r' => r.lastAccessed ≤ r'.lastAccessed) r,
      hvalues _ ((List.perm_orderedInsert _ r records).trans (hperm.cons r)),
      hsorted.orderedInsert r, fun id' hid' => ?_⟩
    · obtain ⟨r', hr', rfl⟩ := List.mem_map.mp (hall id' hid')
      rw [List.orderedInsert_eq_take_drop]
      refine List.mem_map_of_mem (oldest_insert ?_)
      rw [List.takeWhile_append_dropWhile]
      exact hr'

end RetentionPolicy

end IraOS
