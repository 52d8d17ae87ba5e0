import IraOS.Memory.Store

/-!
# The indexes follow the records

`Coherent index`: each secondary index inverts one field of the stored records, no bucket is empty,
and every record is stored under its own id. Adding a record under a fresh id and removing one keep
that, and every operation is made of those two.

## What gets in the way

Two things do. An update may rename a record onto another one's id (`NoClash`), and then it writes
over a record that was never removed from its buckets. And an owner, or the new id of an update, may
be a value that does not hash (`Hashes`): `MemoryRecord` takes it, and the index finds out when it
has done half of its work. A run that meets neither is coherent wherever it passes
(`store_coherent`); one of each is at the end (`renaming_loses`, `unhashable_loses`).

Both are conditions on a call and the state it is made in: which ids are stored, and whether the
values that the call is to write hash. They do not speak of what the call does.

## What is promised

Of the state, three things: the indexes are the inverse images of the records, the counts count
them, and no record is lost. The last is a statement about each call (`Sound`): if it raises nothing
has changed, records it is not about are stored as they were, and what it leaves in the place of the
one it is about is stored, where it is no delete and no clear.

## The proof

`Writes` is what the operations that go through do to the index, one constructor for each, and
`run_cases` says that every call raises and has changed nothing, or goes through. It needs that the
owners that are stored hash (`OwnersHash`), or else a removal would stop half-way, and that is a
part of the invariant. From there on nothing looks at the operations' code.
-/

set_option autoImplicit false

namespace IraOS

open Lib

variable {κ : Type} [DecidableEq κ] [RecordKey κ]

namespace MemoryIndex

/-! ## One secondary index -/

section OneIndex

variable {ι : Type} [DecidableEq ι]

def HasKey (byId : Dict κ (MemoryRecord κ)) (keys : MemoryRecord κ → List ι)
    (id : κ) (k : ι) : Prop :=
  ∃ r, byId.get? id = some r ∧ k ∈ keys r

structure Indexes (byId : Dict κ (MemoryRecord κ)) (keys : MemoryRecord κ → List ι)
    (d : Dict ι (Finset κ)) : Prop where
  inverts : d.Inverts (HasKey byId keys)
  pruned : d.Pruned

namespace Indexes

variable {byId : Dict κ (MemoryRecord κ)} {keys : MemoryRecord κ → List ι}
  {d : Dict ι (Finset κ)}

theorem add (h : Indexes byId keys d) {r : MemoryRecord κ} (hr : byId.get? r.id = none) :
    Indexes (byId.set r.id r) keys (d.addToAll (keys r) r.id) where
  pruned := h.pruned.addToAll r.id _
  inverts := by
    refine (h.inverts.addToAll r.id _).congr fun id k => ?_
    unfold HasKey
    rw [Dict.get?_set]
    by_cases hid : id = r.id
    · subst hid; simp [hr]
    · simp [hid]

theorem remove (h : Indexes byId keys d) {id : κ} {r : MemoryRecord κ}
    (hr : byId.get? id = some r) :
    Indexes (byId.erase id) keys (d.discardFromAll (keys r) id) where
  pruned := h.pruned.discardFromAll id _
  inverts := by
    refine (h.inverts.discardFromAll id _).congr fun id' k => ?_
    unfold HasKey
    rw [Dict.get?_erase]
    by_cases hid : id' = id
    · subst hid; simp [hr]
    · simp [hid]

end Indexes

end OneIndex

/-! ## All of them -/

structure Coherent (index : MemoryIndex κ) : Prop where
  ownId : ∀ id r, index.byId.get? id = some r → r.id = id
  namespaces : Indexes index.byId (fun r => [r.namespace]) index.byNamespace
  owners : Indexes index.byId (fun r => [r.ownerId]) index.byOwner
  tags : Indexes index.byId (fun r => r.tags) index.byTags

theorem coherent_empty : Coherent ({} : MemoryIndex κ) := by
  have h : ∀ {ι : Type} [DecidableEq ι] (keys : MemoryRecord κ → List ι),
      Indexes Dict.empty keys Dict.empty := fun keys =>
    { inverts := fun k id => by simp [Dict.bucket, HasKey]
      pruned := Dict.pruned_empty }
  exact ⟨fun _ _ h => absurd h (by simp), h _, h _, h _⟩

/-- **Adding under a fresh id keeps the indexes coherent.** -/
theorem Coherent.add {index : MemoryIndex κ} (h : Coherent index) {r : MemoryRecord κ}
    (hr : index.byId.get? r.id = none) : Coherent (index.add r) where
  namespaces := h.namespaces.add hr
  owners := h.owners.add hr
  tags := h.tags.add hr
  ownId id r' hid := by
    unfold MemoryIndex.add at hid
    rw [Dict.get?_set] at hid
    split at hid
    · next he => rw [← Option.some.inj hid, he]
    · exact h.ownId id r' hid

/-- **… and so does removing**, whether there was something to remove or not. -/
theorem Coherent.remove {index : MemoryIndex κ} (h : Coherent index) (id : κ) :
    Coherent (index.remove id) := by
  unfold MemoryIndex.remove
  cases hr : index.byId.get? id with
  | none => exact h
  | some r =>
    refine ⟨fun id' r' hid => ?_, h.namespaces.remove hr, h.owners.remove hr, h.tags.remove hr⟩
    rw [Dict.get?_erase] at hid
    split at hid
    · exact absurd hid (by simp)
    · exact h.ownId id' r' hid

theorem remove_get? (index : MemoryIndex κ) (id id' : κ) :
    (index.remove id).byId.get? id' = if id' = id then none else index.byId.get? id' := by
  unfold MemoryIndex.remove
  cases hr : index.byId.get? id with
  | none => split <;> simp_all
  | some r => exact Dict.get?_erase ..

theorem add_get? (index : MemoryIndex κ) (r : MemoryRecord κ) (id : κ) :
    (index.add r).byId.get? id = if id = r.id then some r else index.byId.get? id :=
  Dict.get?_set ..

theorem Coherent.update {index : MemoryIndex κ} (h : Coherent index) {id : κ}
    {current r : MemoryRecord κ} (hid : index.byId.get? id = some current)
    (hfree : r.id = id ∨ index.byId.get? r.id = none) : Coherent (index.update current r) := by
  refine (h.remove _).add ?_
  rw [remove_get?, h.ownId id current hid]
  split
  · rfl
  · next hne => exact hfree.resolve_left hne

theorem Coherent.removeAll : ∀ {index : MemoryIndex κ}, Coherent index → ∀ ids : List κ,
    Coherent (ids.foldl MemoryIndex.remove index)
  | _, h, [] => h
  | _, h, id :: ids => Coherent.removeAll (h.remove id) ids

/-! ## Owners that hash -/

def OwnersHash (index : MemoryIndex κ) : Prop :=
  ∀ id r, index.byId.get? id = some r → RecordKey.hashable r.ownerId = true

theorem OwnersHash.remove {index : MemoryIndex κ} (h : OwnersHash index) (id : κ) :
    OwnersHash (index.remove id) := by
  intro id' r hget
  rw [remove_get?] at hget
  split at hget
  · cases hget
  · exact h id' r hget

theorem OwnersHash.add {index : MemoryIndex κ} (h : OwnersHash index) {r : MemoryRecord κ}
    (hr : RecordKey.hashable r.ownerId = true) : OwnersHash (index.add r) := by
  intro id r' hget
  rw [add_get?] at hget
  split at hget
  · rw [← Option.some.inj hget]
    exact hr
  · exact h id r' hget

theorem OwnersHash.removeAll {index : MemoryIndex κ} (h : OwnersHash index) (ids : List κ) :
    OwnersHash (ids.foldl MemoryIndex.remove index) := by
  induction ids generalizing index with
  | nil => exact h
  | cons id ids ih => exact ih (h.remove id)

/-! ## Counting -/

def counts (index : MemoryIndex κ) : MemoryStats where
  totalRecords := index.byId.size
  namespaces := (index.byId.values.map fun r => r.namespace).toFinset.card
  tagCount := (index.byId.values.flatMap fun r => r.tags).toFinset.card

theorem Coherent.stats_eq {index : MemoryIndex κ} (h : Coherent index) :
    MemoryStore.stats index = index.counts := by
  have hn : index.namespaceCount = (index.byId.values.map fun r => r.namespace).toFinset.card := by
    refine h.namespaces.pruned.size_eq h.namespaces.inverts fun k => ?_
    simp only [List.mem_toFinset, List.mem_map, Dict.mem_values_iff, HasKey, List.mem_singleton]
    constructor
    · rintro ⟨r, ⟨id, hid⟩, rfl⟩; exact ⟨id, r, hid, rfl⟩
    · rintro ⟨id, r, hid, rfl⟩; exact ⟨r, ⟨id, hid⟩, rfl⟩
  have ht : index.tagCount = (index.byId.values.flatMap fun r => r.tags).toFinset.card := by
    refine h.tags.pruned.size_eq h.tags.inverts fun k => ?_
    simp only [List.mem_toFinset, List.mem_flatMap, Dict.mem_values_iff, HasKey]
    constructor
    · rintro ⟨r, ⟨id, hid⟩, hk⟩; exact ⟨id, r, hid, hk⟩
    · rintro ⟨id, r, hid, hk⟩; exact ⟨r, ⟨id, hid⟩, hk⟩
  unfold MemoryStore.stats counts
  rw [hn, ht]

end MemoryIndex

namespace MemoryStore

open MemoryIndex

/-! ## What is in the way -/

/-- An update renames no record onto another stored record's id. -/
def NoClash (index : MemoryIndex κ) (call : Call κ) : Prop :=
  ∀ recordId fields now current updated, call = .update recordId fields now →
    index.byId.get? recordId = some current → current.withUpdate fields now = .ok updated →
    updated.id = recordId ∨ index.byId.get? updated.id = none

/-- What a call is to write hashes: the owner of a record that is added under an id which hashes and
is free, or put in the place of a stored one, and the id and the owner that an update leaves. -/
def Hashes (index : MemoryIndex κ) : Call κ → Prop
  | .add record => RecordKey.hashable record.id = true → index.byId.get? record.id = none →
      RecordKey.hashable record.ownerId = true
  | .update recordId fields now => ∀ current updated, index.byId.get? recordId = some current →
      current.withUpdate fields now = .ok updated →
      RecordKey.hashable updated.id = true ∧ RecordKey.hashable updated.ownerId = true
  | .replace record => ∀ existing, index.byId.get? record.id = some existing →
      RecordKey.hashable record.ownerId = true
  | .delete _ | .clear _ => True

/-- A call that meets neither of the two: it gives no record the id of another, and what it files
hashes. A call that raises before it writes anything meets neither. -/
structure Careful (index : MemoryIndex κ) (call : Call κ) : Prop where
  noClash : NoClash index call
  hashes : Hashes index call

/-! ## What an operation does -/

inductive Writes (index : MemoryIndex κ) : Call κ → MemoryIndex κ → Prop
  | add {record : MemoryRecord κ} (hid : RecordKey.hashable record.id = true)
      (h : index.byId.get? record.id = none) :
      Writes index (.add record) (index.add record)
  | update {recordId : κ} {fields : UpdateFields κ} {now : Int} {current updated : MemoryRecord κ}
      (hc : index.byId.get? recordId = some current)
      (hu : current.withUpdate fields now = .ok updated) :
      Writes index (.update recordId fields now) (index.update current updated)
  | replace {record existing : MemoryRecord κ} (h : index.byId.get? record.id = some existing) :
      Writes index (.replace record) (index.update existing record)
  | delete {recordId : κ} {record : MemoryRecord κ}
      (h : index.byId.get? recordId = some record) :
      Writes index (.delete recordId) (index.remove recordId)
  | clear {ids : List κ} : Writes index (.clear ids) (ids.foldl MemoryIndex.remove index)

theorem get_cases (recordId : κ) (index : MemoryIndex κ) :
    (∃ record, RecordKey.hashable recordId = true ∧ index.byId.get? recordId = some record ∧
      get recordId index = ⟨.ok record, index, []⟩) ∨
    ∃ exc, get recordId index = ⟨.error exc, index, []⟩ := by
  cases hhash : RecordKey.hashable recordId with
  | false =>
    obtain ⟨exc, hexc⟩ : ∃ exc, hash recordId index = ⟨.error exc, index, []⟩ := hash_raises hhash
    exact Or.inr ⟨exc, Act.run_bind_of_error hexc⟩
  | true =>
    rcases get_of_hashable hhash index with ⟨record, hget, hrun⟩ | ⟨_, hrun⟩
    · exact Or.inl ⟨record, rfl, hget, hrun⟩
    · exact Or.inr ⟨_, hrun⟩

theorem indexUpdate_of {index : MemoryIndex κ} (h : OwnersHash index)
    {oldRecord newRecord : MemoryRecord κ} (hid : RecordKey.hashable newRecord.id = true)
    (howner : RecordKey.hashable newRecord.ownerId = true) :
    indexUpdate oldRecord newRecord index = ⟨.ok (), index.update oldRecord newRecord, []⟩ := by
  rw [indexUpdate, Act.run_bind_of_ok (indexRemove_of fun r hr => h _ r hr),
    indexAdd_of hid howner]
  rfl

theorem clear_of {index : MemoryIndex κ} (h : OwnersHash index) (ids : List κ) :
    clear ids index = ⟨.ok (), ids.foldl MemoryIndex.remove index, []⟩ := by
  induction ids generalizing index with
  | nil => rfl
  | cons id ids ih =>
    rw [clear, Act.run_bind_of_ok (indexRemove_of fun r hr => h _ r hr), ih (h.remove id)]
    rfl

/-- **An operation raises, and has changed nothing, or it goes through.** -/
theorem run_cases {index : MemoryIndex κ} (h : OwnersHash index) {call : Call κ}
    (hc : Hashes index call) :
    (∃ exc, call.run index = ⟨.error exc, index, []⟩) ∨
      ∃ index', Writes index call index' ∧ call.run index = ⟨.ok (), index', []⟩ := by
  cases call with
  | add record =>
    rw [Call.run, MemoryStore.add]
    cases hhash : RecordKey.hashable record.id with
    | false =>
      obtain ⟨exc, hexc⟩ : ∃ exc, hash record.id index = ⟨.error exc, index, []⟩ :=
        hash_raises hhash
      exact Or.inl ⟨exc, Act.run_bind_of_error hexc⟩
    | true =>
      rw [Act.run_bind_of_ok (hash_of hhash), Act.bind_get]
      split
      · exact Or.inl ⟨_, rfl⟩
      · next hnot =>
        have hnone : index.byId.get? record.id = none := by
          rwa [Dict.contains, Option.not_isSome_iff_eq_none] at hnot
        rw [indexAdd_of hhash (hc hhash hnone)]
        exact Or.inr ⟨_, .add hhash hnone, rfl⟩
  | update recordId fields now =>
    rw [Call.run, MemoryStore.update]
    rcases get_cases recordId index with ⟨current, _, hget, hr⟩ | ⟨exc, hr⟩
    · cases hu : current.withUpdate fields now with
      | error exc =>
        refine Or.inl ⟨exc, ?_⟩
        rw [Act.run_bind, Act.run_bind_of_ok hr, hu]
        rfl
      | ok updated =>
        obtain ⟨hid, howner⟩ := hc current updated hget hu
        refine Or.inr ⟨_, .update hget hu, ?_⟩
        rw [Act.run_bind, Act.run_bind_of_ok hr, hu, Act.bind_ofExcept,
          Act.run_bind_of_ok (indexUpdate_of h hid howner)]
        rfl
    · refine Or.inl ⟨exc, ?_⟩
      rw [Act.run_bind, Act.run_bind_of_error hr]
  | replace record =>
    rw [Call.run, MemoryStore.replace]
    rcases get_cases record.id index with ⟨existing, hid, hget, hr⟩ | ⟨exc, hr⟩
    · rw [Act.run_bind_of_ok hr, indexUpdate_of h hid (hc existing hget)]
      exact Or.inr ⟨_, .replace hget, rfl⟩
    · rw [Act.run_bind_of_error hr]
      exact Or.inl ⟨_, rfl⟩
  | delete recordId =>
    rw [Call.run, MemoryStore.delete]
    cases hhash : RecordKey.hashable recordId with
    | false =>
      obtain ⟨exc, hexc⟩ : ∃ exc, hash recordId index = ⟨.error exc, index, []⟩ := hash_raises hhash
      exact Or.inl ⟨exc, Act.run_bind_of_error hexc⟩
    | true =>
      rw [Act.run_bind_of_ok (hash_of hhash), Act.bind_get]
      split
      · next hthere =>
        obtain ⟨record, hr⟩ := Dict.contains_iff.mp hthere
        rw [indexRemove_of fun r hr => h _ r hr]
        exact Or.inr ⟨_, .delete hr, rfl⟩
      · exact Or.inl ⟨_, rfl⟩
  | clear ids =>
    rw [Call.run, clear_of h]
    exact Or.inr ⟨_, .clear, rfl⟩

/-! ## What an operation keeps -/

/-- **What goes through without a clash keeps the indexes coherent.** -/
theorem Writes.coherent {index index' : MemoryIndex κ} {call : Call κ}
    (hw : Writes index call index') (h : Coherent index)
    (hc : NoClash index call) : Coherent index' := by
  cases hw with
  | add _ hfree => exact h.add hfree
  | update hid hu => exact h.update hid (hc _ _ _ _ _ rfl hid hu)
  | replace hid => exact h.update hid (Or.inl rfl)
  | delete _ => exact h.remove _
  | clear => exact h.removeAll _

theorem Writes.ownersHash {index index' : MemoryIndex κ} {call : Call κ}
    (hw : Writes index call index') (h : OwnersHash index) (hc : Hashes index call) :
    OwnersHash index' := by
  cases hw with
  | add hid hfree => exact h.add (hc hid hfree)
  | update hget hu => exact (h.remove _).add (hc _ _ hget hu).2
  | replace hget => exact (h.remove _).add (hc _ hget)
  | delete _ => exact h.remove _
  | clear => exact h.removeAll _

def Call.Concerns : Call κ → κ → Prop
  | .add _, _ => False
  | .update recordId _ _, id => id = recordId
  | .replace record, id => id = record.id
  | .delete recordId, id => id = recordId
  | .clear _, _ => True

def Call.leaves (index : MemoryIndex κ) : Call κ → Option (MemoryRecord κ)
  | .add record | .replace record => some record
  | .update recordId fields now =>
    (index.byId.get? recordId).bind fun current => (current.withUpdate fields now).toOption
  | .delete _ | .clear _ => none

/-- A call does no more than it is asked to: if it raises, nothing changed; every record it is not
about is stored as it was; and where it is no delete and no clear, what it leaves is stored. -/
structure Sound (call : Call κ) (index : MemoryIndex κ) : Prop where
  raised : ∀ exc, (call.run index).result = .error exc → (call.run index).state = index
  others : ∀ id r, index.byId.get? id = some r → ¬ call.Concerns id →
    (call.run index).state.byId.get? id = some r
  stays : (call.run index).result = .ok () → ∀ r, call.leaves index = some r →
    (call.run index).state.byId.get? r.id = some r

/-- **A careful call is sound.** -/
theorem sound_of_careful {call : Call κ} {index : MemoryIndex κ} (h : Coherent index)
    (howners : OwnersHash index) (hc : Careful index call) : Sound call index := by
  rcases run_cases howners hc.hashes with ⟨exc, hr⟩ | ⟨index', hw, hr⟩
  · exact
      { raised := fun _ _ => by rw [hr]
        others := fun _ _ hid _ => by rw [hr]; exact hid
        stays := fun hok => by rw [hr] at hok; exact absurd hok (by simp) }
  refine ⟨fun exc he => ?_, fun id r hid hnot => ?_, fun _ r hleaves => ?_⟩
  · rw [hr] at he; exact absurd he (by simp)
  · rw [hr]
    cases hw with
    | @add record _ hfree =>
      rw [add_get?, if_neg]
      · exact hid
      · rintro rfl
        rw [hfree] at hid
        exact absurd hid (by simp)
    | @update recordId fields now current updated hcur hu =>
      have hne : id ≠ updated.id := by
        rintro rfl
        rcases hc.noClash _ _ _ _ _ rfl hcur hu with he | he
        · exact hnot he
        · rw [he] at hid; exact absurd hid (by simp)
      have hother : id ≠ recordId := hnot
      rw [MemoryIndex.update, add_get?, if_neg hne, remove_get?, h.ownId _ _ hcur, if_neg hother]
      exact hid
    | @replace record existing hcur =>
      have hother : id ≠ record.id := hnot
      rw [MemoryIndex.update, add_get?, if_neg hother, remove_get?, h.ownId _ _ hcur,
        if_neg hother]
      exact hid
    | @delete recordId _ _ =>
      have hother : id ≠ recordId := hnot
      rw [remove_get?, if_neg hother]
      exact hid
    | clear => exact absurd trivial hnot
  · rw [hr]
    cases hw with
    | add _ _ => cases hleaves; exact (add_get? ..).trans (if_pos rfl)
    | update hcur hu =>
      rw [Call.leaves, hcur, Option.bind_some, hu] at hleaves
      cases hleaves
      exact (add_get? ..).trans (if_pos rfl)
    | replace _ => cases hleaves; exact (add_get? ..).trans (if_pos rfl)
    | delete _ => exact absurd hleaves (by simp [Call.leaves])
    | clear => exact absurd hleaves (by simp [Call.leaves])

/-! ## Whole runs -/

theorem step_state {index index' : MemoryIndex κ} {call : Call κ}
    (h : serving.step index call = some index') : index' = (call.run index).state := by
  unfold serving at h
  cases call with
  | clear ids =>
    dsimp only at h
    split at h
    · exact (Option.some.inj h).symm
    · exact absurd h (by simp)
  | _ => exact (Option.some.inj h).symm

/-- One step of a run keeps the indexes coherent, and the owners hashing. -/
theorem coherent_step {index index' : MemoryIndex κ} {call : Call κ}
    (h : Coherent index ∧ OwnersHash index) (hc : Careful index call)
    (hstep : serving.step index call = some index') : Coherent index' ∧ OwnersHash index' := by
  rw [step_state hstep]
  rcases run_cases h.2 hc.hashes with ⟨exc, hr⟩ | ⟨index'', hw, hr⟩
  · rw [hr]; exact h
  · rw [hr]; exact ⟨hw.coherent h.1 hc.noClash, hw.ownersHash h.2 hc.hashes⟩

/-- **In a run of careful calls** the indexes are the inverse images of the records wherever it
passes, the stats count them, and every careful call does no more than it is asked to. What a call
is asked is that an update takes no other record's id, and that the values a record is to be filed
under can be hashed. -/
theorem store_coherent {calls : List (Call κ)} {index : MemoryIndex κ}
    (hm : serving.Meets Careful {} calls) (he : serving.exec {} calls = some index) :
    Coherent index ∧ stats index = index.counts ∧
      ∀ call, Careful index call → Sound call index := by
  have h : Coherent index ∧ OwnersHash index :=
    System.exec_induct (P := fun index => Coherent index ∧ OwnersHash index)
      (fun _ _ _ h hc hs => coherent_step h hc hs)
      ⟨coherent_empty, fun _ _ hget => absurd hget (by simp)⟩ hm he
  exact ⟨h.1, h.1.stats_eq, fun call hc => sound_of_careful h.1 h.2 hc⟩

/-! ## A run -/

def noteOf (id owner : κ) («namespace» : String) (hid : RecordKey.truthy id = true)
    (howner : RecordKey.truthy owner = true) (hns : «namespace».isEmpty = false) :
    MemoryRecord κ where
  id := id
  ownerId := owner
  «namespace» := «namespace»
  createdAt := 0
  updatedAt := 0
  lastAccessed := 0
  valid := by
    rw [RecordData.check, hid, howner, hns]
    rfl

def note (id «namespace» : String) (hid : id.isEmpty = false)
    (hns : «namespace».isEmpty = false) : MemoryRecord :=
  noteOf id "owner" «namespace» (congrArg not hid) rfl hns

def aList : KeyValue := .unhashable "list" "['team']" true

def mixedCalls : List (Call KeyValue) :=
  [.add (noteOf (.int 7) (.str "owner") "x" rfl rfl rfl),
    .add (noteOf (.str "b") (.object 0 "Team" "team" true) "y" rfl rfl rfl),
    .add (noteOf aList (.str "owner") "y" rfl rfl rfl),
    .update (.int 7) { id := some (.str "c") } 1,
    .replace (noteOf (.str "c") (.int 3) "z" rfl rfl rfl),
    .delete (.str "b")]

def afterMixed : MemoryIndex KeyValue := (serving.exec {} mixedCalls).getD {}

theorem careful_add {index : MemoryIndex κ} {record : MemoryRecord κ}
    (h : RecordKey.hashable record.id = true → RecordKey.hashable record.ownerId = true) :
    Careful index (.add record) where
  noClash _ _ _ _ _ hcall := absurd hcall (by simp)
  hashes hid _ := h hid

theorem mixed_careful : serving.Meets Careful {} mixedCalls := by
  refine System.meets_cons (careful_add fun _ => rfl) rfl ?_
  refine System.meets_cons (careful_add fun _ => rfl) rfl ?_
  refine System.meets_cons (careful_add fun _ => rfl) rfl ?_
  refine System.meets_cons ⟨?_, ?_⟩ rfl ?_
  · intro recordId fields now current updated hcall _ hu
    cases hcall
    right
    have hid : updated.id = .str "c" := congrArg RecordData.id (MemoryRecord.withUpdate_ok hu)
    rw [hid]
    rfl
  · intro current updated hc hu
    have hid : updated.id = .str "c" := congrArg RecordData.id (MemoryRecord.withUpdate_ok hu)
    have howner := congrArg RecordData.ownerId (MemoryRecord.withUpdate_ok hu)
    obtain rfl := Option.some.inj hc
    rw [hid, howner]
    exact ⟨rfl, rfl⟩
  refine System.meets_cons ⟨?_, fun _ _ => rfl⟩ rfl ?_
  · intro _ _ _ _ _ hcall
    exact absurd hcall (by simp)
  refine System.meets_cons ⟨?_, trivial⟩ rfl trivial
  intro _ _ _ _ _ hcall
  exact absurd hcall (by simp)

theorem store_coherent_mixed :
    stats afterMixed = ⟨1, 1, 0⟩ ∧ Coherent afterMixed ∧ stats afterMixed = afterMixed.counts ∧
      ∀ call, Careful afterMixed call → Sound call afterMixed :=
  ⟨rfl, store_coherent mixed_careful rfl⟩

/-! ## A rename onto another record -/

def afterRenaming : MemoryIndex :=
  (serving.exec {} [.add (note "a" "x" rfl rfl), .add (note "b" "y" rfl rfl),
    .update "a" { id := some "b" } 1]).getD {}

/-- Renamed onto the other's id, the record takes its place: one of the two is gone, and its
namespace goes on listing an id that is in the other namespace now. -/
theorem renaming_loses :
    stats afterRenaming = ⟨1, 2, 0⟩ ∧ afterRenaming.counts = ⟨1, 1, 0⟩ ∧
      (afterRenaming.byId.get? "b").map (fun r => r.namespace) = some "x" ∧
      afterRenaming.byNamespace.bucket "y" = {"b"} ∧ ¬ Coherent afterRenaming := by
  have hstored : (afterRenaming.byId.get? "b").map (fun r => r.namespace) = some "x" := rfl
  have hbucket : afterRenaming.byNamespace.bucket "y" = {"b"} := rfl
  refine ⟨rfl, rfl, hstored, hbucket, fun h => ?_⟩
  obtain ⟨r, hr, hy⟩ := (h.namespaces.inverts "y" "b").mp (by rw [hbucket]; simp)
  rw [hr, Option.map_some, Option.some.injEq] at hstored
  rw [List.mem_singleton, hstored] at hy
  exact absurd hy (by decide)

/-! ## A value that does not hash -/

def theOwner : KeyValue := .str "owner"

/-- An owner that does not hash: the record is stored, and in no owner's bucket. A new id that does
not hash: the record is gone. Both calls have raised. -/
theorem unhashable_loses :
    let added : Call KeyValue := .add (noteOf (.str "a") aList "x" rfl rfl rfl)
    let stored := ({} : MemoryIndex KeyValue).add (noteOf (.str "a") theOwner "x" rfl rfl rfl)
    let renamed : Call KeyValue := .update (.str "a") { id := some aList } 1
    (∃ exc, (added.run {}).result = .error exc) ∧ stats (added.run {}).state = ⟨1, 1, 0⟩ ∧
      ¬ Coherent (added.run {}).state ∧
      (∃ exc, (renamed.run stored).result = .error exc) ∧
      stats (renamed.run stored).state = ⟨0, 0, 0⟩ := by
  intro added stored renamed
  refine ⟨⟨_, rfl⟩, rfl, ?_, ⟨_, rfl⟩, rfl⟩
  intro h
  have hstored : (added.run {}).state.byId.get? (.str "a")
      = some (noteOf (.str "a") aList "x" rfl rfl rfl) := rfl
  have hmem := (h.owners.inverts aList (.str "a")).mpr ⟨_, hstored, List.mem_singleton_self _⟩
  exact absurd hmem (by decide)

end MemoryStore

end IraOS
