import IraOS.Memory.SearchSpec

/-!
# What a search depends on

Two stores with the same records, and the sets of candidates in whatever orders they enumerate. The
sort key of a result is not its own alone, and the sort keeps results with one key in the order they
came: so what comes out depends on the order exactly where such a tie begins before the limit
(`search_determined_iff`). A store that has been through a clash of ids may also have other
candidates than its records say.
-/

set_option autoImplicit false

namespace IraOS

open Lib

/-! ## Records under their own ids, along any history -/

namespace MemoryStore

open MemoryIndex

theorem keepsIds_run (call : Call) : KeepsIds call.run := by
  cases call with
  | add record => exact keepsIds_add record
  | update recordId fields now => exact (keepsIds_update recordId fields now).bind fun _ => .pure ()
  | replace record => exact keepsIds_replace record
  | delete recordId => exact keepsIds_delete recordId
  | clear ids => exact keepsIds_clear ids

/-- Whatever the store has been through, clashes included, a record is under its own id. -/
theorem ownIds_history {calls : List Call} {index : MemoryIndex}
    (h : serving.exec {} calls = some index) : index.OwnIds := by
  apply System.exec_invariant (P := OwnIds) _ _ h
  · intro index call index' hown hstep
    rw [step_state hstep]
    exact (keepsIds_run call).state index hown
  · intro id r hget
    exact absurd hget (by simp)

end MemoryStore

namespace SearchEngine

/-! ## Results, candidate by candidate -/

section

variable (py : Characters) (index : MemoryIndex) (query : SearchQuery)

/-- The result a candidate comes to. -/
def hit (id : String) : Option SearchResult :=
  match index.byId.get? id with
  | none => none
  | some record => if isResult py query record then some (scored py query record) else none

/-- The item is a result, of one of the candidates. -/
def IsHit (item : SearchResult) : Prop :=
  ∃ id ∈ candidateIds index query, hit py index query id = some item

/-- How many results sort before the item, whatever the order. -/
def ahead (item : SearchResult) : Nat :=
  ((candidateIds index query).filter fun id =>
    (hit py index query id).any (fun other => decide (sortKey other < sortKey item)) = true).card

/-- **Where a search depends on the records alone**: whatever could come out otherwise is behind the
limit. These are the results that tie with others, and the candidates that only one of the two
stores has. -/
structure Determined (index' : MemoryIndex) : Prop where
  /-- Results that tie do so behind the limit. -/
  ties : ∀ a b, IsHit py index query a → IsHit py index query b → a ≠ b → sortKey a = sortKey b →
    query.limit.toNat ≤ ahead py index query a
  /-- What comes of a candidate of one of the stores only is behind the limit … -/
  strays : ∀ id ∈ candidateIds index query, id ∉ candidateIds index' query →
    ∀ a, hit py index query id = some a → query.limit.toNat ≤ ahead py index query a
  /-- … whichever of them it is. -/
  strays' : ∀ id ∈ candidateIds index' query, id ∉ candidateIds index query →
    ∀ a, hit py index' query id = some a → query.limit.toNat ≤ ahead py index' query a

end

section

variable {py : Characters} {index : MemoryIndex} {query : SearchQuery} {order : List String}

theorem results_eq_hits : results py index order query = order.filterMap (hit py index query) := rfl

theorem hit_id (h : index.OwnIds) {id : String} {item : SearchResult}
    (hhit : hit py index query id = some item) : item.record.id = id := by
  unfold hit at hhit
  split at hhit
  · cases hhit
  · next record hget =>
    split at hhit
    · obtain rfl := Option.some.inj hhit
      exact h id record hget
    · cases hhit

theorem mem_results (horder : Enumerates order (candidateIds index query)) {item : SearchResult} :
    item ∈ results py index order query ↔ IsHit py index query item := by
  rw [results_eq_hits, List.mem_filterMap]
  unfold IsHit
  simp only [horder.mem]

theorem results_nodup (h : index.OwnIds) (horder : order.Nodup) :
    (results py index order query).Nodup := by
  rw [results_eq_hits]
  apply List.Nodup.filterMap _ horder
  intro id id' item hitem hitem'
  rw [← hit_id h hitem, ← hit_id h hitem']

theorem before_results (horder : Enumerates order (candidateIds index query))
    (item : SearchResult) :
    before sortKey (results py index order query) item = ahead py index query item := by
  have hset : candidateIds index query = order.toFinset := by
    ext id
    rw [List.mem_toFinset, horder.mem]
  unfold ahead before
  rw [hset, results_eq_hits, List.countP_filterMap, List.countP_eq_length_filter,
    ← List.toFinset_card_of_nodup (horder.nodup.filter _), List.toFinset_filter]
  congr 1
  apply Finset.filter_congr
  intro id _
  cases hit py index query id with
  | none => simp
  | some other => simp

/-- The candidates that come to something are the ids of the results. -/
theorem results_ids (h : index.OwnIds) : (results py index order query).map (·.record.id) =
    order.filter fun id => (hit py index query id).isSome := by
  rw [results_eq_hits, List.map_filterMap, ← List.filterMap_eq_filter]
  apply List.filterMap_congr
  intro id _
  cases hhit : hit py index query id with
  | none => simp [Option.guard, hhit]
  | some item => simp [Option.guard, hhit, hit_id h hhit]

theorem results_perm (h : index.OwnIds) {order' : List String}
    (horder : Enumerates order (candidateIds index query))
    (horder' : Enumerates order' (candidateIds index query)) :
    (results py index order query).Perm (results py index order' query) := by
  apply (List.perm_ext_iff_of_nodup (results_nodup h horder.nodup)
    (results_nodup h horder'.nodup)).mpr
  intro item
  rw [mem_results horder, mem_results horder']

/-- Results come in every order there is, for some order of the candidates. -/
theorem exists_order (h : index.OwnIds) (horder : Enumerates order (candidateIds index query))
    {items : List SearchResult} (hitems : items.Perm (results py index order query)) :
    ∃ order', Enumerates order' (candidateIds index query) ∧
      results py index order' query = items := by
  have hperm : (items.map (·.record.id) ++
      order.filter fun id => !(hit py index query id).isSome).Perm order := by
    have hsome := hitems.map (·.record.id)
    rw [results_ids h] at hsome
    exact (hsome.append_right _).trans (List.filter_append_perm ..)
  refine ⟨_, ⟨hperm.nodup_iff.mpr horder.nodup, fun id => hperm.mem_iff.trans (horder.mem id)⟩, ?_⟩
  have hrest : (order.filter fun id => !(hit py index query id).isSome).filterMap
      (hit py index query) = [] := by
    rw [List.filterMap_eq_nil_iff]
    intro id hid
    simpa using (List.mem_filter.mp hid).2
  have hback : (items.map (·.record.id)).filterMap (hit py index query) = items.map id := by
    rw [List.filterMap_map, ← List.filterMap_eq_map]
    apply List.filterMap_congr
    intro item hitem
    obtain ⟨id, -, hhit⟩ := (mem_results horder).mp (hitems.mem_iff.mp hitem)
    simp [hit_id h hhit, hhit]
  rw [results_eq_hits, List.filterMap_append, hrest, hback, List.append_nil, List.map_id]

end

/-! ## Two stores -/

section

variable (py : Characters) {index index' : MemoryIndex} (query : SearchQuery)

theorem hit_congr (hsame : ∀ id, index.byId.get? id = index'.byId.get? id) (id : String) :
    hit py index query id = hit py index' query id := by
  unfold hit
  rw [hsame id]

/-- With the same records, a result of one store only comes of a candidate of that store only. -/
theorem strays_iff (hown : index.OwnIds) (hown' : index'.OwnIds)
    (hsame : ∀ id, index.byId.get? id = index'.byId.get? id) {p : SearchResult → Prop} :
    (∀ a, IsHit py index query a → ¬ IsHit py index' query a → p a) ↔
      ∀ id ∈ candidateIds index query, id ∉ candidateIds index' query →
        ∀ a, hit py index query id = some a → p a := by
  constructor
  · intro hstray id hid hnot a hhit
    apply hstray a ⟨id, hid, hhit⟩
    rintro ⟨id', hid', hhit'⟩
    obtain rfl : id = id' := (hit_id hown hhit).symm.trans (hit_id hown' hhit')
    exact hnot hid'
  · rintro hstray a ⟨id, hid, hhit⟩ hnot
    apply hstray id hid _ a hhit
    intro hid'
    exact hnot ⟨id, hid', (hit_congr py query hsame id).symm.trans hhit⟩

/-- Some order enumerates the candidates. -/
theorem enumerates_toList (ids : Finset String) : Enumerates ids.toList ids :=
  ⟨ids.nodup_toList, fun _ => Finset.mem_toList⟩

theorem forall_orders_iff (hown : index.OwnIds) (hown' : index'.OwnIds)
    {order₀ order₀' : List String}
    (horder₀ : Enumerates order₀ (candidateIds index query))
    (horder₀' : Enumerates order₀' (candidateIds index' query)) :
    (∀ order order', Enumerates order (candidateIds index query) →
        Enumerates order' (candidateIds index' query) →
        search py index order query = search py index' order' query) ↔
      ∀ xs ys : List SearchResult, xs.Perm (results py index order₀ query) →
        ys.Perm (results py index' order₀' query) →
        (sortBy sortKey xs).take query.limit.toNat =
          (sortBy sortKey ys).take query.limit.toNat := by
  simp only [search_eq, Except.ok.injEq]
  constructor
  · intro hsearch xs ys hxs hys
    obtain ⟨order, horder, rfl⟩ := exists_order hown horder₀ hxs
    obtain ⟨order', horder', rfl⟩ := exists_order hown' horder₀' hys
    exact hsearch order order' horder horder'
  · intro hresults order order' horder horder'
    exact hresults _ _ (results_perm hown horder horder₀) (results_perm hown' horder' horder₀')

/-- **A search depends on the records alone just if it is determined by them**, over two stores with
the same records, whatever they have been through. The candidates come out of a set, so two stores
with the same records may give them in different orders, and so may one store at two times. -/
theorem search_determined_iff {calls calls' : List MemoryStore.Call}
    (hcalls : MemoryStore.serving.exec {} calls = some index)
    (hcalls' : MemoryStore.serving.exec {} calls' = some index')
    (hsame : ∀ id, index.byId.get? id = index'.byId.get? id) :
    (∀ order order', Enumerates order (candidateIds index query) →
        Enumerates order' (candidateIds index' query) →
        search py index order query = search py index' order' query) ↔
      Determined py index query index' := by
  have hown := MemoryStore.ownIds_history hcalls
  have hown' := MemoryStore.ownIds_history hcalls'
  have horder := enumerates_toList (candidateIds index query)
  have horder' := enumerates_toList (candidateIds index' query)
  rw [forall_orders_iff py query hown hown' horder horder',
    take_sortBy_iff (results_nodup hown horder.nodup) (results_nodup hown' horder'.nodup)]
  simp only [mem_results horder, mem_results horder', before_results horder, before_results horder']
  rw [strays_iff py query hown hown' hsame,
    strays_iff py query hown' hown fun id => (hsame id).symm]
  constructor
  · rintro ⟨hties, hstrays, hstrays'⟩
    exact ⟨fun a b ha hb => hties a ha b hb, hstrays, hstrays'⟩
  · rintro ⟨hties, hstrays, hstrays'⟩
    exact ⟨fun a ha b hb => hties a b ha hb, hstrays, hstrays'⟩

theorem determined_of_coherent (h : index.Coherent) (h' : index'.Coherent)
    (hsame : ∀ id, index.byId.get? id = index'.byId.get? id)
    (hties : ∀ a b, IsHit py index query a → IsHit py index query b → a ≠ b →
      sortKey a = sortKey b → query.limit.toNat ≤ ahead py index query a) :
    Determined py index query index' := by
  have hcandidates : ∀ id, id ∈ candidateIds index query ↔ id ∈ candidateIds index' query := by
    intro id
    rw [mem_candidateIds h, mem_candidateIds h', hsame id]
  refine ⟨hties, ?_, ?_⟩
  · intro id hid hnot
    exact absurd ((hcandidates id).mp hid) hnot
  · intro id hid hnot
    exact absurd ((hcandidates id).mpr hid) hnot

end

/-! ## Two records updated at one moment -/

section

open MemoryStore

def everything : SearchQuery where
  valid := ten_pos

theorem b_nonempty : "b".isEmpty = false := rfl

def one : MemoryRecord := note "a" "default" a_nonempty default_nonempty

def other : MemoryRecord := note "b" "default" b_nonempty default_nonempty

def both (r r' : MemoryRecord) : MemoryIndex := (({} : MemoryIndex).add r).add r'

theorem both_same (id : String) :
    (both one other).byId.get? id = (both other one).byId.get? id := by
  unfold both
  simp only [MemoryIndex.add_get?]
  by_cases ha : id = "a"
  · subst ha
    rfl
  · by_cases hb : id = "b"
    · subst hb
      rfl
    · simp [one, other, note, noteOf, ha, hb]

theorem search_determined_both :
    (∀ order order', Enumerates order (candidateIds (both one other) everything) →
        Enumerates order' (candidateIds (both other one) everything) →
        search letters (both one other) order everything =
          search letters (both other one) order' everything) ↔
      Determined letters (both one other) everything (both other one) := by
  have hcalls : serving.exec {} [.add one, .add other] = some (both one other) := rfl
  have hcalls' : serving.exec {} [.add other, .add one] = some (both other one) := rfl
  exact search_determined_iff letters everything hcalls hcalls' both_same

theorem search_both :
    search letters (both one other) ["a", "b"] everything =
        .ok [scored letters everything one, scored letters everything other] ∧
      search letters (both other one) ["b", "a"] everything =
        .ok [scored letters everything other, scored letters everything one] := by
  constructor
  · rw [search_eq]
    show Except.ok ((sortBy sortKey [scored letters everything one,
      scored letters everything other]).take 10) = _
    rw [sortBy, List.mergeSort_of_pairwise (by decide)]
    rfl
  · rw [search_eq]
    show Except.ok ((sortBy sortKey [scored letters everything other,
      scored letters everything one]).take 10) = _
    rw [sortBy, List.mergeSort_of_pairwise (by decide)]
    rfl

theorem search_depends_on_order :
    serving.exec {} [.add one, .add other] = some (both one other) ∧
      serving.exec {} [.add other, .add one] = some (both other one) ∧
      (∀ id, (both one other).byId.get? id = (both other one).byId.get? id) ∧
      ¬ ∀ order order', Enumerates order (candidateIds (both one other) everything) →
          Enumerates order' (candidateIds (both other one) everything) →
          search letters (both one other) order everything =
            search letters (both other one) order' everything := by
  refine ⟨rfl, rfl, both_same, ?_⟩
  intro hsearch
  have hcandidates : candidateIds (both one other) everything = {"a", "b"} := by decide
  have hcandidates' : candidateIds (both other one) everything = {"b", "a"} := by decide
  have heq := hsearch ["a", "b"] ["b", "a"] ⟨by decide, fun id => by simp [hcandidates]⟩
    ⟨by decide, fun id => by simp [hcandidates']⟩
  rw [search_both.1, search_both.2, Except.ok.injEq, List.cons.injEq] at heq
  exact absurd (congrArg (fun item => item.record.id) heq.1) (by decide)

end

end SearchEngine

end IraOS
