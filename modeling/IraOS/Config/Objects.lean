import IraOS.Config.Loader
import IraOS.Lib.Objects

/-!
# The configuration loader, on objects

`ConfigLoader` (`core/config/loader.py`) once more, with the dictionaries as the objects they are. A
`DictProvider` answers with the dictionary it was given and not with a copy, so what a load leaves
of the providers' own data is a question of what it writes to.

It writes to what it made (`loadRaw_refines`): the base of a merge is copied, what is put into the
copy is a copy again or the result of another merge, and what is read in the end is the table that
`ConfigLoader.loadRaw` computes.

## Reading a heap

A heap has a dictionary at every address, whose entries are leaves and addresses; `Reads` says what
table hangs from an address (`Lib.Objects`). Two dictionaries may share a third below them, as they
do where a provider puts one dictionary under two keys.

A merge copies its base in full before it writes anything, and a merge of what is under a key copies
that part again. The argument is a line through the addresses: what a merge writes to is behind a
certain address, what it reads of others is before it, and the line is drawn at the moment the merge
begins.

The recursion is by depth, which is a bound given from outside; the refinement holds for every bound
that is no less than the depth of the tables.
-/

set_option autoImplicit false

namespace IraOS

open Lib

namespace ConfigLoader

variable {α : Type}

/-! ## core/config/loader.py -/

namespace OnHeap

def mergedRef (merge : Nat → Nat → Heap String α → Option (Nat × Heap String α)) (n : Nat)
    (current : Option (Ref α)) (value : Ref α) (h : Heap String α) :
    Option (Ref α × Heap String α) :=
  match current, value with
  | some (.dict base), .dict override => (merge base override h).map fun (m, h) => (.dict m, h)
  | _, value => deepcopy n value h

def mergeLoop (merge : Nat → Nat → Heap String α → Option (Nat × Heap String α)) (n : Nat)
    (merged : Nat) : List (String × Ref α) → Heap String α → Option (Heap String α)
  | [], h => some h
  | (key, value) :: rest, h =>
    (mergedRef merge n ((h.get? merged).bind fun d => d.get? key) value h).bind fun (r, h) =>
      mergeLoop merge n merged rest (h.put merged key r)

/-- `_deep_merge`, of the dictionaries at two addresses, at most `n` calls deep. -/
def deepMerge : Nat → Nat → Nat → Heap String α → Option (Nat × Heap String α)
  | 0, _, _, _ => none
  | n + 1, base, override, h =>
    match deepcopy (n + 1) (.dict base) h with
    | some (.dict merged, h) =>
      (h.get? override).bind fun d =>
        (mergeLoop (deepMerge n) n merged d.entries h).map fun h => (merged, h)
    | _ => none

/-- The loop of `load_raw` over what the providers' `load` answers. -/
def loadLoop (n : Nat) : Nat → List Nat → Heap String α → Option (Nat × Heap String α)
  | mergedConfig, [], h => some (mergedConfig, h)
  | mergedConfig, providerData :: rest, h =>
    (deepMerge n mergedConfig providerData h).bind fun (m, h) => loadLoop n m rest h

def loadRaw (n : Nat) (providers : List Nat) (h : Heap String α) :
    Option (Nat × Heap String α) :=
  loadLoop n h.size providers h.alloc

end OnHeap

/-! ## Depth -/

theorem depth_mergeItems {n : Nat} {merged upper : List (String × Nested String α)}
    (hmerged : ∀ e ∈ merged, e.2.depth ≤ n)
    (hupper : ∀ e ∈ upper, ∀ current : Option (Nested String α),
      (∀ v, current = some v → v.depth ≤ n) → (mergedValue current e.2).depth ≤ n) :
    ∀ e ∈ mergeItems merged upper, e.2.depth ≤ n := by
  induction upper generalizing merged with
  | nil => simpa [mergeItems] using hmerged
  | cons e rest ih =>
    obtain ⟨key, value⟩ := e
    rw [mergeItems]
    apply ih _ fun e he => hupper e (List.mem_cons_of_mem _ he)
    intro e he
    rcases Dict.mem_put he with rfl | he
    · apply hupper (key, value) List.mem_cons_self
      intro v hv
      obtain ⟨l₁, l₂, rfl, -⟩ := List.lookup_eq_some_iff.mp hv
      exact hmerged (key, v) (by simp)
    · exact hmerged e he

theorem depth_mergedValue {value : Nested String α} (hvalue : value.Distinct) {n : Nat}
    (h : value.depth ≤ n) {current : Option (Nested String α)}
    (hcurrent : ∀ v, current = some v → v.depth ≤ n) : (mergedValue current value).depth ≤ n := by
  induction hvalue generalizing n current with
  | leaf a =>
    cases current with
    | none => exact h
    | some v => cases v <;> exact h
  | table entries nodup below ih =>
    cases current with
    | none => exact h
    | some v =>
      cases v with
      | leaf a => exact h
      | table base =>
        cases n with
        | zero => exact absurd h (by simp [Nested.depth])
        | succ n =>
          have hentries := Nested.depth_table_le_iff.mp h
          rw [mergedValue, Nested.depth_table_le_iff]
          apply depth_mergeItems (Nested.depth_table_le_iff.mp (hcurrent _ rfl))
          intro e he current hcurrent
          exact ih e he (hentries e he) hcurrent

theorem depth_le_of_lookup {entries : List (String × Nested String α)} {n : Nat} {k : String}
    {v : Nested String α} (h : (Nested.table entries).depth ≤ n + 1)
    (hlookup : entries.lookup k = some v) : v.depth ≤ n := by
  have hlt := Nested.depth_lt_of_lookup hlookup
  omega

theorem depth_put_mergedValue {merged : List (String × Nested String α)} {n : Nat} {k : String}
    {v : Nested String α} (hdistinct : v.Distinct) (hv : v.depth ≤ n)
    (hmerged : (Nested.table merged).depth ≤ n + 1) :
    (Nested.table (Dict.put k (mergedValue (merged.lookup k) v) merged)).depth ≤ n + 1 := by
  rw [Nested.depth_table_le_iff]
  intro e he
  rcases Dict.mem_put he with rfl | he
  · exact depth_mergedValue hdistinct hv fun t ht => depth_le_of_lookup hmerged ht
  · exact Nested.depth_table_le_iff.mp hmerged e he

theorem depth_deepMerge {base override : ConfigTable α} {n : Nat}
    (hbase : (Nested.table base.entries).depth ≤ n)
    (hoverride : (Nested.table override.entries).depth ≤ n) :
    (Nested.table (deepMerge base override).entries).depth ≤ n := by
  have hcurrent : ∀ v, some (Nested.table base.entries) = some v → v.depth ≤ n := by
    intro v hv
    rw [← Option.some.inj hv]
    exact hbase
  exact depth_mergedValue override.distinct hoverride hcurrent

namespace OnHeap

/-! ## What a merge does -/

variable {merge : Nat → Nat → Heap String α → Option (Nat × Heap String α)} {n : Nat}

def Merges (merge : Nat → Nat → Heap String α → Option (Nat × Heap String α)) (n : Nat) : Prop :=
  ∀ {h : Heap String α} {S S' : Nat → Prop} {base override : Nat}
    {baseItems items : List (String × Nested String α)},
    Reads h S (.dict base) (.table baseItems) → Reads h S' (.dict override) (.table items) →
    (Nested.table baseItems).depth ≤ n → (Nested.table items).depth ≤ n →
    ∃ m h', merge base override h = some (m, h') ∧ h.Kept h' ∧
      Reads h' (fun a => h.size ≤ a) (.dict m) (.table (mergeItems baseItems items))

theorem mergedRef_spec (hmerge : Merges merge n) {h : Heap String α} {S S' : Nat → Prop}
    {current : Option (Ref α)} {below : Option (Nested String α)}
    (hnone : below = none → current = none)
    (hsome : ∀ t, below = some t → ∃ r, current = some r ∧ Reads h S r t ∧ t.depth ≤ n)
    {value : Ref α} {v : Nested String α} (hvalue : Reads h S' value v) (hdepth : v.depth ≤ n) :
    ∃ r h', mergedRef merge n current value h = some (r, h') ∧ h.Kept h' ∧
      Reads h' (fun a => h.size ≤ a) r (mergedValue below v) := by
  have hcopy := deepcopy_reads hvalue hdepth
  cases below with
  | none =>
    rw [hnone rfl, mergedValue_none]
    exact hcopy
  | some t =>
    obtain ⟨r, rfl, hread, htdepth⟩ := hsome t rfl
    cases hread with
    | leaf a =>
      rw [mergedValue_leaf]
      exact hcopy
    | @dict base d baseItems inside found keys below =>
      cases hvalue with
      | leaf b => exact hcopy
      -- a table over a table
      | @dict override d' items inside' found' keys' below' =>
        obtain ⟨m, h', hrun, hkept, hreads⟩ := hmerge (.dict inside found keys below)
          (.dict inside' found' keys' below') htdepth hdepth
        refine ⟨.dict m, h', ?_, hkept, hreads⟩
        show (merge base override h).map _ = _
        rw [hrun]
        rfl

/-- **The loop** lays the items over what has been merged, by induction on them. What it writes to
is behind `lo`, and what it reads is before it. -/
theorem mergeLoop_spec (hmerge : Merges merge n) {lo m : Nat} {items : List (String × Ref α)}
    {upper : List (String × Nested String α)} {h : Heap String α}
    (hitems : List.Forall₂ (fun e e' => e.1 = e'.1 ∧ Reads h (fun a => a < lo) e.2 e'.2)
      items upper)
    (hdistinct : ∀ e ∈ upper, e.2.Distinct) (hdepth : ∀ e ∈ upper, e.2.depth ≤ n)
    {merged : List (String × Nested String α)}
    (hmerged : Reads h (fun a => lo ≤ a) (.dict m) (.table merged))
    (hmdepth : (Nested.table merged).depth ≤ n + 1) :
    ∃ h', mergeLoop merge n m items h = some h' ∧ h.size ≤ h'.size ∧
      (∀ a < lo, h'.get? a = h.get? a) ∧
      Reads h' (fun a => lo ≤ a) (.dict m) (.table (mergeItems merged upper)) := by
  induction upper generalizing items h merged with
  | nil =>
    cases hitems
    exact ⟨h, rfl, Nat.le_refl _, fun _ _ => rfl, by simpa [mergeItems] using hmerged⟩
  | cons e' upper ih =>
    obtain ⟨k', v⟩ := e'
    cases hitems with
    | @cons e _ rest _ hhead hrest =>
      obtain ⟨k, value⟩ := e
      obtain ⟨rfl, hvalue⟩ : k = k' ∧ Reads h (fun a => a < lo) value v := hhead
      have hthis := hmerged
      cases hmerged with
      | @dict _ d _ inside found keys below =>
        have hm := Heap.lt_size_of_get? found
        have hvdepth := hdepth (k, v) List.mem_cons_self
        have hsome : ∀ t, merged.lookup k = some t →
            ∃ r, d.get? k = some r ∧ Reads h (fun a => lo ≤ a) r t ∧ t.depth ≤ n := by
          intro t ht
          obtain ⟨r, hr⟩ := Reads.get?_of_lookup keys ht
          exact ⟨r, hr, below k r t hr ht, depth_le_of_lookup hmdepth ht⟩
        obtain ⟨r, h₁, hrun, hkept, hreads⟩ :=
          mergedRef_spec hmerge (Reads.get?_eq_none keys) hsome hvalue hvdepth
        -- what comes of the key is new, so neither the merged dictionary nor the items are in it
        have hput := (hkept.reads hthis).put
          (hreads.mono fun a _ hin => ⟨rfl, by omega, by omega⟩) k
        have hsame : ∀ a < lo, (h₁.put m k r).get? a = h.get? a := by
          intro a ha
          rw [Heap.get?_put_ne (by omega), hkept.get? a (by omega)]
        have hrest' : List.Forall₂ (fun e e' => e.1 = e'.1 ∧
            Reads (h₁.put m k r) (fun a => a < lo) e.2 e'.2) rest upper :=
          hrest.imp fun e e' hboth =>
            ⟨hboth.1, hboth.2.mono fun a _ ha => ⟨hsame a ha, ha⟩⟩
        have hpdepth := depth_put_mergedValue (k := k) (hdistinct (k, v) List.mem_cons_self)
          hvdepth hmdepth
        obtain ⟨h', hloop, hsize, hframe, hread⟩ := ih hrest'
          (fun e he => hdistinct e (List.mem_cons_of_mem _ he))
          (fun e he => hdepth e (List.mem_cons_of_mem _ he)) hput hpdepth
        rw [Heap.size_put] at hsize
        refine ⟨h', ?_, hkept.size.trans hsize, ?_, hread⟩
        · rw [mergeLoop, found, Option.bind_some, hrun, Option.bind_some]
          exact hloop
        · intro a ha
          rw [hframe a ha, hsame a ha]

/-- **A merge lays one table over another**, and writes to nothing that was there. -/
theorem deepMerge_spec (n : Nat) : Merges (deepMerge (α := α) n) n := by
  induction n with
  | zero =>
    intro h S S' base override baseItems items _ _ hdepth
    exact absurd hdepth (by simp [Nested.depth])
  | succ n ih =>
    intro h S S' base override baseItems items hbase hoverride hdepth hdepth'
    obtain ⟨r, h₁, hcopy, hkept, hreads⟩ := deepcopy_reads hbase hdepth
    have hover : Reads h₁ (fun a => a < h.size) (.dict override) (.table items) :=
      hoverride.mono fun a ha _ => ⟨hkept.get? a ha, ha⟩
    obtain ⟨d, hd, hitems⟩ := hover.items
    have hdistinct : ∀ e ∈ items, e.2.Distinct := by
      cases hoverride.distinct with
      | table _ _ below => exact below
    have hread : ∃ m, r = .dict m := by
      cases hreads
      exact ⟨_, rfl⟩
    obtain ⟨m, rfl⟩ := hread
    obtain ⟨h', hloop, hsize, hframe, hmerged⟩ := mergeLoop_spec ih hitems hdistinct
      (Nested.depth_table_le_iff.mp hdepth') hreads hdepth
    refine ⟨m, h', ?_, ⟨hkept.size.trans hsize, ?_⟩, hmerged⟩
    · simp only [deepMerge, hcopy, hd, Option.bind_some, hloop, Option.map_some]
    · intro a ha
      rw [hframe a ha, hkept.get? a ha]

def Answers (h : Heap String α) (providers : List Nat) (tables : List (ConfigTable α)) : Prop :=
  List.Forall₂ (fun addr (t : ConfigTable α) =>
    Reads h (fun _ => True) (.dict addr) (.table t.entries)) providers tables

theorem Answers.kept {h h' : Heap String α} (hkept : h.Kept h') {providers : List Nat}
    {tables : List (ConfigTable α)} (hanswers : Answers h providers tables) :
    Answers h' providers tables :=
  hanswers.imp fun _ _ hreads => hkept.reads hreads

theorem loadLoop_spec {n : Nat} {providers : List Nat} {tables : List (ConfigTable α)}
    (hdepth : ∀ t ∈ tables, (Nested.table t.entries).depth ≤ n) {h : Heap String α}
    (hanswers : Answers h providers tables) {S : Nat → Prop} {merged : Nat} {table : ConfigTable α}
    (hmerged : Reads h S (.dict merged) (.table table.entries))
    (hmdepth : (Nested.table table.entries).depth ≤ n) :
    ∃ m h', loadLoop n merged providers h = some (m, h') ∧ h.Kept h' ∧
      Reads h' (fun _ => True) (.dict m)
        (.table (tables.foldl ConfigLoader.deepMerge table).entries) := by
  induction tables generalizing providers h S merged table with
  | nil =>
    cases hanswers
    exact ⟨merged, h, rfl, .refl h, hmerged.anywhere⟩
  | cons t tables ih =>
    cases hanswers with
    | @cons provider _ rest _ hhead hrest =>
      obtain ⟨m, h₁, hrun, hkept, hreads⟩ :=
        deepMerge_spec n hmerged hhead hmdepth (hdepth t List.mem_cons_self)
      have hmdepth' := depth_deepMerge hmdepth (hdepth t List.mem_cons_self)
      obtain ⟨m', h', hloop, hkept', hread⟩ := ih (fun t ht => hdepth t (List.mem_cons_of_mem _ ht))
        (Answers.kept hkept hrest) hreads hmdepth'
      refine ⟨m', h', ?_, hkept.trans hkept', hread⟩
      simp only [loadLoop, hrun, Option.bind_some]
      exact hloop

/-- **A load computes the merged table**, and no object that was there is written. -/
theorem loadRaw_refines {n : Nat} (hpos : 0 < n) {providers : List Nat}
    {tables : List (ConfigTable α)} (hdepth : ∀ t ∈ tables, (Nested.table t.entries).depth ≤ n)
    {h : Heap String α} (hanswers : Answers h providers tables) :
    ∃ m h', loadRaw n providers h = some (m, h') ∧ h.Kept h' ∧
      Reads h' (fun _ => True) (.dict m) (.table (ConfigLoader.mk tables).loadRaw.entries) := by
  have hempty : Reads h.alloc (fun _ => True) (.dict h.size)
      (.table (ConfigTable.empty : ConfigTable α).entries) := by
    apply Reads.dict trivial (Heap.get?_alloc_self h) rfl
    intro k r v hr
    exact absurd hr (by simp)
  obtain ⟨m, h', hrun, hkept, hreads⟩ :=
    loadLoop_spec hdepth (hanswers.kept (.alloc h)) hempty hpos
  exact ⟨m, h', hrun, (Heap.Kept.alloc h).trans hkept, hreads⟩

end OnHeap

end ConfigLoader

end IraOS
