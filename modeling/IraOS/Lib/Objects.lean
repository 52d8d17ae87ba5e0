import IraOS.Lib.Tables
import Mathlib.Data.List.Infix

/-!
# Dictionaries as objects, and deep copies of them

What a variable holds is a value or a reference to a dictionary, and a dictionary is on the heap:
whoever has the reference sees what is written to it. `Reads` is what hangs from a reference, as a
nested table, and it names the addresses it may pass on the way, so that a write elsewhere is known
not to be seen.

## Tables by value, and tables by reference

A program that merges dictionaries and hands them on is easily modelled by nested tables, and the
model then says by itself that no dictionary but the one written to is changed. Whether that is so
is a property of the program and has to be proved: this module is for proving it. A heap has the
dictionaries at addresses, a write goes to an address, and `Reads h S r t` ties a reference to the
table it stands for. The set `S` of addresses is the footprint: a write outside of it leaves what is
read as it was (`Reads.mono`), and a reference whose footprint is new memory shares nothing with
what was there before.

## Deep copies

A deep copy keeps a memo of what it has copied, and of what it has begun to: an object that hangs in
two places is copied once. What comes out reads the same and is all new (`deepcopy_reads`). The copy
of a dictionary is put in the memo before it is filled, so in the middle of a pass there are copies
that are begun and not finished; `Going` keeps the two apart, and nothing that has only begun is
ever read, since what is copied is a table and no table is inside itself (`Reads.avoid`).

The depth of the recursion is bounded by a number, and a number as large as the depth of the table
is enough.
-/

set_option autoImplicit false

namespace Lib

variable {κ α : Type}

/-! ## Depth -/

namespace Nested

mutual

def depth : Nested κ α → Nat
  | .leaf _ => 0
  | .table entries => depths entries + 1

def depths : List (κ × Nested κ α) → Nat
  | [] => 0
  | (_, v) :: rest => max v.depth (depths rest)

end

theorem depths_le_iff {entries : List (κ × Nested κ α)} {n : Nat} :
    depths entries ≤ n ↔ ∀ e ∈ entries, e.2.depth ≤ n := by
  induction entries with
  | nil => simp [depths]
  | cons e rest ih => rw [depths, Nat.max_le, ih, List.forall_mem_cons]

theorem depth_table_le_iff {entries : List (κ × Nested κ α)} {n : Nat} :
    (table entries).depth ≤ n + 1 ↔ ∀ e ∈ entries, e.2.depth ≤ n := by
  rw [depth, Nat.add_le_add_iff_right, depths_le_iff]

theorem depth_lt_of_lookup [DecidableEq κ] {entries : List (κ × Nested κ α)} {k : κ}
    {v : Nested κ α} (h : entries.lookup k = some v) : v.depth < (table entries).depth := by
  obtain ⟨l₁, l₂, rfl, -⟩ := List.lookup_eq_some_iff.mp h
  have hle := depth_table_le_iff.mp (Nat.le_refl (depths (l₁ ++ (k, v) :: l₂) + 1)) (k, v) (by simp)
  exact Nat.lt_succ_of_le hle

end Nested

/-! ## Entries under the same keys -/

namespace Dict

variable [DecidableEq κ]

theorem map_fst_put {ν : Type} (k : κ) (v : ν) (l : List (κ × ν)) : (put k v l).map Prod.fst =
    if k ∈ l.map Prod.fst then l.map Prod.fst else l.map Prod.fst ++ [k] := by
  induction l with
  | nil => simp [put]
  | cons e rest ih =>
    by_cases he : e.1 = k
    · simp [put, he]
    · have hne : k ≠ e.1 := fun heq => he heq.symm
      simp only [put, if_neg he, List.map_cons, ih, List.mem_cons, hne, false_or]
      split <;> simp

theorem mem_put {ν : Type} {k : κ} {v : ν} {l : List (κ × ν)} {e : κ × ν} (h : e ∈ put k v l) :
    e = (k, v) ∨ e ∈ l := by
  induction l with
  | nil => exact Or.inl (List.mem_singleton.mp h)
  | cons e' rest ih =>
    unfold put at h
    split at h
    · rcases List.mem_cons.mp h with rfl | hrest
      · exact Or.inl rfl
      · exact Or.inr (List.mem_cons_of_mem _ hrest)
    · rcases List.mem_cons.mp h with rfl | hput
      · exact Or.inr List.mem_cons_self
      · exact (ih hput).imp_right (List.mem_cons_of_mem _)

theorem forall₂_of_lookup {ρ ν : Type} {R : ρ → ν → Prop} {l : List (κ × ρ)} {m : List (κ × ν)}
    (hkeys : l.map Prod.fst = m.map Prod.fst) (hnodup : (l.map Prod.fst).Nodup)
    (hlookup : ∀ k r v, l.lookup k = some r → m.lookup k = some v → R r v) :
    List.Forall₂ (fun e e' => e.1 = e'.1 ∧ R e.2 e'.2) l m := by
  induction l generalizing m with
  | nil =>
    rw [List.map_nil, eq_comm, List.map_eq_nil_iff] at hkeys
    subst hkeys
    exact .nil
  | cons e rest ih =>
    cases m with
    | nil => simp at hkeys
    | cons e' rest' =>
      obtain ⟨k, r⟩ := e
      obtain ⟨k', v⟩ := e'
      rw [List.map_cons, List.map_cons, List.cons.injEq] at hkeys
      rw [List.map_cons, List.nodup_cons] at hnodup
      obtain rfl : k = k' := hkeys.1
      refine .cons ⟨rfl, hlookup k r v (by simp) (by simp)⟩ (ih hkeys.2 hnodup.2 ?_)
      intro j r' v' hr hv
      have hne : j ≠ k := by
        rintro rfl
        obtain ⟨l₁, l₂, hrest, -⟩ := List.lookup_eq_some_iff.mp hr
        exact hnodup.1 (by simp [hrest])
      apply hlookup j r' v'
      · rw [lookup_cons_ite, if_neg hne, hr]
      · rw [lookup_cons_ite, if_neg hne, hv]

end Dict

/-! ## The heap -/

/-- What a variable holds: a value that cannot be written to, or a reference to a dictionary. -/
inductive Ref (α : Type) where
  | leaf (a : α)
  | dict (addr : Nat)

/-- The dictionaries there are, each at its address. Addresses are handed out in order and stay. -/
structure Heap (κ α : Type) where
  cells : List (Dict κ (Ref α)) := []

namespace Heap

variable [DecidableEq κ]

def size (h : Heap κ α) : Nat := h.cells.length

def get? (h : Heap κ α) (addr : Nat) : Option (Dict κ (Ref α)) := h.cells[addr]?

def alloc (h : Heap κ α) : Heap κ α := ⟨h.cells ++ [Dict.empty]⟩

def put (h : Heap κ α) (addr : Nat) (k : κ) (r : Ref α) : Heap κ α :=
  ⟨h.cells.modify addr fun d => d.set k r⟩

omit [DecidableEq κ] in
theorem lt_size_of_get? {h : Heap κ α} {addr : Nat} {d : Dict κ (Ref α)}
    (hget : h.get? addr = some d) : addr < h.size :=
  (List.getElem?_eq_some_iff.mp hget).choose

omit [DecidableEq κ] in
@[simp] theorem size_alloc (h : Heap κ α) : h.alloc.size = h.size + 1 := by simp [alloc, size]

omit [DecidableEq κ] in
@[simp] theorem get?_alloc_self (h : Heap κ α) : h.alloc.get? h.size = some Dict.empty := by
  simp [alloc, get?, size]

omit [DecidableEq κ] in
theorem get?_alloc {h : Heap κ α} {addr : Nat} (hlt : addr < h.size) :
    h.alloc.get? addr = h.get? addr :=
  List.getElem?_append_left hlt

@[simp] theorem size_put (h : Heap κ α) (addr : Nat) (k : κ) (r : Ref α) :
    (h.put addr k r).size = h.size := by simp [put, size]

theorem get?_put_self {h : Heap κ α} {addr : Nat} {d : Dict κ (Ref α)}
    (hget : h.get? addr = some d) (k : κ) (r : Ref α) :
    (h.put addr k r).get? addr = some (d.set k r) := by
  unfold get? at hget
  simp [put, get?, hget]

theorem get?_put_ne {h : Heap κ α} {addr addr' : Nat} (hne : addr' ≠ addr) (k : κ) (r : Ref α) :
    (h.put addr k r).get? addr' = h.get? addr' := by
  simp [put, get?, Ne.symm hne]

end Heap

/-! ## Reading -/

section

variable [DecidableEq κ]

/-- From the reference hangs the nested table `t`, and all the dictionaries that are passed on the
way are at addresses in `S`. -/
inductive Reads (h : Heap κ α) (S : Nat → Prop) : Ref α → Nested κ α → Prop
  | leaf (a : α) : Reads h S (.leaf a) (.leaf a)
  | dict {addr : Nat} {d : Dict κ (Ref α)} {entries : List (κ × Nested κ α)} (inside : S addr)
      (found : h.get? addr = some d) (keys : d.keys = entries.map Prod.fst)
      (below : ∀ k r v, d.get? k = some r → entries.lookup k = some v → Reads h S r v) :
      Reads h S (.dict addr) (.table entries)

namespace Reads

variable {h h' : Heap κ α} {S S' : Nat → Prop} {r : Ref α} {t t' : Nested κ α}

/-- What is read is what it was, in a larger footprint too, as long as the dictionaries it passes
are as they were. -/
theorem mono (hreads : Reads h S r t)
    (hkept : ∀ a, a < h.size → S a → h'.get? a = h.get? a ∧ S' a) : Reads h' S' r t := by
  induction hreads with
  | leaf a => exact .leaf a
  | dict inside found keys below ih =>
    obtain ⟨hget, hin⟩ := hkept _ (Heap.lt_size_of_get? found) inside
    exact .dict hin (hget.trans found) keys ih

theorem anywhere (hreads : Reads h S r t) : Reads h (fun _ => True) r t :=
  hreads.mono fun _ _ _ => ⟨rfl, trivial⟩

theorem lookup_of_get? {d : Dict κ (Ref α)} {entries : List (κ × Nested κ α)}
    (keys : d.keys = entries.map Prod.fst) {k : κ} {r : Ref α} (hget : d.get? k = some r) :
    ∃ v, entries.lookup k = some v := by
  have hmem : k ∈ d.keys := Dict.mem_keys_iff.mpr ⟨r, hget⟩
  have hnodup : (entries.map Prod.fst).Nodup := keys ▸ d.keys_nodup
  rw [keys] at hmem
  exact Dict.mem_keys_iff.mp (show k ∈ (Dict.mk entries hnodup).keys from hmem)

theorem get?_eq_none {d : Dict κ (Ref α)} {entries : List (κ × Nested κ α)}
    (keys : d.keys = entries.map Prod.fst) {k : κ} (hlookup : entries.lookup k = none) :
    d.get? k = none := by
  cases hget : d.get? k with
  | none => rfl
  | some r =>
    obtain ⟨v, hv⟩ := lookup_of_get? keys hget
    rw [hlookup] at hv
    cases hv

theorem get?_of_lookup {d : Dict κ (Ref α)} {entries : List (κ × Nested κ α)}
    (keys : d.keys = entries.map Prod.fst) {k : κ} {v : Nested κ α}
    (hlookup : entries.lookup k = some v) : ∃ r, d.get? k = some r := by
  have hnodup : (entries.map Prod.fst).Nodup := keys ▸ d.keys_nodup
  have hmem : k ∈ (Dict.mk entries hnodup).keys := Dict.mem_keys_iff.mpr ⟨v, hlookup⟩
  apply Dict.mem_keys_iff.mp
  rw [keys]
  exact hmem

theorem distinct (hreads : Reads h S r t) : t.Distinct := by
  induction hreads with
  | leaf a => exact .leaf a
  | @dict addr d entries inside found keys below ih =>
    apply Nested.Distinct.of_forall_lookup (keys ▸ d.keys_nodup)
    intro k v hv
    obtain ⟨r, hr⟩ := get?_of_lookup keys hv
    exact ih k r v hr hv

theorem unique (hreads : Reads h S r t) (hreads' : Reads h S' r t') : t = t' := by
  induction hreads generalizing t' with
  | leaf a =>
    cases hreads' with
    | leaf => rfl
  | @dict addr d entries inside found keys below ih =>
    cases hreads' with
    | @dict _ d' entries' _ found' keys' below' =>
      obtain rfl : d = d' := Option.some.inj (found.symm.trans found')
      have hsame : List.Forall₂ (fun e e' => e.1 = e'.1 ∧ e.2 = e'.2) entries entries' := by
        apply Dict.forall₂_of_lookup (keys.symm.trans keys') (keys ▸ d.keys_nodup)
        intro k v v' hv hv'
        obtain ⟨r, hr⟩ := get?_of_lookup keys hv
        exact ih k r v hr hv (below' k r v' hr hv')
      have heq : List.Forall₂ Eq entries entries' :=
        hsame.imp fun e e' hboth => Prod.ext hboth.1 hboth.2
      rw [List.forall₂_eq_eq_eq] at heq
      rw [heq]

/-- Nothing hangs from itself: what is no deeper than what hangs from an address does not pass it,
unless it is that. -/
theorem avoid (hreads : Reads h S r t) {addr : Nat} {t₀ : Nested κ α}
    (hreads₀ : Reads h S' (.dict addr) t₀) (hdepth : t.depth < t₀.depth) :
    Reads h (fun a => S a ∧ a ≠ addr) r t := by
  induction hreads with
  | leaf a => exact .leaf a
  | @dict addr' d entries inside found keys below ih =>
    have hne : addr' ≠ addr := by
      rintro rfl
      have heq := (Reads.dict inside found keys below).unique hreads₀
      rw [heq] at hdepth
      exact Nat.lt_irrefl _ hdepth
    apply Reads.dict ⟨inside, hne⟩ found keys
    intro k r v hr hv
    exact ih k r v hr hv ((Nested.depth_lt_of_lookup hv).trans hdepth)

theorem single {addr : Nat} {k : κ} {hnodup : ([(k, r)].map Prod.fst).Nodup} (inside : S addr)
    (found : h.get? addr = some ⟨[(k, r)], hnodup⟩) (hreads : Reads h S r t) :
    Reads h S (.dict addr) (.table [(k, t)]) := by
  apply Reads.dict inside found rfl
  intro j r' t' hr ht
  rw [Dict.get?, Dict.lookup_cons_ite] at hr
  rw [Dict.lookup_cons_ite] at ht
  split at hr
  · next heq =>
    rw [if_pos heq] at ht
    rw [← Option.some.inj hr, ← Option.some.inj ht]
    exact hreads
  · cases hr

theorem items {addr : Nat} {entries : List (κ × Nested κ α)}
    (hreads : Reads h S (.dict addr) (.table entries)) :
    ∃ d, h.get? addr = some d ∧
      List.Forall₂ (fun e e' => e.1 = e'.1 ∧ Reads h S e.2 e'.2) d.entries entries := by
  cases hreads with
  | @dict _ d _ inside found keys below =>
    exact ⟨d, found, Dict.forall₂_of_lookup keys d.nodup below⟩

theorem put {addr : Nat} {entries : List (κ × Nested κ α)}
    (hreads : Reads h S (.dict addr) (.table entries)) {r : Ref α} {v : Nested κ α}
    (hr : Reads h (fun a => S a ∧ a ≠ addr) r v) (k : κ) :
    Reads (h.put addr k r) S (.dict addr) (.table (Dict.put k v entries)) := by
  have hthis := hreads
  cases hreads with
  | @dict _ d _ inside found keys below =>
    have helsewhere : ∀ {w : Ref α} {u : Nested κ α}, Reads h (fun a => S a ∧ a ≠ addr) w u →
        Reads (h.put addr k r) S w u :=
      fun hw => hw.mono fun a _ hin => ⟨Heap.get?_put_ne hin.2 k r, hin.1⟩
    apply Reads.dict inside (Heap.get?_put_self found k r)
    · have hput : (d.set k r).keys = (Dict.put k r d.entries).map Prod.fst := rfl
      have hkeys : d.entries.map Prod.fst = entries.map Prod.fst := keys
      rw [hput, Dict.map_fst_put, Dict.map_fst_put, hkeys]
    · intro j w u hw hu
      rw [Dict.get?_set] at hw
      rw [Dict.lookup_put] at hu
      split at hw
      · next heq =>
        rw [if_pos heq] at hu
        rw [← Option.some.inj hw, ← Option.some.inj hu]
        exact helsewhere hr
      · next hne =>
        rw [if_neg hne] at hu
        exact helsewhere ((below j w u hw hu).avoid hthis (Nested.depth_lt_of_lookup hu))

end Reads

/-! ## Deep copies -/

/-- A pass of copying: the heap, and the memo of the addresses copied and what they were copied
to. -/
structure Copying (κ α : Type) where
  heap : Heap κ α
  memo : List (Nat × Nat) := []

/-- The items of a dictionary copied into the one at `y`. -/
def copyItems (copy : Ref α → Copying κ α → Option (Ref α × Copying κ α)) (y : Nat) :
    List (κ × Ref α) → Copying κ α → Option (Copying κ α)
  | [], s => some s
  | (k, r) :: rest, s =>
    (copy r s).bind fun (r', s) => copyItems copy y rest { s with heap := s.heap.put y k r' }

/-- `copy.deepcopy(x, memo)`, at most `n` dictionaries deep. The copy of a dictionary is in the memo
before it is filled. -/
def copy : Nat → Ref α → Copying κ α → Option (Ref α × Copying κ α)
  | _, .leaf a, s => some (.leaf a, s)
  | 0, .dict _, _ => none
  | n + 1, .dict addr, s =>
    match s.memo.lookup addr with
    | some y => some (.dict y, s)
    | none =>
      (s.heap.get? addr).bind fun d =>
        (copyItems (copy n) s.heap.size d.entries
          ⟨s.heap.alloc, (addr, s.heap.size) :: s.memo⟩).map fun s' => (.dict s.heap.size, s')

def deepcopy (n : Nat) (r : Ref α) (h : Heap κ α) : Option (Ref α × Heap κ α) :=
  (copy n r ⟨h, []⟩).map fun (r', s) => (r', s.heap)

structure Heap.Kept (h h' : Heap κ α) : Prop where
  size : h.size ≤ h'.size
  get? : ∀ a < h.size, h'.get? a = h.get? a

namespace Heap.Kept

omit [DecidableEq κ] in
theorem refl (h : Heap κ α) : h.Kept h := ⟨Nat.le_refl _, fun _ _ => rfl⟩

omit [DecidableEq κ] in
theorem trans {h h' h'' : Heap κ α} (hk : h.Kept h') (hk' : h'.Kept h'') : h.Kept h'' where
  size := hk.size.trans hk'.size
  get? a ha := (hk'.get? a (Nat.lt_of_lt_of_le ha hk.size)).trans (hk.get? a ha)

omit [DecidableEq κ] in
theorem alloc (h : Heap κ α) : h.Kept h.alloc :=
  ⟨by simp, fun _ ha => Heap.get?_alloc ha⟩

theorem reads {h h' : Heap κ α} (hk : h.Kept h') {S : Nat → Prop} {r : Ref α} {t : Nested κ α}
    (hreads : Reads h S r t) : Reads h' S r t :=
  hreads.mono fun a ha hin => ⟨hk.get? a ha, hin⟩

end Heap.Kept

/-! ### What a pass keeps -/

def Finished (h₀ : Heap κ α) (begun : List (Nat × Nat)) (a : Nat) : Prop :=
  h₀.size ≤ a ∧ ∀ e ∈ begun, e.2 ≠ a

/-- A pass of copying that started from `h₀`, with some copies begun: every other entry of its memo
is finished, and what was there at the start is as it was. -/
structure Going (h₀ : Heap κ α) (begun : List (Nat × Nat)) (s : Copying κ α) : Prop where
  kept : h₀.Kept s.heap
  new : ∀ e ∈ begun, h₀.size ≤ e.2 ∧ e.2 < s.heap.size
  memo : ∀ x y, s.memo.lookup x = some y → (x, y) ∈ begun ∨
    ∃ t, Reads h₀ (fun _ => True) (.dict x) t ∧ Reads s.heap (Finished h₀ begun) (.dict y) t

structure Copied (h₀ : Heap κ α) (begun : List (Nat × Nat)) (s s' : Copying κ α) (r' : Ref α)
    (t : Nested κ α) : Prop where
  going : Going h₀ begun s'
  kept : s.heap.Kept s'.heap
  reads : Reads s'.heap (Finished h₀ begun) r' t

theorem Going.mono {h₀ : Heap κ α} {begun : List (Nat × Nat)} {s : Copying κ α}
    (hgoing : Going h₀ begun s) {h : Heap κ α} (hsize : s.heap.size = h.size)
    (hkept : ∀ a, a < s.heap.size → (∀ e ∈ begun, e.2 ≠ a) → h.get? a = s.heap.get? a) :
    Going h₀ begun { s with heap := h } where
  kept := by
    refine ⟨hsize ▸ hgoing.kept.size, fun a ha => ?_⟩
    rw [hkept a (Nat.lt_of_lt_of_le ha hgoing.kept.size), hgoing.kept.get? a ha]
    intro e he heq
    have hnew := (hgoing.new e he).1
    omega
  new e he := hsize ▸ hgoing.new e he
  memo x y hxy := by
    rcases hgoing.memo x y hxy with hbegun | ⟨t, hx, hy⟩
    · exact Or.inl hbegun
    · exact Or.inr ⟨t, hx, hy.mono fun a ha hin => ⟨hkept a ha hin.2, hin⟩⟩

theorem keys_set_of_absent {ν : Type} {d : Dict κ ν} {k : κ} (h : d.get? k = none) (v : ν) :
    (d.set k v).keys = d.keys ++ [k] := by
  show (Dict.put k v d.entries).map Prod.fst = _
  rw [Dict.put_of_absent h, List.map_append]
  rfl

/-- **The loop**: where each item is copied, the dictionary that is filled gets them all, and
nothing else that was there is written. -/
theorem copyItems_spec {h₀ : Heap κ α} {begun : List (Nat × Nat)} {x y : Nat}
    (hy : (x, y) ∈ begun) {entries : List (κ × Nested κ α)}
    {f : Ref α → Copying κ α → Option (Ref α × Copying κ α)} {items : List (κ × Ref α)}
    (hitems : ∀ e ∈ items, ∃ v, entries.lookup e.1 = some v ∧ ∀ s, Going h₀ begun s →
      ∃ r' s', f e.2 s = some (r', s') ∧ Copied h₀ begun s s' r' v)
    {s : Copying κ α} (hgoing : Going h₀ begun s) {d : Dict κ (Ref α)}
    (hd : s.heap.get? y = some d) (hnodup : (d.keys ++ items.map Prod.fst).Nodup)
    (hreads : ∀ k r v, d.get? k = some r → entries.lookup k = some v →
      Reads s.heap (Finished h₀ begun) r v) :
    ∃ s' d', copyItems f y items s = some s' ∧ Going h₀ begun s' ∧ s'.heap.get? y = some d' ∧
      d'.keys = d.keys ++ items.map Prod.fst ∧
      (∀ k r v, d'.get? k = some r → entries.lookup k = some v →
        Reads s'.heap (Finished h₀ begun) r v) ∧
      s.heap.size ≤ s'.heap.size ∧ ∀ a < s.heap.size, a ≠ y → s'.heap.get? a = s.heap.get? a := by
  induction items generalizing s d with
  | nil =>
    exact ⟨s, d, rfl, hgoing, hd, by simp, hreads, Nat.le_refl _, fun _ _ _ => rfl⟩
  | cons e rest ih =>
    obtain ⟨k, r⟩ := e
    obtain ⟨v, hv, hcopy⟩ := hitems (k, r) (by simp)
    obtain ⟨r', s₁, hrun, hcopied⟩ := hcopy s hgoing
    -- the dictionary is what it was, and the copy of the item goes into it
    have hlt : y < s.heap.size := Heap.lt_size_of_get? hd
    have hd₁ : s₁.heap.get? y = some d := (hcopied.kept.get? y hlt).trans hd
    have habsent : d.get? k = none := by
      by_contra hpresent
      obtain ⟨w, hw⟩ := Option.ne_none_iff_exists'.mp hpresent
      have hmem : k ∈ d.keys := Dict.mem_keys_iff.mpr ⟨w, hw⟩
      exact (List.nodup_append.mp hnodup).2.2 k hmem k (by simp) rfl
    have hwrite : ∀ a, a < s₁.heap.size → (∀ e ∈ begun, e.2 ≠ a) →
        (s₁.heap.put y k r').get? a = s₁.heap.get? a :=
      fun a _ hne => Heap.get?_put_ne (Ne.symm (hne _ hy)) k r'
    have hgoing₂ := hcopied.going.mono (Heap.size_put ..).symm hwrite
    have hreads₂ : ∀ j w v, (d.set k r').get? j = some w → entries.lookup j = some v →
        Reads (s₁.heap.put y k r') (Finished h₀ begun) w v := by
      intro j w v' hw hv'
      have hread : Reads s₁.heap (Finished h₀ begun) w v' := by
        rw [Dict.get?_set] at hw
        split at hw
        · next heq =>
          subst heq
          rw [hv] at hv'
          rw [← Option.some.inj hw, ← Option.some.inj hv']
          exact hcopied.reads
        · exact hcopied.kept.reads (hreads j w v' hw hv')
      exact hread.mono fun a ha hin => ⟨hwrite a ha hin.2, hin⟩
    have hkeys₂ : (d.set k r').keys = d.keys ++ [k] := keys_set_of_absent habsent r'
    have hnodup₂ : ((d.set k r').keys ++ rest.map Prod.fst).Nodup := by
      rw [hkeys₂, List.append_assoc]
      exact hnodup
    obtain ⟨s', d', hloop, hgoing', hd', hkeys', hreads', hsize, hframe⟩ :=
      ih (fun e he => hitems e (List.mem_cons_of_mem _ he)) hgoing₂ (Heap.get?_put_self hd₁ k r')
        hnodup₂ hreads₂
    refine ⟨s', d', ?_, hgoing', hd', ?_, hreads', ?_, ?_⟩
    · simp only [copyItems, hrun, Option.bind_some]
      exact hloop
    · rw [hkeys', hkeys₂, List.append_assoc]
      rfl
    · rw [Heap.size_put] at hsize
      exact hcopied.kept.size.trans hsize
    · intro a ha hne
      have ha₁ : a < s₁.heap.size := Nat.lt_of_lt_of_le ha hcopied.kept.size
      rw [hframe a (by simpa using ha₁) hne, Heap.get?_put_ne hne, hcopied.kept.get? a ha]

omit [DecidableEq κ] in
theorem Finished.of_cons {h₀ : Heap κ α} {e : Nat × Nat} {begun : List (Nat × Nat)} {a : Nat}
    (h : Finished h₀ (e :: begun) a) : Finished h₀ begun a :=
  ⟨h.1, fun e' he' => h.2 e' (List.mem_cons_of_mem _ he')⟩

theorem Going.begin {h₀ : Heap κ α} {begun : List (Nat × Nat)} {s : Copying κ α}
    (hgoing : Going h₀ begun s) (addr : Nat) :
    Going h₀ ((addr, s.heap.size) :: begun) ⟨s.heap.alloc, (addr, s.heap.size) :: s.memo⟩ where
  kept := hgoing.kept.trans (.alloc _)
  new e he := by
    rw [Heap.size_alloc]
    rcases List.mem_cons.mp he with rfl | he
    · exact ⟨hgoing.kept.size, Nat.lt_succ_self _⟩
    · exact ⟨(hgoing.new e he).1, Nat.lt_succ_of_lt (hgoing.new e he).2⟩
  memo x y hxy := by
    rw [Dict.lookup_cons_ite] at hxy
    split at hxy
    · next heq =>
      rw [heq, ← Option.some.inj hxy]
      exact Or.inl (by simp)
    · rcases hgoing.memo x y hxy with hbegun | ⟨t, hx, hy⟩
      · exact Or.inl (List.mem_cons_of_mem _ hbegun)
      · refine Or.inr ⟨t, hx, hy.mono fun a ha hin => ⟨Heap.get?_alloc ha, hin.1, ?_⟩⟩
        intro e he
        rcases List.mem_cons.mp he with rfl | he
        · exact Nat.ne_of_gt ha
        · exact hin.2 e he

theorem Going.finish {h₀ : Heap κ α} {addr y : Nat} {begun : List (Nat × Nat)} {s : Copying κ α}
    (hgoing : Going h₀ ((addr, y) :: begun) s) {t : Nested κ α}
    (hx : Reads h₀ (fun _ => True) (.dict addr) t)
    (hy : Reads s.heap (Finished h₀ begun) (.dict y) t) : Going h₀ begun s where
  kept := hgoing.kept
  new e he := hgoing.new e (List.mem_cons_of_mem _ he)
  memo x y' hxy := by
    rcases hgoing.memo x y' hxy with hbegun | ⟨t', hx', hy'⟩
    · rcases List.mem_cons.mp hbegun with heq | hbegun
      · cases heq
        exact Or.inr ⟨t, hx, hy⟩
      · exact Or.inl hbegun
    · exact Or.inr ⟨t', hx', hy'.mono fun a _ hin => ⟨rfl, hin.of_cons⟩⟩

/-- **A copy reads as what it copies**, by induction on what is read. -/
theorem copy_spec {h₀ : Heap κ α} {r : Ref α} {t : Nested κ α}
    (hreads : Reads h₀ (fun _ => True) r t) {n : Nat} (hn : t.depth ≤ n)
    {begun : List (Nat × Nat)}
    (hbegun : ∀ e ∈ begun, ∃ t', Reads h₀ (fun _ => True) (.dict e.1) t' ∧ t.depth < t'.depth)
    {s : Copying κ α} (hgoing : Going h₀ begun s) :
    ∃ r' s', copy n r s = some (r', s') ∧ Copied h₀ begun s s' r' t := by
  induction hreads generalizing n begun s with
  | leaf a =>
    refine ⟨.leaf a, s, ?_, hgoing, .refl _, .leaf a⟩
    cases n <;> rfl
  | @dict addr d entries _ found keys below ih =>
    have hthis : Reads h₀ (fun _ => True) (.dict addr) (.table entries) :=
      .dict trivial found keys below
    cases n with
    | zero => exact absurd hn (by simp [Nested.depth])
    | succ n =>
      cases hmemo : s.memo.lookup addr with
      | some y =>
        refine ⟨.dict y, s, by simp only [copy, hmemo], hgoing, .refl _, ?_⟩
        rcases hgoing.memo addr y hmemo with hin | ⟨t', hx, hy⟩
        -- it has not begun to be copied: it does not hang from itself
        · obtain ⟨t', hx, hlt⟩ := hbegun _ hin
          rw [hx.unique hthis] at hlt
          exact absurd hlt (Nat.lt_irrefl _)
        · rw [← hx.unique hthis]
          exact hy
      | none =>
        have hlt := Heap.lt_size_of_get? found
        have hitems : ∀ e ∈ d.entries, ∃ v, entries.lookup e.1 = some v ∧
            ∀ s', Going h₀ ((addr, s.heap.size) :: begun) s' → ∃ r' s'', copy n e.2 s' =
              some (r', s'') ∧ Copied h₀ ((addr, s.heap.size) :: begun) s' s'' r' v := by
          rintro ⟨k, r⟩ he
          have hr := Dict.get?_of_mem_entries he
          obtain ⟨v, hv⟩ := Reads.lookup_of_get? keys hr
          have hless := Nested.depth_lt_of_lookup hv
          refine ⟨v, hv, fun s' hs' => ih k r v hr hv (by omega) ?_ hs'⟩
          intro e he
          rcases List.mem_cons.mp he with rfl | he
          · exact ⟨_, hthis, hless⟩
          · obtain ⟨t', ht', hlt'⟩ := hbegun e he
            exact ⟨t', ht', hless.trans hlt'⟩
        obtain ⟨s', d', hloop, hgoing', hd', hkeys, hbelow, hsize, hframe⟩ :=
          copyItems_spec List.mem_cons_self hitems (hgoing.begin addr) (Heap.get?_alloc_self _)
            (by simpa [Dict.keys, Dict.empty] using d.nodup)
            (fun k r v hr => absurd hr (by simp))
        rw [Heap.size_alloc] at hsize hframe
        -- the address is new, and what has begun before has others
        have hnew : Finished h₀ begun s.heap.size :=
          ⟨hgoing.kept.size, fun e he => Nat.ne_of_lt (hgoing.new e he).2⟩
        have hread : Reads s'.heap (Finished h₀ begun) (.dict s.heap.size) (.table entries) := by
          apply Reads.dict hnew hd'
          · rw [hkeys, ← keys]
            rfl
          · intro k r v hr hv
            exact (hbelow k r v hr hv).mono fun a _ hin => ⟨rfl, hin.of_cons⟩
        refine ⟨.dict s.heap.size, s', ?_, hgoing'.finish hthis hread, ⟨by omega, ?_⟩, hread⟩
        · have hfound : s.heap.get? addr = some d := (hgoing.kept.get? addr hlt).trans found
          simp only [copy, hmemo, hfound, Option.bind_some, hloop, Option.map_some]
        · intro a ha
          rw [hframe a (Nat.lt_succ_of_lt ha) (Nat.ne_of_lt ha), Heap.get?_alloc ha]

/-- **A deep copy** reads as what it copies, is all new, and leaves what was there. -/
theorem deepcopy_reads {h : Heap κ α} {r : Ref α} {t : Nested κ α} {S : Nat → Prop}
    (hreads : Reads h S r t) {n : Nat} (hn : t.depth ≤ n) :
    ∃ r' h', deepcopy n r h = some (r', h') ∧ h.Kept h' ∧
      Reads h' (fun a => h.size ≤ a) r' t := by
  have hgoing : Going h [] ⟨h, []⟩ :=
    { kept := .refl h
      new := by simp
      memo := by simp }
  obtain ⟨r', s, hcopy, hcopied⟩ := copy_spec hreads.anywhere hn (by simp) hgoing
  refine ⟨r', s.heap, by simp only [deepcopy, hcopy, Option.map_some], hcopied.kept, ?_⟩
  exact hcopied.reads.mono fun a _ hin => ⟨rfl, hin.1⟩

end

end Lib
