import IraOS.Config.Objects

/-!
# Which layer a path comes from

A layer has a say about a path if it has something there, and also if it has a leaf where the path
goes on: then there is nothing below, whatever the layers under it have. `Precedence` is what the
loader promises of its layers, and `ConfigLoader.load_raw` keeps to it while it writes to no object
of theirs (`loadRaw_precedence`).

Where the highest layer that has a say has a table, the path leads to a table in the result as well;
what is in that table is a question about longer paths, and other layers may answer those. So
precedence is stated path by path, and a path at which no layer has a say leads nowhere in the
result.

The statement is about the heap, and so about any number of providers that share dictionaries with
one another, under whatever keys.
-/

set_option autoImplicit false

namespace IraOS

open Lib

namespace ConfigLoader

variable {α : Type}

/-- The table has a leaf at a proper prefix of the path. -/
def Cuts (t : ConfigTable α) (p : List String) : Prop :=
  ∃ n < p.length, ∃ a, t.at? (p.take n) = .leaf a

def Prevails (tables : List (ConfigTable α)) (p : List String) (t : ConfigTable α) : Prop :=
  ∃ pre post, tables = pre ++ t :: post ∧ (t.at? p ≠ .absent ∨ Cuts t p) ∧
    ∀ u ∈ post, u.at? p = .absent ∧ ¬ Cuts u p

/-- At every path the merged table has what the layer that prevails has there, be it a leaf, a table
or, below a leaf of that layer, nothing; and nothing where no layer has a say. -/
structure Precedence (tables : List (ConfigTable α)) (result : ConfigTable α) : Prop where
  absent : ∀ p ≠ [], (∀ t, ¬ Prevails tables p t) → result.at? p = .absent
  cut : ∀ p t, Prevails tables p t → Cuts t p → result.at? p = .absent
  leaf : ∀ p t a, Prevails tables p t → t.at? p = .leaf a → result.at? p = .leaf a
  table : ∀ p t, Prevails tables p t → t.at? p = .table → result.at? p = .table

theorem plain_eq_leaf_iff {f : Found α} {a : α} : f.plain = .leaf a ↔ f = .leaf a := by
  cases f <;> simp [Found.plain]

theorem cuts_iff {t : ConfigTable α} {p : List String} : Cuts t p ↔ ∃ n, t.look p = .cut n := by
  have hcut : ∀ n, t.look p = .cut n ↔ n < p.length ∧ ∃ a, t.look (p.take n) = .leaf a :=
    fun n => Nested.look_eq_cut_iff
  simp only [Cuts, ConfigTable.at?, plain_eq_leaf_iff, hcut]

theorem look_eq_absent_iff {t : ConfigTable α} {p : List String} :
    t.look p = .absent ↔ t.at? p = .absent ∧ ¬ Cuts t p := by
  rw [cuts_iff, ConfigTable.at?]
  cases t.look p <;> simp [Found.plain]

theorem look_ne_absent_iff {t : ConfigTable α} {p : List String} :
    t.look p ≠ .absent ↔ t.at? p ≠ .absent ∨ Cuts t p := by
  rw [ne_eq, look_eq_absent_iff, not_and_or, not_not]

theorem absent_or_prevails (tables : List (ConfigTable α)) (p : List String) :
    (∀ t ∈ tables, t.look p = .absent) ∨ ∃ t, Prevails tables p t := by
  induction tables with
  | nil => exact Or.inl (by simp)
  | cons t rest ih =>
    rcases ih with habsent | ⟨u, pre, post, rfl, hu, hpost⟩
    · by_cases ht : t.look p = .absent
      · exact Or.inl (List.forall_mem_cons.mpr ⟨ht, habsent⟩)
      · exact Or.inr ⟨t, [], rest, rfl, look_ne_absent_iff.mp ht,
          fun u hu => look_eq_absent_iff.mp (habsent u hu)⟩
    · exact Or.inr ⟨u, t :: pre, post, rfl, hu, hpost⟩

theorem at_of_prevails {tables : List (ConfigTable α)} {p : List String} {t : ConfigTable α}
    (h : Prevails tables p t) : (ConfigLoader.mk tables).loadRaw.at? p = t.at? p := by
  obtain ⟨pre, post, rfl, ht, hpost⟩ := h
  exact plain_foldl_of_last ConfigTable.look deepMerge look_deepMerge .empty
    (look_ne_absent_iff.mpr ht) fun u hu => look_eq_absent_iff.mpr (hpost u hu)

theorem precedence (tables : List (ConfigTable α)) :
    Precedence tables (ConfigLoader.mk tables).loadRaw where
  absent p hp hnone := by
    have habsent := (absent_or_prevails tables p).resolve_right (not_exists.mpr hnone)
    obtain ⟨k, q, rfl⟩ := List.exists_cons_of_ne_nil hp
    have hlook := look_foldl_of_absent ConfigTable.look deepMerge look_deepMerge
      (.empty : ConfigTable α) habsent
    rw [ConfigTable.look_empty] at hlook
    exact congrArg Found.plain hlook
  cut p t ht hcut := by
    obtain ⟨n, hn⟩ := cuts_iff.mp hcut
    rw [at_of_prevails ht, ConfigTable.at?, hn]
    rfl
  leaf p t a ht hleaf := (at_of_prevails ht).trans hleaf
  table p t ht htable := (at_of_prevails ht).trans htable

theorem exists_depth (tables : List (ConfigTable α)) :
    ∃ n₀, 0 < n₀ ∧ ∀ t ∈ tables, (Nested.table t.entries).depth ≤ n₀ := by
  induction tables with
  | nil => exact ⟨1, Nat.one_pos, by simp⟩
  | cons t rest ih =>
    obtain ⟨n₀, hpos, hrest⟩ := ih
    refine ⟨max n₀ (Nested.table t.entries).depth, by omega, ?_⟩
    intro u hu
    rcases List.mem_cons.mp hu with rfl | hu
    · exact Nat.le_max_right ..
    · exact (hrest u hu).trans (Nat.le_max_left ..)

/-- **A path comes from the highest layer that has a say about it**, and a load leaves the
dictionaries of the providers, and all others there are, as they were. It is so for every bound on
the depth of the recursion from some bound on, and so of the recursion of the source, which has
none. -/
theorem loadRaw_precedence {providers : List Nat} {tables : List (ConfigTable α)}
    {h : Heap String α} (hanswers : OnHeap.Answers h providers tables) :
    ∃ n₀, ∀ n ≥ n₀, ∃ m h' result, OnHeap.loadRaw n providers h = some (m, h') ∧
      Reads h' (fun _ => True) (.dict m) (.table (ConfigTable.entries result)) ∧
      Precedence tables result ∧ h.Kept h' ∧ OnHeap.Answers h' providers tables := by
  obtain ⟨n₀, hpos, hdepth⟩ := exists_depth tables
  refine ⟨n₀, ?_⟩
  intro n hn
  obtain ⟨m, h', hrun, hkept, hreads⟩ :=
    OnHeap.loadRaw_refines (hpos.trans_le hn) (fun t ht => (hdepth t ht).trans hn) hanswers
  exact ⟨m, h', _, hrun, hreads, precedence tables, hkept, hanswers.kept hkept⟩

/-! ## Three layers -/

/-- `d = {"port": 8080}`, which the lowest layer has under two keys; a layer that puts a value in
the place of one of them, and a layer over it that has a port of its own under the other. -/
def layered : Heap String Nat where
  cells := [⟨[("port", .leaf 8080)], by simp⟩, ⟨[("server", .dict 0), ("name", .dict 0)], by simp⟩,
    ⟨[("name", .leaf 5)], by simp⟩, ⟨[("port", .leaf 9090)], by simp⟩,
    ⟨[("server", .dict 3)], by simp⟩]

/-- `{"port": port}`. -/
def portTable (port : Nat) : Nested String Nat := .table [("port", .leaf port)]

theorem portTable_distinct (port : Nat) : (portTable port).Distinct :=
  .table _ (by simp) (by simpa using .leaf port)

def lowestLayer : ConfigTable Nat where
  entries := [("server", portTable 8080), ("name", portTable 8080)]
  distinct := .table _ (by simp) (by simp [portTable_distinct])

def middleLayer : ConfigTable Nat where
  entries := [("name", .leaf 5)]
  distinct := .table _ (by simp) (by simpa using .leaf 5)

def highestLayer : ConfigTable Nat where
  entries := [("server", portTable 9090)]
  distinct := .table _ (by simp) (by simp [portTable_distinct])

theorem layered_answers :
    OnHeap.Answers layered [1, 2, 4] [lowestLayer, middleLayer, highestLayer] := by
  have hport : Reads layered (fun _ => True) (.dict 0) (portTable 8080) :=
    .single trivial rfl (.leaf 8080)
  have hlowest : Reads layered (fun _ => True) (.dict 1) (.table lowestLayer.entries) := by
    refine .dict trivial rfl rfl ?_
    intro k r v hr hv
    have href : r = .dict 0 := by
      have hmem := Dict.mem_of_lookup hr
      simp at hmem
      tauto
    have hval : v = portTable 8080 := by
      have hmem := Dict.mem_of_lookup hv
      simp [lowestLayer] at hmem
      tauto
    rw [href, hval]
    exact hport
  have hmiddle : Reads layered (fun _ => True) (.dict 2) (.table middleLayer.entries) :=
    .single trivial rfl (.leaf 5)
  have hhighest : Reads layered (fun _ => True) (.dict 4) (.table highestLayer.entries) :=
    .single trivial rfl (.single trivial rfl (.leaf 9090))
  exact .cons hlowest (.cons hmiddle (.cons hhighest .nil))

/-- The highest layer's port prevails; the middle layer's value does, and cuts off what the lowest
has below it. -/
theorem loadRaw_precedence_layered :
    ∃ n₀, ∀ n ≥ n₀, ∃ m h' result, OnHeap.loadRaw n [1, 2, 4] layered = some (m, h') ∧
      Reads h' (fun _ => True) (.dict m) (.table (ConfigTable.entries result)) ∧
      result.at? ["server", "port"] = .leaf 9090 ∧ result.at? ["name"] = .leaf 5 ∧
      result.at? ["name", "port"] = .absent ∧ layered.Kept h' := by
  obtain ⟨n₀, hload⟩ := loadRaw_precedence layered_answers
  refine ⟨n₀, fun n hn => ?_⟩
  obtain ⟨m, h', result, hrun, hreads, hprecedence, hkept, -⟩ := hload n hn
  have hname : ∀ u ∈ [highestLayer], ∀ p, u.at? ("name" :: p) = .absent ∧ ¬ Cuts u ("name" :: p) :=
    by simpa using fun p => look_eq_absent_iff.mp rfl
  refine ⟨m, h', result, hrun, hreads, ?_, ?_, ?_, hkept⟩
  · exact hprecedence.leaf _ highestLayer 9090
      ⟨[lowestLayer, middleLayer], [], rfl, Or.inl (by decide), by simp⟩ rfl
  · exact hprecedence.leaf _ middleLayer 5
      ⟨[lowestLayer], [highestLayer], rfl, Or.inl (by decide), fun u hu => hname u hu _⟩ rfl
  · have hcut : Cuts middleLayer ["name", "port"] := ⟨1, by decide, 5, rfl⟩
    exact hprecedence.cut _ middleLayer
      ⟨[lowestLayer], [highestLayer], rfl, Or.inr hcut, fun u hu => hname u hu _⟩ hcut

end ConfigLoader

end IraOS
