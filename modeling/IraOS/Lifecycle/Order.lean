import IraOS.Lifecycle.Models

/-!
# The execution order

`LifecycleOrchestrator._build_execution_order`: Kahn's algorithm, with in-degrees that count a
dependency as often as it is listed, and a list of the components that have none left, kept sorted
by `(priority, name)`.

Here are the graph, the loop, and what the graph counts: a component stands among the dependents of
another as often as it lists it, and its in-degree is the length of its list (`buildGraph_ok`). A
name that no component has is the only thing that can go wrong before the loop. What the loop then
makes of the graph is in `IraOS.Lifecycle.BootOrder`.

The loop of the source is a `while` over the list of ready components. It is a recursion over a
number of rounds here, which makes it structural; the number given is that of the components, and no
more rounds than that are ever possible, as each one places a component.
-/

set_option autoImplicit false

namespace IraOS

open Lib

namespace LifecycleOrchestrator

/-! ## The graph -/

def dependencyEdges (components : List ComponentRegistration) : List (String × String) :=
  components.flatMap fun comp => comp.dependencies.map fun dep => (comp.name, dep)

structure DependencyGraph where
  graph : Dict String (List String)
  inDegree : Dict String Int

def unconnected (components : List ComponentRegistration) : DependencyGraph where
  graph := components.foldl (fun d comp => d.set comp.name []) Dict.empty
  inDegree := components.foldl (fun d comp => d.set comp.name 0) Dict.empty

def addEdge (g : DependencyGraph) (edge : String × String) : Except Exn DependencyGraph :=
  match g.graph.get? edge.2 with
  | none => .error ⟨.startupError,
      lit ("Component '" ++ edge.1 ++ "' depends on unknown component '" ++ edge.2 ++ "'")⟩
  | some dependents => .ok
      { graph := g.graph.set edge.2 (dependents ++ [edge.1])
        inDegree := g.inDegree.set edge.1 (g.inDegree.getD edge.1 0 + 1) }

def buildGraph (components : List ComponentRegistration) : Except Exn DependencyGraph :=
  (dependencyEdges components).foldlM addEdge (unconnected components)

/-! ## The loop -/

structure Progress where
  inDegree : Dict String Int
  zeroInDegree : List ComponentRegistration
  executionOrder : List ComponentRegistration

def releaseNeighbor (p : Progress) (neighbor : ComponentRegistration) : Progress :=
  let degree := p.inDegree.getD neighbor.name 0 - 1
  { p with
    inDegree := p.inDegree.set neighbor.name degree
    zeroInDegree :=
      if degree = 0 then ComponentRegistration.sorted (p.zeroInDegree ++ [neighbor])
      else p.zeroInDegree }

def neighborsOf (r : ComponentRegistry) (g : DependencyGraph) (current : ComponentRegistration) :
    List ComponentRegistration :=
  ComponentRegistration.sorted ((g.graph.getD current.name []).filterMap r.get)

def place (r : ComponentRegistry) (g : DependencyGraph) (p : Progress)
    (current : ComponentRegistration) (rest : List ComponentRegistration) : Progress :=
  (neighborsOf r g current).foldl releaseNeighbor
    { p with zeroInDegree := rest, executionOrder := p.executionOrder ++ [current] }

/-- `while zero_in_degree`, for as many rounds as there are components: `drain_done` says that the
loop is over by then. -/
def drain (r : ComponentRegistry) (g : DependencyGraph) : Nat → Progress → Progress
  | 0, p => p
  | n + 1, p =>
    match p.zeroInDegree with
    | [] => p
    | current :: rest => drain r g n (place r g p current rest)

def initialProgress (r : ComponentRegistry) (g : DependencyGraph) : Progress where
  inDegree := g.inDegree
  zeroInDegree :=
    ComponentRegistration.sorted (r.getAll.filter fun comp => g.inDegree.getD comp.name 0 = 0)
  executionOrder := []

def buildExecutionOrder (r : ComponentRegistry) : Except Exn (List ComponentRegistration) :=
  match buildGraph r.getAll with
  | .error e => .error e
  | .ok g =>
    let p := drain r g r.getAll.length (initialProgress r g)
    if p.executionOrder.length ≠ r.getAll.length then
      .error ⟨.startupError, lit "Circular dependency detected in component registration"⟩
    else .ok p.executionOrder

/-! ## What the graph counts -/

theorem addEdge_ok {g g' : DependencyGraph} {e : String × String} (h : addEdge g e = .ok g') :
    (∃ v, g.graph.get? e.2 = some v) ∧
      (∀ n, g'.graph.getD n [] = g.graph.getD n [] ++ if n = e.2 then [e.1] else []) ∧
      (∀ n, (∃ v, g'.graph.get? n = some v) ↔ ∃ v, g.graph.get? n = some v) ∧
      ∀ n, g'.inDegree.getD n 0 = g.inDegree.getD n 0 + if n = e.1 then 1 else 0 := by
  unfold addEdge at h
  split at h
  · cases h
  next dependents hdep =>
  cases h
  refine ⟨⟨_, hdep⟩, ?_, ?_, ?_⟩
  · intro n
    rw [Dict.getD_set]
    split
    · next hn => rw [hn, Dict.getD, hdep]; rfl
    · rw [List.append_nil]
  · intro n
    rw [Dict.get?_set]
    split
    · next hn => exact ⟨fun _ => ⟨_, hn ▸ hdep⟩, fun _ => ⟨_, rfl⟩⟩
    · exact Iff.rfl
  · intro n
    rw [Dict.getD_set]
    split
    · next hn => rw [hn]
    · rw [Int.add_zero]

theorem addEdges_ok {edges : List (String × String)} {g g' : DependencyGraph}
    (h : edges.foldlM addEdge g = .ok g') :
    (∀ e ∈ edges, ∃ v, g.graph.get? e.2 = some v) ∧
      (∀ n, g'.graph.getD n []
        = g.graph.getD n [] ++ (edges.filter fun e => n = e.2).map Prod.fst) ∧
      ∀ n, g'.inDegree.getD n 0 = g.inDegree.getD n 0 + edges.countP fun e => n = e.1 := by
  induction edges generalizing g with
  | nil =>
    cases h
    simp
  | cons e edges ih =>
    rw [List.foldlM_cons] at h
    cases hg : addEdge g e with
    | error exc => rw [hg] at h; cases h
    | ok g₁ =>
      rw [hg] at h
      obtain ⟨hknown, hgraph, hkeys, hdeg⟩ := addEdge_ok hg
      obtain ⟨ih₁, ih₂, ih₃⟩ := ih h
      refine ⟨?_, ?_, ?_⟩
      · intro e' he'
        rcases List.mem_cons.mp he' with rfl | he'
        · exact hknown
        · exact (hkeys e'.2).mp (ih₁ e' he')
      · intro n
        rw [ih₂, hgraph, List.filter_cons]
        by_cases hn : n = e.2 <;> simp [hn]
      · intro n
        rw [ih₃, hdeg, List.countP_cons]
        by_cases hn : n = e.1
        · simp [hn]
          omega
        · simp [hn]

theorem addEdges_error {edges : List (String × String)} {g : DependencyGraph} {exc : Exn}
    (h : edges.foldlM addEdge g = .error exc) :
    exc.cls = .startupError ∧ ∃ e ∈ edges, g.graph.get? e.2 = none := by
  induction edges generalizing g with
  | nil => cases h
  | cons e edges ih =>
    rw [List.foldlM_cons] at h
    cases hg : addEdge g e with
    | error exc' =>
      rw [hg] at h
      cases h
      unfold addEdge at hg
      split at hg
      · next hnone =>
        cases hg
        exact ⟨rfl, e, List.mem_cons_self, hnone⟩
      · cases hg
    | ok g₁ =>
      rw [hg] at h
      obtain ⟨hcls, e', he', hnone⟩ := ih h
      refine ⟨hcls, e', List.mem_cons_of_mem _ he', ?_⟩
      have hkeys := (addEdge_ok hg).2.2.1 e'.2
      cases hold : g.graph.get? e'.2 with
      | none => rfl
      | some v =>
        obtain ⟨v', hv'⟩ := hkeys.mpr ⟨v, hold⟩
        rw [hnone] at hv'
        cases hv'

theorem get?_foldl_set {β : Type} (v : β) (cs : List ComponentRegistration) (d : Dict String β)
    (n : String) : (cs.foldl (fun d comp => d.set comp.name v) d).get? n
      = if n ∈ cs.map ComponentRegistration.name then some v else d.get? n := by
  induction cs generalizing d with
  | nil => simp
  | cons c cs ih =>
    rw [List.foldl_cons, ih, Dict.get?_set]
    by_cases hn : n = c.name <;> simp [hn]

section Counts

variable {r : ComponentRegistry} {c : ComponentRegistration}

theorem countP_dependencyEdges (hc : c ∈ r.getAll) (p : String → Bool) :
    (dependencyEdges r.getAll).countP (fun e => c.name = e.1 && p e.2)
      = c.dependencies.countP p := by
  obtain ⟨pre, post, hq⟩ := List.append_of_mem hc
  have hnodup := r.nodup_getAll
  have hzero : ∀ cs : List ComponentRegistration, (∀ d ∈ cs, d ∈ r.getAll ∧ d ≠ c) →
      (dependencyEdges cs).countP (fun e => c.name = e.1 && p e.2) = 0 := by
    intro cs hcs
    rw [List.countP_eq_zero]
    intro e he
    simp only [dependencyEdges, List.mem_flatMap, List.mem_map] at he
    obtain ⟨d, hd, dep, _, rfl⟩ := he
    have hne : c.name ≠ d.name :=
      fun hn => (hcs d hd).2 (ComponentRegistry.name_inj (hcs d hd).1 hc hn.symm)
    simp [hne]
  rw [hq] at hnodup
  have hnot : c ∉ pre ∧ c ∉ post := by
    rw [List.nodup_middle, List.nodup_cons, List.mem_append, not_or] at hnodup
    exact hnodup.1
  have hpre := hzero pre fun d hd =>
    ⟨by rw [hq]; simp [hd], fun he => hnot.1 (he ▸ hd)⟩
  have hpost := hzero post fun d hd =>
    ⟨by rw [hq]; simp [hd], fun he => hnot.2 (he ▸ hd)⟩
  have hsplit : dependencyEdges r.getAll = dependencyEdges pre
      ++ (c.dependencies.map (fun dep => (c.name, dep)) ++ dependencyEdges post) := by
    simp only [dependencyEdges, hq, List.flatMap_append, List.flatMap_cons]
  rw [hsplit, List.countP_append, List.countP_append, hpre, hpost, List.countP_map]
  simp only [Nat.zero_add, Nat.add_zero]
  congr 1
  funext dep
  simp

def Known (r : ComponentRegistry) : Prop :=
  ∀ c ∈ r.getAll, ∀ d ∈ c.dependencies, ∃ dep, r.get d = some dep

theorem unconnected_graph (n : String) :
    (∃ v, (unconnected r.getAll).graph.get? n = some v) ↔ ∃ dep, r.get n = some dep := by
  rw [unconnected, get?_foldl_set]
  constructor
  · intro h
    split at h
    · next hn =>
      obtain ⟨dep, hdep, rfl⟩ := List.mem_map.mp hn
      exact ⟨dep, ComponentRegistry.mem_getAll.mp hdep⟩
    · obtain ⟨v, hv⟩ := h
      cases hv
  · rintro ⟨dep, hdep⟩
    obtain ⟨hmem, hname⟩ := ComponentRegistry.get_some hdep
    rw [if_pos (List.mem_map.mpr ⟨dep, hmem, hname⟩)]
    exact ⟨[], rfl⟩

theorem mem_dependencyEdges {cs : List ComponentRegistration} {e : String × String} :
    e ∈ dependencyEdges cs ↔ ∃ c ∈ cs, c.name = e.1 ∧ e.2 ∈ c.dependencies := by
  obtain ⟨n, d⟩ := e
  simp only [dependencyEdges, List.mem_flatMap, List.mem_map, Prod.mk.injEq]
  constructor
  · rintro ⟨c, hc, dep, hdep, rfl, rfl⟩
    exact ⟨c, hc, rfl, hdep⟩
  · rintro ⟨c, hc, rfl, hdep⟩
    exact ⟨c, hc, d, hdep, rfl, rfl⟩

/-- The graph of a registry: a component is listed under another as often as it depends on it, and
its in-degree is the number of its dependencies, however often each is listed. -/
theorem buildGraph_ok {g : DependencyGraph} (h : buildGraph r.getAll = .ok g) :
    Known r ∧
      (∀ c ∈ r.getAll, ∀ n, (g.graph.getD n []).count c.name = c.dependencies.count n) ∧
      (∀ n, ∀ m ∈ g.graph.getD n [], ∃ c, r.get m = some c) ∧
      ∀ c ∈ r.getAll, g.inDegree.getD c.name 0 = c.dependencies.length := by
  obtain ⟨hknown, hgraph, hdeg⟩ := addEdges_ok h
  have hempty : ∀ n, (unconnected r.getAll).graph.getD n [] = [] := by
    intro n
    rw [unconnected, Dict.getD, get?_foldl_set]
    split <;> rfl
  have hzero : ∀ n, (unconnected r.getAll).inDegree.getD n 0 = 0 := by
    intro n
    rw [unconnected, Dict.getD, get?_foldl_set]
    split <;> rfl
  refine ⟨?_, ?_, ?_, ?_⟩
  · intro c hc d hd
    exact (unconnected_graph d).mp
      (hknown (c.name, d) (mem_dependencyEdges.mpr ⟨c, hc, rfl, hd⟩))
  · intro c hc n
    rw [hgraph, hempty, List.nil_append, List.count_eq_countP, List.countP_map,
      List.countP_filter, List.count_eq_countP, ← countP_dependencyEdges hc]
    refine List.countP_congr ?_
    intro e _
    simp only [Function.comp_apply, beq_iff_eq, Bool.and_eq_true, decide_eq_true_eq]
    exact ⟨fun h => ⟨h.1.symm, h.2.symm⟩, fun h => ⟨h.1.symm, h.2.symm⟩⟩
  · intro n m hm
    rw [hgraph, hempty, List.nil_append, List.mem_map] at hm
    obtain ⟨e, he, rfl⟩ := hm
    obtain ⟨c, hc, hname, _⟩ := mem_dependencyEdges.mp (List.mem_of_mem_filter he)
    exact ⟨c, hname ▸ ComponentRegistry.mem_getAll.mp hc⟩
  · intro c hc
    have hcount := countP_dependencyEdges hc fun _ => true
    simp only [Bool.and_true, List.countP_true] at hcount
    rw [hdeg, hzero, Int.zero_add, hcount]

theorem buildGraph_error {exc : Exn} (h : buildGraph r.getAll = .error exc) :
    exc.cls = .startupError ∧ ¬ Known r := by
  obtain ⟨hcls, e, he, hnone⟩ := addEdges_error h
  refine ⟨hcls, ?_⟩
  intro hknown
  obtain ⟨c, hc, _, hdep⟩ := mem_dependencyEdges.mp he
  obtain ⟨v, hv⟩ := (unconnected_graph e.2).mpr (hknown c hc e.2 hdep)
  rw [hnone] at hv
  cases hv

end Counts

end LifecycleOrchestrator

end IraOS
