import IraOS.Lib.Kahn
import IraOS.Lifecycle.Order

/-!
# The boot order is the greedy one

`_build_execution_order` is Kahn's algorithm with a list of the ready components that it keeps
sorted, and so an instance of `Lib.Kahn`: `Progress.worklist` reads the loop's state as a worklist
of names, a round of the loop is a round of the worklist (`place_sound`), and what the library says
of a worklist that has run dry is said of the loop (`Progress.Sound.bootOrder`, `cycle_of_names`).

**A boot order places, at every position, the least component by `(priority, name)` among those
whose dependencies are all placed** (`BootOrder`). There is at most one, so the order components are
registered in does not matter; there is none just if a component lists a name nobody has, or
components depend on each other in a cycle (`Unorderable`), and then an error is raised.

A dependency that is listed twice counts twice in the in-degree and is released twice, so it makes
no difference. A component may list itself, which is a cycle of one. Disabled components are placed
like the others; what a phase does with them is not a matter of the order.

The loop is run for as many rounds as there are components, and is over by then (`drain_done`).
-/

set_option autoImplicit false

namespace IraOS

open Lib ComponentRegistry

namespace LifecycleOrchestrator

variable {r : ComponentRegistry}

def DependsOn (r : ComponentRegistry) (c d : ComponentRegistration) : Prop :=
  d ∈ r.getAll ∧ d.name ∈ c.dependencies

def dependenciesOf (r : ComponentRegistry) (name : String) : List String :=
  ((r.get name).map ComponentRegistration.dependencies).getD []

def sortKeyOf (r : ComponentRegistry) (name : String) : Int ×ₗ String :=
  -- every name that is sorted is some component's, so the 0 is nobody's
  ((r.get name).map ComponentRegistration.sortKey).getD (toLex (0, name))

theorem dependenciesOf_mem {c : ComponentRegistration} (hc : c ∈ r.getAll) :
    dependenciesOf r c.name = c.dependencies := by
  rw [dependenciesOf, mem_getAll.mp hc]
  rfl

theorem sortKeyOf_mem {c : ComponentRegistration} (hc : c ∈ r.getAll) :
    sortKeyOf r c.name = c.sortKey := by
  rw [sortKeyOf, mem_getAll.mp hc]
  rfl

/-!
## One round

`Progress.worklist` is what the loop is to `Lib.Kahn`: degrees by name, and names in place of
components. The loop sorts its list again whenever a component is put into it, where the worklist
has the newcomer at its end; so a round of the one is a round of the other up to the order of what
is ready, and that is all there is to show here.
-/

def Progress.worklist (p : Progress) : Worklist String where
  degree name := p.inDegree.getD name 0
  ready := p.zeroInDegree.map ComponentRegistration.name
  order := p.executionOrder.map ComponentRegistration.name

theorem sorted_perm (cs : List ComponentRegistration) :
    (ComponentRegistration.sorted cs).Perm cs := List.perm_insertionSort _ cs

theorem mem_sorted {cs : List ComponentRegistration} {c : ComponentRegistration} :
    c ∈ ComponentRegistration.sorted cs ↔ c ∈ cs := (sorted_perm cs).mem_iff

theorem worklist_release (p : Progress) (neighbor : ComponentRegistration) :
    (p.worklist.release neighbor.name).Reordered (releaseNeighbor p neighbor).worklist where
  degree := by
    funext name
    show (p.inDegree.set neighbor.name _).getD name 0 =
      Function.update p.worklist.degree neighbor.name _ name
    rw [Dict.getD_set, Function.update_apply]
    rfl
  ready := by
    show ((releaseNeighbor p neighbor).zeroInDegree.map ComponentRegistration.name).Perm
      (if p.inDegree.getD neighbor.name 0 - 1 = 0 then
        p.zeroInDegree.map ComponentRegistration.name ++ [neighbor.name]
        else p.zeroInDegree.map ComponentRegistration.name)
    simp only [releaseNeighbor]
    split
    · have hperm := (sorted_perm (p.zeroInDegree ++ [neighbor])).map ComponentRegistration.name
      rwa [List.map_append] at hperm
    · exact .refl _
  order := rfl

theorem worklist_releaseAll (ns : List ComponentRegistration) {p : Progress} {w : Worklist String}
    (h : w.Reordered p.worklist) : ((ns.map ComponentRegistration.name).foldl Worklist.release w
      ).Reordered (ns.foldl releaseNeighbor p).worklist := by
  induction ns generalizing p w with
  | nil => exact h
  | cons n ns ih => exact ih ((h.release n.name).trans (worklist_release p n))

theorem releaseAll_order (ns : List ComponentRegistration) (p : Progress) :
    (ns.foldl releaseNeighbor p).executionOrder = p.executionOrder := by
  induction ns generalizing p with
  | nil => rfl
  | cons m ns ih =>
    rw [List.foldl_cons, ih]
    rfl

def Ordered (cs : List ComponentRegistration) : Prop :=
  cs.Pairwise fun a b => a.sortKey ≤ b.sortKey

theorem ordered_sorted (cs : List ComponentRegistration) :
    Ordered (ComponentRegistration.sorted cs) := List.pairwise_insertionSort _ cs

theorem releaseAll_ordered {ns : List ComponentRegistration} {p : Progress}
    (hordered : Ordered p.zeroInDegree) (hready : ∀ c ∈ p.zeroInDegree, c ∈ r.getAll)
    (hin : ∀ c ∈ ns, c ∈ r.getAll) : Ordered (ns.foldl releaseNeighbor p).zeroInDegree ∧
      ∀ c ∈ (ns.foldl releaseNeighbor p).zeroInDegree, c ∈ r.getAll := by
  induction ns generalizing p with
  | nil => exact ⟨hordered, hready⟩
  | cons n ns ih =>
    rw [List.forall_mem_cons] at hin
    apply ih ?_ ?_ hin.2
    · simp only [releaseNeighbor]
      split
      · exact ordered_sorted _
      · exact hordered
    · intro c hc
      simp only [releaseNeighbor] at hc
      split at hc
      · rcases List.mem_append.mp (mem_sorted.mp hc) with hc | hc
        · exact hready c hc
        · exact List.mem_singleton.mp hc ▸ hin.1
      · exact hready c hc

/-! ## What the loop keeps -/

structure Progress.Sound (r : ComponentRegistry) (p : Progress) : Prop where
  worklist : p.worklist.Sound (dependenciesOf r) (sortKeyOf r)
    (r.getAll.map ComponentRegistration.name)
  ordered : Ordered p.zeroInDegree
  ready : ∀ c ∈ p.zeroInDegree, c ∈ r.getAll
  placed : ∀ c ∈ p.executionOrder, c ∈ r.getAll

section Round

variable {g : DependencyGraph} {p : Progress} {current : ComponentRegistration}
  {rest : List ComponentRegistration}

variable (current) in
theorem neighbors_spec (hg : buildGraph r.getAll = .ok g) :
    (∀ c ∈ neighborsOf r g current, c ∈ r.getAll) ∧
      ∀ c ∈ r.getAll, ((neighborsOf r g current).map ComponentRegistration.name).count c.name
        = c.dependencies.count current.name := by
  obtain ⟨_, hcount, hnames, _⟩ := buildGraph_ok hg
  refine ⟨?_, ?_⟩
  · intro c hc
    obtain ⟨n, _, hn⟩ := List.mem_filterMap.mp (mem_sorted.mp hc)
    exact (get_some hn).1
  · intro c hc
    have hmap : ((g.graph.getD current.name []).filterMap r.get).map ComponentRegistration.name
        = g.graph.getD current.name [] := by
      rw [List.map_filterMap]
      refine (List.filterMap_congr ?_).trans List.filterMap_some
      intro n hn
      obtain ⟨d, hd⟩ := hnames current.name n hn
      rw [hd, Option.map_some, (get_some hd).2]
    rw [← hcount c hc, ← hmap]
    exact ((sorted_perm _).map _).count_eq c.name

/-- **A round keeps the loop sound**: it is a round of the worklist, whose least is the head of the
sorted list. -/
theorem place_sound (hg : buildGraph r.getAll = .ok g) (h : p.Sound r)
    (hz : p.zeroInDegree = current :: rest) : (place r g p current rest).Sound r := by
  obtain ⟨hin, hcount⟩ := neighbors_spec current hg
  have hordered := h.ordered
  have hready := h.ready
  rw [hz, Ordered, List.pairwise_cons] at hordered
  rw [hz, List.forall_mem_cons] at hready
  have htaken : (p.worklist.take ((neighborsOf r g current).map ComponentRegistration.name)
      current.name (rest.map ComponentRegistration.name)).Sound (dependenciesOf r) (sortKeyOf r)
      (r.getAll.map ComponentRegistration.name) := by
    apply h.worklist.take
    · rw [Progress.worklist, hz]
      rfl
    · intro n hn
      obtain ⟨c, hc, rfl⟩ := List.mem_map.mp hn
      rw [sortKeyOf_mem hready.1, sortKeyOf_mem (hready.2 c hc)]
      exact hordered.1 c hc
    · intro n hn
      obtain ⟨c, hc, rfl⟩ := List.mem_map.mp hn
      exact List.mem_map_of_mem (hin c hc)
    · intro n hn
      obtain ⟨c, hc, rfl⟩ := List.mem_map.mp hn
      rw [dependenciesOf_mem hc]
      exact hcount c hc
  have hstart : (⟨p.worklist.degree, rest.map ComponentRegistration.name,
      p.worklist.order ++ [current.name]⟩ : Worklist String).Reordered
      (Progress.worklist
        { p with zeroInDegree := rest, executionOrder := p.executionOrder ++ [current] }) :=
    ⟨rfl, .refl _, List.map_append⟩
  have hkept : Ordered (place r g p current rest).zeroInDegree ∧
      ∀ c ∈ (place r g p current rest).zeroInDegree, c ∈ r.getAll :=
    releaseAll_ordered hordered.2 hready.2 hin
  refine ⟨htaken.reordered (worklist_releaseAll _ hstart), hkept.1, hkept.2, ?_⟩
  intro c hc
  rw [place, releaseAll_order] at hc
  rcases List.mem_append.mp hc with hc | hc
  · exact h.placed c hc
  · exact List.mem_singleton.mp hc ▸ hready.1

theorem initialProgress_sound (hg : buildGraph r.getAll = .ok g) :
    (initialProgress r g).Sound r := by
  obtain ⟨_, _, _, hdeg⟩ := buildGraph_ok hg
  have hmem : ∀ c, c ∈ (initialProgress r g).zeroInDegree ↔
      c ∈ r.getAll ∧ g.inDegree.getD c.name 0 = 0 := by
    intro c
    rw [initialProgress, mem_sorted, List.mem_filter, decide_eq_true_eq]
  refine ⟨⟨⟨?_, ?_⟩, ?_, Greedy.nil⟩, ordered_sorted _, fun c hc => ((hmem c).mp hc).1, by
    simp [initialProgress]⟩
  · have hperm := (sorted_perm (r.getAll.filter fun comp =>
      g.inDegree.getD comp.name 0 = 0)).map ComponentRegistration.name
    exact hperm.nodup_iff.mpr (nodup_names.sublist (List.filter_sublist.map _))
  · intro n
    show n ∈ (initialProgress r g).zeroInDegree.map ComponentRegistration.name ↔
      n ∈ r.getAll.map ComponentRegistration.name ∧ n ∉ [] ∧ g.inDegree.getD n 0 = 0
    simp only [List.mem_map, hmem]
    constructor
    · rintro ⟨c, ⟨hc, hzero⟩, rfl⟩
      exact ⟨⟨c, hc, rfl⟩, List.not_mem_nil, hzero⟩
    · rintro ⟨⟨c, hc, rfl⟩, -, hzero⟩
      exact ⟨c, ⟨hc, hzero⟩, rfl⟩
  · intro n hn
    obtain ⟨c, hc, rfl⟩ := List.mem_map.mp hn
    rw [dependenciesOf_mem hc]
    show g.inDegree.getD c.name 0 = _
    rw [hdeg c hc]
    simp [Progress.worklist, initialProgress]

theorem drain_sound (hg : buildGraph r.getAll = .ok g) (n : Nat) (h : p.Sound r) :
    (drain r g n p).Sound r := by
  induction n generalizing p with
  | zero => exact h
  | succ n ih =>
    rw [drain]
    split
    · exact h
    · next hz => exact ih (place_sound hg h hz)

/-- **As many rounds as there are components are enough.** -/
theorem drain_done (hg : buildGraph r.getAll = .ok g) (n : Nat) (h : p.Sound r)
    (hn : r.getAll.length ≤ p.executionOrder.length + n) :
    (drain r g n p).worklist.ready = [] := by
  induction n generalizing p with
  | zero =>
    refine h.worklist.ready_of_full ?_
    simpa [Progress.worklist] using hn
  | succ n ih =>
    rw [drain]
    split
    · next hz => rw [Progress.worklist, hz, List.map_nil]
    · next current rest hz =>
      refine ih (place_sound hg h hz) ?_
      rw [place, releaseAll_order, List.length_append, List.length_singleton]
      omega

end Round

/-! ## The result -/

/-- Some dependency is not registered, or the dependencies have a cycle. -/
def Unorderable (r : ComponentRegistry) : Prop :=
  (∃ c ∈ r.getAll, ∃ d ∈ c.dependencies, r.get d = none) ∨
    ∃ c, Relation.TransGen (DependsOn r) c c

/-- A permutation of the components in which each follows its dependencies and is, at its position,
the least of those that could stand there. -/
structure BootOrder (r : ComponentRegistry) (order : List ComponentRegistration) : Prop where
  perm : order.Perm r.getAll
  follows : ∀ pre c post, order = pre ++ c :: post →
    ∀ d ∈ c.dependencies, d ∈ pre.map ComponentRegistration.name
  least : ∀ pre c post, order = pre ++ c :: post → ∀ c' ∈ r.getAll, c' ∉ pre →
    (∀ d ∈ c'.dependencies, d ∈ pre.map ComponentRegistration.name) → c.sortKey ≤ c'.sortKey

namespace BootOrder

variable {order : List ComponentRegistration}

theorem known (h : BootOrder r order) : Known r := by
  intro c hc d hd
  obtain ⟨pre, post, hq⟩ := List.append_of_mem (h.perm.mem_iff.mpr hc)
  obtain ⟨dep, hdep, rfl⟩ := List.mem_map.mp (h.follows pre c post hq d hd)
  have hmem : dep ∈ r.getAll := h.perm.mem_iff.mp (by rw [hq]; simp [hdep])
  exact ⟨dep, mem_getAll.mp hmem⟩

theorem names_iff (hknown : Known r) {pre : List ComponentRegistration}
    (hpre : ∀ d ∈ pre, d ∈ r.getAll) {c : ComponentRegistration} (hc : c ∈ r.getAll) :
    (∀ d ∈ c.dependencies, d ∈ pre.map ComponentRegistration.name) ↔
      Ready (DependsOn r) pre c := by
  constructor
  · intro hall d hd
    obtain ⟨d', hd', hname⟩ := List.mem_map.mp (hall d.name hd.2)
    exact name_inj (hpre d' hd') hd.1 hname ▸ hd'
  · intro hready d hd
    obtain ⟨dep, hdep⟩ := hknown c hc d hd
    obtain ⟨hmem, rfl⟩ := get_some hdep
    exact List.mem_map_of_mem (hready dep ⟨hmem, hd⟩)

theorem greedy (h : BootOrder r order) :
    Greedy (DependsOn r) ComponentRegistration.sortKey r.getAll order := by
  have hin : ∀ c ∈ order, c ∈ r.getAll := fun c hc => h.perm.mem_iff.mp hc
  intro pre c post hq
  have hpre : ∀ d ∈ pre, d ∈ r.getAll := fun d hd => hin d (by rw [hq]; simp [hd])
  have hc : c ∈ r.getAll := hin c (by rw [hq]; simp)
  have hnodup : (pre ++ c :: post).Nodup := hq ▸ h.perm.nodup_iff.mpr nodup_getAll
  refine ⟨hc, ?_, (names_iff h.known hpre hc).mp (h.follows pre c post hq), ?_⟩
  · rw [List.nodup_middle, List.nodup_cons, List.mem_append, not_or] at hnodup
    exact hnodup.1.1
  · intro c' hc' hnot hready
    exact h.least pre c post hq c' hc' hnot ((names_iff h.known hpre hc').mpr hready)

/-- **A boot order is the only one**, whatever order the components are listed in. -/
theorem unique {r' : ComponentRegistry} {order' : List ComponentRegistration}
    (h : BootOrder r order) (h' : BootOrder r' order') (hp : r'.getAll.Perm r.getAll) :
    order = order' := by
  have hneeds : DependsOn r' = DependsOn r := by
    funext c d
    rw [DependsOn, DependsOn, hp.mem_iff]
  have hgreedy' : Greedy (DependsOn r) ComponentRegistration.sortKey r.getAll order' :=
    hneeds ▸ h'.greedy.of_perm hp
  have hkey : ∀ c ∈ r.getAll, ∀ d ∈ r.getAll, c.sortKey = d.sortKey → c = d := by
    intro c hc d hd hq
    exact name_inj hc hd (congrArg (fun k => (ofLex k).2) hq)
  exact Greedy.unique hkey h.greedy hgreedy' (h.perm.trans (h'.perm.trans hp).symm).length_eq

theorem orderable (h : BootOrder r order) : ¬ Unorderable r := by
  rintro (⟨c, hc, d, hd, hnone⟩ | ⟨c, hcycle⟩)
  · obtain ⟨dep, hdep⟩ := h.known c hc d hd
    rw [hnone] at hdep
    cases hdep
  · have hc : c ∈ order := by
      obtain ⟨b, _, hb⟩ := Relation.TransGen.tail'_iff.mp hcycle
      exact h.perm.mem_iff.mpr hb.1
    exact h.greedy.acyclic hc hcycle

end BootOrder

theorem Progress.Sound.bootOrder {p : Progress} (h : p.Sound r)
    (hperm : p.worklist.order.Perm (r.getAll.map ComponentRegistration.name)) :
    BootOrder r p.executionOrder := by
  have hnames : ∀ {pre c post}, p.executionOrder = pre ++ c :: post → p.worklist.order =
      pre.map ComponentRegistration.name ++ c.name :: post.map ComponentRegistration.name := by
    intro pre c post hq
    simp [Progress.worklist, hq]
  refine ⟨?_, ?_, ?_⟩
  · have hnodup : p.executionOrder.Nodup := List.Nodup.of_map _ h.worklist.greedy.nodup
    refine (List.subperm_of_subset hnodup h.placed).perm_of_length_le ?_
    have hlength := hperm.length_eq
    rw [Progress.worklist, List.length_map, List.length_map] at hlength
    exact hlength.ge
  · intro pre c post hq d hd
    have hc : c ∈ r.getAll := h.placed c (by simp [hq])
    refine (h.worklist.greedy _ _ _ (hnames hq)).ready d ?_
    rwa [dependenciesOf_mem hc]
  · intro pre c post hq c' hc' hnot hall
    have hc : c ∈ r.getAll := h.placed c (by simp [hq])
    have hpre : ∀ d ∈ pre, d ∈ r.getAll := fun d hd => h.placed d (by simp [hq, hd])
    rw [← sortKeyOf_mem hc, ← sortKeyOf_mem hc']
    apply (h.worklist.greedy _ _ _ (hnames hq)).least c'.name (List.mem_map_of_mem hc')
    · intro hin
      obtain ⟨d, hd, hname⟩ := List.mem_map.mp hin
      exact hnot (name_inj (hpre d hd) hc' hname ▸ hd)
    · intro d hd
      rw [dependenciesOf_mem hc'] at hd
      exact hall d hd

theorem cycle_of_names (hknown : Known r) {n : String}
    (h : Relation.TransGen (fun a b => b ∈ dependenciesOf r a) n n) :
    ∃ c, Relation.TransGen (DependsOn r) c c := by
  have hlisted : ∀ {a b}, b ∈ dependenciesOf r a → ∃ c, r.get a = some c ∧ b ∈ c.dependencies := by
    intro a b hb
    rw [dependenciesOf] at hb
    cases hget : r.get a with
    | none =>
      rw [hget] at hb
      cases hb
    | some c =>
      rw [hget] at hb
      exact ⟨c, rfl, hb⟩
  obtain ⟨b, hb, -⟩ := Relation.TransGen.head'_iff.mp h
  obtain ⟨first, -, -⟩ := hlisted hb
  -- every name on the cycle is a component's, so what the others are sent to is nothing
  refine ⟨(r.get n).getD first,
    Relation.TransGen.lift (fun name => (r.get name).getD first) ?_ n n h⟩
  intro a b hb
  obtain ⟨c, hc, hdep⟩ := hlisted hb
  obtain ⟨d, hd⟩ := hknown c (get_some hc).1 b hdep
  show DependsOn r ((r.get a).getD first) ((r.get b).getD first)
  simp only [hc, hd, Option.getD_some]
  exact ⟨(get_some hd).1, (get_some hd).2.symm ▸ hdep⟩

/-- What `_build_execution_order` returns or raises. -/
theorem buildExecutionOrder_result (r : ComponentRegistry) :
    match buildExecutionOrder r with
    | .ok order => BootOrder r order
    | .error e => Unorderable r ∧ e.cls = .startupError := by
  unfold buildExecutionOrder
  cases hg : buildGraph r.getAll with
  | error e =>
    obtain ⟨hcls, hunknown⟩ := buildGraph_error hg
    refine ⟨Or.inl ?_, hcls⟩
    unfold Known at hunknown
    push Not at hunknown
    obtain ⟨c, hc, d, hd, hnone⟩ := hunknown
    exact ⟨c, hc, d, hd, Option.eq_none_iff_forall_ne_some.mpr hnone⟩
  | ok g =>
    have hstart := initialProgress_sound hg
    have hsound := drain_sound hg r.getAll.length hstart
    have hdone := drain_done hg r.getAll.length hstart (Nat.le_add_left ..)
    obtain ⟨hknown, _, _, _⟩ := buildGraph_ok hg
    have hin : ∀ a b, b ∈ dependenciesOf r a → b ∈ r.getAll.map ComponentRegistration.name := by
      intro a b hb
      rw [dependenciesOf] at hb
      cases hget : r.get a with
      | none =>
        rw [hget] at hb
        cases hb
      | some c =>
        rw [hget] at hb
        obtain ⟨d, hd⟩ := hknown c (get_some hget).1 b hb
        obtain ⟨hmem, rfl⟩ := get_some hd
        exact List.mem_map_of_mem hmem
    dsimp only
    rcases hsound.worklist.perm_or_cycle nodup_names hin hdone with hperm | ⟨hlength, n, hcycle⟩
    · have hlength : (drain r g r.getAll.length (initialProgress r g)).executionOrder.length
          = r.getAll.length := by
        simpa [Progress.worklist] using hperm.length_eq
      rw [if_neg (not_not.mpr hlength)]
      exact hsound.bootOrder hperm
    · rw [Progress.worklist, List.length_map, List.length_map] at hlength
      rw [if_pos hlength]
      exact ⟨Or.inr (cycle_of_names hknown hcycle), rfl⟩

theorem unorderable_of_perm {r r' : ComponentRegistry} (hp : r'.getAll.Perm r.getAll)
    (h : Unorderable r') : Unorderable r := by
  have hneeds : DependsOn r' = DependsOn r := by
    funext c d
    rw [DependsOn, DependsOn, hp.mem_iff]
  rcases h with ⟨c, hc, d, hd, hnone⟩ | ⟨c, hcycle⟩
  · refine Or.inl ⟨c, hp.mem_iff.mp hc, d, hd, ?_⟩
    rw [Option.eq_none_iff_forall_ne_some] at hnone ⊢
    intro dep hdep
    obtain ⟨hmem, rfl⟩ := get_some hdep
    exact hnone dep (mem_getAll.mp (hp.mem_iff.mpr hmem))
  · exact Or.inr ⟨c, hneeds ▸ hcycle⟩

/-- **The boot order**: an error exactly where a dependency is unknown or there is a cycle, and else
the greedy order, the same for every order of registration. That there is one greedy order at most
is what makes the last part follow from the one before it. -/
theorem buildExecutionOrder_correct (r : ComponentRegistry) :
    (match buildExecutionOrder r with
      | .ok order => ¬ Unorderable r ∧ BootOrder r order
      | .error e => Unorderable r ∧ e.cls = .startupError) ∧
    ∀ r' : ComponentRegistry, r'.getAll.Perm r.getAll →
      (buildExecutionOrder r').toOption = (buildExecutionOrder r).toOption := by
  have hr := buildExecutionOrder_result r
  refine ⟨?_, ?_⟩
  · cases ho : buildExecutionOrder r with
    | ok order =>
      rw [ho] at hr
      exact ⟨hr.orderable, hr⟩
    | error e =>
      rw [ho] at hr
      exact hr
  · intro r' hp
    have hr' := buildExecutionOrder_result r'
    cases ho : buildExecutionOrder r with
    | ok order =>
      rw [ho] at hr
      cases ho' : buildExecutionOrder r' with
      | ok order' =>
        rw [ho'] at hr'
        exact congrArg some (hr.unique hr' hp).symm
      | error e =>
        rw [ho'] at hr'
        exact absurd (unorderable_of_perm hp hr'.1) hr.orderable
    | error e =>
      rw [ho] at hr
      cases ho' : buildExecutionOrder r' with
      | ok order' =>
        rw [ho'] at hr'
        exact absurd (unorderable_of_perm hp.symm hr.1) hr'.orderable
      | error e' => rfl

end LifecycleOrchestrator

end IraOS
