import Mathlib.Data.Finset.Card
import Mathlib.Logic.Relation

/-!
# Depth-first search for a cycle

The recursive search with a set of nodes done and a set of nodes on the way, which stops at a node
that is already on the way. **It stops so exactly where there is a cycle** (`search_spec`): what is
on the way leads to where the search is, so meeting it again closes a cycle; and what is done is
closed under going on and has no cycle, since a node is done only after all it leads to.

## Depth

The recursion has a depth to go by; one more than there are nodes is always enough, as a node is on
the way at most once. Running out of depth is a way of stopping of its own (`Stop`), so that the
theorem can say it does not happen instead of leaving it open what the search would answer.

## The invariant

`Sound` is what holds between any two visits. It is about the nodes that are done: they lead to done
nodes only, and none of them leads to itself. The nodes on the way are not part of it; that they
lead to the node being visited is a premise of `visit_spec`, since it changes with every level of
the recursion, and is what turns "met again" into a cycle. The order in which nodes and their
successors are visited plays no part.
-/

set_option autoImplicit false

namespace Lib

/-- Where a search stands: the nodes that are done, and those it is in the middle of. A node is in
the middle while what it leads to is searched, and done after that. -/
structure Search (α : Type) where
  visited : Finset α
  stack : Finset α

namespace Search

variable {α : Type} [DecidableEq α]

/-- How a search stops short of having seen everything. -/
inductive Stop (α : Type) where
  | cycle (node : α)
  | depth

variable (next : α → List α)

def visit : Nat → Search α → α → Except (Stop α) (Search α)
  | 0, _, _ => .error .depth
  | n + 1, s, node =>
    if node ∈ s.stack then .error (.cycle node)
    else if node ∈ s.visited then .ok s
    else do
      let s ← (next node).foldlM (visit n) { s with stack := insert node s.stack }
      .ok ⟨insert node s.visited, s.stack.erase node⟩

/-- One node after the other, those that are done already left out. -/
def search (depth : Nat) (nodes : List α) : Except (Stop α) (Search α) :=
  nodes.foldlM (fun s node => if node ∈ s.visited then .ok s else visit next depth s node) ⟨∅, ∅⟩

abbrev Leads (a b : α) : Prop := b ∈ next a

/-- What holds of a search between any two visits: what is done is off the way, leads to what is
done only, and has no cycle. -/
structure Sound (s : Search α) : Prop where
  disjoint : ∀ v ∈ s.stack, v ∉ s.visited
  closed : ∀ v ∈ s.visited, ∀ d ∈ next v, d ∈ s.visited
  acyclic : ∀ v ∈ s.visited, ¬ Relation.TransGen (Leads next) v v

/-- How a visit from `s`, or several, may end: in a sound search with the nodes done and the way as
it was, or at a node that leads to itself. It is not for want of depth. -/
def Visited (s : Search α) (nodes : List α) : Except (Stop α) (Search α) → Prop
  | .ok s' => Sound next s' ∧ s'.stack = s.stack ∧ s.visited ⊆ s'.visited ∧
      ∀ v ∈ nodes, v ∈ s'.visited
  | .error (.cycle v) => Relation.TransGen (Leads next) v v
  | .error .depth => False

variable {next} {s s' : Search α} {node : α}

omit [DecidableEq α] in
theorem Sound.reaches (h : Sound next s) {v d : α} (hv : v ∈ s.visited)
    (hd : Relation.ReflTransGen (Leads next) v d) : d ∈ s.visited := by
  induction hd with
  | refl => exact hv
  | tail _ hbc ih => exact h.closed _ ih _ hbc

/-- A node is done once all it leads to is, and then it leads to nothing that leads back to it. -/
theorem Sound.finish (h : Sound next s') (hstack : s'.stack = insert node s.stack)
    (hnot : node ∉ s.stack) (hall : ∀ d ∈ next node, d ∈ s'.visited) :
    Sound next ⟨insert node s'.visited, s'.stack.erase node⟩ := by
  have hnode : node ∉ s'.visited := h.disjoint node (by simp [hstack])
  have herase : s'.stack.erase node = s.stack := by rw [hstack, Finset.erase_insert hnot]
  refine ⟨?_, ?_, ?_⟩
  · intro v hv hmem
    dsimp only at hv hmem
    rw [herase] at hv
    rcases Finset.mem_insert.mp hmem with rfl | hmem
    · exact hnot hv
    · exact h.disjoint v (by simp [hstack, hv]) hmem
  · intro v hv d hd
    rcases Finset.mem_insert.mp hv with rfl | hv
    · exact Finset.mem_insert_of_mem (hall d hd)
    · exact Finset.mem_insert_of_mem (h.closed v hv d hd)
  · intro v hv hcycle
    rcases Finset.mem_insert.mp hv with rfl | hv
    -- all it leads to is done, and what is done does not lead back to what is not
    · obtain ⟨d, hd, hback⟩ := Relation.TransGen.head'_iff.mp hcycle
      exact hnode (h.reaches (hall d hd) hback)
    · exact h.acyclic v hv hcycle

omit [DecidableEq α] in
theorem Visited.foldlM {f : Search α → α → Except (Stop α) (Search α)} {ds : List α}
    (h : Sound next s) (hf : ∀ s₁ : Search α, Sound next s₁ → s₁.stack = s.stack →
      ∀ d ∈ ds, Visited next s₁ [d] (f s₁ d)) : Visited next s ds (ds.foldlM f s) := by
  induction ds generalizing s with
  | nil => exact ⟨h, rfl, Finset.Subset.refl _, by simp⟩
  | cons d ds ih =>
    have hfirst := hf s h rfl d List.mem_cons_self
    rw [List.foldlM_cons]
    cases hd : f s d with
    | error e =>
      rw [hd] at hfirst
      cases e with
      | cycle v => exact hfirst
      | depth => exact hfirst
    | ok s₁ =>
      rw [hd] at hfirst
      obtain ⟨h₁, hs₁, hmono₁, hdone₁⟩ := hfirst
      have hrest := ih h₁ fun s₂ h₂ hs₂ d' hd' =>
        hf s₂ h₂ (hs₂.trans hs₁) d' (List.mem_cons_of_mem _ hd')
      show Visited next s (d :: ds) (ds.foldlM f s₁)
      cases hfold : ds.foldlM f s₁ with
      | error e =>
        rw [hfold] at hrest
        cases e with
        | cycle v => exact hrest
        | depth => exact hrest
      | ok s₂ =>
        rw [hfold] at hrest
        obtain ⟨h₂, hs₂, hmono₂, hdone₂⟩ := hrest
        refine ⟨h₂, hs₂.trans hs₁, hmono₁.trans hmono₂, ?_⟩
        intro v hv
        rcases List.mem_cons.mp hv with rfl | hv
        · exact hmono₂ (hdone₁ v List.mem_cons_self)
        · exact hdone₂ v hv

section Visit

variable {nodes : Finset α} (hnodes : ∀ v ∈ nodes, ∀ d ∈ next v, d ∈ nodes)

include hnodes

/-- One visit, from a search whose stack leads to the node and with depth left for the nodes that
are not on the stack. -/
theorem visit_spec (n : Nat) (h : Sound next s) (hnode : node ∈ nodes) (hsub : s.stack ⊆ nodes)
    (hpath : ∀ v ∈ s.stack, Relation.TransGen (Leads next) v node)
    (hn : nodes.card + 1 ≤ n + s.stack.card) : Visited next s [node] (visit next n s node) := by
  induction n generalizing s node with
  | zero =>
    -- every node is on the way, and there is depth for one more than there are
    have hle := Finset.card_le_card hsub
    omega
  | succ n ih =>
    rw [visit]
    split
    -- what is on the way leads here, so meeting it closes a cycle
    · next hin => exact hpath node hin
    next hnot =>
    split
    · next hdone => exact ⟨h, rfl, Finset.Subset.refl _, by simpa using hdone⟩
    next hdone =>
    have hsub' : insert node s.stack ⊆ nodes := Finset.insert_subset hnode hsub
    have hcard : (insert node s.stack).card = s.stack.card + 1 := Finset.card_insert_of_notMem hnot
    have h₁ : Sound next { s with stack := insert node s.stack } := by
      refine ⟨?_, h.closed, h.acyclic⟩
      intro v hv
      rcases Finset.mem_insert.mp hv with rfl | hv
      · exact hdone
      · exact h.disjoint v hv
    have hfold : Visited next { s with stack := insert node s.stack } (next node)
        ((next node).foldlM (visit next n) { s with stack := insert node s.stack }) := by
      refine Visited.foldlM h₁ ?_
      intro s₁ h₁ hs₁ d hd
      refine ih h₁ (hnodes node hnode d hd) (hs₁ ▸ hsub') ?_ (by rw [hs₁, hcard]; omega)
      intro v hv
      rw [hs₁] at hv
      rcases Finset.mem_insert.mp hv with rfl | hv
      · exact .single hd
      · exact (hpath v hv).tail hd
    cases hf : (next node).foldlM (visit next n) { s with stack := insert node s.stack } with
    | error e =>
      rw [hf] at hfold
      cases e with
      | cycle v => exact hfold
      | depth => exact hfold
    | ok s₂ =>
      rw [hf] at hfold
      obtain ⟨h₂, hs₂, hmono, hdone₂⟩ := hfold
      refine ⟨h₂.finish hs₂ hnot hdone₂, ?_, ?_, by simp⟩
      · show s₂.stack.erase node = s.stack
        rw [hs₂]
        exact Finset.erase_insert hnot
      · exact hmono.trans (Finset.subset_insert _ _)

end Visit

/-- **A search over all the nodes stops at a cycle or shows that there is none.** -/
theorem search_spec {nodes : List α} (hnodes : ∀ v ∈ nodes, ∀ d ∈ next v, d ∈ nodes) :
    match search next (nodes.length + 1) nodes with
    | .ok _ => ∀ v ∈ nodes, ¬ Relation.TransGen (Leads next) v v
    | .error (.cycle v) => Relation.TransGen (Leads next) v v
    | .error .depth => False := by
  have hempty : Sound next ⟨∅, ∅⟩ := ⟨by simp, by simp, by simp⟩
  have hsearch : Visited next ⟨∅, ∅⟩ nodes (search next (nodes.length + 1) nodes) := by
    refine Visited.foldlM hempty ?_
    intro s₁ h₁ hs₁ node hnode
    split
    · next hdone => exact ⟨h₁, rfl, Finset.Subset.refl _, by simpa using hdone⟩
    · have hfinset : ∀ v ∈ nodes.toFinset, ∀ d ∈ next v, d ∈ nodes.toFinset := by
        simpa using hnodes
      refine visit_spec hfinset _ h₁ (by simpa using hnode) ?_ ?_ ?_
      · simp [hs₁]
      · simp [hs₁]
      · have hle := List.toFinset_card_le nodes
        omega
  cases hs : search next (nodes.length + 1) nodes with
  | ok s' =>
    rw [hs] at hsearch
    obtain ⟨h', _, _, hall⟩ := hsearch
    exact fun v hv => h'.acyclic v (hall v hv)
  | error e =>
    rw [hs] at hsearch
    cases e with
    | cycle v => exact hsearch
    | depth => exact hsearch

end Search

end Lib
