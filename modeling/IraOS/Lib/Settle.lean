import Mathlib.Data.List.Basic

/-!
# Dependencies with fallbacks

A graph of things that are built out of other things, each of its needs in order, some of them with
something to fall back on. Settling a thing settles its needs one after the other: a need that fails
is fatal unless there is a fallback, and the needs after a fatal one are never looked at. Nothing
here watches for cycles, so what lies on one that is really walked never settles.

## What settling is for

It is the meaning of such a graph, apart from any way of walking it: `Settles g i b` says whether
`i` can be built in the end, and has no answer where building it would go on for ever. The number of
levels is only there to make the recursion structural; more of them tell no less (`settle_mono`), so
the answer does not depend on it (`Settles.unique`).

## Walks that watch for cycles

A walk that does watch for cycles carries the chain of what it is in the middle of, and comes to an
end on any finite graph, as ever less of it is `unvisited`. `Above` ties such a chain to settling
(whatever is on it takes longer to settle than what is now being walked) and `Remaining` ties the
needs still to be walked to the thing they are needs of. With these two, a walk is looked at one
step at a time, whatever it remembers on its way: it comes back empty handed from a cycle exactly
when the thing does not settle.

Two walks over one graph that differ in what they remember, or in how they treat an error they meet
further down, are compared by comparing each of them with settling.
-/

set_option autoImplicit false

namespace Lib

/-- What is needed, if that can be told at all, and whether there is something to fall back on when
it cannot be had. -/
structure Need (ι : Type) where
  target : Option ι
  fallback : Bool

/-- What is known of one thing: that it is missing, that it is simply there, or that it is built out
of its needs. -/
inductive Node (ι : Type) where
  | missing
  | leaf
  | built (needs : List (Need ι))

variable {ι : Type}

/-- The needs in order, each settled by `f`: the first that fails and has no fallback decides. -/
def settleAll (f : ι → Option Bool) : List (Need ι) → Option Bool
  | [] => some true
  | ⟨none, _⟩ :: _ => some false
  | ⟨some j, fallback⟩ :: rest =>
    match f j with
    | none => none
    | some true => settleAll f rest
    | some false => if fallback = true then settleAll f rest else some false

/-- Whether `i` can be built, as far as `n` levels are enough to tell. -/
def settle (g : ι → Node ι) : Nat → ι → Option Bool
  | 0, _ => none
  | n + 1, i =>
    match g i with
    | .missing => some false
    | .leaf => some true
    | .built needs => settleAll (settle g n) needs

def Settles (g : ι → Node ι) (i : ι) (b : Bool) : Prop := ∃ n, settle g n i = some b

variable {g : ι → Node ι} {i j : ι} {b b' fallback : Bool} {n m : Nat}
  {needs rest : List (Need ι)} {chain : List ι}

/-! ## More levels tell no less -/

theorem settleAll_mono {f f' : ι → Option Bool} (hf : ∀ j b, f j = some b → f' j = some b)
    (h : settleAll f needs = some b) : settleAll f' needs = some b := by
  induction needs with
  | nil => exact h
  | cons need rest ih =>
    obtain ⟨target, fallback⟩ := need
    cases target with
    | none => exact h
    | some j =>
      rw [settleAll] at h ⊢
      cases hj : f j with
      | none =>
        rw [hj] at h
        cases h
      | some c =>
        rw [hj] at h
        rw [hf j c hj]
        cases c with
        | true => exact ih h
        | false =>
          cases fallback with
          | true => exact ih h
          | false => exact h

theorem settle_succ (h : settle g n i = some b) : settle g (n + 1) i = some b := by
  induction n generalizing i b with
  | zero => cases h
  | succ n ih =>
    rw [settle] at h ⊢
    cases hg : g i with
    | missing | leaf =>
      rw [hg] at h
      exact h
    | built needs =>
      rw [hg] at h
      exact settleAll_mono (fun j c hj => ih hj) h

theorem settle_mono (hnm : n ≤ m) (h : settle g n i = some b) : settle g m i = some b := by
  induction hnm with
  | refl => exact h
  | step _ ih => exact settle_succ ih

theorem Settles.unique (h : Settles g i b) (h' : Settles g i b') : b = b' := by
  obtain ⟨n, hn⟩ := h
  obtain ⟨m, hm⟩ := h'
  have hmax := settle_mono (Nat.le_max_left n m) hn
  rw [settle_mono (Nat.le_max_right n m) hm, Option.some.injEq] at hmax
  exact hmax.symm

/-- What there is to find out about `i`: what it settles to, or that it does not settle. -/
def Verdict (g : ι → Node ι) (i : ι) : Option Bool → Prop
  | some b => Settles g i b
  | none => ∀ b, ¬ Settles g i b

theorem Verdict.unique {v v' : Option Bool} (h : Verdict g i v) (h' : Verdict g i v') : v = v' := by
  cases v with
  | none =>
    cases v' with
    | none => rfl
    | some b => exact absurd h' (h b)
  | some b =>
    cases v' with
    | none => exact absurd h (h' b)
    | some b' => exact congrArg some (Settles.unique h h')

theorem Settles.of_missing (h : g i = .missing) : Settles g i false := ⟨1, by rw [settle, h]⟩

theorem Settles.of_leaf (h : g i = .leaf) : Settles g i true := ⟨1, by rw [settle, h]⟩

/-! ## Walking the needs of one thing -/

/-- The needs of `i` from `rest` on, those before having been got past (settled well, or badly with
something to fall back on): settling `i` gets to them, and what they come to `i` comes to. -/
structure Remaining (g : ι → Node ι) (i : ι) (rest : List (Need ι)) : Prop where
  reached : ∀ n b, settle g (n + 1) i = some b → settleAll (settle g n) rest = some b
  decides : ∀ n b, settleAll (settle g n) rest = some b → Settles g i b

namespace Remaining

theorem start (h : g i = .built needs) : Remaining g i needs where
  reached n b hn := by
    rw [settle, h] at hn
    exact hn
  decides n b hn := ⟨n + 1, by rw [settle, h]; exact hn⟩

theorem sooner (h : Remaining g i (⟨some j, fallback⟩ :: rest)) (hn : settle g (n + 1) i = some b) :
    ∃ c, settle g n j = some c := by
  have hrest := h.reached n b hn
  rw [settleAll] at hrest
  cases hj : settle g n j with
  | none =>
    rw [hj] at hrest
    cases hrest
  | some c => exact ⟨c, rfl⟩

theorem next (h : Remaining g i (⟨some j, fallback⟩ :: rest)) {c : Bool} (hc : Settles g j c)
    (hpast : c = true ∨ fallback = true) : Remaining g i rest := by
  have hpass : ∀ n, settle g n j = some c →
      settleAll (settle g n) (⟨some j, fallback⟩ :: rest) = settleAll (settle g n) rest := by
    intro n hn
    rw [settleAll, hn]
    rcases hpast with rfl | rfl
    · rfl
    · cases c <;> rfl
  refine ⟨?_, ?_⟩
  · intro n b hn
    obtain ⟨c', hc'⟩ := h.sooner hn
    have hq : c' = c := Settles.unique ⟨n, hc'⟩ hc
    rw [← hpass n (hq ▸ hc')]
    exact h.reached n b hn
  · intro n b hn
    obtain ⟨m, hm⟩ := hc
    refine h.decides (max n m) b ?_
    rw [hpass _ (settle_mono (Nat.le_max_right n m) hm)]
    exact settleAll_mono (fun k d => settle_mono (Nat.le_max_left n m)) hn

theorem settles_nil (h : Remaining g i []) : Settles g i true := h.decides 0 true rfl

theorem settles_unknown (h : Remaining g i (⟨none, fallback⟩ :: rest)) : Settles g i false :=
  h.decides 0 false rfl

theorem settles_fatal (h : Remaining g i (⟨some j, false⟩ :: rest)) (hj : Settles g j false) :
    Settles g i false := by
  obtain ⟨n, hn⟩ := hj
  refine h.decides n false ?_
  rw [settleAll, hn]
  rfl

theorem not_settles (h : Remaining g i (⟨some j, fallback⟩ :: rest)) (hj : ∀ c, ¬ Settles g j c) :
    ∀ b, ¬ Settles g i b := by
  rintro b ⟨n, hn⟩
  obtain ⟨c, hc⟩ := h.sooner (settle_succ hn)
  exact hj c ⟨n, hc⟩

end Remaining

/-! ## The chain of a walk -/

/-- Whatever is on the chain takes more levels to settle than `i` does. So nothing on the chain is
what is being walked, unless it does not settle at all. -/
def Above (g : ι → Node ι) (chain : List ι) (i : ι) : Prop :=
  ∀ k ∈ chain, ∀ n b, settle g n k = some b → ∃ m < n, ∃ c, settle g m i = some c

namespace Above

theorem nil : Above g [] i := fun _ hk => absurd hk List.not_mem_nil

theorem cons (h : Above g chain i) (hr : Remaining g i (⟨some j, fallback⟩ :: rest)) :
    Above g (i :: chain) j := by
  have hself : ∀ n b, settle g n i = some b → ∃ m < n, ∃ c, settle g m j = some c := by
    intro n b hn
    cases n with
    | zero => cases hn
    | succ n => exact ⟨n, Nat.lt_succ_self n, hr.sooner hn⟩
  intro k hk n b hn
  rcases List.mem_cons.mp hk with rfl | hk
  · exact hself n b hn
  · obtain ⟨m, hm, c, hc⟩ := h k hk n b hn
    obtain ⟨m', hm', hc'⟩ := hself m c hc
    exact ⟨m', Nat.lt_trans hm' hm, hc'⟩

/-- **What is on its own chain does not settle.** -/
theorem not_settles (h : Above g chain i) (hi : i ∈ chain) : ∀ b, ¬ Settles g i b := by
  rintro b ⟨n, hn⟩
  induction n using Nat.strongRecOn generalizing b with
  | ind n ih =>
    obtain ⟨m, hm, c, hc⟩ := h i hi n b hn
    exact ih m hm c hc

end Above

section Unvisited

variable [DecidableEq ι] {keys : List ι}

/-- How much further a walk can go before it is back on its chain or has left the graph. It is what
the depth of a walk is measured against. -/
def unvisited (keys chain : List ι) : Nat := (keys.filter fun i => i ∉ chain).length

theorem unvisited_le (keys chain : List ι) : unvisited keys chain ≤ keys.length :=
  List.length_filter_le ..

theorem unvisited_cons_lt (hkey : i ∈ keys) (hi : i ∉ chain) :
    unvisited keys (i :: chain) < unvisited keys chain := by
  have hmem : i ∈ keys.filter fun j => j ∉ chain :=
    List.mem_filter.mpr ⟨hkey, decide_eq_true hi⟩
  have hsplit : keys.filter (fun j => j ∉ i :: chain) =
      (keys.filter fun j => j ∉ chain).filter fun j => j ≠ i := by
    rw [List.filter_filter]
    apply List.filter_congr
    intro j _
    simp [not_or]
  rw [unvisited, unvisited, hsplit]
  exact List.length_filter_lt_length_iff_exists.mpr ⟨i, hmem, by simp⟩

end Unvisited

end Lib
