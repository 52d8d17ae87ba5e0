import IraOS.Container.Orderly
import IraOS.Container.Stack
import IraOS.Container.Singletons
import IraOS.Lib.Cycle

/-!
# Deadlock

A chain of `resolve` calls knows its own interfaces and stops at a cycle, but the locks of the
singletons are everybody's: a task in the lock of one singleton can come to wait for the lock of
another, whose holder needs the first. Tasks that are stuck wait for each other in a circle, and the
call of each that waits is for a singleton that depends on one the same task is in the lock of. So
**as long as no call comes to wait for such a lock, some resolve can go on**
(`some_resolve_can_go_on`); where no dependencies are circular, none ever does
(`acyclic_never_stuck`).

## What needs what

`NeededBy` is read off the registry: the type of a parameter is needed, and whatever the coroutine
function that builds may resolve by itself. What that is cannot be seen from outside and is taken to
be given (`Target.mayResolve`). `DependsOn` is any number of such steps.

## The argument

Whoever does not wait for a lock can go on, and so can whoever is in front of its queue. If nobody
can go on, everybody who has not finished waits for somebody who is in a lock, and that one has not
finished either. Among finitely many tasks that leads around in a circle. Along it every task needs
what it waits for, for a singleton whose lock it is in: this is what the stack of its calls says. So
what a task on the circle waits for depends on a singleton the same task is in the lock of, and that
is a wait that `Careful` rules out.

The invariant is therefore about every call that waits, at the moment it began to (`Waits`), and the
turns of others keep it: who is in front stays in front.
-/

set_option autoImplicit false

namespace IraOS

open Lib

namespace Resolver

variable {registry : ServiceRegistry} {s : State} {i j : Nat}

/-- Building one may ask for the other: a parameter has its type, or the coroutine function may
resolve it. -/
def NeededBy (registry : ServiceRegistry) (interface needed : PyType) : Prop :=
  ∃ d target, registry.get? interface = some d ∧ d.target? = some target ∧
    ((∃ p ∈ target.parameters, p.annotation = some needed) ∨ target.mayResolve needed = true)

/-- Building one may, in the end, ask for the other. -/
def DependsOn (registry : ServiceRegistry) : PyType → PyType → Prop :=
  Relation.ReflTransGen (NeededBy registry)

/-- The task has begun a `resolve` that has neither returned nor raised. -/
def Unfinished (s : State) (i : Nat) : Prop := ¬ (s.pcs i).place.AtRest

/-- The task has a turn it can take now, so it is not held up by a lock that another task is in. -/
def CanGoOn (s : State) (i : Nat) : Prop :=
  Unfinished s i ∧ ∃ r s', system.step s (i, r) = some s'

/-- The call of the task for `interface` is about to wait for its lock. -/
def WillWait (s : State) (i : Nat) (interface : PyType) : Prop :=
  (∃ chain scope, (s.pcs i).place = .entering interface chain scope ∧ interface ∉ chain) ∧
    (∃ d, BuiltSingleton s.shared.registry interface d) ∧
    s.shared.singletonInstances.get? interface = none ∧ ¬ LockFree s.shared interface

/-- No registration changes, and no call comes to wait for the lock of a singleton that depends on
one whose lock the same task is in. -/
def Careful (registry : ServiceRegistry) (s : State) (l : Nat × Reply) : Prop :=
  Unchanging l ∧ ∀ interface, WillWait s l.1 interface →
    ∀ g ∈ (s.pcs l.1).holding, g.held.isSome = true →
      ¬ DependsOn registry interface g.interface

/-! ## Who waits for what -/

theorem Linked.needed {stack : List Caller} {interface : PyType} (h : Linked interface stack)
    (hf : ∀ f ∈ framesOf stack, registry.get? f.interface = some f.descriptor ∧
      f.descriptor.target? = some f.target) :
    ∀ g ∈ framesOf stack, Relation.TransGen (NeededBy registry) g.interface interface := by
  induction stack generalizing interface with
  | nil => exact fun g hg => absurd hg List.not_mem_nil
  | cons caller stack ih =>
    cases caller with
    | root scope => exact ih h hf
    | parameter f p rest kwargs =>
      have hstep : NeededBy registry f.interface interface :=
        ⟨f.descriptor, f.target, (hf f List.mem_cons_self).1, (hf f List.mem_cons_self).2,
          Or.inl ⟨p, h.2.1 p List.mem_cons_self, h.1⟩⟩
      intro g hg
      rcases List.mem_cons.mp hg with rfl | hg
      · exact .single hstep
      · exact (ih h.2.2 (fun f' hf' => hf f' (List.mem_cons_of_mem _ hf')) g hg).tail hstep
    | body f =>
      have hstep : NeededBy registry f.interface interface :=
        ⟨f.descriptor, f.target, (hf f List.mem_cons_self).1, (hf f List.mem_cons_self).2,
          Or.inr h.1⟩
      intro g hg
      rcases List.mem_cons.mp hg with rfl | hg
      · exact .single hstep
      · exact (ih h.2 (fun f' hf' => hf f' (List.mem_cons_of_mem _ hf')) g hg).tail hstep

def Waits (registry : ServiceRegistry) (s : State) (i : Nat) : Prop :=
  ∀ f, (s.pcs i).acquiring? = some f →
    (∃ c, f.held = some c ∧ (Front s.shared.locks c ∨
      ∀ g ∈ (s.pcs i).holding, g.held.isSome = true →
        ¬ DependsOn registry f.interface g.interface))

structure Patient (registry : ServiceRegistry) (s : State) : Prop where
  orderly : Orderly s
  unchanged : s.shared.registry = registry
  linked : ∀ i, (s.pcs i).Linked
  waits : ∀ i, Waits registry s i
  finite : {i | Unfinished s i}.Finite

namespace Patient

theorem start (registry : ServiceRegistry) : Patient registry (initial registry) where
  orderly := Orderly.start registry
  unchanged := rfl
  linked := initial_linked registry
  waits _ _ hf := by cases hf
  finite := by
    have hnone : {i | Unfinished (initial registry) i} = ∅ := by
      ext i
      simp [Unfinished, initial, Place.AtRest]
    rw [hnone]
    exact Set.finite_empty

theorem frames_registered (h : Patient registry s) {f : Frame} (hf : f ∈ (s.pcs i).frames) :
    registry.get? f.interface = some f.descriptor ∧ f.descriptor.target? = some f.target := by
  have hknown := (h.orderly.known i f hf).registered
  rw [← h.unchanged]
  exact ⟨hknown.current, hknown.target⟩

theorem waits_of_other (h : Patient registry s) {r : Reply} {t : Turn} (hr : Unchanging (i, r))
    (ht : turn s.shared (s.pcs i) r = some t) (hij : j ≠ i) : Waits registry (s.take i t) j := by
  intro f hf
  rw [Tasks.take_pcs_ne hij] at hf ⊢
  obtain ⟨c, hc, hwait⟩ := h.waits j f hf
  refine ⟨c, hc, ?_⟩
  rcases hwait with hfront | hwait
  · have hmem : c ∈ (s.pcs j).claims :=
      Orderly.mem_claims (Activity.mem_frames.mpr (Or.inl hf)) hc
    exact Or.inl (h.orderly.front_stays hr ht hij hmem hfront)
  · exact Or.inr hwait

theorem waits_of_turn (h : Patient registry s) {r : Reply} {t : Turn}
    (hcareful : Careful registry s (i, r)) (ht : turn s.shared (s.pcs i) r = some t) :
    Waits registry (s.take i t) i := by
  obtain ⟨s', a', actions⟩ := t
  have hmoved : Moved s.shared (s.pcs i) r s' a' actions := turn_moved ht
  intro f hf
  rw [Tasks.take_pcs_self] at hf ⊢
  show ∃ c, f.held = some c ∧ (Front s'.locks c ∨ _)
  cases hmoved with
  | still _ _ hacquiring' _ _ _ =>
    rw [hacquiring'] at hf
    cases hf
  | changed op hop hs' =>
    rw [hs', (Orderly.alike_of_unchanging (hcareful.1 op hop)).locks]
    exact h.waits i f hf
  | unbuilt | pushed | checked | shared | failed | completed => cases hf
  | @queued _ g _ hholding hg hlifetime hplace hcache hheld hs' =>
    cases hf
    obtain ⟨chain, hplace⟩ := hplace
    refine ⟨_, hheld, ?_⟩
    by_cases hfree : LockFree s.shared f.interface
    · refine Or.inl ?_
      obtain ⟨_, _, hlocks, hticket⟩ := Orderly.getSingletonLock_keeps s.shared f.interface
      have hempty : (getSingletonLock s.shared f.interface).1.locks
          (getSingletonLock s.shared f.interface).2 = [] := by
        rw [hlocks]
        exact h.orderly.getSingletonLock_free hfree
      have hfront : hasLock _ f.held := hheld ▸ hticket ▸ enqueue_hasLock hempty
      have hlock := Orderly.hasLock_front hfront _ hheld
      rw [hs']
      exact hlock
    · refine Or.inr ?_
      intro g hg'
      have hwill : WillWait s i f.interface :=
        ⟨⟨_, _, hplace⟩, ⟨f.descriptor, hg.current, hlifetime,
          ServiceDescriptor.instance?_of_target? hg.target⟩, hcache, hfree⟩
      exact hcareful.2 f.interface hwill g (hholding ▸ hg')

/-- **Every careful turn keeps all this.** -/
theorem step (h : Patient registry s) {r : Reply} {t : Turn} (hcareful : Careful registry s (i, r))
    (ht : turn s.shared (s.pcs i) r = some t) : Patient registry (s.take i t) := by
  refine ⟨h.orderly.step hcareful.1 ht, ?_, ?_, ?_, ?_⟩
  · exact (Orderly.turn_registry hcareful.1 ht).trans h.unchanged
  · exact Orderly.forall_take (P := fun _ a => a.Linked) h.linked (turn_linked (h.linked i) ht)
  · intro j
    by_cases hj : j = i
    · subst hj
      exact h.waits_of_turn hcareful ht
    · exact h.waits_of_other hcareful.1 ht hj
  · refine (h.finite.insert i).subset ?_
    intro j hj
    by_cases hji : j = i
    · exact Or.inl hji
    · refine Or.inr ?_
      rw [Set.mem_ofPred_eq, Unfinished, Tasks.take_pcs_ne hji] at hj
      exact hj

theorem run (h : Patient registry s) {ls : List (Nat × Reply)} {s' : State}
    (hm : system.Meets (Careful registry) s ls) (he : system.exec s ls = some s') :
    Patient registry s' := by
  apply Tasks.exec_turns _ h hm he
  intro s i r t hs hcareful ht
  exact hs.step hcareful ht

end Patient

/-! ## A circle of waiting tasks -/

theorem canGoOn_of_not_acquiring (hi : Unfinished s i) (h : (s.pcs i).acquiring? = none) :
    CanGoOn s i := by
  refine ⟨hi, .go, ?_⟩
  have hturn : ∃ t, turn s.shared (s.pcs i) .go = some t := by
    unfold Unfinished at hi
    generalize s.pcs i = a at hi h
    obtain ⟨place, stack⟩ := a
    cases place with
    | idle | finished => exact absurd trivial hi
    | entering | building | inBody | answering => exact ⟨_, rfl⟩
    | acquiring => cases h
  obtain ⟨t, ht⟩ := hturn
  exact ⟨_, Tasks.step_of ht⟩

theorem canGoOn_of_front {f : Frame} (hf : (s.pcs i).acquiring? = some f) {c : Nat × Nat}
    (hc : f.held = some c) (hfront : Front s.shared.locks c) : CanGoOn s i := by
  have hplace : (s.pcs i).place = .acquiring f := by
    unfold Activity.acquiring? at hf
    cases hp : (s.pcs i).place with
    | acquiring g =>
      rw [hp] at hf
      cases hf
      rfl
    | idle | entering | building | inBody | answering | finished =>
      rw [hp] at hf
      cases hf
  have hlock : hasLock s.shared f.held := ⟨c.1, c.2, hc, hfront⟩
  refine ⟨?_, .go, _, Tasks.step_of (t := secondCheck s.shared (s.pcs i).stack f) ?_⟩
  · rw [Unfinished, hplace]
    exact id
  · simp only [turn, hplace, if_pos hlock]

/-- The task waits for a lock that the other is in. -/
def WaitsFor (s : State) (i j : Nat) : Prop :=
  ∃ f g, (s.pcs i).acquiring? = some f ∧ g ∈ (s.pcs j).holding ∧ g.held.isSome = true ∧
    f.interface = g.interface

namespace Patient

theorem waitsFor_of_stuck (h : Patient registry s) (hstuck : ∀ i, ¬ CanGoOn s i)
    (hi : Unfinished s i) : ∃ j, Unfinished s j ∧ WaitsFor s i j := by
  cases hf : (s.pcs i).acquiring? with
  | none => exact absurd (canGoOn_of_not_acquiring hi hf) (hstuck i)
  | some f =>
    obtain ⟨c, hc, _⟩ := h.waits i f hf
    have hmem : f ∈ (s.pcs i).frames := Activity.mem_frames.mpr (Or.inl hf)
    have hqueued := h.orderly.queued.queued i c (Orderly.mem_claims hmem hc)
    cases hqueue : s.shared.locks c.1 with
    | nil =>
      rw [hqueue] at hqueued
      cases hqueued
    | cons ticket rest =>
      -- whose ticket is in front
      obtain ⟨j, hj⟩ := h.orderly.queued.owned c.1 ticket (hqueue ▸ List.mem_cons_self)
      obtain ⟨g, hg, hgheld⟩ := Activity.mem_claims.mp hj
      have hfront : Front s.shared.locks (c.1, ticket) := by
        rw [Front, hqueue]
        rfl
      have hg' : g ∈ (s.pcs j).holding := by
        rcases Activity.mem_frames.mp hg with hacquiring | hg'
        · exact absurd (canGoOn_of_front hacquiring hgheld hfront) (hstuck j)
        · exact hg'
      have hsame : f.interface = g.interface :=
        h.orderly.injective _ _ c.1 ((h.orderly.known i f hmem).lock c hc)
          ((h.orderly.known j g hg).lock (c.1, ticket) hgheld)
      refine ⟨j, ?_, f, g, hf, hg', by rw [hgheld]; rfl, hsame⟩
      intro hrest
      have hnil := (h.linked j).stack_nil hrest
      have hbuilt : (s.pcs j).place.built? = none := by
        cases hp : (s.pcs j).place with
        | idle | finished => rfl
        | entering | acquiring | building | inBody | answering =>
          rw [hp] at hrest
          exact hrest.elim
      rw [Activity.holding, hnil, hbuilt] at hg'
      cases hg'

theorem needed_of_holding (h : Patient registry s) {f g : Frame}
    (hf : (s.pcs i).acquiring? = some f) (hg : g ∈ (s.pcs i).holding) :
    Relation.TransGen (NeededBy registry) g.interface f.interface := by
  have hlinked := h.linked i
  have hframes : ∀ f ∈ (s.pcs i).frames, registry.get? f.interface = some f.descriptor ∧
      f.descriptor.target? = some f.target := fun f hf => h.frames_registered hf
  generalize s.pcs i = a at hf hg hlinked hframes
  obtain ⟨place, stack⟩ := a
  cases place with
  | acquiring f' =>
    cases hf
    exact hlinked.needed (fun f' hf' => hframes f' (List.mem_cons_of_mem _ hf')) g hg
  | idle | entering | building | inBody | answering | finished => cases hf

theorem dependsOn_of_waits (h : Patient registry s) {f g : Frame}
    (hw : Relation.ReflTransGen (WaitsFor s) i j) (hf : (s.pcs i).acquiring? = some f)
    (hg : (s.pcs j).acquiring? = some g) : DependsOn registry f.interface g.interface := by
  induction hw generalizing g with
  | refl =>
    rw [hf, Option.some.injEq] at hg
    rw [hg]
    exact .refl
  | tail _ hstep ih =>
    obtain ⟨f', g', hf', hg', _, hq⟩ := hstep
    have hneeded := h.needed_of_holding hg hg'
    rw [← hq] at hneeded
    exact (ih hf').trans hneeded.to_reflTransGen

theorem canGoOn (h : Patient registry s) (hi : Unfinished s i) : ∃ j, CanGoOn s j := by
  by_contra hnone
  have hstuck : ∀ j, ¬ CanGoOn s j := fun j hj => hnone ⟨j, hj⟩
  obtain ⟨x, _, hcycle⟩ := exists_cycle h.finite ⟨i, hi⟩
    fun j hj => h.waitsFor_of_stuck hstuck hj
  -- the last step of the circle: who waits for `x`, at a lock that `x` is in
  obtain ⟨y, hxy, hyx⟩ := Relation.TransGen.tail'_iff.mp
    (Within.mono (fun _ _ _ _ hw => hw) hcycle)
  obtain ⟨fy, g, hfy, hg, hheld, hq⟩ := hyx
  cases hfx : (s.pcs x).acquiring? with
  | none =>
    obtain ⟨z, hxz, _⟩ := Relation.TransGen.head'_iff.mp
      (Within.mono (fun _ _ _ _ hw => hw) hcycle)
    obtain ⟨f, _, hf, _⟩ := hxz
    rw [hfx] at hf
    cases hf
  | some fx =>
    have hdepends := h.dependsOn_of_waits hxy hfx hfy
    obtain ⟨c, hc, hwait⟩ := h.waits x fx hfx
    rcases hwait with hfront | hwait
    · exact hstuck x (canGoOn_of_front hfx hc hfront)
    · exact hwait g hg hheld (hq ▸ hdepends)

end Patient

/-- **Some resolve can go on**, as long as no call has come to wait for the lock of a singleton that
depends on one whose lock the same task is in. It need not be the one that is unfinished: that may
wait for a lock whose holder is in a slow constructor, but somebody there can take a step. -/
theorem some_resolve_can_go_on {registry : ServiceRegistry} {ls : List (Nat × Reply)} {s : State}
    {i : Nat} (hm : system.Meets (Careful registry) (initial registry) ls)
    (he : system.exec (initial registry) ls = some s) (hi : Unfinished s i) : ∃ j, CanGoOn s j :=
  ((Patient.start registry).run hm he).canGoOn hi

/-! ## Dependencies without a cycle -/

theorem Patient.careful_of_acyclic (h : Patient registry s)
    (hacyclic : ∀ I, ¬ Relation.TransGen (NeededBy registry) I I) {r : Reply}
    (hr : Unchanging (i, r)) : Careful registry s (i, r) := by
  refine ⟨hr, ?_⟩
  intro interface hwill g hg _ hdepends
  obtain ⟨⟨chain, scope, hplace, _⟩, _⟩ := hwill
  have hlinked := h.linked i
  have hframes : ∀ f ∈ (s.pcs i).frames, registry.get? f.interface = some f.descriptor ∧
      f.descriptor.target? = some f.target := fun f hf => h.frames_registered hf
  change (s.pcs i).place = _ at hplace
  change g ∈ (s.pcs i).holding at hg
  generalize s.pcs i = a at hplace hg hlinked hframes
  obtain ⟨place, stack⟩ := a
  obtain rfl : place = .entering interface chain scope := hplace
  have hneeded := Linked.needed hlinked hframes g hg
  exact hacyclic g.interface (hneeded.trans_left hdepends)

theorem Patient.meets_of_acyclic (hacyclic : ∀ I, ¬ Relation.TransGen (NeededBy registry) I I)
    {ls : List (Nat × Reply)} (hls : ∀ l ∈ ls, Unchanging l) (h : Patient registry s) :
    system.Meets (Careful registry) s ls := by
  induction ls generalizing s with
  | nil => trivial
  | cons l ls ih =>
    obtain ⟨i, r⟩ := l
    have hcareful := h.careful_of_acyclic hacyclic (hls (i, r) List.mem_cons_self)
    refine ⟨hcareful, ?_⟩
    intro s' hstep
    obtain ⟨t, ht, rfl⟩ := Tasks.step_some hstep
    exact ih (fun l hl => hls l (List.mem_cons_of_mem _ hl)) (h.step hcareful ht)

/-- **Without circular dependencies no resolve is ever stuck for good.** -/
theorem acyclic_never_stuck {registry : ServiceRegistry} {ls : List (Nat × Reply)} {s : State}
    {i : Nat} (hacyclic : ∀ I, ¬ Relation.TransGen (NeededBy registry) I I)
    (hls : ∀ l ∈ ls, Unchanging l) (he : system.exec (initial registry) ls = some s)
    (hi : Unfinished s i) : ∃ j, CanGoOn s j := by
  have h := Patient.start registry
  exact (h.run (h.meets_of_acyclic hacyclic hls) he).canGoOn hi

/-! ## Two tasks at one lock -/

theorem registryA_acyclic (I : PyType) : ¬ Relation.TransGen (NeededBy registryA) I I := by
  intro h
  obtain ⟨J, ⟨d, target, hd, htarget, hneeded⟩, _⟩ := Relation.TransGen.head'_iff.mp h
  rw [registryA, Dict.get?_set] at hd
  split at hd
  · cases hd
    cases htarget
    rcases hneeded with ⟨p, hp, _⟩ | hmay
    · cases hp
    · cases hmay
  · cases hd

/-- Both resolve `A`; the second waits for the first. -/
def queueing : List (Nat × Reply) :=
  [(0, .resolve none interfaceA), (0, .go), (1, .resolve none interfaceA), (1, .go)]

theorem some_resolve_can_go_on_queueing :
    ∃ s, system.exec (initial registryA) queueing = some s ∧ ∃ j, CanGoOn s j := by
  have hrun : (system.exec (initial registryA) queueing).map
      (fun s => (s.pcs 0).acquiring?.isSome) = some true := rfl
  obtain ⟨s, hs, hacquiring⟩ := Option.map_eq_some_iff.mp hrun
  have hls : ∀ l ∈ queueing, Unchanging l := by
    intro l hl op hop
    simp only [queueing, List.mem_cons, List.not_mem_nil, or_false] at hl
    rcases hl with rfl | rfl | rfl | rfl <;> cases hop
  have hm : system.Meets (Careful registryA) (initial registryA) queueing :=
    (Patient.start registryA).meets_of_acyclic registryA_acyclic hls
  have hi : Unfinished s 0 := by
    intro hrest
    rw [Activity.acquiring?] at hacquiring
    cases hp : (s.pcs 0).place with
    | idle | finished =>
      rw [hp] at hacquiring
      cases hacquiring
    | entering | acquiring | building | inBody | answering =>
      rw [hp] at hrest
      exact hrest
  exact ⟨s, hs, some_resolve_can_go_on hm hs hi⟩

/-! ## Two tasks in one cycle -/

/-- The task waits for a lock, and is not in front. -/
def waiting (s : State) (i : Nat) : Bool :=
  match (s.pcs i).place with
  | .acquiring f => !decide (hasLock s.shared f.held)
  | _ => false

theorem not_canGoOn_of_waiting (h : waiting s i = true) : ¬ CanGoOn s i := by
  rintro ⟨_, r, s', hstep⟩
  obtain ⟨t, ht, _⟩ := Tasks.step_some hstep
  unfold waiting at h
  cases hp : (s.pcs i).place with
  | acquiring f =>
    rw [hp] at h
    have hlock : ¬ hasLock s.shared f.held := by simpa using h
    cases r with
    | go =>
      simp only [turn, hp, if_neg hlock] at ht
      cases ht
    | resolve | raise | change =>
      simp only [turn, hp] at ht
      cases ht
  | idle | entering | building | inBody | answering | finished =>
    rw [hp] at h
    cases h

def interfaceB : PyType := ⟨1, "B", "<class 'app.B'>"⟩

def interfaceSlow : PyType := ⟨2, "Slow", "<class 'app.Slow'>"⟩

/-- A slow coroutine function for `Slow`, `class A: def __init__(self, slow: Slow, b: B)`, and
`class B: def __init__(self, a: A)`. -/
def circularRegistry : ServiceRegistry :=
  ((Dict.empty.set interfaceSlow ⟨0, interfaceSlow, .TRANSIENT,
      .factory { name := "make_slow", signature := [], isCoroutine := true }⟩).set
    interfaceA ⟨1, interfaceA, .SINGLETON,
      .implementation (classOf interfaceA.name
        [⟨"slow", some interfaceSlow, false⟩,
         ⟨"b", some interfaceB, false⟩])⟩).set
    interfaceB ⟨2, interfaceB, .SINGLETON,
      .implementation (classOf interfaceB.name [⟨"a", some interfaceA, false⟩])⟩

/-- One task resolves `A` until it awaits `make_slow`, the other resolves `B` until it waits for the
lock of `A`, and the first goes on until it waits for the lock of `B`. -/
def fromBothEnds : List (Nat × Reply) :=
  [(0, .resolve none interfaceA), (0, .go), (0, .go), (0, .go), (0, .go), (0, .go),
    (1, .resolve none interfaceB), (1, .go), (1, .go), (1, .go), (1, .go),
    (0, .go), (0, .go), (0, .go), (0, .go)]

/-- Neither is told of the cycle, and neither can go on. -/
theorem cycle_deadlocks :
    ∃ s, system.exec (initial circularRegistry) fromBothEnds = some s ∧
      (∃ i, Unfinished s i) ∧ ∀ i, ¬ CanGoOn s i := by
  have hwaiting : (system.exec (initial circularRegistry) fromBothEnds).map
      (fun s => (waiting s 0, waiting s 1)) = some (true, true) := rfl
  obtain ⟨s, hs, hboth⟩ := Option.map_eq_some_iff.mp hwaiting
  obtain ⟨hzero, hone⟩ := Prod.mk.inj hboth
  refine ⟨s, hs, ⟨0, ?_⟩, ?_⟩
  · intro hrest
    unfold waiting at hzero
    cases hp : (s.pcs 0).place with
    | idle | finished =>
      rw [hp] at hzero
      cases hzero
    | entering | acquiring | building | inBody | answering =>
      rw [hp] at hrest
      exact hrest
  · intro i
    by_cases hi : i = 0
    · exact hi ▸ not_canGoOn_of_waiting hzero
    by_cases hi' : i = 1
    · exact hi' ▸ not_canGoOn_of_waiting hone
    · intro hgo
      have hother : ∀ l ∈ fromBothEnds, l.1 ≠ i := by
        intro l hl hq
        simp only [fromBothEnds, List.mem_cons, List.not_mem_nil, or_false] at hl
        rcases hl with rfl | rfl | rfl | rfl | rfl | rfl | rfl | rfl | rfl | rfl | rfl | rfl | rfl |
          rfl | rfl
        all_goals first | exact hi hq.symm | exact hi' hq.symm
      have huntouched : s.pcs i = ⟨.idle, []⟩ := Tasks.exec_untouched hother hs
      apply hgo.1
      rw [huntouched]
      trivial

end Resolver

end IraOS
