import IraOS.Container.Disposed
import IraOS.Container.Singletons

/-!
# One instance per scope

Singletons have a lock and look again once they have it. A scoped service has neither: between the
look at the scope's dictionary and the store lies the whole `_build`, and a second call that looks
in the meantime builds a second instance, which is stored over the first. Only the one that is
stored last is there when the scope is disposed.

While no call looks for a scoped service that is being built in the scope (`Single`), the scope
builds one instance of each and disposes each once.

## The condition on a step

`Single` has three parts. No call looks in the scope for a service that some call is building there,
in whatever task. The scope is disposed when no resolve is under way in it, as one that is would
store after the loop. And no construction gives an object that another has given, which is a matter
of the factories.

## The argument

The calls that build a service are counted, task by task (`builders`); a task can build the same
service in two scopes, and the stack of a task has both. At most one call builds it in this scope,
and only if it has not been built (`Solo`). A turn changes the count of one task by one at most, and
what it does to it is read off the moves of `Container.Moves`. From `Solo` it follows that nothing
is stored over something else, and the rest is `Container.Disposed`.
-/

set_option autoImplicit false

namespace IraOS

open Lib Resolver

namespace Disposal

variable {objects : Objects} {s s' : State} {k : Nat}

def Builds (k : Nat) (I : PyType) (f : Frame) : Prop :=
  f.descriptor.lifetime = .SCOPED ∧ f.scope = k ∧ f.interface = I

instance (k : Nat) (I : PyType) (f : Frame) : Decidable (Builds k I f) :=
  inferInstanceAs (Decidable (_ ∧ _))

def builders (k : Nat) (I : PyType) (a : Activity) : Nat :=
  a.holding.countP fun f => Builds k I f

def OfService (k : Nat) (I : PyType) (c : Construction) : Prop :=
  c.owner = some (.scope k) ∧ c.interface = I

instance (k : Nat) (I : PyType) (c : Construction) : Decidable (OfService k I c) :=
  inferInstanceAs (Decidable (_ ∧ _))

def Outside (k : Nat) (a : Activity) : Prop :=
  (∀ f ∈ a.frames, f.scope ≠ k) ∧ ∀ I chain, a.place ≠ .entering I chain k

/-- The scope is disposed when its resolves have finished. -/
def Quiet (k : Nat) (s : State) (l : Label) : Prop :=
  l = .close (.scope k) → s.loops (.scope k) = .notStarted → ∀ i, Outside k (s.base.pcs i)

/-- No call looks in the scope for a scoped service that is being built there; the scope is disposed
while nobody resolves in it; and no two constructions give one object. -/
structure Single (objects : Objects) (k : Nat) (s : State) (l : Label) : Prop where
  own : Own objects s l
  quiet : Quiet k s l
  alone : ∀ i, l = .task i .go → ∀ I chain d, (s.base.pcs i).place = .entering I chain k →
    s.base.shared.registry.get? I = some d → d.lifetime = .SCOPED →
    ∀ j, builders k I (s.base.pcs j) = 0

/-! ## The calls of a task -/

theorem owner_construction {f : Frame} {serial : Nat} :
    (construction f serial).owner = some (.scope k) ↔
      f.descriptor.lifetime = .SCOPED ∧ f.scope = k := by
  unfold Construction.owner construction
  dsimp only
  cases f.descriptor.lifetime <;> simp

inductive Held (s : ContainerState) (a : Activity) (r : Reply) (a' : Activity) : Prop
  | kept (h : a'.holding.Sublist a.holding)
  | past (f : Frame) (hplace : a.place = .acquiring f) (h : a'.holding = f :: a.holding)
  | pushed (f : Frame) (chain : ResolutionChain) (hr : r = .go)
      (hplace : a.place = .entering f.interface chain f.scope)
      (hd : s.registry.get? f.interface = some f.descriptor)
      (hcached : cached s f.descriptor f.interface f.scope = none)
      (h : a'.holding = f :: a.holding)

section Turns

variable {s : ContainerState} {a : Activity} {r : Reply} {t : Turn} {stack : List Caller}

theorem enter_building {I : PyType} {chain : ResolutionChain} {f : Frame} {rest : List Parameter}
    {kwargs : Kwargs} (ht : enter s stack I chain k = t)
    (h : t.pc.place = .building f rest kwargs) : cached s f.descriptor I k = none := by
  cases enter_cases ht with
  | refused | cached | given => cases h
  | @built d target _ _ hcached =>
    generalize hbuild : build s stack I chain k d target = t at h
    cases build_cases hbuild with
    | queued => cases h
    | atOnce =>
      cases h
      exact hcached

theorem turn_held (ht : turn s a r = some t) : Held s a r t.pc := by
  obtain ⟨s', a', actions⟩ := t
  have hmoved : Moved s a r s' a' actions := turn_moved ht
  cases hmoved with
  | still _ _ _ hholding _ _ =>
    exact .kept (by rw [hholding])
  | changed => exact .kept (List.Sublist.refl _)
  | unbuilt _ hholding _ => exact .kept (by rw [hholding]; exact List.Sublist.refl _)
  | @pushed f hacquiring hholding hf hlifetime hplace hheld =>
    obtain ⟨chain, hplace⟩ := hplace
    obtain ⟨place, stack⟩ := a
    obtain rfl : place = .entering f.interface chain f.scope := hplace
    cases r with
    | go =>
      refine .pushed f chain rfl rfl hf.current (enter_building (Option.some.inj ht) rfl) ?_
      rw [hholding]
      rfl
    | resolve | raise | change => cases ht
  | queued _ hholding _ _ _ _ _ _ => exact .kept (by rw [hholding]; exact List.Sublist.refl _)
  | @checked f hplace _ _ =>
    refine .past f hplace ?_
    rw [(Activity.frames_of_acquiring hplace).1]
    rfl
  | shared hplace _ _ _ =>
    refine .kept ?_
    rw [(Activity.frames_of_acquiring hplace).1]
    exact List.Sublist.refl _
  | failed _ _ hholding _ _ | completed _ _ hholding _ _ _ =>
    refine .kept ?_
    rw [hholding]
    exact List.sublist_cons_self _ _

theorem turn_completing {f : Frame} (ht : turn s a r = some t) (hf : completing? a r = some f) :
    a.holding = f :: t.pc.holding := by
  cases turn_cases ht with
  | built g rest kwargs stack =>
    cases rest with
    | cons p rest => cases hf
    | nil =>
      simp only [completing?] at hf
      split at hf
      · cases hf
      · next hcoroutine =>
        cases hf
        simp only [stepBuild, if_neg hcoroutine]
        rfl
  | returned g stack =>
    cases hf
    rfl
  | asked | changed | raisedInCall | raised | resolving => cases completing_go hf
  | entered | acquired | answered => cases hf

theorem turn_entering {I : PyType} {chain : ResolutionChain} (ht : turn s a r = some t)
    (hplace : t.pc.place = .entering I chain k) :
    r = .resolve (some k) I ∨ k = s.nextScope ∨ ∃ f ∈ a.holding, f.scope = k := by
  have hcall : ∀ {stack scope J}, call s stack scope J = some t →
      (scope = some k ∧ J = I) ∨ k = s.nextScope := by
    intro stack scope J h
    cases call_cases h with
    | inScope =>
      cases hplace
      exact Or.inl ⟨rfl, rfl⟩
    | root =>
      cases hplace
      exact Or.inr rfl
  cases turn_cases ht with
  | asked _ h | resolving _ h =>
    rcases hcall h with ⟨rfl, rfl⟩ | hk
    · exact Or.inl rfl
    · exact Or.inr (Or.inl hk)
  | @changed place stack op hrest =>
    obtain rfl : place = .entering I chain k := hplace
    exact hrest.elim
  | entered J chain' k' stack =>
    exfalso
    generalize hentered : enter s stack J chain' k' = t at hplace
    cases enter_cases hentered with
    | refused | cached | given => cases hplace
    | @built d target =>
      generalize hbuild : build s stack J chain' k' d target = t at hplace
      cases build_cases hbuild with
      | queued | atOnce => cases hplace
  | @acquired f stack =>
    generalize hchecked : secondCheck s stack f = t at hplace
    cases secondCheck_cases hchecked with
    | shared | absent => cases hplace
  | built f rest kwargs stack =>
    generalize hstepped : stepBuild s stack f rest kwargs = t at hplace
    cases stepBuild_cases hstepped with
    | parameter =>
      cases hplace
      exact Or.inr (Or.inr ⟨f, List.mem_cons_self, rfl⟩)
    | unannotated | coroutine | completed => cases hplace
  | raisedInCall | returned | raised => cases hplace
  | answered J result stack =>
    exfalso
    generalize hreturned : returnTo s stack J result = t at hplace
    cases returnTo_cases hreturned with
    | finished | root | body | resumed | failed => cases hplace

theorem turn_acquiring {f : Frame} (ht : turn s a r = some t)
    (hold : ∀ f, a.acquiring? = some f → f.descriptor.lifetime = .SINGLETON)
    (hf : t.pc.acquiring? = some f) : f.descriptor.lifetime = .SINGLETON := by
  obtain ⟨s', a', actions⟩ := t
  have hmoved : Moved s a r s' a' actions := turn_moved ht
  cases hmoved with
  | still _ _ hacquiring' _ _ _ =>
    have hf : a'.acquiring? = some f := hf
    rw [hacquiring'] at hf
    cases hf
  | changed => exact hold f hf
  | queued _ _ _ hlifetime _ _ _ _ =>
    cases hf
    exact hlifetime
  | unbuilt | pushed | checked | shared | failed | completed => cases hf

end Turns

/-! ## One at a time -/

def Waiting (s : State) : Prop :=
  ∀ i f, (s.base.pcs i).acquiring? = some f → f.descriptor.lifetime = .SINGLETON

/-- In the scope, a scoped service is being built by one call at most, and only if it has not been
built; what has been built is in the dictionary until the scope is disposed, and then there is
nobody left in it. -/
structure Solo (k : Nat) (s : State) : Prop where
  one : ∀ I i j, i ≠ j → builders k I (s.base.pcs i) + builders k I (s.base.pcs j) ≤ 1
  fresh : ∀ I i, 0 < builders k I (s.base.pcs i) → ∀ c ∈ s.made, ¬ OfService k I c
  once : ∀ I, (s.made.countP fun c => OfService k I c) ≤ 1
  cached : s.loops (.scope k) = .notStarted → ∀ c ∈ s.made, c.owner = some (.scope k) →
    (s.instances (.scope k)).get? c.interface = some c.inst
  still : s.loops (.scope k) ≠ .notStarted → ∀ i, Outside k (s.base.pcs i)

theorem pair_update {B : Nat → Nat} (h : ∀ i j, i ≠ j → B i + B j ≤ 1) {m b : Nat}
    (hb : b ≤ B m ∨ (b ≤ 1 ∧ ∀ j, B j = 0)) (i j : Nat) (hne : i ≠ j) :
    Function.update B m b i + Function.update B m b j ≤ 1 := by
  have hij := h i j hne
  by_cases hi : i = m
  · subst hi
    rw [Function.update_self, Function.update_of_ne (Ne.symm hne)]
    rcases hb with hb | ⟨hb, hzero⟩
    · omega
    · rw [hzero j]
      omega
  · rw [Function.update_of_ne hi]
    by_cases hj : j = m
    · subst hj
      rw [Function.update_self]
      rcases hb with hb | ⟨hb, hzero⟩
      · omega
      · rw [hzero i]
        omega
    · rwa [Function.update_of_ne hj]

theorem builders_take (I : PyType) (s : Resolver.State) (i : Nat) (t : Turn) (j : Nat) :
    builders k I ((s.take i t).pcs j) =
      Function.update (fun j => builders k I (s.pcs j)) i (builders k I t.pc) j := by
  by_cases hj : j = i
  · subst hj
    rw [Tasks.take_pcs_self, Function.update_self]
  · rw [Tasks.take_pcs_ne hj, Function.update_of_ne hj]

theorem builders_pos {I : PyType} {a : Activity} {f : Frame} (hf : f ∈ a.holding)
    (hbuilds : Builds k I f) : 0 < builders k I a :=
  List.countP_pos_iff.mpr ⟨f, hf, by simpa using hbuilds⟩

namespace Solo

variable {i : Nat} {reply : Reply} {t : Turn}

theorem open_of_mem (h : Solo k s) {f : Frame} (hf : f ∈ (s.base.pcs i).holding)
    (hk : f.scope = k) : s.loops (.scope k) = .notStarted := by
  by_contra hloop
  exact (h.still hloop i).1 f (Orderly.mem_frames hf) hk

theorem builders_turned (h : Solo k s) (waiting : Waiting s)
    (single : Single objects k s (.task i reply))
    (ht : turn s.base.shared (s.base.pcs i) reply = some t) (I : PyType) :
    builders k I t.pc ≤ builders k I (s.base.pcs i) ∨
      builders k I t.pc ≤ 1 ∧ (∀ j, builders k I (s.base.pcs j) = 0) ∧
        completing? (s.base.pcs i) reply = none ∧ ∀ c ∈ s.made, ¬ OfService k I c := by
  cases turn_held ht with
  | kept hsub => exact Or.inl hsub.countP_le
  | past f hplace hheld =>
    have hf : (s.base.pcs i).acquiring? = some f := by rw [Activity.acquiring?, hplace]; rfl
    have hnot : ¬ Builds k I f := by
      intro hbuilds
      have hlifetime := hbuilds.1
      rw [waiting i f hf] at hlifetime
      cases hlifetime
    left
    rw [builders, hheld, List.countP_cons_of_neg (by simpa using hnot)]
    exact Nat.le_refl _
  | pushed f chain hr hplace hd hcached hheld =>
    by_cases hbuilds : Builds k I f
    · right
      obtain ⟨hlifetime, rfl, rfl⟩ := hbuilds
      subst hr
      have hnobody := single.alone i rfl f.interface chain f.descriptor hplace hd hlifetime
      refine ⟨?_, hnobody, ?_, ?_⟩
      · rw [builders, hheld, List.countP_cons_of_pos (by simp [Builds, hlifetime])]
        exact Nat.le_of_eq (congrArg (· + 1) (hnobody i))
      · simp only [completing?, hplace]
      · rintro c hc ⟨howner, hI⟩
        have hloop : s.loops (.scope f.scope) = .notStarted := by
          by_contra hloop
          exact (h.still hloop i).2 f.interface chain hplace
        have hget := h.cached hloop c hc howner
        rw [Resolver.cached, hlifetime] at hcached
        have hnone : (s.instances (.scope f.scope)).get? f.interface = none := hcached
        rw [hI, hnone] at hget
        cases hget
    · left
      rw [builders, hheld, List.countP_cons_of_neg (by simpa using hbuilds)]
      exact Nat.le_refl _

theorem completing_alone (h : Solo k s) {f : Frame} {I : PyType}
    (ht : turn s.base.shared (s.base.pcs i) reply = some t)
    (hf : completing? (s.base.pcs i) reply = some f) (hbuilds : Builds k I f) (j : Nat) :
    builders k I ((s.base.take i t).pcs j) = 0 := by
  have hcount : builders k I (s.base.pcs i) = builders k I t.pc + 1 := by
    rw [builders, turn_completing ht hf, List.countP_cons_of_pos (by simpa using hbuilds)]
    rfl
  rw [builders_take]
  by_cases hj : j = i
  · subst hj
    have hpair := h.one I j (j + 1) (by omega)
    rw [Function.update_self]
    omega
  · have hpair := h.one I j i hj
    rw [Function.update_of_ne hj]
    omega

theorem outside_turned (h : Solo k s) (hrecorded : Recorded objects s)
    (hk : k ∈ s.base.shared.created) (hloop : s.loops (.scope k) ≠ .notStarted)
    (hrefused : s.refuses reply = false)
    (ht : turn s.base.shared (s.base.pcs i) reply = some t) : Outside k t.pc := by
  have hout := h.still hloop i
  constructor
  · intro g hg hq
    have hmoved := turn_moved ht
    rcases hmoved.frames hg with hg | ⟨-, chain, hplace⟩
    · exact hout.1 g hg hq
    · exact hout.2 g.interface chain (hq ▸ hplace)
  · intro I chain hplace
    rcases turn_entering ht hplace with rfl | hnew | ⟨f, hf, hq⟩
    · simp [State.refuses, hloop] at hrefused
    · have hlt := hrecorded.numbered.created k hk
      omega
    · exact hout.1 f (Orderly.mem_frames hf) hq

theorem turned (h : Solo k s) (hrecorded : Recorded objects s) (waiting : Waiting s)
    (hk : k ∈ s.base.shared.created) (hrefused : s.refuses reply = false)
    (single : Single objects k s (.task i reply))
    (ht : turn s.base.shared (s.base.pcs i) reply = some t) :
    Solo k (s.turned i reply (s.base.take i t)) := by
  have hbuilders := h.builders_turned waiting single ht
  have hnew : ∀ f, completing? (s.base.pcs i) reply = some f → ∀ I,
      OfService k I (construction f s.base.shared.serial) → Builds k I f := by
    rintro f hf I ⟨howner, hI⟩
    obtain ⟨hlifetime, hscope⟩ := owner_construction.mp howner
    exact ⟨hlifetime, hscope, hI⟩
  constructor
  case one =>
    intro I j j' hne
    show builders k I ((s.base.take i t).pcs j) + builders k I ((s.base.take i t).pcs j') ≤ 1
    rw [builders_take, builders_take]
    refine pair_update (h.one I) ?_ j j' hne
    rcases hbuilders I with hle | ⟨hle, hzero, -⟩
    · exact Or.inl hle
    · exact Or.inr ⟨hle, hzero⟩
  case fresh =>
    intro I j hpos c hmem hservice
    have hpos : 0 < builders k I ((s.base.take i t).pcs j) := hpos
    rcases Recorded.mem_turned.mp hmem with hc | ⟨f, hf, rfl⟩
    · rw [builders_take] at hpos
      by_cases hj : j = i
      · subst hj
        rw [Function.update_self] at hpos
        rcases hbuilders I with hle | ⟨-, -, -, hnone⟩
        · exact h.fresh I j (Nat.lt_of_lt_of_le hpos hle) c hc hservice
        · exact hnone c hc hservice
      · rw [Function.update_of_ne hj] at hpos
        exact h.fresh I j hpos c hc hservice
    · have hzero := h.completing_alone ht hf (hnew f hf I hservice) j
      omega
  case once =>
    intro I
    show ((s.made ++ _).countP fun c => OfService k I c) ≤ 1
    rw [List.countP_append]
    cases hf : completing? (s.base.pcs i) reply with
    | none => exact h.once I
    | some f =>
      by_cases hservice : OfService k I (construction f s.base.shared.serial)
      · have hpos := builders_pos (Recorded.completing_holding hf) (hnew f hf I hservice)
        have hnone : (s.made.countP fun c => OfService k I c) = 0 :=
          List.countP_eq_zero.mpr fun c hc => by simpa using h.fresh I i hpos c hc
        rw [hnone]
        simp [hservice]
      · have honce := h.once I
        simpa [hservice] using honce
  case cached =>
    intro hloop c hc howner
    cases turn_touched ht (.scope k) with
    | same hd hother =>
      rcases Recorded.mem_turned.mp hc with hc | ⟨f, hf, rfl⟩
      · have hget := h.cached hloop c hc howner
        unfold State.instances State.turned
        exact hd ▸ hget
      · exact absurd howner (hother f hf)
    | stored f hf howner' hd =>
      show (instances t.shared (.scope k)).get? c.interface = some c.inst
      rw [hd]
      rcases Recorded.mem_turned.mp hc with hc | ⟨g, hg, rfl⟩
      · have hbuilds := hnew f hf f.interface ⟨howner', rfl⟩
        have hpos := builders_pos (Recorded.completing_holding hf) hbuilds
        have hne : c.interface ≠ f.interface := by
          intro hq
          exact h.fresh f.interface i hpos c hc ⟨howner, hq⟩
        rw [Dict.get?_set_ne hne]
        exact h.cached hloop c hc howner
      · rw [hf] at hg
        cases hg
        exact Dict.get?_set_self ..
    | evicted I howner' => cases howner'
    | emptied k' howner' hnone hk' hd =>
      cases howner'
      rcases hk' with rfl | hk'
      · exact absurd (hrecorded.numbered.created _ hk) (Nat.lt_irrefl _)
      · exact absurd hk (hrecorded.roots i k hk').2
  case still =>
    intro hloop j
    have hloop : s.loops (.scope k) ≠ .notStarted := hloop
    exact Orderly.forall_take (P := fun _ a => Outside k a) (h.still hloop)
      (h.outside_turned hrecorded hk hloop hrefused ht) j

theorem unmoved (h : Solo k s) (hpcs : s'.base.pcs = s.base.pcs) (hmade : s'.made = s.made)
    (hcached : s'.loops (.scope k) = .notStarted → s.loops (.scope k) = .notStarted ∧
      s'.instances (.scope k) = s.instances (.scope k))
    (hstill : s'.loops (.scope k) ≠ .notStarted → ∀ i, Outside k (s.base.pcs i)) :
    Solo k s' where
  one := by
    rw [hpcs]
    exact h.one
  fresh := by
    rw [hpcs, hmade]
    exact h.fresh
  once := by
    rw [hmade]
    exact h.once
  cached := by
    intro hloop
    obtain ⟨hloop, hinstances⟩ := hcached hloop
    rw [hmade, hinstances]
    exact h.cached hloop
  still := by
    rw [hpcs]
    exact hstill

theorem closed (h : Solo k s) (owner : Owner) (quiet : Quiet k s (.close owner)) :
    Solo k (s.close owner) := by
  unfold State.close
  split
  · next hl =>
    by_cases howner : owner = .scope k
    · subst howner
      refine h.unmoved rfl rfl ?_ fun _ => quiet rfl hl
      rw [State.setLoop_self]
      nofun
    · refine h.unmoved rfl rfl ?_ ?_ <;> rw [State.setLoop_ne (Ne.symm howner)]
      · exact fun hloop => ⟨hloop, rfl⟩
      · exact h.still
  · exact h

theorem advanced (h : Solo k s) {owner : Owner} (ha : Advanced objects s owner s') :
    Solo k s' := by
  by_cases howner : owner = .scope k
  · -- the loop has started, and does not stop having started
    subst howner
    have hloop : s.loops (.scope k) ≠ .notStarted := by
      cases ha with
      | raised hloop _ | done hloop | passed hloop _ | disposing hloop _ _ | returned hloop =>
        rw [hloop]
        nofun
    cases ha <;>
      · refine h.unmoved rfl rfl ?_ fun _ => h.still hloop
        rw [State.setLoop_self]
        nofun
  · cases ha with
    | raised | passed | disposing | returned =>
      refine h.unmoved rfl rfl ?_ ?_ <;> rw [State.setLoop_ne (Ne.symm howner)]
      · exact fun hloop => ⟨hloop, rfl⟩
      · exact h.still
    | done =>
      refine h.unmoved (by cases owner <;> rfl) rfl ?_ ?_ <;>
        rw [State.setLoop_ne (Ne.symm howner)]
      · exact fun hloop => ⟨hloop, instances_clear_of_ne (Ne.symm howner)⟩
      · exact h.still

theorem unspoiled (h : Solo k s) (hrecorded : Recorded objects s) {l : Label}
    (single : Single objects k s l) : Unspoiled objects (.scope k) s l where
  own := single.own
  stores := by
    intro i reply f _ _ hf howner
    obtain ⟨hlifetime, hscope⟩ := owner_construction.mp howner
    have hholding := Recorded.completing_holding hf
    rw [h.open_of_mem hholding hscope]
    intro inst hget
    obtain ⟨c, hc, howner', hI, -⟩ := hrecorded.stored (.scope k) f.interface inst hget
    have hpos : 0 < builders k f.interface (s.base.pcs i) :=
      builders_pos hholding ⟨hlifetime, hscope, rfl⟩
    exact absurd ⟨howner', hI⟩ (h.fresh f.interface i hpos c hc)
  removes := by
    intro i I _ howner
    cases howner

end Solo

/-! ## Whole runs -/

structure Scoped (objects : Objects) (k : Nat) (s : State) : Prop where
  recorded : Recorded objects s
  waiting : Waiting s
  solo : k ∈ s.base.shared.created → Solo k s ∧ Tended objects s (.scope k)

namespace Scoped

theorem start (registry : ServiceRegistry) : Scoped objects k (initial registry) where
  recorded := Recorded.start registry
  waiting _ _ hf := by cases hf
  solo hk := absurd hk List.not_mem_nil

theorem waiting_step {l : Label} (h : Waiting s)
    (hstep : (system objects).step s l = some s') : Waiting s' := by
  cases l with
  | task i reply =>
    rcases task_cases hstep with ⟨-, rfl⟩ | ⟨-, t, ht, rfl⟩
    · exact h
    · refine Orderly.forall_take (P := fun _ a => ∀ f, a.acquiring? = some f →
        f.descriptor.lifetime = .SINGLETON) h ?_
      intro f hf
      exact turn_acquiring ht (h i) hf
  | close owner =>
    obtain ⟨-, rfl⟩ := close_cases hstep
    unfold State.close
    split <;> exact h
  | loop owner outcome =>
    cases advance_cases hstep with
    | raised | passed | disposing | returned => exact h
    | done => cases owner <;> exact h

theorem solo_new (h : Recorded objects s) (h' : Recorded objects s') {l : Label}
    (hstep : (system objects).step s l = some s') (hk : k ∉ s.base.shared.created)
    (hk' : k ∈ s'.base.shared.created) : Solo k s' := by
  have hloop : s.loops (.scope k) = .notStarted := by
    by_contra hloop
    exact hk (h.closed k hloop)
  cases l with
  | task i reply =>
    rcases task_cases hstep with ⟨-, rfl⟩ | ⟨-, t, ht, rfl⟩
    · exact absurd hk' hk
    · have hk' : k ∈ t.shared.created := hk'
      cases turn_numbering ht with
      | same _ hcreated | rooted _ hcreated =>
        rw [hcreated] at hk'
        exact absurd hk' hk
      | created hr _ hcreated hpc =>
        rw [hcreated] at hk'
        obtain rfl : k = s.base.shared.nextScope := (List.mem_cons.mp hk').resolve_right hk
        -- the number is new, and whatever has one has an older one
        have hpcs : ∀ j, (s.base.take i t).pcs j = s.base.pcs j := by
          intro j
          by_cases hj : j = i
          · subst hj
            rw [Tasks.take_pcs_self, hpc]
          · rw [Tasks.take_pcs_ne hj]
        have hzero : ∀ I j, builders s.base.shared.nextScope I ((s.base.take i t).pcs j) = 0 := by
          intro I j
          rw [hpcs]
          refine List.countP_eq_zero.mpr fun f hf hbuilds => ?_
          have hbuilds : Builds s.base.shared.nextScope I f := of_decide_eq_true hbuilds
          have hlt := h.numbered.frames j f (Orderly.mem_frames hf)
          exact Nat.ne_of_lt hlt hbuilds.2.1
        have hnone : ∀ c ∈ (s.turned i reply (s.base.take i t)).made,
            c.owner ≠ some (.scope s.base.shared.nextScope) := by
          intro c hc howner
          rcases Recorded.mem_turned.mp hc with hc | ⟨f, hf, -⟩
          · have hlt := h.scopes c hc
            unfold Construction.owner at howner
            split at howner
            · cases howner
            · injection howner with howner
              injection howner with howner
              omega
            · cases howner
          · subst hr
            cases completing_go hf
        constructor
        · intro I j j' _
          show builders _ I ((s.base.take i t).pcs j) + builders _ I ((s.base.take i t).pcs j') ≤ 1
          rw [hzero, hzero]
          exact Nat.zero_le 1
        · intro I j hpos
          have hpos : 0 < builders _ I ((s.base.take i t).pcs j) := hpos
          rw [hzero] at hpos
          exact absurd hpos (Nat.lt_irrefl 0)
        · intro I
          have hcount : ((s.turned i reply (s.base.take i t)).made.countP fun c =>
              OfService s.base.shared.nextScope I c) = 0 := by
            refine List.countP_eq_zero.mpr fun c hc hservice => ?_
            have hservice : OfService s.base.shared.nextScope I c := of_decide_eq_true hservice
            exact hnone c hc hservice.1
          rw [hcount]
          exact Nat.zero_le 1
        · intro _ c hc howner
          exact absurd howner (hnone c hc)
        · intro hnot
          exact absurd hloop hnot
  | close owner =>
    obtain ⟨-, rfl⟩ := close_cases hstep
    unfold State.close at hk'
    split at hk' <;> exact absurd hk' hk
  | loop owner outcome =>
    refine absurd ?_ hk
    cases advance_cases hstep with
    | raised | passed | disposing | returned => exact hk'
    | done => cases owner <;> exact hk'

theorem step {l : Label} (h : Scoped objects k s) (single : Single objects k s l)
    (hstep : (system objects).step s l = some s') : Scoped objects k s' := by
  have hrecorded := h.recorded.step single.own hstep
  refine ⟨hrecorded, waiting_step h.waiting hstep, fun hk' => ?_⟩
  by_cases hk : k ∈ s.base.shared.created
  · obtain ⟨hsolo, htended⟩ := h.solo hk
    refine ⟨?_, htended.step h.recorded hk (hsolo.unspoiled h.recorded single) hstep⟩
    cases l with
    | task i reply =>
      rcases task_cases hstep with ⟨-, rfl⟩ | ⟨hrefused, t, ht, rfl⟩
      · exact hsolo
      · exact hsolo.turned h.recorded h.waiting hk hrefused single ht
    | close owner =>
      obtain ⟨-, rfl⟩ := close_cases hstep
      exact hsolo.closed owner single.quiet
    | loop owner outcome => exact hsolo.advanced (advance_cases hstep)
  · have tended : Tended objects s' (.scope k) :=
      tended_new h.recorded single.own hstep hk hk'
    exact ⟨solo_new h.recorded hrecorded hstep hk hk', tended⟩

end Scoped

/-- What a scope owes: at most one instance of each service, and each that is `Disposable` is
disposed once. -/
structure OneEach (objects : Objects) (k : Nat) (s : State) : Prop where
  once : ∀ I, (s.made.countP fun c => OfService k I c) ≤ 1
  /-- Its disposal comes to its end, whatever the instances raise. -/
  proceeds : s.loops (.scope k) ≠ .raised
  disposed : s.loops (.scope k) = .done → ∀ c ∈ s.made, c.owner = some (.scope k) →
    objects.IsDisposable c.inst → s.disposals.count (objects.of c.inst) = 1

/-- **One instance of each scoped service per scope**, disposed once with the scope, in every run in
which no call looks for one that is being built. It holds of every scope there is at every moment,
while other scopes and the container are resolved from, disposed and shut down by any tasks. -/
theorem scope_one_each {registry : ServiceRegistry} {ls : List Label}
    (single : (system objects).Meets (Single objects k) (initial registry) ls)
    (run : (system objects).exec (initial registry) ls = some s)
    (hk : k ∈ s.base.shared.created) : OneEach objects k s := by
  have h : Scoped objects k s := System.exec_induct (P := Scoped objects k)
    (fun _ _ _ h single hstep => h.step single hstep) (Scoped.start registry) single run
  obtain ⟨hsolo, htended⟩ := h.solo hk
  unfold Tended at htended
  refine ⟨hsolo.once, ?_, ?_⟩
  · intro hraised
    rw [hraised] at htended
    exact htended
  · intro hdone
    rw [hdone] at htended
    exact htended

/-! ## A factory that waits -/

def waitingFactory : Target where
  name := "make_a"
  signature := []
  isCoroutine := true

def registryOfFactory : ServiceRegistry :=
  Dict.empty.set interfaceA ⟨0, interfaceA, .SCOPED, .factory waitingFactory⟩

def scopeState (ls : List Label) : State :=
  ((system allDisposable).exec (initial registryOfFactory) ls).getD (initial registryOfFactory)

/-- Somebody resolves the service in a new scope. -/
def resolvedLabels : List Label :=
  [.task 0 (.change .createScope), .task 0 (.resolve (some 0) interfaceA), .task 0 .go, .task 0 .go,
    .task 0 .go]

/-- … and the scope is disposed. -/
def disposedLabels : List Label :=
  [.close (.scope 0), .loop (.scope 0) (.ok ()), .loop (.scope 0) (.ok ()),
    .loop (.scope 0) (.ok ())]

theorem single_of_quiet {l : Label} (hclose : l ≠ .close (.scope k))
    (hcompleting : ∀ i reply, l = .task i reply → completing? (s.base.pcs i) reply = none)
    (hentering : ∀ i, l = .task i .go → ∀ I chain, (s.base.pcs i).place ≠ .entering I chain k) :
    Single objects k s l where
  own := by
    cases l with
    | task i reply =>
      intro _ f hf
      rw [hcompleting i reply rfl] at hf
      cases hf
    | close | loop => trivial
  quiet hl := absurd hl hclose
  alone := fun i hl I chain _ hplace => absurd hplace (hentering i hl I chain)

theorem scope_one_each_resolved :
    OneEach allDisposable 0 (scopeState (resolvedLabels ++ disposedLabels)) := by
  have run : (system allDisposable).exec (initial registryOfFactory)
      (resolvedLabels ++ disposedLabels) =
      some (scopeState (resolvedLabels ++ disposedLabels)) := rfl
  have created : (system allDisposable).step (initial registryOfFactory)
      (.task 0 (.change .createScope)) = some (scopeState (resolvedLabels.take 1)) := rfl
  have called : (system allDisposable).step (scopeState (resolvedLabels.take 1))
      (.task 0 (.resolve (some 0) interfaceA)) = some (scopeState (resolvedLabels.take 2)) := rfl
  have go : ∀ n ∈ [2, 3, 4], (system allDisposable).step (scopeState (resolvedLabels.take n))
      (.task 0 .go) = some (scopeState (resolvedLabels.take (n + 1))) := by
    intro n hn
    simp only [List.mem_cons, List.not_mem_nil, or_false] at hn
    rcases hn with rfl | rfl | rfl <;> rfl
  have closed : (system allDisposable).step (scopeState resolvedLabels) (.close (.scope 0)) =
      some (scopeState (resolvedLabels ++ disposedLabels.take 1)) := rfl
  have looping : ∀ s, (system allDisposable).Meets (Single allDisposable 0) s
      (disposedLabels.drop 1) := by
    intro s
    have hlabels : ∀ l ∈ disposedLabels.drop 1, ∃ outcome, l = .loop (.scope 0) outcome := by
      simp [disposedLabels]
    refine System.meets_mono ?_ (System.meets_of_labels hlabels s)
    rintro s l ⟨outcome, rfl⟩
    exact single_of_quiet nofun nofun nofun
  have single : (system allDisposable).Meets (Single allDisposable 0) (initial registryOfFactory)
      (resolvedLabels ++ disposedLabels) := by
    refine System.meets_cons ?_ created (System.meets_cons ?_ called
      (System.meets_cons ?_ (go 2 (by simp)) (System.meets_cons ?_ (go 3 (by simp))
        (System.meets_cons ?_ (go 4 (by simp)) (System.meets_cons ?_ closed (looping _))))))
    case refine_1 | refine_2 =>
      refine single_of_quiet nofun ?_ (by simp)
      rintro _ _ ⟨⟩
      rfl
    case refine_3 =>
      -- nobody else is there
      refine ⟨?_, nofun, ?_⟩
      · intro _ f hf
        cases hf
      · intro _ _ I _ _ _ _ _ j
        match j with
        | 0 => rfl
        | j + 1 => rfl
    case refine_4 =>
      refine single_of_quiet nofun (by rintro _ _ ⟨⟩; rfl) ?_
      rintro _ ⟨⟩ _ _ ⟨⟩
    case refine_5 =>
      refine ⟨?_, nofun, ?_⟩
      · intro _ f _ _ _ c hc
        cases hc
      · rintro _ ⟨⟩ _ _ _ ⟨⟩
    case refine_6 =>
      refine ⟨trivial, ?_, nofun⟩
      intro _ _ i
      match i with
      | 0 => exact ⟨nofun, nofun⟩
      | i + 1 => exact ⟨nofun, nofun⟩
  exact scope_one_each single run List.mem_cons_self

/-- Two tasks resolve it at once: each finds nothing, and each builds one. -/
def resolvedTwice : List Label :=
  [.task 0 (.change .createScope), .task 0 (.resolve (some 0) interfaceA),
    .task 1 (.resolve (some 0) interfaceA), .task 0 .go, .task 0 .go, .task 1 .go, .task 1 .go,
    .task 0 .go, .task 1 .go]

theorem resolved_twice_built_twice :
    ¬ ∀ (objects : Objects) (registry : ServiceRegistry) (k : Nat) (ls : List Label) (s : State),
      (system objects).Meets (Quiet k) (initial registry) ls →
      (system objects).exec (initial registry) ls = some s → k ∈ s.base.shared.created →
      OneEach objects k s := by
  intro h
  have quiet : (system allDisposable).Meets (Quiet 0) (initial registryOfFactory)
      resolvedTwice := by
    have hlabels : ∀ l ∈ resolvedTwice, l ≠ .close (.scope 0) := by
      simp [resolvedTwice]
    refine System.meets_mono ?_ (System.meets_of_labels hlabels _)
    intro s l hl hq
    exact absurd hq hl
  have hone := h allDisposable registryOfFactory 0 resolvedTwice (scopeState resolvedTwice) quiet
    rfl List.mem_cons_self
  have htwice : ((scopeState resolvedTwice).made.countP fun c => OfService 0 interfaceA c) = 2 := by
    decide
  have honce := hone.once interfaceA
  omega

end Disposal

end IraOS
