import IraOS.Container.Disposal

/-!
# Disposed exactly once

What an owner's dictionary is for: every `Disposable` that was built for the owner is in it when the
owner is closed, and the loop over it disposes each once. So it is in every run in which nothing
`Disposable` is pushed out of the dictionary before that, nothing comes into it afterwards, and no
two constructions give the same object (`Unspoiled`): then all are disposed, once each, when the
loop is through, and the loop gets through (`Tended`).

## By where the loop is

`TendedAt` says what is so of the owner's constructions, one case for each place the loop can be at.
Before it starts they are all in the dictionary and none has been disposed. While it goes on the
dictionary keeps its size, and of each construction either its key is yet to come or it has been
disposed once. When it is through each has been disposed once. The loop has not raised: that would
take a change of the size.

`MayStore` and `MayRemove` are what can be stored and removed without harm at each of these places.
While the loop goes on that is nothing at all; a removal of what is not there is no removal.

## On record

The invariant needs to know besides that the dictionaries have nothing in them but what was built
for their owners, and that two constructions are never one object (`Recorded`). The second is a
condition on the run, as a factory may return what it has returned before.

The same argument serves the scopes and the container. What differs is where a call can still come
from when the owner is closed, which is for the modules on each to say.
-/

set_option autoImplicit false

namespace IraOS

open Lib Resolver

namespace Disposal

/-! ## The numbers of scopes -/

inductive Numbering (s : ContainerState) (a : Activity) (r : Reply) (t : Turn) : Prop
  | same (hnext : t.shared.nextScope = s.nextScope) (hcreated : t.shared.created = s.created)
      (hroots : ∀ k, .root k ∈ t.pc.stack → .root k ∈ a.stack)
  | rooted (hnext : t.shared.nextScope = s.nextScope + 1) (hcreated : t.shared.created = s.created)
      (hroots : ∀ k, .root k ∈ t.pc.stack → .root k ∈ a.stack ∨ k = s.nextScope)
  | created (hr : r = .change .createScope) (hnext : t.shared.nextScope = s.nextScope + 1)
      (hcreated : t.shared.created = s.nextScope :: s.created) (hpc : t.pc = a)

section Numbers

variable {s : ContainerState} {a : Activity} {r : Reply} {t : Turn} {stack : List Caller}

theorem call_numbering {scope : Option Nat} {interface : PyType}
    (hroots : ∀ k, .root k ∈ stack → .root k ∈ a.stack)
    (h : call s stack scope interface = some t) : Numbering s a r t := by
  cases call_cases h with
  | inScope => exact .same rfl rfl hroots
  | root =>
    refine .rooted rfl rfl ?_
    intro k hk
    rcases List.mem_cons.mp hk with hk | hk
    · cases hk
      exact Or.inr rfl
    · exact Or.inl (hroots k hk)

theorem fail_numbering {f : Frame} {e : Exn}
    (hroots : ∀ k, .root k ∈ stack → .root k ∈ a.stack) : Numbering s a r (fail s stack f e) := by
  obtain ⟨hnext, hcreated⟩ := Numbered.release_numbers s f.held
  exact .same hnext hcreated hroots

theorem enter_numbering {interface : PyType} {chain : ResolutionChain} {k : Nat}
    (h : enter s a.stack interface chain k = t) : Numbering s a r t := by
  cases enter_cases h with
  | refused | cached | given => exact .same rfl rfl fun _ hk => hk
  | built =>
    generalize hbuild : build .. = t
    cases build_cases hbuild with
    | queued =>
      obtain ⟨hnext, hcreated⟩ := Numbered.getSingletonLock_numbers s interface
      exact .same hnext hcreated fun _ hk => hk
    | atOnce => exact .same rfl rfl fun _ hk => hk

theorem complete_numbering {f : Frame} {actions : List Action}
    (hroots : ∀ k, .root k ∈ stack → .root k ∈ a.stack) :
    Numbering s a r ⟨(complete s stack f).shared, (complete s stack f).pc, actions⟩ := by
  obtain ⟨hnext, hcreated⟩ := Numbered.release_numbers
    (store { s with serial := s.serial + 1 } f (.built f.descriptor s.serial)) f.held
  obtain ⟨hnext', hcreated'⟩ := Numbered.store_numbers { s with serial := s.serial + 1 } f
    (.built f.descriptor s.serial)
  exact .same (hnext.trans hnext') (hcreated.trans hcreated') hroots

theorem turn_numbering (h : turn s a r = some t) : Numbering s a r t := by
  cases turn_cases h with
  | asked hrest h => exact call_numbering (fun _ hk => hk) h
  | @changed place stack op hrest =>
    cases op with
    | createScope => exact .created rfl rfl rfl rfl
    | registerSingleton | registerScoped | registerTransient | registerInstance | registerFactory
    | remove | replace => exact .same rfl rfl fun _ hk => hk
  | entered => exact enter_numbering rfl
  | @acquired f stack =>
    generalize hchecked : secondCheck s stack f = t
    cases secondCheck_cases hchecked with
    | shared =>
      obtain ⟨hnext, hcreated⟩ := Numbered.release_numbers s f.held
      exact .same hnext hcreated fun _ hk => hk
    | absent => exact .same rfl rfl fun _ hk => hk
  | built f rest kwargs stack =>
    generalize hstepped : stepBuild s stack f rest kwargs = t
    cases stepBuild_cases hstepped with
    | unannotated => exact fail_numbering fun _ hk => hk
    | parameter =>
      refine .same rfl rfl ?_
      intro k hk
      rcases List.mem_cons.mp hk with hk | hk
      · cases hk
      · exact hk
    | coroutine => exact .same rfl rfl fun _ hk => hk
    | completed => exact complete_numbering fun _ hk => hk
  | @raisedInCall f kwargs e stack hcoroutine =>
    obtain ⟨hnext, hcreated⟩ := Numbered.release_numbers s f.held
    exact .same hnext hcreated fun _ hk => hk
  | returned f stack => exact complete_numbering fun _ hk => hk
  | raised f e stack => exact fail_numbering fun _ hk => hk
  | resolving hmay h =>
    refine call_numbering ?_ h
    intro k hk
    rcases List.mem_cons.mp hk with hk | hk
    · cases hk
    · exact hk
  | answered interface result stack =>
    have hbelow : ∀ {caller : Caller} {stack : List Caller} k, .root k ∈ stack →
        .root k ∈ caller :: stack := fun _ hk => List.mem_cons_of_mem _ hk
    generalize hreturned : returnTo s stack interface result = t
    cases returnTo_cases hreturned with
    | finished => exact .same rfl rfl fun _ hk => hk
    | root | body | resumed => exact .same rfl rfl hbelow
    | failed => exact fail_numbering hbelow

end Numbers

/-! ## What is on record -/

variable {objects : Objects} {s s' : State}

/-- The dictionaries have what was built, each its own, and a scope's dictionary is not that of a
root call. -/
structure Recorded (objects : Objects) (s : State) : Prop where
  numbered : Numbered s.base
  roots : ∀ i k, .root k ∈ (s.base.pcs i).stack →
    k < s.base.shared.nextScope ∧ k ∉ s.base.shared.created
  scopes : ∀ c ∈ s.made, c.scope < s.base.shared.nextScope
  closed : ∀ k, s.loops (.scope k) ≠ .notStarted → k ∈ s.base.shared.created
  stored : ∀ owner I inst, (s.instances owner).get? I = some inst →
    ∃ c ∈ s.made, c.owner = some owner ∧ c.interface = I ∧ c.inst = inst
  distinct : ∀ c ∈ s.made, ∀ c' ∈ s.made, c.owner ≠ none → c'.owner ≠ none →
    objects.IsDisposable c.inst → objects.of c.inst = objects.of c'.inst → c = c'
  known : ∀ x ∈ s.disposals, ∃ c ∈ s.made, c.owner ≠ none ∧ objects.of c.inst = x

/-- A construction for an owner gives a `Disposable` object that no other has given. -/
def Own (objects : Objects) (s : State) : Label → Prop
  | .task i reply => s.refuses reply = false → ∀ f, completing? (s.base.pcs i) reply = some f →
    (construction f s.base.shared.serial).owner ≠ none →
    objects.IsDisposable (.built f.descriptor s.base.shared.serial) →
    ∀ c ∈ s.made, c.owner ≠ none →
      objects.of c.inst ≠ objects.of (.built f.descriptor s.base.shared.serial)
  | .close _ | .loop _ _ => True

namespace Recorded

theorem start (registry : ServiceRegistry) : Recorded objects (initial registry) where
  numbered := Numbered.start registry
  roots _ _ hk := absurd hk List.not_mem_nil
  scopes _ hc := absurd hc List.not_mem_nil
  closed _ hk := absurd rfl hk
  stored owner _ _ h := by cases owner <;> cases h
  distinct _ hc := absurd hc List.not_mem_nil
  known _ hx := absurd hx List.not_mem_nil

theorem setLoop (h : Recorded objects s) (owner : Owner) (loop : Loop)
    (hcreated : ∀ k, owner = .scope k → k ∈ s.base.shared.created) :
    Recorded objects (s.setLoop owner loop) where
  numbered := h.numbered
  roots := h.roots
  scopes := h.scopes
  closed k hk := by
    by_cases howner : owner = .scope k
    · exact hcreated k howner
    · refine h.closed k ?_
      rwa [State.setLoop_ne (Ne.symm howner)] at hk
  stored := h.stored
  distinct := h.distinct
  known := h.known

theorem mem_turned {i : Nat} {reply : Reply} {base : Resolver.State} {c : Construction} :
    c ∈ (s.turned i reply base).made ↔
      c ∈ s.made ∨ ∃ f, completing? (s.base.pcs i) reply = some f ∧
        c = construction f s.base.shared.serial := by
  simp only [State.turned, List.mem_append, List.mem_map, Option.mem_toList]
  constructor
  · rintro (hc | ⟨f, hf, rfl⟩)
    · exact Or.inl hc
    · exact Or.inr ⟨f, hf, rfl⟩
  · rintro (hc | ⟨f, hf, rfl⟩)
    · exact Or.inl hc
    · exact Or.inr ⟨f, hf, rfl⟩

theorem completing_holding {a : Activity} {r : Reply} {f : Frame} (h : completing? a r = some f) :
    f ∈ a.holding := by
  obtain ⟨place, stack⟩ := a
  cases completing_go h
  cases place with
  | building g rest kwargs =>
    cases rest with
    | cons p rest => cases h
    | nil =>
      simp only [completing?] at h
      split at h
      · cases h
      · cases h
        exact List.mem_cons_self
  | inBody g =>
    cases h
    exact List.mem_cons_self
  | idle | entering | acquiring | answering | finished => cases h

theorem turned {i : Nat} {reply : Reply} {t : Turn} (h : Recorded objects s)
    (hrefused : s.refuses reply = false) (own : Own objects s (.task i reply))
    (ht : turn s.base.shared (s.base.pcs i) reply = some t) :
    Recorded objects (s.turned i reply (s.base.take i t)) := by
  have hnumbers := turn_numbering ht
  have hnext : s.base.shared.nextScope ≤ t.shared.nextScope := by
    cases hnumbers with
    | same hnext => exact Nat.le_of_eq hnext.symm
    | rooted hnext | created _ hnext => rw [hnext]; exact Nat.le_succ _
  have hcreated : ∀ k ∈ s.base.shared.created, k ∈ t.shared.created := by
    intro k hk
    cases hnumbers with
    | same _ hcreated | rooted _ hcreated => rwa [hcreated]
    | created _ _ hcreated =>
      rw [hcreated]
      exact List.mem_cons_of_mem _ hk
  have hserial : ∀ f, completing? (s.base.pcs i) reply = some f →
      f.scope < s.base.shared.nextScope :=
    fun f hf => h.numbered.frames i f (Orderly.mem_frames (completing_holding hf))
  constructor
  case numbered => exact h.numbered.step ht
  case roots =>
    -- a number is a root call's or a created scope's, whichever took it first
    have hold : ∀ k, k < s.base.shared.nextScope → k ∉ s.base.shared.created →
        k < t.shared.nextScope ∧ k ∉ t.shared.created := by
      intro k hlt hnot
      refine ⟨Nat.lt_of_lt_of_le hlt hnext, ?_⟩
      cases hnumbers with
      | same _ hcreated | rooted _ hcreated => rwa [hcreated]
      | created _ _ hcreated =>
        rw [hcreated]
        simpa [Nat.ne_of_lt hlt] using hnot
    refine Orderly.forall_take (P := fun _ a => ∀ k, .root k ∈ a.stack →
      k < t.shared.nextScope ∧ k ∉ t.shared.created) ?_ ?_
    · intro j k hk
      exact hold k (h.roots j k hk).1 (h.roots j k hk).2
    · intro k hk
      cases hnumbers with
      | same _ _ hroots => exact hold k (h.roots i k (hroots k hk)).1 (h.roots i k (hroots k hk)).2
      | created _ _ _ hpc => exact hold k (h.roots i k (hpc ▸ hk)).1 (h.roots i k (hpc ▸ hk)).2
      | rooted hnext hcreated hroots =>
        rcases hroots k hk with hk | rfl
        · exact hold k (h.roots i k hk).1 (h.roots i k hk).2
        · rw [hnext, hcreated]
          refine ⟨Nat.lt_succ_self _, fun hmem => ?_⟩
          exact Nat.lt_irrefl _ (h.numbered.created _ hmem)
  case scopes =>
    intro c hc
    rcases mem_turned.mp hc with hc | ⟨f, hf, rfl⟩
    · exact Nat.lt_of_lt_of_le (h.scopes c hc) hnext
    · exact Nat.lt_of_lt_of_le (hserial f hf) hnext
  case closed =>
    intro k hk
    exact hcreated k (h.closed k hk)
  case stored =>
    intro owner I inst hget
    have htouched := turn_touched ht owner
    have hget : (instances t.shared owner).get? I = some inst := hget
    have hold : (s.instances owner).get? I = some inst → ∃ c ∈
        (s.turned i reply (s.base.take i t)).made,
        c.owner = some owner ∧ c.interface = I ∧ c.inst = inst := by
      intro hget
      obtain ⟨c, hc, hrest⟩ := h.stored owner I inst hget
      exact ⟨c, mem_turned.mpr (Or.inl hc), hrest⟩
    cases htouched with
    | same hd _ =>
      rw [hd] at hget
      exact hold hget
    | stored f hf howner hd =>
      rw [hd, Dict.get?_set] at hget
      split at hget
      · rename_i hI
        injection hget with hget
        exact ⟨_, mem_turned.mpr (Or.inr ⟨f, hf, rfl⟩), howner, hI.symm, hget⟩
      · exact hold hget
    | evicted J _ _ hd =>
      rw [hd, Dict.get?_erase] at hget
      split at hget
      · cases hget
      · exact hold hget
    | emptied _ _ _ _ hd =>
      rw [hd] at hget
      cases hget
  case distinct =>
    intro c hc c' hc' hmine hmine' hdisposable hsame
    rcases mem_turned.mp hc with hc | ⟨f, hf, rfl⟩ <;>
      rcases mem_turned.mp hc' with hc' | ⟨f', hf', rfl⟩
    · exact h.distinct c hc c' hc' hmine hmine' hdisposable hsame
    · refine absurd hsame (own hrefused f' hf' hmine' ?_ c hc hmine)
      have hbuilt : objects.of c.inst =
          objects.of (.built f'.descriptor s.base.shared.serial) := hsame
      unfold Objects.IsDisposable at hdisposable ⊢
      rwa [← hbuilt]
    · exact absurd hsame.symm (own hrefused f hf hmine hdisposable c' hc' hmine')
    · rw [hf] at hf'
      injection hf' with hf'
      rw [hf']
  case known =>
    intro x hx
    obtain ⟨c, hc, hrest⟩ := h.known x hx
    exact ⟨c, mem_turned.mpr (Or.inl hc), hrest⟩

theorem clear (h : Recorded objects s) (owner : Owner) :
    Recorded objects { s with base.shared := Disposal.clear s.base.shared owner } where
  numbered := by
    cases owner <;> exact ⟨h.numbered.created, h.numbered.entering, h.numbered.frames⟩
  roots := by cases owner <;> exact h.roots
  scopes := by cases owner <;> exact h.scopes
  closed := by cases owner <;> exact h.closed
  stored := by
    intro owner' I inst hget
    by_cases howner : owner' = owner
    · subst howner
      cases owner' with
      | container => cases hget
      | scope k =>
        have hempty : (Function.update s.base.shared.scopes k Dict.empty k).get? I = some inst :=
          hget
        rw [Function.update_self] at hempty
        cases hempty
    · refine h.stored owner' I inst ?_
      rw [← hget]
      exact congrArg (fun d : Dict PyType Instance => d.get? I)
        (instances_clear_of_ne howner).symm
  distinct := h.distinct
  known := h.known

theorem count_other (h : Recorded objects s) {c : Construction} (hc : c ∈ s.made)
    (hmine : c.owner ≠ none) (hdisposable : objects.IsDisposable c.inst) {owner : Owner}
    {I : PyType} {inst : Instance} (hget : (s.instances owner).get? I = some inst)
    (hother : c.owner = some owner → c.interface ≠ I) :
    (s.disposals ++ [objects.of inst]).count (objects.of c.inst) =
      s.disposals.count (objects.of c.inst) := by
  obtain ⟨c', hc', howner, hI, rfl⟩ := h.stored owner I inst hget
  have hne : objects.of c.inst ≠ objects.of c'.inst := by
    intro hsame
    obtain rfl := h.distinct c hc c' hc' hmine (by simp [howner]) hdisposable hsame
    exact hother howner hI
  rw [List.count_append, List.count_singleton, if_neg (by simpa using Ne.symm hne), Nat.add_zero]

theorem advanced {owner : Owner} (h : Recorded objects s)
    (hcreated : ∀ k, owner = .scope k → k ∈ s.base.shared.created)
    (ha : Advanced objects s owner s') : Recorded objects s' := by
  cases ha with
  | raised | passed | returned => exact h.setLoop owner _ hcreated
  | done =>
    refine (h.clear owner).setLoop owner _ ?_
    cases owner <;> exact hcreated
  | @disposing _ _ _ inst hloop hget hdisposable =>
    have hrecorded : Recorded objects
        { s with disposals := s.disposals ++ [objects.of inst] } :=
      ⟨h.numbered, h.roots, h.scopes, h.closed, h.stored, h.distinct, ?_⟩
    · exact hrecorded.setLoop owner _ hcreated
    · intro x hx
      rcases List.mem_append.mp hx with hx | hx
      · exact h.known x hx
      · obtain ⟨c, hc, howner, -, rfl⟩ := h.stored owner _ _ hget
        exact ⟨c, hc, by simp [howner], (List.mem_singleton.mp hx).symm⟩

theorem step {l : Label} (h : Recorded objects s) (own : Own objects s l)
    (hstep : (system objects).step s l = some s') : Recorded objects s' := by
  cases l with
  | task i reply =>
    rcases task_cases hstep with ⟨-, rfl⟩ | ⟨hrefused, t, ht, rfl⟩
    · exact h
    · exact h.turned hrefused own ht
  | close owner =>
    obtain ⟨hcreated, rfl⟩ := close_cases hstep
    unfold State.close
    split
    · exact h.setLoop owner _ hcreated
    · exact h
  | loop owner outcome =>
    have ha := advance_cases hstep
    refine h.advanced ?_ ha
    rintro k rfl
    refine h.closed k ?_
    cases ha with
    | raised hloop _ | done hloop | passed hloop _ | disposing hloop _ _ | returned hloop =>
      rw [hloop]
      nofun

end Recorded

/-! ## What an owner keeps -/

def TendedAt (objects : Objects) (s : State) (owner : Owner) : Loop → Prop
  | .notStarted => ∀ c ∈ s.made, c.owner = some owner → objects.IsDisposable c.inst →
    (s.instances owner).get? c.interface = some c.inst ∧
      s.disposals.count (objects.of c.inst) = 0
  | .next rest size | .disposing rest size =>
    (s.instances owner).size = size ∧ rest.Nodup ∧
      ∀ c ∈ s.made, c.owner = some owner → objects.IsDisposable c.inst →
        (s.instances owner).get? c.interface = some c.inst ∧
          s.disposals.count (objects.of c.inst) = if c.interface ∈ rest then 0 else 1
  | .raised => False
  | .done => ∀ c ∈ s.made, c.owner = some owner → objects.IsDisposable c.inst →
    s.disposals.count (objects.of c.inst) = 1

def Tended (objects : Objects) (s : State) (owner : Owner) : Prop :=
  TendedAt objects s owner (s.loops owner)

/-- What comes back with this call can go where it goes: it pushes no `Disposable` out, and it does
not come too late to be disposed, or in between. -/
def MayStore (objects : Objects) (s : State) (owner : Owner) (f : Frame) : Loop → Prop
  | .notStarted => ∀ inst, (s.instances owner).get? f.interface = some inst →
    ¬ objects.IsDisposable inst
  | .next _ _ | .disposing _ _ => False
  | .raised | .done => ¬ objects.IsDisposable (.built f.descriptor s.base.shared.serial)

/-- What is removed is not `Disposable`, and not under the loop. -/
def MayRemove (objects : Objects) (s : State) (interface : PyType) : Loop → Prop
  | .notStarted => ∀ inst, (s.instances .container).get? interface = some inst →
    ¬ objects.IsDisposable inst
  | .next _ _ | .disposing _ _ => (s.instances .container).get? interface = none
  | .raised | .done => True

/-- Nothing is spoiled for the owner by this step: no disposable object is given twice, what is
stored pushes nothing out that is to be disposed and does not come too late, and the same of what is
removed. -/
structure Unspoiled (objects : Objects) (owner : Owner) (s : State) (l : Label) : Prop where
  own : Own objects s l
  stores : ∀ i reply f, l = .task i reply → s.refuses reply = false →
    completing? (s.base.pcs i) reply = some f →
    (construction f s.base.shared.serial).owner = some owner →
    MayStore objects s owner f (s.loops owner)
  removes : ∀ i interface, l = .task i (.change (.remove interface)) → owner = .container →
    MayRemove objects s interface (s.loops owner)

theorem unspoiled_of_quiet {owner : Owner} {l : Label}
    (hcompleting : ∀ i reply, l = .task i reply → completing? (s.base.pcs i) reply = none)
    (hremoving : ∀ i I, l ≠ .task i (.change (.remove I))) : Unspoiled objects owner s l where
  own := by
    cases l with
    | task i reply =>
      intro _ f hf
      rw [hcompleting i reply rfl] at hf
      cases hf
    | close | loop => trivial
  stores := by
    intro i reply f hl _ hf
    rw [hcompleting i reply hl] at hf
    cases hf
  removes := fun i I hl => absurd hl (hremoving i I)

def Owner.Exists (s : State) : Owner → Prop
  | .container => True
  | .scope k => k ∈ s.base.shared.created

namespace Tended

variable {owner : Owner}

theorem congr (h : Tended objects s owner) (hloop : s'.loops owner = s.loops owner)
    (hinstances : s'.instances owner = s.instances owner)
    (hmade : ∀ c ∈ s'.made, c.owner = some owner → objects.IsDisposable c.inst →
      c ∈ s.made ∧ s'.disposals.count (objects.of c.inst) =
        s.disposals.count (objects.of c.inst)) : Tended objects s' owner := by
  unfold Tended at h ⊢
  rw [hloop]
  cases hl : s.loops owner with
  | notStarted =>
    rw [hl] at h
    intro c hc howner hdisposable
    obtain ⟨hc, hcount⟩ := hmade c hc howner hdisposable
    rw [hinstances, hcount]
    exact h c hc howner hdisposable
  | next rest size | disposing rest size =>
    rw [hl] at h
    obtain ⟨hsize, hnodup, hall⟩ := h
    refine ⟨by rwa [hinstances], hnodup, ?_⟩
    intro c hc howner hdisposable
    obtain ⟨hc, hcount⟩ := hmade c hc howner hdisposable
    rw [hinstances, hcount]
    exact hall c hc howner hdisposable
  | raised =>
    rw [hl] at h
    exact h
  | done =>
    rw [hl] at h
    intro c hc howner hdisposable
    obtain ⟨hc, hcount⟩ := hmade c hc howner hdisposable
    rw [hcount]
    exact h c hc howner hdisposable

theorem built (h : Tended objects s owner) (hrecorded : Recorded objects s) {i : Nat}
    {reply : Reply} {base : Resolver.State} {f : Frame}
    (hf : completing? (s.base.pcs i) reply = some f)
    (own : objects.IsDisposable (.built f.descriptor s.base.shared.serial) →
      ∀ c ∈ s.made, c.owner ≠ none →
        objects.of c.inst ≠ objects.of (.built f.descriptor s.base.shared.serial))
    (stores : MayStore objects s owner f (s.loops owner))
    (hd : Disposal.instances base.shared owner =
      (s.instances owner).set f.interface (.built f.descriptor s.base.shared.serial)) :
    Tended objects (s.turned i reply base) owner := by
  have hd : (s.turned i reply base).instances owner =
    (s.instances owner).set f.interface (.built f.descriptor s.base.shared.serial) := hd
  have hloop : (s.turned i reply base).loops owner = s.loops owner := rfl
  unfold Tended at h ⊢
  rw [hloop]
  cases hl : s.loops owner with
  | notStarted =>
    rw [hl] at h stores
    intro c hc hmine hdisposable
    rw [hd]
    rcases Recorded.mem_turned.mp hc with hc | ⟨g, hg, rfl⟩
    · obtain ⟨hget, hcount⟩ := h c hc hmine hdisposable
      have hne : c.interface ≠ f.interface := by
        intro hq
        exact stores c.inst (hq ▸ hget) hdisposable
      exact ⟨(Dict.get?_set_ne hne).trans hget, hcount⟩
    · rw [hf] at hg
      cases hg
      refine ⟨Dict.get?_set_self .., List.count_eq_zero.mpr fun hmem => ?_⟩
      obtain ⟨c, hc, hmine, hsame⟩ := hrecorded.known _ hmem
      exact own hdisposable c hc hmine hsame
  | next rest size | disposing rest size =>
    rw [hl] at stores
    exact stores.elim
  | raised =>
    rw [hl] at h
    exact h
  | done =>
    rw [hl] at h stores
    intro c hc hmine hdisposable
    rcases Recorded.mem_turned.mp hc with hc | ⟨g, hg, rfl⟩
    · exact h c hc hmine hdisposable
    · rw [hf] at hg
      cases hg
      exact absurd hdisposable stores

theorem removed (h : Tended objects s .container) {i : Nat} {interface : PyType}
    {base : Resolver.State} (removes : MayRemove objects s interface (s.loops .container))
    (hd : Disposal.instances base.shared .container =
      (s.instances .container).erase interface) :
    Tended objects (s.turned i (.change (.remove interface)) base) .container := by
  have hd : (s.turned i (.change (.remove interface)) base).instances .container =
    (s.instances .container).erase interface := hd
  have hmade : ∀ c ∈ (s.turned i (.change (.remove interface)) base).made, c ∈ s.made := by
    intro c hc
    rcases Recorded.mem_turned.mp hc with hc | ⟨g, hg, -⟩
    · exact hc
    · cases completing_go hg
  have hloop : (s.turned i (.change (.remove interface)) base).loops .container =
    s.loops .container := rfl
  unfold Tended at h ⊢
  rw [hloop]
  cases hl : s.loops .container with
  | notStarted =>
    rw [hl] at h removes
    intro c hc hmine hdisposable
    obtain ⟨hget, hcount⟩ := h c (hmade c hc) hmine hdisposable
    have hne : c.interface ≠ interface := by
      intro hq
      exact removes c.inst (hq ▸ hget) hdisposable
    rw [hd]
    exact ⟨(Dict.get?_erase_ne hne).trans hget, hcount⟩
  | next rest size | disposing rest size =>
    rw [hl] at h removes
    rw [Dict.erase_of_absent removes] at hd
    obtain ⟨hsize, hnodup, hall⟩ := h
    refine ⟨by rwa [hd], hnodup, ?_⟩
    intro c hc hmine hdisposable
    rw [hd]
    exact hall c (hmade c hc) hmine hdisposable
  | raised =>
    rw [hl] at h
    exact h
  | done =>
    rw [hl] at h
    intro c hc hmine hdisposable
    exact h c (hmade c hc) hmine hdisposable

theorem advanced (h : Tended objects s owner) (hrecorded : Recorded objects s)
    (ha : Advanced objects s owner s') : Tended objects s' owner := by
  unfold Tended at h ⊢
  cases ha with
  | raised hloop hsize =>
    rw [hloop] at h
    exact absurd h.1 hsize
  | done hloop =>
    rw [hloop] at h
    rw [State.setLoop_self]
    intro c hc hmine hdisposable
    exact (h.2.2 c hc hmine hdisposable).2
  | @passed interface rest size hloop hpass =>
    rw [hloop] at h
    rw [State.setLoop_self]
    obtain ⟨hsize, hnodup, hall⟩ := h
    refine ⟨hsize, (List.nodup_cons.mp hnodup).2, ?_⟩
    intro c hc hmine hdisposable
    obtain ⟨hget, hcount⟩ := hall c hc hmine hdisposable
    have hne : c.interface ≠ interface := by
      intro hq
      exact hpass c.inst (hq ▸ hget) hdisposable
    exact ⟨hget, hcount.trans (by simp [hne])⟩
  | @disposing interface rest size inst hloop hgetI hdisposableI =>
    rw [hloop] at h
    rw [State.setLoop_self]
    obtain ⟨hsize, hnodup, hall⟩ := h
    refine ⟨hsize, (List.nodup_cons.mp hnodup).2, ?_⟩
    intro c hc hmine hdisposable
    obtain ⟨hget, hcount⟩ := hall c hc hmine hdisposable
    refine ⟨hget, ?_⟩
    show (s.disposals ++ [objects.of inst]).count (objects.of c.inst) = _
    by_cases hq : c.interface = interface
    · -- its turn, and it has no other
      have hinst : c.inst = inst := by
        have hget : (s.instances owner).get? c.interface = some c.inst := hget
        rw [hq, hgetI] at hget
        exact (Option.some.inj hget).symm
      rw [if_pos (by simp [hq])] at hcount
      rw [← hinst, List.count_append, hcount, hq, if_neg (List.nodup_cons.mp hnodup).1]
      simp
    · rw [hrecorded.count_other hc (by simp [hmine]) hdisposable hgetI fun _ => hq, hcount]
      simp [hq]
  | returned hloop =>
    rw [hloop] at h
    rw [State.setLoop_self]
    exact h

theorem advanced_other (h : Tended objects s owner) (hrecorded : Recorded objects s)
    {other : Owner} (hne : other ≠ owner) (ha : Advanced objects s other s') :
    Tended objects s' owner := by
  cases ha with
  | raised | passed | returned =>
    exact h.congr (State.setLoop_ne (Ne.symm hne) _) rfl fun c hc _ _ => ⟨hc, rfl⟩
  | done hloop =>
    exact h.congr (State.setLoop_ne (Ne.symm hne) _) (instances_clear_of_ne (Ne.symm hne))
      fun c hc _ _ => ⟨hc, rfl⟩
  | disposing hloop hget hdisposable =>
    refine h.congr (State.setLoop_ne (Ne.symm hne) _) rfl fun c hc hmine hdisposable' => ⟨hc, ?_⟩
    refine hrecorded.count_other hc (by simp [hmine]) hdisposable' hget ?_
    intro hmine'
    rw [hmine] at hmine'
    exact absurd (Option.some.inj hmine').symm hne

theorem closed (h : Tended objects s owner) (other : Owner) :
    Tended objects (s.close other) owner := by
  unfold State.close
  split
  · next hl =>
    by_cases hq : other = owner
    · subst hq
      unfold Tended at h ⊢
      rw [hl] at h
      rw [State.setLoop_self]
      refine ⟨rfl, Dict.keys_nodup _, ?_⟩
      intro c hc hmine hdisposable
      obtain ⟨hget, hcount⟩ := h c hc hmine hdisposable
      have hkey : c.interface ∈ (s.instances other).keys := Dict.mem_keys_iff.mpr ⟨_, hget⟩
      exact ⟨hget, hcount.trans (if_pos hkey).symm⟩
    · exact h.congr (State.setLoop_ne (Ne.symm hq) _) rfl fun c hc _ _ => ⟨hc, rfl⟩
  · exact h

theorem turned {i : Nat} {reply : Reply} {t : Turn} (h : Tended objects s owner)
    (hrecorded : Recorded objects s) (hexists : owner.Exists s)
    (hrefused : s.refuses reply = false)
    (unspoiled : Unspoiled objects owner s (.task i reply))
    (ht : turn s.base.shared (s.base.pcs i) reply = some t) :
    Tended objects (s.turned i reply (s.base.take i t)) owner := by
  cases turn_touched ht owner with
  | same hd hother =>
    refine h.congr rfl hd ?_
    intro c hc hmine _
    rcases Recorded.mem_turned.mp hc with hc | ⟨f, hf, rfl⟩
    · exact ⟨hc, rfl⟩
    · exact absurd hmine (hother f hf)
  | stored f hf howner hd =>
    exact h.built hrecorded hf (unspoiled.own hrefused f hf (by simp [howner]))
      (unspoiled.stores i reply f rfl hrefused hf howner) hd
  | evicted interface howner hr hd =>
    subst howner hr
    exact h.removed (unspoiled.removes i interface rfl rfl) hd
  | emptied k howner hnone hk hd =>
    -- a scope that there is is no root call's
    subst howner
    have hk' : k ∈ s.base.shared.created := hexists
    rcases hk with rfl | hk
    · exact absurd (hrecorded.numbered.created _ hk') (Nat.lt_irrefl _)
    · exact absurd hk' (hrecorded.roots i k hk).2

/-- **One step**, for an owner that there is. -/
theorem step {l : Label} (h : Tended objects s owner) (hrecorded : Recorded objects s)
    (hexists : owner.Exists s) (unspoiled : Unspoiled objects owner s l)
    (hstep : (system objects).step s l = some s') : Tended objects s' owner := by
  cases l with
  | task i reply =>
    rcases task_cases hstep with ⟨-, rfl⟩ | ⟨hrefused, t, ht, rfl⟩
    · exact h
    · exact h.turned hrecorded hexists hrefused unspoiled ht
  | close other =>
    obtain ⟨-, rfl⟩ := close_cases hstep
    exact h.closed other
  | loop other outcome =>
    have ha := advance_cases hstep
    by_cases hq : other = owner
    · subst hq
      exact h.advanced hrecorded ha
    · exact h.advanced_other hrecorded hq ha

end Tended

/-! ## Runs -/

section Runs

variable {owner : Owner}

theorem tended_new {l : Label} (h : Recorded objects s) (own : Own objects s l)
    (hstep : (system objects).step s l = some s') (hnot : ¬ owner.Exists s)
    (hexists : owner.Exists s') : Tended objects s' owner := by
  have h' := h.step own hstep
  cases owner with
  | container => exact absurd trivial hnot
  | scope k =>
    have hk : k ∉ s.base.shared.created := hnot
    have hk' : k ∈ s'.base.shared.created := hexists
    have hloop : s.loops (.scope k) = .notStarted := by
      by_contra hloop
      exact hk (h.closed k hloop)
    cases l with
    | task i reply =>
      rcases task_cases hstep with ⟨-, rfl⟩ | ⟨hrefused, t, ht, rfl⟩
      · exact absurd hk' hk
      · have hk' : k ∈ t.shared.created := hk'
        cases turn_numbering ht with
        | same _ hcreated | rooted _ hcreated =>
          rw [hcreated] at hk'
          exact absurd hk' hk
        | created hr _ hcreated =>
          rw [hcreated] at hk'
          obtain rfl : k = s.base.shared.nextScope :=
            (List.mem_cons.mp hk').resolve_right hk
          have hloop' : (s.turned i reply (s.base.take i t)).loops
              (.scope s.base.shared.nextScope) = .notStarted := hloop
          unfold Tended
          rw [hloop']
          intro c hc hmine _
          exfalso
          rcases Recorded.mem_turned.mp hc with hc | ⟨f, hf, rfl⟩
          · have hlt := h.scopes c hc
            unfold Construction.owner at hmine
            split at hmine
            · cases hmine
            · injection hmine with hmine
              injection hmine with hmine
              omega
            · cases hmine
          · subst hr
            cases completing_go hf
    | close other =>
      obtain ⟨-, rfl⟩ := close_cases hstep
      refine absurd ?_ hk
      unfold State.close at hk'
      split at hk' <;> exact hk'
    | loop other outcome =>
      refine absurd ?_ hk
      cases advance_cases hstep with
      | raised | passed | disposing | returned => exact hk'
      | done => cases other <;> exact hk'

end Runs

end Disposal

end IraOS
