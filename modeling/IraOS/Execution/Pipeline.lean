import IraOS.Execution.Dispatch
import IraOS.Mutation.Lifecycle

/-!
# What a call of the kernel's entry point is made of

`execute_cases`: a call of `DefaultExecutionService.execute` never reaches the protected dispatcher,
or it is one run of the dispatcher with what the service and, on the mutation route, the lifecycle
put around it. `Around` is everything that can be put there; an execution is not.

That is the shape every result about a whole call is proved in. The run is cut twice, first at the
dispatch (`Dispatched`) and then, inside it, at the execution (`Executed`), and the two cuts are put
together in `Effect`: a call has no effect, or exactly one, with a known world before it, a known
instance, and a trace on either side of it in which nothing is executed.

Which route a call took can be read off its trace, and so can the type the classifier gave it. The
two agree: what was sent to the mutation manager was classified as a mutation (`type_of_routed`).
-/

set_option autoImplicit false

namespace IraOS

open Lib

variable {δ : Type}

namespace DefaultExecutionService

open DefaultExecutionClassifier

open DefaultProtectedDispatcher (not_isExecution_of_own)

def routeOf : ExecutionType → Route
  | .MUTATION => .mutationManager
  | .READ => .protectedDispatcher

def Around (found : Option CapabilityRef) (type : ExecutionType) : Entry → Prop
  | .event _ => True
  | .classified f ty => f = found ∧ ty = type
  | .routed route => route = routeOf type
  | .resolved i | .rollback i => type = .MUTATION ∧ found = some i
  | .confirmation asker _ _ => type = .MUTATION ∧ asker = .mutation
  | .audit _ | .sink _ _ => type = .MUTATION
  | .permission _ _ | .executed _ => False

def atClassification (env : Env δ) (w : World δ) : World δ :=
  w.after env (.publish .executionRequested)

/-- A run that reached the protected dispatcher, cut at the dispatcher's own: the command was
classified in the world `w`, and dispatched in `wd`. -/
structure Dispatched (env : Env δ) (command : ExecutionCommand) (found : Option CapabilityRef)
    (type : ExecutionType) (w : World δ) (t : List Entry) where
  before : List Entry
  wd : World δ
  result : Except Exn ExecutionOutcome
  wd' : World δ
  during : List Entry
  after : List Entry
  moves : ∀ R, Stable env DefaultMutationManager.EarlyAwait R → R w wd
  run : DefaultProtectedDispatcher.dispatch env command wd = ⟨result, wd', during⟩
  trace : t = before ++ (during ++ after)
  around : ∀ x ∈ before ++ after, Around found type x
  lifecycle : type = .MUTATION → ∃ inst info t₀, found = some inst ∧
    DefaultMutationManager.Reached env command inst info t₀ ∧ t₀ ⊆ before ∧
    .resolved inst ∈ before

def Dispatched.cons {env : Env δ} {command : ExecutionCommand} {found : Option CapabilityRef}
    {type : ExecutionType} {w : World δ} {t t' : List Entry}
    (d : Dispatched env command found type w t) (ht' : ∀ x ∈ t', Around found type x) :
    Dispatched env command found type w (t' ++ t) :=
  { d with
    before := t' ++ d.before
    trace := by rw [List.append_assoc, ← d.trace]
    around := by
      rw [List.append_assoc]
      exact List.forall_mem_append.mpr ⟨ht', d.around⟩
    lifecycle := by
      intro hm
      obtain ⟨inst, info, t₀, hf, hr, hs, hi⟩ := d.lifecycle hm
      exact ⟨inst, info, t₀, hf, hr, fun x hx => List.mem_append_right _ (hs hx),
        List.mem_append_right _ hi⟩ }

theorem around_of_mutation {inst : CapabilityRef} {x : Entry}
    (h : DefaultMutationManager.OwnEntry inst x) : Around (some inst) .MUTATION x := by
  cases x <;> simp_all [DefaultMutationManager.OwnEntry, Around]

theorem classify_found {objects : Objects δ} {caps : InMemoryCapabilityRegistry.Capabilities}
    {command : ExecutionCommand} {found : Option CapabilityRef} {type : ExecutionType}
    (h : classify objects caps command = (found, type)) :
    found = caps.get? command.capabilityId := by
  unfold classify InMemoryCapabilityRegistry.lookup at h
  cases hg : caps.get? command.capabilityId with
  | none => rw [hg] at h; exact (Prod.mk.inj h).1.symm
  | some inst => rw [hg] at h; exact (Prod.mk.inj h).1.symm

theorem mutation_cases {env : Env δ} {command : ExecutionCommand} {found : Option CapabilityRef}
    {w w' : World δ} {r : Except Exn ExecutionOutcome} {t : List Entry}
    (hc : classify env.objects w.registry command = (found, .MUTATION))
    (h : DefaultMutationManager.processMutation env command
      (DefaultProtectedDispatcher.dispatch env) w = ⟨r, w', t⟩) :
    (∀ x ∈ t, Around found .MUTATION x) ∨
      Nonempty (Dispatched env command found .MUTATION w t) := by
  rcases DefaultMutationManager.processMutation_run env command
      (DefaultProtectedDispatcher.dispatch env) w with ⟨_, hr⟩ | ⟨inst, r₁, w₁, t₁, hg, hf, hr⟩
  · rw [h, Run.mk.injEq] at hr
    obtain ⟨_, _, rfl⟩ := hr
    exact Or.inl (by simp)
  rw [h, Run.mk.injEq] at hr
  obtain ⟨rfl, rfl, rfl⟩ := hr
  rw [classify_found hc, hg]
  have hres : Around (some inst) .MUTATION (.resolved inst) := ⟨rfl, rfl⟩
  rcases DefaultMutationManager.processFound_cases hf with hu | ⟨⟨d⟩⟩
  · left
    intro x hx
    rcases List.mem_cons.mp hx with rfl | hx
    · exact hres
    · exact around_of_mutation (hu.own x hx)
  · right
    refine ⟨{ before := .resolved inst :: d.before, wd := d.w₁, result := d.result, wd' := d.w₂
              during := d.during, after := d.after
              moves := fun R hR => hR.trans _ _ _ (hR.uuids w) (d.moves R hR)
              run := d.run, trace := by rw [List.cons_append, ← d.trace]
              around := ?_
              lifecycle := fun _ => ⟨inst, d.info, d.before, rfl, d.reached,
                List.subset_cons_self _ _, List.mem_cons_self⟩ }⟩
    intro x hx
    rcases List.mem_cons.mp hx with rfl | hx
    · exact hres
    · exact around_of_mutation ((List.mem_append.mp hx).elim (d.reached.own x) (d.after_own x))

theorem route_cases {env : Env δ} {command : ExecutionCommand} {found : Option CapabilityRef}
    {type : ExecutionType} {w w' : World δ} {r : Except Exn ExecutionOutcome} {t : List Entry}
    (hc : classify env.objects w.registry command = (found, type))
    (h : route env command type w = ⟨r, w', t⟩) :
    (∀ x ∈ t, Around found type x) ∨ Nonempty (Dispatched env command found type w t) := by
  have hrouted : ∀ x ∈ [Entry.routed (routeOf type)], Around found type x := fun x hx =>
    List.mem_singleton.mp hx ▸ rfl
  cases type with
  | READ =>
    rw [route] at h
    obtain ⟨t', hrun, rfl⟩ := Act.bind_emit_cases h
    exact Or.inr ⟨Dispatched.cons
      { before := [], wd := w, result := r, wd' := w', during := t', after := []
        moves := fun R hR => hR.refl w
        run := hrun
        trace := by simp
        around := by simp
        lifecycle := fun hm => absurd hm (by simp) } hrouted⟩
  | MUTATION =>
    rw [route] at h
    split at h
    · obtain ⟨t', hrun, rfl⟩ := Act.bind_emit_cases h
      rcases mutation_cases hc hrun with hm | ⟨⟨d⟩⟩
      · exact Or.inl fun x hx => (List.mem_cons.mp hx).elim (fun hx => hx ▸ rfl) (hm x)
      · exact Or.inr ⟨d.cons hrouted⟩
    · exact Or.inl ((Act.EmitsOnly.throw _).of_run h)

/-- **A call stays outside the dispatcher, or is a run of it with the service's part around.** -/
theorem execute_cases {env : Env δ} {command : ExecutionCommand} {w w' : World δ}
    {r : Except Exn ExecutionOutcome} {t : List Entry} (h : execute env command w = ⟨r, w', t⟩) :
    ∃ found type,
      classify env.objects (atClassification env w).registry command = (found, type) ∧
      ((∀ x ∈ t, Around found type x) ∨ .classified found type ∈ t ∧
        Nonempty (Dispatched env command found type (atClassification env w) t)) := by
  obtain ⟨found, type, hc⟩ : ∃ found type,
      classify env.objects (atClassification env w).registry command = (found, type) :=
    ⟨_, _, rfl⟩
  refine ⟨found, type, hc, ?_⟩
  have hreq : Act.EmitsOnly (Around found type) (publish env .executionRequested
      (.executionRequested command.commandId command.capabilityId)) := publish_emits _ _ trivial
  rcases Act.bind_cases h with ⟨exc, rfl, hv⟩ | ⟨_, _, _, t₁, hv, h₁, rfl⟩
  · exact Or.inl ((Act.EmitsOnly.ofExcept _).of_run hv)
  obtain ⟨_, rfl, rfl⟩ := Act.ofExcept_ok hv
  rcases Act.bind_cases h₁ with ⟨exc, rfl, hp⟩ | ⟨_, w₁, t₂, t₃, hp, h₂, rfl⟩
  · exact Or.inl fun x hx => hreq.of_run hp x (by simpa using hx)
  have hw₁ : w₁ = atClassification env w := by
    rw [atClassification, ← publish_state, hp]
  subst hw₁
  have hfront : ∀ x ∈ t₂ ++ [Entry.classified found type], Around found type x := by
    refine List.forall_mem_append.mpr ⟨hreq.of_run hp, ?_⟩
    intro x hx
    rw [List.mem_singleton.mp hx]
    exact ⟨rfl, rfl⟩
  rw [Act.bind_get, hc] at h₂
  change (Act.emit (.classified found type) >>= fun _ => route env command type) _ = _ at h₂
  obtain ⟨t₄, hrun, rfl⟩ := Act.bind_emit_cases h₂
  have hsplit : ∀ u, [] ++ (t₂ ++ Entry.classified found type :: u)
      = (t₂ ++ [Entry.classified found type]) ++ u := by simp
  rw [hsplit]
  rcases route_cases hc hrun with hm | ⟨⟨d⟩⟩
  · exact Or.inl (List.forall_mem_append.mpr ⟨hfront, hm⟩)
  · exact Or.inr ⟨by simp, ⟨d.cons hfront⟩⟩

/-! ## The one effect of a call -/

theorem not_isExecution_of_around {found : Option CapabilityRef} {type : ExecutionType} {x : Entry}
    (h : Around found type x) : x.isExecution = false := by
  cases x with
  | executed inst => exact absurd h id
  | _ => rfl

/-- A run of `execute` that reached a capability, around that execution. -/
structure Effect (env : Env δ) (command : ExecutionCommand) (w : World δ) (t : List Entry) where
  found : Option CapabilityRef
  type : ExecutionType
  classified : DefaultExecutionClassifier.classify env.objects (atClassification env w).registry
    command = (found, type)
  mem : .classified found type ∈ t
  outer : Dispatched env command found type (atClassification env w) t
  inner : DefaultProtectedDispatcher.Executed env command outer.wd outer.result outer.wd'
    outer.during

/-- **A call has no effect, or one.** -/
theorem execute_effect {env : Env δ} {command : ExecutionCommand} {w w' : World δ}
    {r : Except Exn ExecutionOutcome} {t : List Entry} (h : execute env command w = ⟨r, w', t⟩) :
    (∀ x ∈ t, x.isExecution = false) ∨ Nonempty (Effect env command w t) := by
  obtain ⟨found, type, hc, ht⟩ := execute_cases h
  rcases ht with ht | ⟨hmem, ⟨d⟩⟩
  · exact Or.inl fun x hx => not_isExecution_of_around (ht x hx)
  rcases DefaultProtectedDispatcher.dispatch_cases d.run with hu | ⟨⟨e⟩⟩
  · left
    intro x hx
    rw [d.trace, List.mem_append, List.mem_append] at hx
    rcases hx with hx | hx | hx
    · exact not_isExecution_of_around (d.around x (List.mem_append_left _ hx))
    · exact not_isExecution_of_own (hu.own x hx)
    · exact not_isExecution_of_around (d.around x (List.mem_append_right _ hx))
  · exact Or.inr ⟨found, type, hc, hmem, d, e⟩

namespace Effect

variable {env : Env δ} {command : ExecutionCommand} {w : World δ} {t : List Entry}
  (e : Effect env command w t)

def before : List Entry := e.outer.before ++ e.inner.before

def after : List Entry := e.inner.after ++ e.outer.after

theorem trace : t = e.before ++ .executed e.inner.inst :: e.after := by
  have h := e.outer.trace
  rw [e.inner.trace] at h
  simpa [before, after] using h

theorem before_quiet : ∀ x ∈ e.before, x.isExecution = false := by
  intro x hx
  rcases List.mem_append.mp hx with hx | hx
  · exact not_isExecution_of_around (e.outer.around x (List.mem_append_left _ hx))
  · exact not_isExecution_of_own (e.inner.own x (List.mem_append_left _ hx))

theorem after_quiet : ∀ x ∈ e.after, x.isExecution = false := by
  intro x hx
  rcases List.mem_append.mp hx with hx | hx
  · exact not_isExecution_of_own (e.inner.own x (List.mem_append_right _ hx))
  · exact not_isExecution_of_around (e.outer.around x (List.mem_append_right _ hx))

theorem around {x : Entry} (hx : x ∈ t) :
    Around e.found e.type x ∨ DefaultProtectedDispatcher.OwnEntry x ∨
      x = .executed e.inner.inst := by
  rw [e.trace, before, after] at hx
  simp only [List.mem_append, List.mem_cons] at hx
  rcases hx with (hx | hx) | hx | hx | hx
  · exact Or.inl (e.outer.around x (List.mem_append_left _ hx))
  · exact Or.inr (Or.inl (e.inner.own x (List.mem_append_left _ hx)))
  · exact Or.inr (Or.inr hx)
  · exact Or.inr (Or.inl (e.inner.own x (List.mem_append_right _ hx)))
  · exact Or.inl (e.outer.around x (List.mem_append_right _ hx))

theorem type_of_routed (h : .routed .mutationManager ∈ t) : e.type = .MUTATION := by
  rcases e.around h with h | h | h
  · cases ht : e.type with
    | MUTATION => rfl
    | READ => rw [ht] at h; exact absurd h (by simp [Around, routeOf])
  · exact absurd h id
  · exact absurd h (by simp)

end Effect

end DefaultExecutionService

end IraOS
