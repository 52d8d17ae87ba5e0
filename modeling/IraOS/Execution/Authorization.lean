import IraOS.Execution.Pipeline
import IraOS.Lib.Trace

/-!
# Authorization before effect

One call of `execute` runs at most one capability, and what has to be in the trace before it is
there: the policies' answer, the user's approval where they ask for it, and inside the mutation
lifecycle the confirmation the capability itself declares.

Two gates stand before an effect, and they are independent. The security check is in the protected
dispatcher, through which every route goes. The confirmation that a capability declares is in the
mutation lifecycle, through which a command goes only if it was classified as a mutation. The
theorem has both, each with the condition under which the code has it.

It is about the instance registered under the command's id, and says that the one that ran is that
one. As the id is looked up up to three times, with awaits in between, this needs that nobody
touches the id during the call (`Env.Untouched`); what can be said without that is in
`Execution.Instance`.

Everything else is arbitrary: the providers, the policies, the capabilities' code, and a bus that
may raise at any publish.
-/

set_option autoImplicit false

namespace IraOS

open Lib

variable {δ : Type}

namespace DefaultExecutionService

open DefaultProtectedDispatcher

def Confirmed (objects : Objects δ) (inst : CapabilityRef) (t : List Entry) : Prop :=
  ∀ info, (objects inst).metadata.mutation = some info →
    info.confirmationLevel = .NONE ∨
      .confirmation .mutation info.confirmationLevel true ∈ t

namespace Effect

variable {env : Env δ} {command : ExecutionCommand} {w : World δ} {t : List Entry}
  (e : Effect env command w t)

theorem authorized {policies : DefaultPolicyEvaluator.Policies}
    (hsec : env.security = .ofPolicies policies) : Authorized policies command e.before := by
  obtain ⟨w₀, t₀, ha, s, hs⟩ := e.inner.authorized
  have hsub : List.Sublist t₀ e.before := by
    rw [before, ← hs]
    exact (List.sublist_append_left t₀ s).trans (List.sublist_append_right _ _)
  rcases authorization_ok hsec ha with ⟨hm, hp⟩ | ⟨hm, hp⟩
  · exact Or.inl ⟨hsub.subset hm, hp⟩
  · exact Or.inr ⟨hm.trans hsub, hp⟩

theorem bound (h : env.Untouched command.capabilityId) :
    w.registry.get? command.capabilityId = some e.inner.inst ∧ e.found = some e.inner.inst := by
  have h₁ : SameBinding _ e.outer.wd e.inner.w₁ := e.inner.moves _ (Stable.sameBinding h)
  have h₂ : SameBinding _ (atClassification env w) e.outer.wd :=
    e.outer.moves _ (Stable.sameBinding h)
  have h₃ := World.after_get? h (.publish .executionRequested) w
  have hc := classify_found e.classified
  unfold SameBinding at h₁ h₂
  rw [e.inner.lookup] at h₁
  rw [← h₁] at h₂
  exact ⟨h₃.symm.trans h₂.symm, hc.trans h₂.symm⟩

theorem confirmed (h : env.Untouched command.capabilityId)
    (hm : .routed .mutationManager ∈ e.before) :
    Confirmed env.objects e.inner.inst e.before := by
  have hmem := List.mem_append_left (.executed e.inner.inst :: e.after) hm
  rw [← e.trace] at hmem
  obtain ⟨inst, info, t₀, hf, hr, hs, _⟩ := e.outer.lifecycle (e.type_of_routed hmem)
  rw [(e.bound h).2, Option.some.injEq] at hf
  subst hf
  intro info' hinfo
  rw [hr.metadata, Option.some.injEq] at hinfo
  subst hinfo
  exact hr.confirmed.imp id fun hx => List.mem_append_left _ (hs hx)

end Effect

theorem countP_quiet {t : List Entry} (h : ∀ x ∈ t, x.isExecution = false) :
    t.countP Entry.isExecution = 0 := by
  apply List.countP_eq_zero.mpr
  intro x hx
  simp [h x hx]

/-- **Authorization before effect.** Whatever the bus, the providers and the loaded policies do,
one call executes at most once; what it executes is the instance registered under the command's
id, and only after the policies granted it, or asked for approval and got it; and inside the
mutation lifecycle only after the confirmation that instance declares. -/
theorem execute_authorized {env : Env δ} {policies : DefaultPolicyEvaluator.Policies}
    (hsec : env.security = .ofPolicies policies) (command : ExecutionCommand) (w : World δ)
    (hreg : env.Untouched command.capabilityId) :
    (execute env command w).trace.countP Entry.isExecution ≤ 1 ∧
      Guarded (fun before x => ∀ inst, x = .executed inst →
        w.registry.get? command.capabilityId = some inst ∧
        Authorized policies command before ∧
        (.routed .mutationManager ∈ before → Confirmed env.objects inst before))
        (execute env command w).trace := by
  generalize hrun : execute env command w = run
  obtain ⟨r, w', t⟩ := run
  rcases execute_effect hrun with hq | ⟨⟨e⟩⟩
  · constructor
    · rw [countP_quiet hq]
      exact Nat.zero_le 1
    · apply Guarded.of_mem
      intro x hx _ inst hi
      exact absurd (hi ▸ hq x hx) (by simp [Entry.isExecution])
  · dsimp only
    have ht := e.trace
    constructor
    · rw [ht, List.countP_append, List.countP_cons, countP_quiet e.before_quiet,
        countP_quiet e.after_quiet]
      simp [Entry.isExecution]
    · rw [ht]
      refine Guarded.mono (Guarded.single (q := fun x => x.isExecution = true)
        (P := fun before x => ∀ inst, x = .executed inst →
          w.registry.get? command.capabilityId = some inst ∧
          Authorized policies command before ∧
          (.routed .mutationManager ∈ before → Confirmed env.objects inst before)) ?_ ?_ ?_) ?_
      · intro x hx
        simp [e.before_quiet x hx]
      · intro x hx
        simp [e.after_quiet x hx]
      · intro _ inst hi
        cases hi
        exact ⟨(e.bound hreg).1, e.authorized hsec, e.confirmed hreg⟩
      · intro before x hx inst hi
        exact hx (by simp [hi, Entry.isExecution]) inst hi

/-- … at a call that does execute. -/
theorem execute_authorized_ping :
    let env := Env.alone (fun _ => ping) (DefaultPolicyEvaluator.granting "ping" .UNTRUSTED false)
    let t := (execute env pingCommand (World.holding "ping" 0 ())).trace
    t.countP Entry.isExecution = 1 ∧
      Guarded (fun before x => ∀ inst, x = .executed inst →
        (World.holding "ping" 0 ()).registry.get? "ping" = some inst ∧
        Authorized (DefaultPolicyEvaluator.granting "ping" .UNTRUSTED false) pingCommand before ∧
        (.routed .mutationManager ∈ before → Confirmed env.objects inst before)) t :=
  ⟨by decide, (execute_authorized rfl pingCommand _ (Env.alone_untouched _ _ _)).2⟩

end DefaultExecutionService

end IraOS
