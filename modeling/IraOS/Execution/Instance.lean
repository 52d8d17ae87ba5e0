import IraOS.Execution.Authorization

/-!
# One instance from check to use

A command's capability is looked up by the classifier, on the mutation route by the mutation
manager, and by the dispatcher. The first two happen between the same two awaits; between them and
the third lie the confirmation and the permission check, and whatever another task registers under
the id in that time is what runs.

So "what was checked is what runs" is not true of every interleaving, and `swap_runs_unclassified`
has one in which a mutating capability runs on the route of a read, unconfirmed. It is true of every
interleaving that keeps to `Env.NeverRebinds`: between the classification and the dispatcher's
lookup the id comes to stand for no other instance. That is a condition on what the registry
*becomes*, so it allows others to register and unregister as they like elsewhere, to try to register
under the id while it is taken, and even to take the id away, after which the dispatcher finds
nothing and runs nothing.

The condition is a sufficient one, and is about every await of that stretch. A run is allowed to
pass fewer of them.
-/

set_option autoImplicit false

namespace IraOS

open Lib

variable {δ : Type}

namespace DefaultExecutionService

/-- What is executed is what was classified and, on the mutation route, what was resolved and is
rolled back. -/
def SameInstance (t : List Entry) : Prop :=
  ∀ inst, .executed inst ∈ t →
    (∃ type, .classified (some inst) type ∈ t) ∧
    (.routed .mutationManager ∈ t → .resolved inst ∈ t) ∧
    ∀ i, .resolved i ∈ t ∨ .rollback i ∈ t → i = inst

def BetweenLookups (p : Await) : Prop :=
  DefaultMutationManager.EarlyAwait p ∨ DefaultProtectedDispatcher.EarlyAwait p

namespace Effect

variable {env : Env δ} {command : ExecutionCommand} {w : World δ} {t : List Entry}
  (e : Effect env command w t)

theorem found_eq (h : env.NeverRebinds BetweenLookups command.capabilityId e.found
    (atClassification env w).registry) : e.found = some e.inner.inst := by
  have hearly : env.Passes BetweenLookups (atClassification env w).registry e.outer.wd.registry :=
    e.outer.moves _ (Stable.passes fun p hp => Or.inl hp)
  have hlate : env.Passes BetweenLookups e.outer.wd.registry e.inner.w₁.registry :=
    e.inner.moves _ (Stable.passes fun p hp => Or.inr hp)
  exact (h.passes (hearly.trans hlate)).get? e.inner.lookup

theorem sameInstance (hf : e.found = some e.inner.inst) : SameInstance t := by
  intro inst hi
  have hinst : inst = e.inner.inst := by
    rcases e.around hi with h | h | h
    · exact absurd h id
    · exact absurd h id
    · exact Entry.executed.inj h
  subst hinst
  refine ⟨⟨e.type, hf ▸ e.mem⟩, fun hr => ?_, fun i hi => ?_⟩
  · obtain ⟨i, _, _, hi, _, _, hres⟩ := e.outer.lifecycle (e.type_of_routed hr)
    rw [hf, Option.some.injEq] at hi
    have hmem := List.mem_append_left (e.outer.during ++ e.outer.after) hres
    rwa [← e.outer.trace, ← hi] at hmem
  · rcases hi with hi | hi <;> rcases e.around hi with h | h | h
    · exact (Option.some.inj (hf.symm.trans h.2)).symm
    · exact absurd h id
    · exact absurd h (by simp)
    · exact (Option.some.inj (hf.symm.trans h.2)).symm
    · exact absurd h id
    · exact absurd h (by simp)

end Effect

/-- **Same instance from check to use, unless it is swapped in between.** In every interleaving in
which no other task brings another instance under the command's id between the classification and
the dispatcher's lookup, what is executed is what was classified, resolved and is rolled back. -/
theorem execute_sameInstance {env : Env δ} {command : ExecutionCommand} {w : World δ}
    (h : env.NeverRebinds BetweenLookups command.capabilityId
      ((atClassification env w).registry.get? command.capabilityId)
      (atClassification env w).registry) :
    SameInstance (execute env command w).trace := by
  generalize hrun : execute env command w = run
  obtain ⟨r, w', t⟩ := run
  rcases execute_effect hrun with hq | ⟨⟨e⟩⟩
  · exact fun inst hi => absurd (hq _ hi) (by simp [Entry.isExecution])
  · rw [← classify_found e.classified] at h
    exact e.sameInstance (e.found_eq h)

/-! ## Two runs -/

def wipe : Capability Unit :=
  { ping with
    metadata := { ping.metadata with
      mutation := some { confirmationLevel := .USER, isMutation := some true } } }

def executedIn (t : List Entry) : List CapabilityRef :=
  t.filterMap fun
    | .executed inst => some inst
    | _ => none

def classifiedIn (t : List Entry) : List (Option CapabilityRef × ExecutionType) :=
  t.filterMap fun
    | .classified found type => some (found, type)
    | _ => none

/-- `wipe` is registered and `ping` is not. While the user is asked, and again while the permission
check announces itself, another task tries to register `ping` in its place, and registers and
unregisters something else. -/
def triedEnv : Env Unit :=
  { Env.alone (fun inst => if inst = 0 then wipe else if inst = 1 then ping else
        { ping with metadata := { ping.metadata with id := "echo" } })
      (DefaultPolicyEvaluator.granting "ping" .UNTRUSTED false) with
    providers := [⟨fun _ => .ok true, fun _ _ => .ok true⟩]
    others := fun p =>
      if p = .confirmation .mutation then [.register 1, .register 2]
      else if p = .publish .permissionRequested then [.unregister "echo", .register 1] else [] }

theorem triedEnv_keeps (p : Await) : .unregister "ping" ∉ triedEnv.others p := by
  show RegistryOp.unregister "ping" ∉
    if p = .confirmation .mutation then [.register 1, .register 2]
    else if p = .publish .permissionRequested then [.unregister "echo", .register 1] else []
  split
  · simp
  · split <;> simp

def triedTrace : List Entry := (execute triedEnv pingCommand (World.holding "ping" 0 ())).trace

theorem execute_sameInstance_tried : classifiedIn triedTrace = [(some 0, .MUTATION)] ∧
    executedIn triedTrace = [0] ∧ SameInstance triedTrace := by
  have hbound : (atClassification triedEnv (World.holding "ping" 0 ())).registry.get?
      pingCommand.capabilityId = some 0 := by decide
  refine ⟨by decide, by decide, execute_sameInstance ?_⟩
  rw [hbound]
  exact .of_bound hbound fun p _ => triedEnv_keeps p

def swapEnv : Env Unit :=
  { Env.alone (fun inst => if inst = 0 then ping else wipe)
      (DefaultPolicyEvaluator.granting "ping" .UNTRUSTED false) with
    others := fun p =>
      if p = .publish .permissionRequested then [.unregister "ping", .register 1] else [] }

theorem mem_executedIn {t : List Entry} {inst : CapabilityRef} :
    inst ∈ executedIn t ↔ .executed inst ∈ t := by
  simp only [executedIn, List.mem_filterMap]
  constructor
  · rintro ⟨x, hx, h⟩
    cases x <;> simp_all
  · exact fun h => ⟨_, h, rfl⟩

theorem mem_classifiedIn {t : List Entry} {found : Option CapabilityRef} {type : ExecutionType} :
    (found, type) ∈ classifiedIn t ↔ .classified found type ∈ t := by
  simp only [classifiedIn, List.mem_filterMap]
  constructor
  · rintro ⟨x, hx, h⟩
    cases x <;> simp_all
  · exact fun h => ⟨_, h, rfl⟩

theorem swap_runs_unclassified :
    let t := (execute swapEnv pingCommand (World.holding "ping" 0 ())).trace
    classifiedIn t = [(some 0, .READ)] ∧ executedIn t = [1] ∧ ¬ SameInstance t := by
  intro t
  have hc : classifiedIn t = [(some 0, .READ)] := by decide
  have he : executedIn t = [1] := by decide
  refine ⟨hc, he, fun h => ?_⟩
  obtain ⟨⟨type, ht⟩, _⟩ := h 1 (mem_executedIn.mp (by rw [he]; simp))
  have := mem_classifiedIn.mpr ht
  rw [hc] at this
  exact absurd this (by simp)

end DefaultExecutionService

end IraOS
