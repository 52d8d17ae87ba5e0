import IraOS.Container.Moves

/-!
# The stack of a task

A call of `resolve` is on a stack because the call below it asked for its interface: for a
parameter, or out of a coroutine function (`Linked`). A task at rest has an empty stack. This is so
of every task by itself, whatever the container and the other tasks do.

It is what makes a stack a path in the graph of the registry: whoever is at the top is needed by
everybody below. The argument about deadlock goes along this path from what a task waits for to what
it is in the lock of, and a resolve that has come to its end at the top has nobody below it to come
back to.
-/

set_option autoImplicit false

namespace IraOS

open Lib

namespace Resolver

/-- The stack below a call for `interface`: every call on it asked for the one above it. -/
def Linked : PyType → List Caller → Prop
  | _, [] => True
  | interface, .root _ :: stack => Linked interface stack
  | interface, .parameter f p rest _ :: stack =>
    p.annotation = some interface ∧ (∀ q ∈ p :: rest, q ∈ f.target.parameters) ∧
      Linked f.interface stack
  | interface, .body f :: stack =>
    f.target.mayResolve interface = true ∧ Linked f.interface stack

namespace Activity

def Linked (a : Activity) : Prop :=
  match a.place with
  | .idle | .finished _ _ => a.stack = []
  | .entering interface _ _ | .answering interface _ => Resolver.Linked interface a.stack
  | .acquiring f | .inBody f => Resolver.Linked f.interface a.stack
  | .building f rest _ =>
    (∀ q ∈ rest, q ∈ f.target.parameters) ∧ Resolver.Linked f.interface a.stack

theorem Linked.stack_nil {a : Activity} (h : a.Linked) (hrest : a.place.AtRest) :
    a.stack = [] := by
  obtain ⟨place, stack⟩ := a
  cases place with
  | idle | finished => exact h
  | entering | acquiring | building | inBody | answering => exact hrest.elim

end Activity

section Turns

variable {s : ContainerState} {stack : List Caller} {interface : PyType} {t : Turn}

theorem call_linked {scope : Option Nat} (h : Linked interface stack)
    (ht : call s stack scope interface = some t) : t.pc.Linked := by
  cases call_cases ht with
  | inScope | root => exact h

theorem enter_linked {chain : ResolutionChain} {scope : Nat} (h : Linked interface stack)
    (ht : enter s stack interface chain scope = t) : t.pc.Linked := by
  cases enter_cases ht with
  | refused | cached | given => exact h
  | built =>
    generalize hbuild : build .. = t
    cases build_cases hbuild with
    | queued => exact h
    | atOnce => exact ⟨fun q hq => hq, h⟩

theorem secondCheck_linked {f : Frame} (h : Linked f.interface stack)
    (ht : secondCheck s stack f = t) : t.pc.Linked := by
  cases secondCheck_cases ht with
  | shared => exact h
  | absent => exact ⟨fun q hq => hq, h⟩

theorem stepBuild_linked {f : Frame} {rest : List Parameter} {kwargs : Kwargs}
    (hrest : ∀ q ∈ rest, q ∈ f.target.parameters) (h : Linked f.interface stack)
    (ht : stepBuild s stack f rest kwargs = t) : t.pc.Linked := by
  cases stepBuild_cases ht with
  | unannotated | coroutine | completed => exact h
  | parameter p rest kwargs hnamed => exact ⟨hnamed, hrest, h⟩

theorem returnTo_linked {result : Except Exn Instance} (h : Linked interface stack)
    (ht : returnTo s stack interface result = t) : t.pc.Linked := by
  cases returnTo_cases ht with
  | finished => rfl
  | root => exact h
  | body => exact h.2
  | resumed f p => exact ⟨fun q hq => h.2.1 q (List.mem_cons_of_mem p hq), h.2.2⟩
  | failed => exact h.2.2

end Turns

/-- **Every turn keeps the stack linked.** -/
theorem turn_linked {s : ContainerState} {a : Activity} {r : Reply} {t : Turn} (h : a.Linked)
    (ht : turn s a r = some t) : t.pc.Linked := by
  cases turn_cases ht with
  | @asked place stack scope interface _ hrest hcall =>
    have hnil : stack = [] := h.stack_nil hrest
    subst hnil
    have hasked : Linked interface [] := trivial
    exact call_linked hasked hcall
  | changed => exact h
  | raisedInCall => exact h.2
  | entered => exact enter_linked h rfl
  | acquired => exact secondCheck_linked h rfl
  | built => exact stepBuild_linked h.1 h.2 rfl
  | returned | raised => exact h
  | @resolving f stack scope interface _ hmay hcall =>
    have hasked : Linked interface (.body f :: stack) := ⟨hmay, h⟩
    exact call_linked hasked hcall
  | answered => exact returnTo_linked h rfl

theorem exec_linked {ls : List (Nat × Reply)} {s s' : State} (h : ∀ i, (s.pcs i).Linked)
    (he : system.exec s ls = some s') (i : Nat) : (s'.pcs i).Linked := by
  have hm : system.Meets (fun _ _ => True) s ls := System.meets_of_labels (fun _ _ => trivial) s
  refine Tasks.exec_local (P := fun a _ => a.Linked) ?_ (h i) hm he
  intro s r t _ ha ht
  exact turn_linked ha ht

theorem initial_linked (registry : ServiceRegistry) (i : Nat) :
    ((initial registry).pcs i).Linked := rfl

end Resolver

end IraOS
