import IraOS.Container.Resolver

/-!
# The stretches of the resolver

Between two waits a task goes through one of five stretches of the resolver's text: a call begins,
it looks what there is, it looks again in its lock, it goes one round through the parameters, and it
comes back to who called it. Here is what each of them can end in, and with what found out on the
way; what follows about turns of a task goes by these cases and not by the text.

Each relation has a case for each way out of its stretch, with the conditions that were passed as
hypotheses and the turn that results as its index, and each function of `Container.Resolver` has one
lemma that says so. These lemmas are the only ones that unfold it. A line added to the resolver adds
a case here, and nothing changes for invariants to which it makes no difference.
-/

set_option autoImplicit false

namespace IraOS

open Lib

namespace Resolver

variable {s : ContainerState} {stack : List Caller} {interface : PyType} {t : Turn}

inductive Called (s : ContainerState) (stack : List Caller) (interface : PyType) :
    Option Nat → Turn → Prop
  | inScope {k : Nat} (hcreated : k ∈ s.created) :
      Called s stack interface (some k) ⟨s, ⟨.entering interface [] k, stack⟩, []⟩
  /-- `Container.resolve`, with a scope of its own. -/
  | root : Called s stack interface none
      ⟨{ s with
          scopes := Function.update s.scopes s.nextScope Dict.empty
          nextScope := s.nextScope + 1 },
        ⟨.entering interface [] s.nextScope, .root s.nextScope :: stack⟩, []⟩

theorem call_cases {scope : Option Nat} (h : call s stack scope interface = some t) :
    Called s stack interface scope t := by
  cases scope with
  | none =>
    cases h
    exact .root
  | some k =>
    unfold call at h
    simp only at h
    split at h
    · next hcreated =>
      cases h
      exact .inScope hcreated
    · cases h

inductive Entered (s : ContainerState) (stack : List Caller) (interface : PyType)
    (chain : ResolutionChain) (k : Nat) : Turn → Prop
  | refused (e : Exn) : Entered s stack interface chain k (answer s stack interface (.error e))
  | cached {d : ServiceDescriptor} {inst : Instance} (hd : s.registry.get? interface = some d)
      (hcached : cached s d interface k = some inst) :
      Entered s stack interface chain k (answer s stack interface (.ok inst))
  | given {d : ServiceDescriptor} {object : Nat} (hchain : interface ∉ chain)
      (hd : s.registry.get? interface = some d) (hcached : cached s d interface k = none)
      (hobject : d.instance? = some object) :
      Entered s stack interface chain k (answer s stack interface (.ok (.given object)))
  /-- It has something to build. -/
  | built {d : ServiceDescriptor} {target : Target} (hchain : interface ∉ chain)
      (hd : s.registry.get? interface = some d) (hcached : cached s d interface k = none)
      (htarget : d.target? = some target) :
      Entered s stack interface chain k (build s stack interface chain k d target)

theorem enter_cases {chain : ResolutionChain} {k : Nat}
    (h : enter s stack interface chain k = t) : Entered s stack interface chain k t := by
  subst h
  unfold enter
  split
  · exact .refused _
  next hchain =>
  split
  · exact .refused _
  next d hd =>
  split
  · next inst hcached => exact .cached hd hcached
  next hcached =>
  split
  · next object hprovider =>
    exact .given hchain hd hcached (by rw [ServiceDescriptor.instance?, hprovider])
  · next target hprovider =>
    exact .built hchain hd hcached (by rw [ServiceDescriptor.target?, hprovider])
  · next target hprovider =>
    exact .built hchain hd hcached (by rw [ServiceDescriptor.target?, hprovider])

inductive Began (s : ContainerState) (stack : List Caller) (interface : PyType)
    (chain : ResolutionChain) (k : Nat) (d : ServiceDescriptor) (target : Target) : Turn → Prop
  | queued (hlifetime : d.lifetime = .SINGLETON) :
      Began s stack interface chain k d target
        ⟨enqueue (getSingletonLock s interface).1 (getSingletonLock s interface).2,
          ⟨.acquiring
            { interface := interface, descriptor := d, target := target,
              chain := interface :: chain, scope := k,
              held := some ((getSingletonLock s interface).2, s.nextTicket) }, stack⟩, []⟩
  | atOnce (hlifetime : d.lifetime ≠ .SINGLETON) :
      Began s stack interface chain k d target
        ⟨s, ⟨.building
          { interface := interface, descriptor := d, target := target,
            chain := interface :: chain, scope := k, held := none } target.parameters [],
          stack⟩, []⟩

theorem getSingletonLock_nextTicket (s : ContainerState) (interface : PyType) :
    (getSingletonLock s interface).1.nextTicket = s.nextTicket := by
  unfold getSingletonLock
  split <;> rfl

theorem build_cases {chain : ResolutionChain} {k : Nat} {d : ServiceDescriptor} {target : Target}
    (h : build s stack interface chain k d target = t) :
    Began s stack interface chain k d target t := by
  subst h
  by_cases hlifetime : d.lifetime = .SINGLETON
  · simp only [build, if_pos hlifetime, getSingletonLock_nextTicket]
    exact .queued hlifetime
  · simp only [build, if_neg hlifetime]
    exact .atOnce hlifetime

inductive Checked (s : ContainerState) (stack : List Caller) (f : Frame) : Turn → Prop
  | shared {inst : Instance} (hcache : s.singletonInstances.get? f.interface = some inst) :
      Checked s stack f (answer (release s f.held) stack f.interface (.ok inst))
  | absent (hcache : s.singletonInstances.get? f.interface = none) :
      Checked s stack f ⟨s, ⟨.building f f.target.parameters [], stack⟩, []⟩

theorem secondCheck_cases {f : Frame} (h : secondCheck s stack f = t) : Checked s stack f t := by
  subst h
  unfold secondCheck
  split
  · next inst hcache => exact .shared hcache
  · next hcache => exact .absent hcache

inductive Stepped (s : ContainerState) (stack : List Caller) (f : Frame) :
    List Parameter → Kwargs → Turn → Prop
  | unannotated (p : Parameter) (rest : List Parameter) (kwargs : Kwargs) :
      Stepped s stack f (p :: rest) kwargs (fail s stack f (unannotated p f.target))
  | parameter (p : Parameter) (rest : List Parameter) (kwargs : Kwargs) {interface : PyType}
      (hnamed : p.annotation = some interface) :
      Stepped s stack f (p :: rest) kwargs
        ⟨s, ⟨.entering interface f.chain f.scope, .parameter f p rest kwargs :: stack⟩, []⟩
  | coroutine (kwargs : Kwargs) (hcoroutine : f.target.isCoroutine = true) :
      Stepped s stack f [] kwargs ⟨s, ⟨.inBody f, stack⟩, [.called f.interface kwargs]⟩
  | completed (kwargs : Kwargs) (hcoroutine : f.target.isCoroutine ≠ true) :
      Stepped s stack f [] kwargs
        ⟨(complete s stack f).shared, (complete s stack f).pc,
          .called f.interface kwargs :: (complete s stack f).actions⟩

theorem stepBuild_cases {f : Frame} {rest : List Parameter} {kwargs : Kwargs}
    (h : stepBuild s stack f rest kwargs = t) : Stepped s stack f rest kwargs t := by
  subst h
  cases rest with
  | cons p rest =>
    simp only [stepBuild]
    split
    · exact .unannotated p rest kwargs
    · next interface hnamed => exact .parameter p rest kwargs hnamed
  | nil =>
    simp only [stepBuild]
    split
    · next hcoroutine => exact .coroutine kwargs hcoroutine
    · next hcoroutine => exact .completed kwargs hcoroutine

inductive Returned (s : ContainerState) (interface : PyType) (result : Except Exn Instance) :
    List Caller → Turn → Prop
  | finished : Returned s interface result [] ⟨s, ⟨.finished interface result, []⟩, []⟩
  /-- The scope of the call is gone with it. -/
  | root (k : Nat) (stack : List Caller) :
      Returned s interface result (.root k :: stack)
        ⟨{ s with scopes := Function.update s.scopes k Dict.empty },
          ⟨.answering interface result, stack⟩, []⟩
  | body (f : Frame) (stack : List Caller) :
      Returned s interface result (.body f :: stack) ⟨s, ⟨.inBody f, stack⟩, []⟩
  | resumed (f : Frame) (p : Parameter) (rest : List Parameter) (kwargs kwargs' : Kwargs)
      (stack : List Caller) :
      Returned s interface result (.parameter f p rest kwargs :: stack)
        ⟨s, ⟨.building f rest kwargs', stack⟩, []⟩
  | failed (f : Frame) (p : Parameter) (rest : List Parameter) (kwargs : Kwargs) (e : Exn)
      (stack : List Caller) :
      Returned s interface result (.parameter f p rest kwargs :: stack) (fail s stack f e)

theorem returnTo_cases {result : Except Exn Instance}
    (h : returnTo s stack interface result = t) : Returned s interface result stack t := by
  subst h
  cases stack with
  | nil => exact .finished
  | cons caller stack =>
    cases caller with
    | root k => exact .root k stack
    | body f => exact .body f stack
    | parameter f p rest kwargs =>
      simp only [returnTo]
      split
      · exact .resumed ..
      · split
        · exact .failed ..
        · split
          · split
            · exact .resumed ..
            · exact .failed ..
          · exact .failed ..

end Resolver

end IraOS
