import IraOS.Container.Alone
import IraOS.Container.Validation

/-!
# Validation agrees with resolution

Two walks of the same registry: the validator's, which looks and builds nothing, and the resolver's,
which builds, with caches that fill as it goes. Either comes to an end (`validates`, `resolves`),
the resolver's always with what settling the graph finds.

The two tell a cycle apart from the other failures in different ways. The resolver catches
`CircularDependencyError` by its class. The validator raises one class for everything and looks for
a phrase in the text, so a service whose name has that phrase in it is a cycle to the validator and
a missing dependency to the resolver. The walks agree on every interface of a registry exactly where
nothing is so named that has to be reported (`agreement_iff`).

## What agreement is

For every interface, registered or not: the validator's walk comes back, whatever the number of
levels it is cut off at, if that is more than there are registrations; the resolve of one task,
where nothing has been built and whatever is called returns, comes to one end; they raise together,
and both for a cycle or neither. And the list that `validate` answers is empty just if every
registered interface can be resolved.

## The two directions

Both walks are compared with the same third thing, the verdict of the graph (`Lib.Verdict`), which
knows nothing of texts or of caches. Where no interface is misnamed each of them tells the verdict.
Where one is, the verdict is that it cannot be built for want of something, the resolver says so,
and the validator says that there is a cycle.
-/

set_option autoImplicit false

namespace IraOS

open Lib Resolver

namespace Container

/-- The validator's walk of `interface` from an empty chain comes back with `walked`: whatever the
number of levels it is cut off at, if that is more than there are registrations. -/
def Validates (registry : ServiceRegistry) (interface : PyType) (walked : Except String Unit) :
    Prop :=
  ∀ fuel, registry.size < fuel → Validator.validateNode registry fuel interface [] = some walked

/-- `resolve(interface)` comes to this end where nothing has been built, with one task there and
with everything that is called returning. -/
def Resolves (registry : ServiceRegistry) (interface : PyType)
    (result : Except Exn Instance) : Prop :=
  ∃ n s, Resolver.system.exec (Resolver.initial registry)
      ((0, .resolve none interface) :: List.replicate n (0, .go)) = some s ∧
    (s.pcs 0).place = .finished interface result

structure Agree (walked : Except String Unit) (result : Except Exn Instance) : Prop where
  raises : (∃ e, walked = .error e) ↔ ∃ e, result = .error e
  circular : (∃ e, walked = .error e ∧ Validator.saysCircular e = true) ↔
    ∃ e, result = .error e ∧ e.cls = .circularDependencyError

section Walks

variable {registry : ServiceRegistry} {interface : PyType}

theorem agree_of_shows {walked : Except String Unit} {result : Except Exn Instance}
    {v : Option Bool} (hw : Validator.Shows walked v) (hr : Resolver.Shows result v) :
    Agree walked result := by
  cases hw with
  | ok =>
    cases hr with
    | ok => exact ⟨by simp, by simp⟩
  | circular hw =>
    cases hr with
    | circular hr => exact ⟨by simp, by simp [hw, hr]⟩
  | failed hw =>
    cases hr with
    | failed hr => exact ⟨by simp, by simp [hw, hr]⟩

theorem validates (registry : ServiceRegistry) (interface : PyType) :
    ∃ walked, Validates registry interface walked ∧
      Validator.Finds registry interface (some walked) := by
  have hfuel : unvisited registry.keys [] < registry.size + 1 := by
    have hle := unvisited_le registry.keys []
    rw [Dict.length_keys] at hle
    omega
  have habove : Above registry.graph [] interface := .nil
  have hfinds := Validator.validateNode_finds hfuel habove
  generalize hwalk : Validator.validateNode registry (registry.size + 1) interface [] = found
    at hfinds
  have hvalidates : ∀ walked, found = some walked → Validates registry interface walked := by
    intro walked hfound fuel hmore
    exact Validator.validateNode_mono hmore (hwalk.trans hfound)
  cases hfinds with
  | shown shows verdict => exact ⟨_, hvalidates _ rfl, .shown shows verdict⟩
  | misled circular reported => exact ⟨_, hvalidates _ rfl, .misled circular reported⟩

theorem resolves (registry : ServiceRegistry) (interface : PyType) :
    ∃ result v, Resolves registry interface result ∧ Resolver.Shows result v ∧
      Verdict registry.graph interface v := by
  have hcall : turn (initial registry).shared ((initial registry).pcs 0) (.resolve none interface)
      = some ⟨{ registry := registry, scopes := Function.update _ 0 Dict.empty, nextScope := 1 },
          ⟨.entering interface [] 0, [.root 0]⟩, []⟩ := rfl
  have hcalled := (Solo.start registry 0).step (fun _ h => by cases h) hcall (by simp)
  have hn : unvisited registry.keys [] < registry.keys.length + 1 :=
    Nat.lt_succ_of_le (unvisited_le registry.keys [])
  obtain ⟨s, result, v, hgone, hplace, _, hshows, hverdict⟩ :=
    entering_answers hn hcalled (Tasks.take_pcs_self ..) (by simp) .nil
  obtain ⟨s', hback, hfinished⟩ := root_finishes hplace
  obtain ⟨n, hrun⟩ := hgone.trans hback
  refine ⟨result, v, ⟨n, s', ?_, ?_⟩, hshows, hverdict⟩
  · exact (System.exec_cons_of (Tasks.step_of hcall) _).trans hrun
  · rw [hfinished]

theorem Resolves.unique {result result' : Except Exn Instance}
    (h : Resolves registry interface result) (h' : Resolves registry interface result') :
    result = result' := by
  obtain ⟨n, s, hrun, hplace⟩ := h
  obtain ⟨m, s', hrun', hplace'⟩ := h'
  obtain ⟨s₁, hcall, hrun⟩ := System.exec_cons_some hrun
  obtain ⟨s₂, hcall', hrun'⟩ := System.exec_cons_some hrun'
  have hsame : s₁ = s₂ := Option.some.inj (hcall.symm.trans hcall')
  subst hsame
  have hend : s = s' := Gone.finished_unique ⟨n, hrun⟩ ⟨m, hrun'⟩ hplace hplace'
  rw [← hend, hplace] at hplace'
  cases hplace'
  rfl

end Walks

/-! ## The whole registry -/

theorem mapM_walked {f : PyType → Option (Except String Unit)} {g : PyType → Except String Unit}
    {keys : List PyType} (h : ∀ interface, f interface = some (g interface)) :
    keys.mapM f = some (keys.map g) := by
  rw [funext h]
  exact List.mapM_pure

theorem errorOf_eq_nil {walked : Except String Unit} :
    Validator.errorOf walked = [] ↔ ¬ ∃ e, walked = .error e := by
  cases walked with
  | ok => simp [Validator.errorOf]
  | error e => simp [Validator.errorOf]

theorem mem_keys {registry : ServiceRegistry} {interface : PyType} :
    interface ∈ registry.keys ↔ registry.contains interface = true := by
  rw [Dict.mem_keys_iff, Dict.contains_iff]

/-- **Validation agrees with resolution** on a registry: for every interface both walks come to an
end, the one for every cut-off above the number of registrations, the other with one result; they
raise together and report a cycle together; and `validate` comes back with nothing exactly where
every registered interface can be resolved. -/
structure Agreement (registry : ServiceRegistry) : Prop where
  each : ∀ interface, ∃ walked result, Validates registry interface walked ∧
    Resolves registry interface result ∧
    (∀ result', Resolves registry interface result' → result' = result) ∧ Agree walked result
  whole : ∃ errors,
    (∀ fuel, registry.size < fuel → Validator.validate registry fuel = some errors) ∧
    (errors = [] ↔ ∀ interface, registry.contains interface = true →
      ∃ inst, Resolves registry interface (.ok inst))

theorem agree_of_named {registry : ServiceRegistry}
    (hnamed : ∀ interface, ¬ Validator.Misnamed registry interface) (interface : PyType) :
    ∃ walked result, Validates registry interface walked ∧ Resolves registry interface result ∧
      (∀ result', Resolves registry interface result' → result' = result) ∧
      Agree walked result := by
  obtain ⟨walked, hwalk, hfinds⟩ := validates registry interface
  obtain ⟨result, v, hresolve, hr, hv⟩ := resolves registry interface
  refine ⟨walked, result, hwalk, hresolve, fun result' h => h.unique hresolve, ?_⟩
  cases hfinds with
  | misled _ reported => exact absurd reported (hnamed _)
  | shown hw hv' =>
    rw [hv'.unique hv] at hw
    exact agree_of_shows hw hr

theorem agreement_of_named {registry : ServiceRegistry}
    (hnamed : ∀ interface, ¬ Validator.Misnamed registry interface) : Agreement registry := by
  have heach := agree_of_named hnamed
  refine ⟨heach, ?_⟩
  choose walked result hwalk hresolve hunique hagree using heach
  refine ⟨registry.keys.flatMap fun interface => Validator.errorOf (walked interface), ?_, ?_⟩
  · intro fuel hfuel
    rw [Validator.validate, mapM_walked fun interface => hwalk interface fuel hfuel]
    rw [Option.map_some, List.flatMap_map]
  · rw [List.flatMap_eq_nil_iff]
    have hok : ∀ interface, Validator.errorOf (walked interface) = [] ↔
        ∃ inst, Resolves registry interface (.ok inst) := by
      intro interface
      rw [errorOf_eq_nil, (hagree interface).raises]
      constructor
      · intro hnone
        cases hresult : result interface with
        | ok inst => exact ⟨inst, hresult ▸ hresolve interface⟩
        | error e => exact absurd ⟨e, hresult⟩ hnone
      · rintro ⟨inst, hinst⟩ ⟨e, he⟩
        cases (hunique interface _ hinst).trans he
    constructor
    · intro hnone interface hregistered
      exact (hok interface).mp (hnone interface (mem_keys.mpr hregistered))
    · intro hall interface hkey
      exact (hok interface).mpr (hall interface (mem_keys.mp hkey))

theorem not_agreement_of_misnamed {registry : ServiceRegistry} {interface : PyType}
    (hmisnamed : Validator.Misnamed registry interface) : ¬ Agreement registry := by
  intro h
  obtain ⟨walked, result, hwalk, hresolve, _, hagree⟩ := h.each interface
  obtain ⟨e, hwalked, hcircular⟩ := hmisnamed.walked (Nat.lt_succ_self registry.size)
  have heq := (hwalk _ (Nat.lt_succ_self registry.size)).symm.trans hwalked
  obtain ⟨e', hresult, hclass⟩ := hagree.circular.mp ⟨e, Option.some.inj heq, hcircular⟩
  obtain ⟨result', v, hresolve', hshows, hverdict⟩ := resolves registry interface
  rw [Resolves.unique hresolve hresolve'] at hresult
  subst hresult
  cases hshows with
  | circular _ => exact hverdict _ hmisnamed.settles
  | failed h => cases h.symm.trans hclass

/-- **Validation agrees with resolution just where nothing that has to be reported has the phrase in
its name.** One misnamed interface is enough for the two to disagree about it, whatever the rest of
the registry is like; and a name with the phrase in it does no harm as long as no failure is
reported by it. -/
theorem agreement_iff (registry : ServiceRegistry) :
    Agreement registry ↔ ∀ interface, ¬ Validator.Misnamed registry interface := by
  constructor
  · intro h interface hmisnamed
    exact not_agreement_of_misnamed hmisnamed h
  · exact agreement_of_named

/-! ## A class with the phrase for its name -/

def interfacePhrase : PyType :=
  ⟨2, circularPhrase, "<class 'app.Circular dependency detected'>"⟩

def interfaceOptional : PyType := ⟨1, "Cache", "<class 'app.Cache'>"⟩

def interfaceService : PyType := ⟨0, "Service", "<class 'app.Service'>"⟩

/-- `Service(cache: Cache = None)` and `Cache(backend: …)`, whose backend nobody has registered. -/
def registryPhrase : ServiceRegistry :=
  (Dict.empty.set interfaceOptional ⟨1, interfaceOptional, .SINGLETON, .implementation
    { name := "Cache", signature := [⟨"backend", some interfacePhrase, false⟩] }⟩).set
      interfaceService ⟨0, interfaceService, .SINGLETON, .implementation
        { name := "Service", signature := [⟨"cache", some interfaceOptional, true⟩] }⟩

theorem misnamed_phrase : Validator.Misnamed registryPhrase interfacePhrase :=
  .missing rfl (by decide +kernel)

/-- The service is resolved, with the default for its cache, and its validation reports a cycle. -/
theorem phrase_disagrees :
    (∃ e, Validates registryPhrase interfaceService (.error e) ∧
      Validator.saysCircular e = true) ∧
    (∃ inst, Resolves registryPhrase interfaceService (.ok inst)) ∧
    ¬ Agreement registryPhrase := by
  refine ⟨?_, ?_, not_agreement_of_misnamed misnamed_phrase⟩
  · have hcircular : Validator.saysCircular (Validator.missingMessage interfacePhrase) = true :=
      (Validator.saysCircular_missingMessage _).mpr (by decide +kernel)
    have hbackend : Validator.validateNode registryPhrase 1 interfacePhrase
        [interfaceOptional, interfaceService]
          = some (.error (Validator.missingMessage interfacePhrase)) := rfl
    have hcache : Validator.validateNode registryPhrase 2 interfaceOptional [interfaceService]
        = some (.error (Validator.missingMessage interfacePhrase)) :=
      Validator.validateNode_reraises (by decide) rfl rfl rfl rfl nofun hbackend hcircular
    have hservice : Validator.validateNode registryPhrase 3 interfaceService []
        = some (.error (Validator.missingMessage interfacePhrase)) :=
      Validator.validateNode_reraises (by decide) rfl rfl rfl rfl (fun _ => rfl) hcache hcircular
    refine ⟨Validator.missingMessage interfacePhrase, ?_, hcircular⟩
    intro fuel hfuel
    exact Validator.validateNode_mono hfuel hservice
  · obtain ⟨result, v, hresolve, hshows, hverdict⟩ := resolves registryPhrase interfaceService
    have hsettles : Verdict registryPhrase.graph interfaceService (some true) := ⟨3, rfl⟩
    obtain rfl := hverdict.unique hsettles
    cases hshows with
    | ok => exact ⟨_, hresolve⟩

end Container

end IraOS
