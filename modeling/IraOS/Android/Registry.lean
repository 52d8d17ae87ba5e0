import IraOS.Android.Adapter
import IraOS.Lib.System

/-!
# Two registries of one capability

`core/android/registry.py` over `core/runtime/registry.py`, with the events both publish. One
registration is three effects, the Android registry's entry, the tool registry's and two events, and
each can raise: the tool registry where the id is taken by somebody else, `publish` where a handler
or a middleware raises. **Neither `register` nor `unregister` undoes what it did before the raise**,
although every check of its own comes before its first effect.

`inStep_iff_undisturbed` says exactly which runs keep the two in step.

## In step

What is under an id in the Android registry is what the tool registry's adapter under the same id
wraps, and the other way round for every adapter in the tool registry. The tool registry may have
other tools besides; they are nobody's adapters.

## Undisturbed calls

A call keeps the two in step, and is all or nothing, just if it is refused by the Android registry's
own checks, or neither the tool registry nor a publish raises (`Undisturbed`). Other components may
call the tool registry directly; such a call is undisturbed if it leaves the ids of Android
capabilities, and their adapters, alone. One that takes an Android capability's id away, or
registers an adapter by itself, puts the two out of step although nothing has raised.

What raises is the surroundings' choice, call by call (`Faults`), so the runs are all runs of calls
with all faults.
-/

set_option autoImplicit false

namespace IraOS

open Lib

variable {δ : Type}

abbrev AndroidRef := Nat

/-- The objects there are: the kernel's capabilities, the Android ones, and which of the first is an
adapter that wraps which of the second. -/
structure AndroidObjects (δ : Type) where
  objects : Objects δ
  capabilities : AndroidRef → AndroidCapability δ
  wraps : CapabilityRef → Option AndroidRef
  adapter : ∀ {inst cap}, wraps inst = some cap →
    objects inst = DefaultAndroidAdapter (capabilities cap)

inductive RegistryEvent where
  | capabilityRegistered (capabilityId capabilityName : String)
  | capabilityUnregistered (capabilityId : String)
  | androidCapabilityRegistered (capabilityId capabilityName : String)
  | androidCapabilityRemoved (capabilityId : String)
  deriving DecidableEq, Repr

namespace InMemoryAndroidRegistry

structure Faults where
  /-- The tool registry raises before it has done anything. -/
  tool : Option Exn := none
  /-- Publishing the tool registry's event raises. -/
  toolEvent : Option Exn := none
  /-- Publishing the Android registry's event raises. -/
  event : Option Exn := none

def Faults.Clear (f : Faults) : Prop := f.tool = none ∧ f.toolEvent = none ∧ f.event = none

abbrev RegistryAct := Act State Exn RegistryEvent

def publish (fault : Option Exn) (event : RegistryEvent) : RegistryAct Unit := do
  Act.emit event
  match fault with
  | none => pure ()
  | some exc => Act.throw exc

def toolRegister (objects : Objects δ) (faults : Faults) (inst : CapabilityRef) :
    RegistryAct Unit :=
  match faults.tool with
  | some exc => Act.throw exc
  | none => do
    let s ← Act.get
    let caps ← Act.ofExcept (InMemoryCapabilityRegistry.register objects s.toolRegistry inst)
    Act.modify fun s => { s with toolRegistry := caps }
    let metadata := (objects inst).metadata
    publish faults.toolEvent (.capabilityRegistered metadata.id metadata.name)

def toolUnregister (faults : Faults) (capabilityId : String) : RegistryAct Unit :=
  match faults.tool with
  | some exc => Act.throw exc
  | none => do
    let s ← Act.get
    let caps ← Act.ofExcept (InMemoryCapabilityRegistry.unregister s.toolRegistry capabilityId)
    Act.modify fun s => { s with toolRegistry := caps }
    publish faults.toolEvent (.capabilityUnregistered capabilityId)

/-- `register`, of a capability whose new adapter is the object `inst`; what is under an id is the
adapter, which stands for the capability it wraps. -/
def registerCapability (objects : Objects δ) (capability : AndroidCapability δ)
    (inst : CapabilityRef) (faults : Faults) : RegistryAct Unit := do
  let descriptor := capability.descriptor
  let s ← Act.get
  if descriptor.id.isEmpty then
    Act.throw ⟨.other "AndroidCapabilityRegistrationError",
      lit "Capability descriptor or ID is invalid."⟩
  else if s.capabilities.contains descriptor.id then
    Act.throw ⟨.other "AndroidCapabilityRegistrationError",
      lit ("Capability '" ++ descriptor.id ++ "' already registered.")⟩
  else do
    Act.modify fun s => { s with capabilities := s.capabilities.set descriptor.id inst }
    toolRegister objects faults inst
    publish faults.event (.androidCapabilityRegistered descriptor.id descriptor.name)

/-- `unregister`. -/
def unregisterCapability (capabilityId : String) (faults : Faults) : RegistryAct Unit := do
  let s ← Act.get
  if s.capabilities.contains capabilityId = false then
    Act.throw ⟨.other "AndroidCapabilityRegistrationError",
      lit ("Capability '" ++ capabilityId ++ "' not found.")⟩
  else do
    Act.modify fun s => { s with capabilities := s.capabilities.erase capabilityId }
    toolUnregister faults capabilityId
    publish faults.event (.androidCapabilityRemoved capabilityId)

/-! ## What a call does -/

section Runs

variable (objects : Objects δ) (capability : AndroidCapability δ) (inst : CapabilityRef)
  (faults : Faults) (capabilityId : String)

theorem run_publish (fault : Option Exn) (event : RegistryEvent) (s : State) :
    publish fault event s =
      ⟨match fault with | none => .ok () | some exc => .error exc, s, [event]⟩ := by
  cases fault <;> rfl

theorem toolRegister_cases (s : State) :
    (∃ exc, toolRegister objects faults inst s = ⟨.error exc, s, []⟩ ∧
      (faults.tool = some exc ∨
        InMemoryCapabilityRegistry.register objects s.toolRegistry inst = .error exc)) ∨
    ∃ caps t, faults.tool = none ∧
      InMemoryCapabilityRegistry.register objects s.toolRegistry inst = .ok caps ∧
      toolRegister objects faults inst s =
        ⟨match faults.toolEvent with | none => .ok () | some exc => .error exc,
          { s with toolRegistry := caps }, t⟩ := by
  unfold toolRegister
  cases hf : faults.tool with
  | some exc => exact Or.inl ⟨exc, rfl, Or.inl rfl⟩
  | none =>
    dsimp only
    rw [Act.bind_get]
    cases hr : InMemoryCapabilityRegistry.register objects s.toolRegistry inst with
    | error exc => exact Or.inl ⟨exc, rfl, Or.inr rfl⟩
    | ok caps =>
      refine Or.inr ⟨caps, [.capabilityRegistered (objects inst).metadata.id
        (objects inst).metadata.name], rfl, rfl, ?_⟩
      rw [Act.run_bind_of_ok (Act.run_ofExcept _ s), Act.bind_modify, run_publish]
      rfl

theorem toolUnregister_cases (s : State) :
    (∃ exc, toolUnregister faults capabilityId s = ⟨.error exc, s, []⟩ ∧
      (faults.tool = some exc ∨ s.toolRegistry.contains capabilityId = false)) ∨
    ∃ t, faults.tool = none ∧ s.toolRegistry.contains capabilityId = true ∧
      toolUnregister faults capabilityId s =
        ⟨match faults.toolEvent with | none => .ok () | some exc => .error exc,
          { s with toolRegistry := s.toolRegistry.erase capabilityId }, t⟩ := by
  unfold toolUnregister
  cases hf : faults.tool with
  | some exc => exact Or.inl ⟨exc, rfl, Or.inl rfl⟩
  | none =>
    dsimp only
    rw [Act.bind_get, InMemoryCapabilityRegistry.unregister]
    cases hc : s.toolRegistry.contains capabilityId with
    | false => exact Or.inl ⟨_, rfl, Or.inr rfl⟩
    | true =>
      refine Or.inr ⟨[.capabilityUnregistered capabilityId], rfl, rfl, ?_⟩
      rw [if_pos rfl, Act.run_bind_of_ok (Act.run_ofExcept _ s), Act.bind_modify, run_publish]
      rfl

theorem registerCapability_cases (s : State) :
    ((capability.descriptor.id.isEmpty = true ∨
        s.capabilities.contains capability.descriptor.id = true) ∧
      ∃ exc, registerCapability objects capability inst faults s = ⟨.error exc, s, []⟩) ∨
    capability.descriptor.id.isEmpty = false ∧
      s.capabilities.contains capability.descriptor.id = false ∧
      let own := { s with capabilities := s.capabilities.set capability.descriptor.id inst }
      ((∃ exc, (registerCapability objects capability inst faults s).result = .error exc ∧
          (registerCapability objects capability inst faults s).state = own ∧
          (faults.tool = some exc ∨
            InMemoryCapabilityRegistry.register objects s.toolRegistry inst = .error exc)) ∨
        ∃ caps, faults.tool = none ∧
          InMemoryCapabilityRegistry.register objects s.toolRegistry inst = .ok caps ∧
          (registerCapability objects capability inst faults s).state =
            { own with toolRegistry := caps } ∧
          ((registerCapability objects capability inst faults s).result = .ok () ↔
            faults.toolEvent = none ∧ faults.event = none)) := by
  unfold registerCapability
  dsimp only
  rw [Act.bind_get]
  by_cases h1 : capability.descriptor.id.isEmpty = true
  · rw [if_pos h1]
    exact Or.inl ⟨Or.inl h1, _, rfl⟩
  by_cases h2 : s.capabilities.contains capability.descriptor.id = true
  · rw [if_neg h1, if_pos h2]
    exact Or.inl ⟨Or.inr h2, _, rfl⟩
  -- its own entry is written first, and stays whatever the tool registry and the bus do
  rw [if_neg h1, if_neg h2, Act.bind_modify]
  refine Or.inr ⟨Bool.eq_false_of_not_eq_true h1, Bool.eq_false_of_not_eq_true h2, ?_⟩
  rcases toolRegister_cases objects inst faults
      { s with capabilities := s.capabilities.set capability.descriptor.id inst } with
    ⟨exc, hrun, hwhy⟩ | ⟨caps, t, hf, hr, hrun⟩
  · rw [Act.run_bind_of_error hrun]
    exact Or.inl ⟨exc, rfl, rfl, hwhy⟩
  · refine Or.inr ⟨caps, hf, hr, ?_⟩
    cases hevent : faults.toolEvent with
    | some exc =>
      rw [hevent] at hrun
      rw [Act.run_bind_of_error hrun]
      simp
    | none =>
      rw [hevent] at hrun
      rw [Act.run_bind_of_ok hrun, run_publish]
      cases faults.event <;> simp

theorem unregisterCapability_cases (s : State) :
    (s.capabilities.contains capabilityId = false ∧
      ∃ exc, unregisterCapability capabilityId faults s = ⟨.error exc, s, []⟩) ∨
    s.capabilities.contains capabilityId = true ∧
      let own := { s with capabilities := s.capabilities.erase capabilityId }
      ((∃ exc, (unregisterCapability capabilityId faults s).result = .error exc ∧
          (unregisterCapability capabilityId faults s).state = own ∧
          (faults.tool = some exc ∨ s.toolRegistry.contains capabilityId = false)) ∨
        faults.tool = none ∧
          (unregisterCapability capabilityId faults s).state =
            { own with toolRegistry := s.toolRegistry.erase capabilityId } ∧
          ((unregisterCapability capabilityId faults s).result = .ok () ↔
            faults.toolEvent = none ∧ faults.event = none)) := by
  unfold unregisterCapability
  rw [Act.bind_get]
  by_cases h1 : s.capabilities.contains capabilityId = false
  · rw [if_pos h1]
    exact Or.inl ⟨h1, _, rfl⟩
  -- its own entry is gone before the tool registry is asked
  rw [if_neg h1, Act.bind_modify]
  refine Or.inr ⟨Bool.eq_true_of_not_eq_false h1, ?_⟩
  rcases toolUnregister_cases faults capabilityId
      { s with capabilities := s.capabilities.erase capabilityId } with
    ⟨exc, hrun, hwhy⟩ | ⟨t, hf, _, hrun⟩
  · rw [Act.run_bind_of_error hrun]
    exact Or.inl ⟨exc, rfl, rfl, hwhy⟩
  · refine Or.inr ⟨hf, ?_⟩
    cases hevent : faults.toolEvent with
    | some exc =>
      rw [hevent] at hrun
      rw [Act.run_bind_of_error hrun]
      simp
    | none =>
      rw [hevent] at hrun
      rw [Act.run_bind_of_ok hrun, run_publish]
      cases faults.event <;> simp

end Runs

/-! ## Runs -/

section Steps

variable (o : AndroidObjects δ)

/-- A call of the Android registry, or somebody else's of the tool registry. -/
inductive Call where
  /-- `inst` is the adapter made for the capability. -/
  | register (cap : AndroidRef) (inst : CapabilityRef) (new : o.wraps inst = some cap)
      (faults : Faults)
  | unregister (capabilityId : String) (faults : Faults)
  | toolRegister (inst : CapabilityRef) (faults : Faults)
  | toolUnregister (capabilityId : String) (faults : Faults)

variable {o}

def Call.perform : Call o → RegistryAct Unit
  | .register cap inst _ faults => registerCapability o.objects (o.capabilities cap) inst faults
  | .unregister capabilityId faults => unregisterCapability capabilityId faults
  | .toolRegister inst faults => InMemoryAndroidRegistry.toolRegister o.objects faults inst
  | .toolUnregister capabilityId faults =>
    InMemoryAndroidRegistry.toolUnregister faults capabilityId

def Call.Own : Call o → Prop
  | .register .. | .unregister .. => True
  | .toolRegister .. | .toolUnregister .. => False

variable (o)

/-- Calls one after the other; one that raises goes no further, and the next one comes. -/
def calls : System State (Call o) := ⟨fun s call => some (call.perform s).state⟩

/-- What is under an id in the Android registry is what the tool registry's adapter wraps, and what
an adapter in the tool registry wraps is in the Android registry. -/
structure InStep (s : State) : Prop where
  bridged : ∀ id inst, s.capabilities.get? id = some inst → ∃ cap inst',
    o.wraps inst = some cap ∧ s.toolRegistry.get? id = some inst' ∧ o.wraps inst' = some cap
  known : ∀ id inst' cap, s.toolRegistry.get? id = some inst' → o.wraps inst' = some cap →
    ∃ inst, s.capabilities.get? id = some inst ∧ o.wraps inst = some cap

/-- The call leaves the two in step, and as they were if it is the Android registry's and raises. -/
def Kept (s : State) (call : Call o) : Prop :=
  InStep o (call.perform s).state ∧
    (call.Own → ∀ exc, (call.perform s).result = .error exc → (call.perform s).state = s)

/-- What keeps a call from doing half of it. The Android registry refuses it before it does
anything, or neither the tool registry nor a publish raises; and somebody else's call leaves the ids
of Android capabilities, and their adapters, alone. -/
def Undisturbed (s : State) : Call o → Prop
  | .register cap _ _ faults =>
    (o.capabilities cap).descriptor.id.isEmpty = true ∨
      s.capabilities.contains (o.capabilities cap).descriptor.id = true ∨
      s.toolRegistry.contains (o.capabilities cap).descriptor.id = false ∧ faults.Clear
  | .unregister capabilityId faults =>
    s.capabilities.contains capabilityId = false ∨ faults.Clear
  | .toolRegister inst faults =>
    faults.tool ≠ none ∨ o.wraps inst = none ∨ (o.objects inst).metadata.id.isEmpty = true ∨
      s.toolRegistry.contains (o.objects inst).metadata.id = true
  | .toolUnregister capabilityId faults =>
    faults.tool ≠ none ∨ s.toolRegistry.contains capabilityId = false ∨
      s.capabilities.contains capabilityId = false

variable {o} {s : State}

theorem InStep.contains (h : InStep o s) {id : String} (hid : s.capabilities.contains id = true) :
    s.toolRegistry.contains id = true := by
  obtain ⟨inst, hinst⟩ := Dict.contains_iff.mp hid
  obtain ⟨_, inst', _, hinst', _⟩ := h.bridged id inst hinst
  exact Dict.contains_iff.mpr ⟨inst', hinst'⟩

theorem toolRegister_ok_iff {objects : Objects δ} {inst : CapabilityRef}
    {caps caps' : InMemoryCapabilityRegistry.Capabilities} :
    InMemoryCapabilityRegistry.register objects caps inst = .ok caps' ↔
      (objects inst).metadata.id.isEmpty = false ∧
        caps.contains (objects inst).metadata.id = false ∧
        caps' = caps.set (objects inst).metadata.id inst := by
  unfold InMemoryCapabilityRegistry.register
  dsimp only
  split
  · next h => simp [h]
  · next h =>
    have h : (objects inst).metadata.id.isEmpty = false := Bool.eq_false_of_not_eq_true h
    split
    · next h' => simp [h, -Dict.contains_iff, h']
    · next h' =>
      have h' := Bool.eq_false_of_not_eq_true h'
      simp [h, -Dict.contains_iff, h', eq_comm]

theorem InStep.set (h : InStep o s) (id : String) {inst : CapabilityRef} {cap : AndroidRef}
    (hw : o.wraps inst = some cap) :
    InStep o ⟨s.capabilities.set id inst, s.toolRegistry.set id inst⟩ := by
  refine ⟨?_, ?_⟩
  · intro n a ha
    dsimp only at ha ⊢
    rw [Dict.get?_set] at ha ⊢
    by_cases hn : n = id
    · rw [if_pos hn] at ha ⊢
      cases ha
      exact ⟨cap, inst, hw, rfl, hw⟩
    · rw [if_neg hn] at ha ⊢
      exact h.bridged n a ha
  · intro n b c hb hc
    dsimp only at hb ⊢
    rw [Dict.get?_set] at hb ⊢
    by_cases hn : n = id
    · rw [if_pos hn] at hb ⊢
      cases hb
      exact ⟨inst, rfl, hc⟩
    · rw [if_neg hn] at hb ⊢
      exact h.known n b c hb hc

theorem InStep.erase (h : InStep o s) (id : String) :
    InStep o ⟨s.capabilities.erase id, s.toolRegistry.erase id⟩ := by
  refine ⟨?_, ?_⟩
  · intro n a ha
    dsimp only at ha ⊢
    rw [Dict.get?_erase] at ha ⊢
    by_cases hn : n = id
    · rw [if_pos hn] at ha
      cases ha
    · rw [if_neg hn] at ha ⊢
      exact h.bridged n a ha
  · intro n b c hb hc
    dsimp only at hb ⊢
    rw [Dict.get?_erase] at hb ⊢
    by_cases hn : n = id
    · rw [if_pos hn] at hb
      cases hb
    · rw [if_neg hn] at hb ⊢
      exact h.known n b c hb hc

theorem state_ne {d d' t t' : Dict String CapabilityRef} {id : String}
    (h : d'.contains id ≠ d.contains id) : (⟨d', t'⟩ : State) ≠ ⟨d, t⟩ := by
  intro hq
  rw [State.mk.injEq] at hq
  exact h (by rw [hq.1])

theorem contains_set (d : Dict String CapabilityRef) (id : String) (inst : CapabilityRef) :
    (d.set id inst).contains id = true := by
  simp

theorem contains_erase (d : Dict String CapabilityRef) (id : String) :
    (d.erase id).contains id = false := by
  rw [Dict.contains, Dict.get?_erase_self]
  rfl

theorem kept_register_iff (h : InStep o s) {cap : AndroidRef} {inst : CapabilityRef}
    (new : o.wraps inst = some cap) (faults : Faults) :
    Kept o s (.register cap inst new faults) ↔ Undisturbed o s (.register cap inst new faults) := by
  have hid : (o.objects inst).metadata.id = (o.capabilities cap).descriptor.id := by
    rw [o.adapter new]
    rfl
  rw [Kept, Call.perform, Undisturbed]
  rcases registerCapability_cases o.objects (o.capabilities cap) inst faults s with
    ⟨hwhy, exc, hrun⟩ | ⟨h1, h2, hrun⟩
  · rw [hrun]
    exact ⟨fun _ => hwhy.imp_right Or.inl, fun _ => ⟨h, fun _ _ _ => rfl⟩⟩
  -- its own entry is there already when the tool registry has its say
  have hown : ∀ t, (⟨s.capabilities.set (o.capabilities cap).descriptor.id inst, t⟩ : State) ≠ s :=
    fun t => state_ne (by rw [contains_set, h2]; simp)
  rcases hrun with ⟨exc, hres, hstate, hwhy⟩ | ⟨caps, htool, hr, hstate, hres⟩
  · rw [hres, hstate]
    refine ⟨fun hk => absurd (hk.2 trivial exc rfl) (hown _), ?_⟩
    rintro (h1' | h2' | ⟨hfree, htool, _⟩)
    · rw [h1] at h1'
      cases h1'
    · rw [h2] at h2'
      cases h2'
    · rw [htool] at hwhy
      have hok := toolRegister_ok_iff.mpr ⟨hid ▸ h1, hid ▸ hfree, rfl⟩
      rw [hwhy.resolve_left (by simp)] at hok
      cases hok
  · obtain ⟨_, hfree, rfl⟩ := toolRegister_ok_iff.mp hr
    rw [hid] at hfree hstate
    rw [hstate]
    constructor
    · rintro ⟨_, hundo⟩
      refine Or.inr (Or.inr ⟨hfree, htool, hres.mp ?_⟩)
      cases hresult : (registerCapability o.objects (o.capabilities cap) inst faults s).result with
      | ok u => rfl
      | error exc => exact absurd (hundo trivial exc hresult) (hown _)
    · rintro (h1' | h2' | ⟨_, _, hevents⟩)
      · rw [h1] at h1'
        cases h1'
      · rw [h2] at h2'
        cases h2'
      · refine ⟨h.set _ new, ?_⟩
        intro _ exc hexc
        rw [hres.mpr hevents] at hexc
        cases hexc

theorem kept_unregister_iff (h : InStep o s) (capabilityId : String) (faults : Faults) :
    Kept o s (.unregister capabilityId faults) ↔
      Undisturbed o s (.unregister capabilityId faults) := by
  rw [Kept, Call.perform, Undisturbed]
  rcases unregisterCapability_cases faults capabilityId s with ⟨hwhy, exc, hrun⟩ | ⟨h1, hrun⟩
  · rw [hrun]
    exact ⟨fun _ => Or.inl hwhy, fun _ => ⟨h, fun _ _ _ => rfl⟩⟩
  have hown : ∀ t, (⟨s.capabilities.erase capabilityId, t⟩ : State) ≠ s :=
    fun t => state_ne (by rw [contains_erase, h1]; simp)
  rcases hrun with ⟨exc, hres, hstate, hwhy⟩ | ⟨htool, hstate, hres⟩
  · rw [hres, hstate]
    refine ⟨fun hk => absurd (hk.2 trivial exc rfl) (hown _), ?_⟩
    rintro (h1' | ⟨htool, _⟩)
    · rw [h1] at h1'
      cases h1'
    · rw [htool, h.contains h1] at hwhy
      simp at hwhy
  · rw [hstate]
    constructor
    · rintro ⟨_, hundo⟩
      refine Or.inr ⟨htool, hres.mp ?_⟩
      cases hresult : (unregisterCapability capabilityId faults s).result with
      | ok u => rfl
      | error exc => exact absurd (hundo trivial exc hresult) (hown _)
    · rintro (h1' | ⟨_, hevents⟩)
      · rw [h1] at h1'
        cases h1'
      · refine ⟨h.erase _, ?_⟩
        intro _ exc hexc
        rw [hres.mpr hevents] at hexc
        cases hexc

theorem kept_toolRegister_iff (h : InStep o s) (inst : CapabilityRef) (faults : Faults) :
    Kept o s (.toolRegister inst faults) ↔ Undisturbed o s (.toolRegister inst faults) := by
  rw [Kept, Call.perform, Undisturbed]
  rcases toolRegister_cases o.objects inst faults s with
    ⟨exc, hrun, hwhy⟩ | ⟨caps, t, htool, hr, hrun⟩
  · rw [hrun]
    refine ⟨fun _ => ?_, fun _ => ⟨h, fun hfalse => hfalse.elim⟩⟩
    rcases hwhy with hwhy | hwhy
    · exact Or.inl (by simp [hwhy])
    · by_contra hnot
      push Not at hnot
      have hok : InMemoryCapabilityRegistry.register o.objects s.toolRegistry inst = .ok _ :=
        toolRegister_ok_iff.mpr
          ⟨Bool.eq_false_of_not_eq_true hnot.2.2.1, Bool.eq_false_of_not_eq_true hnot.2.2.2, rfl⟩
      rw [hwhy] at hok
      cases hok
  · obtain ⟨hne, hfree, rfl⟩ := toolRegister_ok_iff.mp hr
    rw [hrun]
    dsimp only
    have hget : s.capabilities.get? (o.objects inst).metadata.id = none := by
      rw [Option.eq_none_iff_forall_ne_some]
      intro a ha
      have hcontains := h.contains (Dict.contains_iff.mpr ⟨a, ha⟩)
      rw [hfree] at hcontains
      cases hcontains
    constructor
    -- an adapter that somebody else lets in is one the own registry does not know
    · rintro ⟨hstep, _⟩
      refine Or.inr (Or.inl ?_)
      cases hw : o.wraps inst with
      | none => rfl
      | some cap =>
        obtain ⟨a, ha, _⟩ := hstep.known _ inst cap (Dict.get?_set_self ..) hw
        rw [hget] at ha
        cases ha
    · intro hund
      have hw : o.wraps inst = none := by
        rcases hund with hund | hund | hund | hund
        · exact absurd htool hund
        · exact hund
        · rw [hne] at hund
          cases hund
        · rw [hfree] at hund
          cases hund
      refine ⟨⟨?_, ?_⟩, fun hfalse => hfalse.elim⟩
      · intro n a ha
        have hn : n ≠ (o.objects inst).metadata.id := by
          rintro rfl
          rw [hget] at ha
          cases ha
        obtain ⟨cap, inst', h1, h2, h3⟩ := h.bridged n a ha
        exact ⟨cap, inst', h1, (Dict.get?_set_ne hn).trans h2, h3⟩
      · intro n b c hb hc
        rw [Dict.get?_set] at hb
        split at hb
        · cases hb
          rw [hw] at hc
          cases hc
        · exact h.known n b c hb hc

theorem kept_toolUnregister_iff (h : InStep o s) (capabilityId : String) (faults : Faults) :
    Kept o s (.toolUnregister capabilityId faults) ↔
      Undisturbed o s (.toolUnregister capabilityId faults) := by
  rw [Kept, Call.perform, Undisturbed]
  rcases toolUnregister_cases faults capabilityId s with
    ⟨exc, hrun, hwhy⟩ | ⟨t, htool, hfound, hrun⟩
  · rw [hrun]
    refine ⟨fun _ => ?_, fun _ => ⟨h, fun hfalse => hfalse.elim⟩⟩
    rcases hwhy with hwhy | hwhy
    · exact Or.inl (by simp [hwhy])
    · exact Or.inr (Or.inl hwhy)
  · rw [hrun]
    dsimp only
    constructor
    -- what somebody else takes out must not be the tool of a capability still registered
    · rintro ⟨hstep, _⟩
      refine Or.inr (Or.inr ?_)
      cases hc : s.capabilities.contains capabilityId with
      | false => rfl
      | true =>
        have hcontains := hstep.contains hc
        rw [contains_erase] at hcontains
        cases hcontains
    · intro hund
      have hc : s.capabilities.contains capabilityId = false := by
        rcases hund with hund | hund | hund
        · exact absurd htool hund
        · rw [hfound] at hund
          cases hund
        · exact hund
      refine ⟨⟨?_, ?_⟩, fun hfalse => hfalse.elim⟩
      · intro n a ha
        have hn : n ≠ capabilityId := by
          rintro rfl
          rw [Dict.contains, ha] at hc
          cases hc
        obtain ⟨cap, inst', h1, h2, h3⟩ := h.bridged n a ha
        exact ⟨cap, inst', h1, (Dict.get?_erase_ne hn).trans h2, h3⟩
      · intro n b c hb hc'
        rw [Dict.get?_erase] at hb
        split at hb
        · cases hb
        · exact h.known n b c hb hc'

theorem kept_iff (h : InStep o s) (call : Call o) : Kept o s call ↔ Undisturbed o s call := by
  cases call with
  | register cap inst new faults => exact kept_register_iff h new faults
  | unregister capabilityId faults => exact kept_unregister_iff h capabilityId faults
  | toolRegister inst faults => exact kept_toolRegister_iff h inst faults
  | toolUnregister capabilityId faults => exact kept_toolUnregister_iff h capabilityId faults

theorem inStep_empty : InStep o {} := ⟨by simp, by simp⟩

variable (o) in
/-- **When the two registries are in step.** From two empty registries, every call of a run leaves
the two in step, and an Android one that raises leaves both as they were, exactly where every call
of the run is undisturbed. -/
theorem inStep_iff_undisturbed (run : List (Call o)) :
    (calls o).Meets (Kept o) {} run ↔ (calls o).Meets (Undisturbed o) {} run := by
  refine System.meets_congr (fun s call h => kept_iff h call) ?_ inStep_empty
  intro s call s' _ hkept hs
  cases hs
  exact hkept.1

end Steps

/-! ## An id that is taken -/

def wifi : AndroidCapability Unit where
  descriptor :=
    { id := "android.wifi", name := "Wi-Fi", description := "Controls Wi-Fi", version := "1.0.0" }
  executeAction _ := pure (.value .none)

def wifiTwice : AndroidObjects Unit where
  objects inst :=
    if inst = 0 then DefaultAndroidAdapter wifi
    else { metadata := DefaultAndroidAdapter.metadataOf wifi.descriptor
           execute := fun _ => pure (.value .none) }
  capabilities _ := wifi
  wraps inst := if inst = 0 then some 0 else none
  adapter := by
    intro inst cap h
    split at h
    · next hinst => rw [if_pos hinst]
    · cases h

/-- The tool registry refuses the adapter, and `wifi` is in the Android registry all the same. -/
theorem not_kept_wifi :
    let other : Call wifiTwice := .toolRegister 1 {}
    let register : Call wifiTwice := .register 0 0 rfl {}
    let before := (other.perform {}).state
    let after := register.perform before
    (∃ exc, after.result = .error exc ∧ exc.cls = .validationError) ∧
      before.capabilities.contains "android.wifi" = false ∧
      after.state.capabilities.contains "android.wifi" = true ∧
      after.state.toolRegistry.get? "android.wifi" = some 1 ∧
      ¬ (calls wifiTwice).Meets (Kept wifiTwice) {} [other, register] := by
  intro other register before after
  refine ⟨⟨_, rfl, rfl⟩, rfl, rfl, rfl, ?_⟩
  intro h
  obtain ⟨hstep, _⟩ := (h.2 before rfl).1
  obtain ⟨cap, inst', _, hget, hw⟩ := hstep.bridged "android.wifi" 0 rfl
  cases hget
  cases hw

end InMemoryAndroidRegistry

end IraOS
