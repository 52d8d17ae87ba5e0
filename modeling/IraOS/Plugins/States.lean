import IraOS.Plugins.Manager

/-!
# The states of a plugin

`load`, `enable` and `disable` look at the state they leave; `discover`, and `unload` once it has
disabled the plugin, write DISCOVERED over whatever is there. `turn_writes` says what each turn
writes and which of the two it is; **a run keeps to the transitions, and announces every plugin it
takes out of ENABLED, exactly where none of those blind writes meets an enabled plugin**.

There are four transitions, between discovered and loaded and between loaded and enabled. A write of
DISCOVERED over an enabled plugin is none of them; over a plugin in any other state it is one, or
changes no state. So the condition is on one moment, the state of one plugin when it is written
over, and it is exact turn by turn (`Writes.lawful_iff`). It carries over to whole runs because
every turn leaves the registry in order (`Good`), lawful or not.

In the run at the end a plugin is discovered, loaded and enabled, and found again by a second
discovery: it is DISCOVERED then, and nobody was told that it is no longer enabled.
-/

set_option autoImplicit false

namespace IraOS

open Lib
open InMemoryPluginRegistry (Plugins register lookup)

namespace PluginManagerImpl

/-- The transitions of a plugin, one for each of the operations that move it. Discovering a plugin
that is loaded already is the transition of `unload`. -/
inductive Edge : PluginState → PluginState → Prop where
  | load : Edge .DISCOVERED .LOADED
  | unload : Edge .LOADED .DISCOVERED
  | enable : Edge .LOADED .ENABLED
  | disable : Edge .ENABLED .LOADED

/-- Every plugin stays, in its state or along a transition; one that leaves ENABLED is announced as
disabled in that very turn. A plugin that is new may come in any state. -/
structure Lawful (plugins : Plugins) (t : Turn) : Prop where
  kept : ∀ id d, plugins.get? id = some d → ∃ d', t.shared.get? id = some d' ∧
    (d'.state = d.state ∨ Edge d.state d'.state)
  announced : ∀ id d d', plugins.get? id = some d → t.shared.get? id = some d' →
    d.state = .ENABLED → d'.state ≠ .ENABLED → .disabled id ∈ t.actions

/-- Each descriptor is under its own id, in a state some transition leads to. -/
structure Good (plugins : Plugins) : Prop where
  own : ∀ {id d}, plugins.get? id = some d → d.pluginId = id
  state : ∀ {id d}, plugins.get? id = some d →
    d.state = .DISCOVERED ∨ d.state = .LOADED ∨ d.state = .ENABLED

/-! ## What a turn writes -/

def nextRegistered : List (Option PluginMetadata) → Option String
  | some ⟨some manifest⟩ :: _ => (DefaultPluginValidator.validate manifest).toOption
  | _ => none

/-- The plugin a turn writes DISCOVERED for without looking. -/
def overwrites (calls : Nat → PluginCall) (i : Nat) : Pc → Reply → Option String
  | .idle, .proceed =>
    match calls i with
    | .discover found => nextRegistered found
    | _ => none
  | .discovering _ rest, .proceed => nextRegistered rest
  | .rejecting rest, .proceed => nextRegistered rest
  | .disabling descriptor, .proceed =>
    match calls i with
    | .unload _ => some descriptor.pluginId
    | _ => none
  | _, _ => none

/-- What a turn comes to, by what it overwrites: it writes nothing; or it writes one descriptor,
along a transition from a state it has looked at, or DISCOVERED over whatever was there. -/
inductive Writes (plugins : Plugins) (t : Turn) : Option String → Prop where
  | nothing (same : t.shared = plugins) : Writes plugins t none
  | blindly (new : PluginDescriptor) (shared : t.shared = register plugins new)
      (state : new.state = .DISCOVERED) (unannounced : ∀ id, .disabled id ∉ t.actions) :
      Writes plugins t (some new.pluginId)
  | along (d : PluginDescriptor) (target : PluginState)
      (found : plugins.get? d.pluginId = some d)
      (shared : t.shared = register plugins { d with state := target })
      (reached : target = .DISCOVERED ∨ target = .LOADED ∨ target = .ENABLED)
      (edge : target = d.state ∨ Edge d.state target)
      (announced : d.state = .ENABLED → .disabled d.pluginId ∈ t.actions) : Writes plugins t none

section Turns

variable {plugins : Plugins} {pluginId : String} {t : Turn}

theorem discoverNext_writes (found : List (Option PluginMetadata)) :
    Writes plugins (discoverNext plugins found) (nextRegistered found) := by
  rcases found with _ | ⟨_ | ⟨_ | manifest⟩, rest⟩
  · exact .nothing rfl
  · exact .nothing rfl
  · exact .nothing rfl
  · rw [discoverNext, nextRegistered]
    cases DefaultPluginValidator.validate manifest with
    | error exc => exact .nothing rfl
    | ok pluginId =>
      exact .blindly ⟨pluginId, ⟨some manifest⟩, .DISCOVERED, .HEALTHY⟩ rfl rfl (by simp)

theorem transition_writes (hgood : Good plugins) {source target : PluginState} {message : String}
    {announced : PluginDescriptor → String} {event : String → PluginEvent}
    (hedge : Edge source target)
    (hannounced : source = .ENABLED → event = .disabled ∧ announced = fun _ => pluginId) :
    Writes plugins (transition plugins pluginId source target message announced event) none := by
  unfold transition lookup
  cases hget : plugins.get? pluginId with
  | none => exact .nothing rfl
  | some d =>
    dsimp only
    split
    · next hstate =>
      obtain rfl := hgood.own hget
      have hreached : target = .DISCOVERED ∨ target = .LOADED ∨ target = .ENABLED := by
        cases hedge <;> simp
      refine .along d target hget rfl hreached (Or.inr (hstate ▸ hedge)) ?_
      intro henabled
      obtain ⟨rfl, rfl⟩ := hannounced (hstate.symm.trans henabled)
      simp
    · exact .nothing rfl

theorem disable_writes (hgood : Good plugins) (pluginId : String) :
    Writes plugins (disable plugins pluginId) none :=
  transition_writes hgood .disable fun _ => ⟨rfl, rfl⟩

theorem unload_writes (hgood : Good plugins) (pluginId : String) :
    Writes plugins (unload plugins pluginId) none := by
  unfold unload lookup
  cases hget : plugins.get? pluginId with
  | none => exact .nothing rfl
  | some d =>
    dsimp only
    split
    -- an enabled plugin is disabled first, and that is all of this turn
    · have hdisable := disable_writes hgood pluginId
      split
      · exact hdisable
      · cases hdisable with
        | nothing same => exact .nothing same
        | along d target found shared reached edge announced =>
          exact .along d target found shared reached edge announced
    · next hstate =>
      obtain rfl := hgood.own hget
      refine .along d .DISCOVERED hget rfl (Or.inl rfl) ?_ fun h => absurd h hstate
      rcases hgood.state hget with h | h | h
      · exact Or.inl h.symm
      · exact Or.inr (h ▸ .unload)
      · exact absurd h hstate

theorem start_writes (hgood : Good plugins) (call : PluginCall) :
    Writes plugins (start plugins call) (match call with
      | .discover found => nextRegistered found
      | _ => none) := by
  cases call with
  | discover found => exact discoverNext_writes found
  | load pluginId => exact transition_writes hgood .load fun h => (by cases h)
  | unload pluginId => exact unload_writes hgood pluginId
  | enable pluginId => exact transition_writes hgood .enable fun h => (by cases h)
  | disable pluginId => exact disable_writes hgood pluginId

/-- **What a turn writes**, and whether it looked. -/
theorem turn_writes {calls : Nat → PluginCall} {i : Nat} {pc : Pc} {reply : Reply}
    (hgood : Good plugins) (h : turn calls i plugins pc reply = some t) :
    Writes plugins t (overwrites calls i pc reply) := by
  cases pc with
  | idle =>
    cases reply with
    | proceed =>
      cases h
      exact start_writes hgood (calls i)
    | raise exc => cases h
  | discovering manifest rest =>
    cases reply with
    | proceed =>
      cases h
      exact discoverNext_writes rest
    | raise exc =>
      rw [turn] at h
      split at h
      · cases h
        exact .nothing rfl
      · cases h
        exact .nothing rfl
  | rejecting rest =>
    cases reply with
    | proceed =>
      cases h
      exact discoverNext_writes rest
    | raise exc =>
      cases h
      exact .nothing rfl
  | disabling descriptor =>
    cases reply with
    | proceed =>
      rw [turn] at h
      rw [overwrites]
      cases hcall : calls i with
      | unload pluginId =>
        rw [hcall] at h
        cases h
        -- the descriptor from before the await, whatever has happened to the plugin since
        exact .blindly { descriptor with state := .DISCOVERED } rfl rfl (by simp [finishUnload])
      | _ =>
        rw [hcall] at h
        cases h
    | raise exc =>
      cases h
      exact .nothing rfl
  | announcing result =>
    cases reply with
    | proceed =>
      cases h
      exact .nothing rfl
    | raise exc =>
      cases h
      exact .nothing rfl
  | returned result => cases reply <;> cases h
  | raised exc => cases reply <;> cases h

end Turns

/-! ## Whether it is lawful -/

section Step

variable {plugins : Plugins} {t : Turn} {overwritten : Option String}

theorem Writes.good (h : Writes plugins t overwritten) (hgood : Good plugins) : Good t.shared := by
  have hregister : ∀ new : PluginDescriptor,
      (new.state = .DISCOVERED ∨ new.state = .LOADED ∨ new.state = .ENABLED) →
      Good (register plugins new) := by
    intro new hnew
    constructor
    · intro id d hget
      unfold register at hget
      rw [Dict.get?_set] at hget
      split at hget
      · next hid =>
        cases hget
        exact hid.symm
      · exact hgood.own hget
    · intro id d hget
      unfold register at hget
      rw [Dict.get?_set] at hget
      split at hget
      · cases hget
        exact hnew
      · exact hgood.state hget
  cases h with
  | nothing same => exact same ▸ hgood
  | blindly new shared state _ => exact shared ▸ hregister new (Or.inl state)
  | along d target _ shared reached _ _ => exact shared ▸ hregister _ reached

theorem lawful_register_iff {new : PluginDescriptor} (hshared : t.shared = register plugins new) :
    Lawful plugins t ↔ ∀ d, plugins.get? new.pluginId = some d →
      (new.state = d.state ∨ Edge d.state new.state) ∧
        (d.state = .ENABLED → new.state ≠ .ENABLED → .disabled new.pluginId ∈ t.actions) := by
  have hself : t.shared.get? new.pluginId = some new := by
    rw [hshared]
    exact Dict.get?_set_self ..
  have hother : ∀ id, id ≠ new.pluginId → t.shared.get? id = plugins.get? id := by
    intro id hid
    rw [hshared]
    exact Dict.get?_set_ne hid
  constructor
  · intro h d hget
    obtain ⟨d', hget', hedge⟩ := h.kept _ d hget
    obtain rfl := Option.some.inj (hself.symm.trans hget')
    exact ⟨hedge, h.announced _ d new hget hself⟩
  · intro h
    constructor
    · intro id d hget
      by_cases hid : id = new.pluginId
      · subst hid
        exact ⟨new, hself, (h d hget).1⟩
      · exact ⟨d, (hother id hid).trans hget, Or.inl rfl⟩
    · intro id d d' hget hget' henabled hleft
      by_cases hid : id = new.pluginId
      · subst hid
        obtain rfl := Option.some.inj (hself.symm.trans hget')
        exact (h d hget).2 henabled hleft
      · obtain rfl := Option.some.inj (hget.symm.trans ((hother id hid).symm.trans hget'))
        exact absurd henabled hleft

theorem lawful_same (same : t.shared = plugins) : Lawful plugins t where
  kept id d hget := ⟨d, same ▸ hget, Or.inl rfl⟩
  announced id d d' hget hget' henabled hleft := by
    rw [same, hget] at hget'
    obtain rfl := Option.some.inj hget'
    exact absurd henabled hleft

/-- **A turn is lawful** where what it overwrites is not enabled. -/
theorem Writes.lawful_iff (h : Writes plugins t overwritten) (hgood : Good plugins) :
    Lawful plugins t ↔
      ∀ id d, overwritten = some id → plugins.get? id = some d → d.state ≠ .ENABLED := by
  cases h with
  | nothing same => exact iff_of_true (lawful_same same) fun _ _ h => (by cases h)
  | blindly new shared state unannounced =>
    rw [lawful_register_iff shared, state]
    constructor
    -- written over an enabled plugin it would have to announce that it is disabled
    · rintro h id d ⟨⟩ hget henabled
      exact unannounced _ ((h d hget).2 henabled (by simp))
    · intro h d hget
      have hleft := h new.pluginId d rfl hget
      refine ⟨?_, fun henabled => absurd henabled hleft⟩
      rcases hgood.state hget with hd | hd | hd
      · exact Or.inl hd.symm
      · exact Or.inr (hd ▸ .unload)
      · exact absurd hd hleft
  | along d target found shared _ edge announced =>
    refine iff_of_true ((lawful_register_iff shared).mpr ?_) fun _ _ h => (by cases h)
    intro d' hget
    obtain rfl := Option.some.inj (found.symm.trans hget)
    exact ⟨edge, fun henabled _ => announced henabled⟩

end Step

/-! ## Runs -/

section Runs

variable (calls : Nat → PluginCall)

abbrev State := Tasks.State Plugins Pc PluginEvent

def manager : System State (Nat × Reply) := Tasks.system (turn calls)

/-- No plugin, and no call begun. -/
def initial : State := ⟨Dict.empty, fun _ => .idle, []⟩

def LawfulStep (s : State) (l : Nat × Reply) : Prop :=
  ∀ t, turn calls l.1 s.shared (s.pcs l.1) l.2 = some t → Lawful s.shared t

/-- The plugin whose state is about to be overwritten, if any, is not enabled. -/
def Undisturbed (s : State) (l : Nat × Reply) : Prop :=
  ∀ t, turn calls l.1 s.shared (s.pcs l.1) l.2 = some t → ∀ id d,
    overwrites calls l.1 (s.pcs l.1) l.2 = some id → s.shared.get? id = some d →
      d.state ≠ .ENABLED

/-- **When plugins keep to their states.** In every run of any calls, in any interleaving, on a bus
that raises when it likes: all turns are lawful exactly where none overwrites an enabled plugin.
Both sides are about the same turns, so the first turn to break the one is the first to break the
other. -/
theorem lawful_iff_undisturbed (ls : List (Nat × Reply)) :
    (manager calls).Meets (LawfulStep calls) initial ls ↔
      (manager calls).Meets (Undisturbed calls) initial ls := by
  have hinitial : Good initial.shared := ⟨by simp [initial], by simp [initial]⟩
  refine System.meets_congr (P := fun s => Good s.shared) ?_ ?_ hinitial
  · intro s l hgood
    refine forall₂_congr fun t ht => ?_
    exact (turn_writes hgood ht).lawful_iff hgood
  · intro s l s' hgood _ hstep
    obtain ⟨t, ht, rfl⟩ := Tasks.step_some hstep
    exact (turn_writes hgood ht).good hgood

end Runs

/-! ## A discovery repeated -/

def exampleManifest : PluginManifest :=
  ⟨.str "core.example.plugin", .str "Example Plugin", .str "1.0.0"⟩

/-- Two discoveries that find it, and between them it is loaded and enabled. -/
def rediscovering : Nat → PluginCall
  | 1 => .load "core.example.plugin"
  | 2 => .enable "core.example.plugin"
  | _ => .discover [some ⟨some exampleManifest⟩]

def enabling : List (Nat × Reply) :=
  [(0, .proceed), (0, .proceed), (1, .proceed), (1, .proceed), (2, .proceed), (2, .proceed)]

/-- The second discovery takes the plugin out of ENABLED, to DISCOVERED, and announces that it was
discovered. -/
theorem rediscovered : ∃ s t, (manager rediscovering).exec initial enabling = some s ∧
    turn rediscovering 3 s.shared (s.pcs 3) .proceed = some t ∧
    (s.shared.get? "core.example.plugin").map PluginDescriptor.state = some .ENABLED ∧
    (t.shared.get? "core.example.plugin").map PluginDescriptor.state = some .DISCOVERED ∧
    (∀ id, .disabled id ∉ t.actions) ∧
    ¬ (manager rediscovering).Meets (LawfulStep rediscovering) initial
      (enabling ++ [(3, .proceed)]) := by
  obtain ⟨s, hs, hstate, hpc⟩ : ∃ s, (manager rediscovering).exec initial enabling = some s ∧
      s.shared.get? "core.example.plugin"
        = some ⟨"core.example.plugin", ⟨some exampleManifest⟩, .ENABLED, .HEALTHY⟩ ∧
      s.pcs 3 = .idle := ⟨_, rfl, rfl, rfl⟩
  let t := discoverNext s.shared [some ⟨some exampleManifest⟩]
  have ht : turn rediscovering 3 s.shared (s.pcs 3) .proceed = some t := by
    rw [hpc]
    rfl
  have hget : t.shared.get? "core.example.plugin"
      = some ⟨"core.example.plugin", ⟨some exampleManifest⟩, .DISCOVERED, .HEALTHY⟩ :=
    Dict.get?_set_self ..
  have hactions : t.actions
      = [.discovered "core.example.plugin" (.str "Example Plugin") (.str "1.0.0")] := rfl
  have hunannounced : ∀ id, .disabled id ∉ t.actions := by simp [hactions]
  refine ⟨s, t, hs, ht, by simp [hstate], by simp [hget], hunannounced, ?_⟩
  intro hmeets
  have hlawful := (System.meets_append hmeets hs).2.1 t ht
  exact hunannounced _ (hlawful.announced _ _ _ hstate hget rfl (by simp))

end PluginManagerImpl

end IraOS
