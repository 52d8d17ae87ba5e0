import IraOS.Android.Restoring
import IraOS.Lib.System

/-!
# Where a level stays in range

Volume and brightness (`core/android/bridge/system.py`, `capabilities/volume.py`, `brightness.py`).
Setting a level clamps it on both sides. Raising it clamps above and lowering it clamps below, and
the step may be any number: **a step of the wrong sign goes out on the other side**, in a command as
in the rollback that inverts one. `Step.Fits` is what a step has to meet, and it is exact.

## The condition, and what it does not ask

A command fits if it sets the level, or does not touch it, or if its step, read as the bridge reads
it, does not lead past the end that is not clamped. A step that is no number fits, as the bridge
raises before it writes; so does an action the gate does not let through. A rollback with a
pre-state sets the level and fits; one without inverts the command, and fits if the inverse does.

Nothing bounds the step from above: raising by a thousand is clamped and in range.

## From one call to a run

`Governs` says what the bridge does to a level under a control's action names, once for the volume
and once for the brightness, and everything after it is about any control and its dial. The two
dials are two fields, so a step of one leaves the other alone. One step leaves both levels in range
just if it fits (`levelsInRange_iff`); for runs, the rule for exact guards gives the equivalence
(`levels_in_range_iff`).
-/

set_option autoImplicit false

namespace IraOS

open Lib BaseAndroidCapability MockSystemBridge

/-! ## Controls and their dials -/

inductive Leveled where
  | volume | brightness
  deriving DecidableEq, Repr

namespace Leveled

def control : Leveled → LevelControl
  | .volume => VolumeCapability.control
  | .brightness => BrightnessCapability.control

def dial : Leveled → Dial
  | .volume => volumeDial
  | .brightness => brightnessDial

def setting : Leveled → Setting
  | .volume => .volume
  | .brightness => .brightness

def validateSet : Leveled → PyDict → Except Exn Unit
  | .volume => VolumeCapability.validateSet
  | .brightness => BrightnessCapability.validateSet

end Leveled

abbrev MockSystemBridge.State.level (s : State) (kind : Leveled) : Int := kind.dial.level s

def InRange (level : Int) : Prop := 0 ≤ level ∧ level ≤ 100

def MockSystemBridge.State.LevelsInRange (s : State) : Prop := ∀ kind, InRange (s.level kind)

/-- What an action does not clamp does not go out of range. A step up is clamped at 100 only and a
step down at 0 only, so a step of the wrong sign gets past the other end. -/
structure LevelControl.Fits (c : LevelControl) (action : String) (args : PyDict) (level : Int) :
    Prop where
  up : action = c.up → ∀ step, (argOr args "step" (.int 10)).toInt = .ok step → 0 ≤ level + step
  down : action = c.down → ∀ step, (argOr args "step" (.int 10)).toInt = .ok step →
    level - step ≤ 100

/-! ## Runs -/

inductive LevelStep where
  | command (kind : Leveled) (arguments : PyDict)
  | rollback (kind : Leveled) (arguments : PyDict) (originalResult : PyAny)

namespace LevelStep

def run : LevelStep → DeviceAct State Unit
  | .command kind arguments => do
    let _ ← kind.setting.capability.executeAction arguments
    pure ()
  | .rollback kind arguments originalResult =>
    DefaultAndroidAdapter.rollback kind.setting.capability arguments originalResult

/-- The command fits; or the call that inverts it does, where the rollback has no pre-state. -/
def Fits (s : State) : LevelStep → Prop
  | .command kind arguments =>
    ∀ action, actionName arguments = some action →
      kind.control.Fits action arguments (s.level kind)
  | .rollback kind arguments originalResult =>
    preStateOf originalResult = .ok none → ∀ action args,
      kind.control.logicalInverse arguments = some (action, args) →
        kind.control.Fits action args (s.level kind)

end LevelStep

/-- The bridge, one command or rollback after the other; a rollback that raises is over. -/
def levels : System State LevelStep where
  step s step := some (step.run s).state

/-! ## What the bridge does to a level -/

namespace LevelControl

/-- The bridge's actions under the control's names, on the dial. It says what the actions on the
level set it to, which `Drives` leaves open, so that what follows is said once for both controls. -/
structure Governs (c : LevelControl) (dial : Dial) : Prop extends c.Drives dial where
  setTo : ∀ args s, execute (.str c.set) args s
    = (intArg args "value" (dial.level s) >>= fun n =>
        change dial.view (dial.setLevel (max 0 (min 100 n)))) s
  raise : ∀ args, execute (.str c.up) args = intArg args "step" 10 >>= fun n =>
    change dial.view fun s => dial.setLevel (min 100 (dial.level s + n)) s
  lower : ∀ args, execute (.str c.down) args = intArg args "step" 10 >>= fun n =>
    change dial.view fun s => dial.setLevel (max 0 (dial.level s - n)) s
  level_setFlag : ∀ b s, dial.level (dial.setFlag b s) = dial.level s
  apart : c.mutatingActions.Nodup

variable {c : LevelControl} {dial : Dial} {args : PyDict} {action : String} {s : State}

theorem state_intArg_change (key : String) (default : Int) (view : State → List (String × PyValue))
    (f : Int → State → State) :
    ((intArg args key default >>= fun n => change view (f n)) s).state
      = match (argOr args key (.int default)).toInt with
        | .ok n => f n s
        | .error _ => s := by
  rw [Act.run_bind, intArg, Act.run_ofExcept]
  cases (argOr args key (.int default)).toInt <;> rfl

theorem inRange_clamp (n : Int) : InRange (max 0 (min 100 n)) := by
  unfold InRange
  omega

theorem Fits.of_ne (hup : action ≠ c.up) (hdown : action ≠ c.down) (level : Int) :
    c.Fits action args level := ⟨fun h => absurd h hup, fun h => absurd h hdown⟩

theorem Fits.of_not_mem (h : action ∉ c.mutatingActions) (level : Int) :
    c.Fits action args level := by
  simp only [mutatingActions, List.mem_cons, not_or] at h
  exact .of_ne h.2.1 h.2.2.1 level

theorem fits_up_iff (hne : c.up ≠ c.down) {level : Int} : c.Fits c.up args level ↔
    ∀ step, (argOr args "step" (.int 10)).toInt = .ok step → 0 ≤ level + step :=
  ⟨fun h => h.up rfl, fun h => ⟨fun _ => h, fun hq => absurd hq hne⟩⟩

theorem fits_down_iff (hne : c.up ≠ c.down) {level : Int} : c.Fits c.down args level ↔
    ∀ step, (argOr args "step" (.int 10)).toInt = .ok step → level - step ≤ 100 :=
  ⟨fun h => h.down rfl, fun h => ⟨fun hq => absurd hq.symm hne, fun _ => h⟩⟩

theorem Governs.up_ne_down (hg : c.Governs dial) : c.up ≠ c.down := by
  have hapart := hg.apart
  simp only [mutatingActions, List.nodup_cons, List.mem_cons, not_or] at hapart
  exact hapart.2.1.1

theorem Governs.fits_of_free (hg : c.Governs dial)
    (h : action = c.set ∨ action = c.on ∨ action = c.off) {level : Int} :
    c.Fits action args level := by
  have hapart := hg.apart
  simp only [mutatingActions, List.nodup_cons, List.mem_cons, List.not_mem_nil, or_false, not_or]
    at hapart
  obtain ⟨⟨hsetUp, hsetDown, _⟩, ⟨_, hupOn, hupOff⟩, ⟨hdownOn, hdownOff⟩, _⟩ := hapart
  rcases h with rfl | rfl | rfl
  · exact .of_ne hsetUp hsetDown _
  · exact .of_ne (Ne.symm hupOn) (Ne.symm hdownOn) _
  · exact .of_ne (Ne.symm hupOff) (Ne.symm hdownOff) _

theorem mem_of_free (h : action = c.set ∨ action = c.on ∨ action = c.off) :
    action ∈ c.mutatingActions := by
  rcases h with rfl | rfl | rfl <;> simp [mutatingActions]

theorem Governs.inRange_set (hg : c.Governs dial) (h : InRange (dial.level s)) :
    InRange (dial.level (execute (.str c.set) args s).state) := by
  rw [hg.setTo, state_intArg_change]
  split
  · rw [dial.level_setLevel]
    exact inRange_clamp _
  · exact h

theorem Governs.inRange_up (hg : c.Governs dial) (h : InRange (dial.level s)) :
    InRange (dial.level (execute (.str c.up) args s).state)
      ↔ c.Fits c.up args (dial.level s) := by
  rw [hg.raise, state_intArg_change, fits_up_iff hg.up_ne_down]
  cases (argOr args "step" (.int 10)).toInt with
  | ok step =>
    simp only [dial.level_setLevel, Except.ok.injEq, forall_eq']
    unfold InRange at h ⊢
    omega
  | error exc => simpa using h

theorem Governs.inRange_down (hg : c.Governs dial) (h : InRange (dial.level s)) :
    InRange (dial.level (execute (.str c.down) args s).state)
      ↔ c.Fits c.down args (dial.level s) := by
  rw [hg.lower, state_intArg_change, fits_down_iff hg.up_ne_down]
  cases (argOr args "step" (.int 10)).toInt with
  | ok step =>
    simp only [dial.level_setLevel, Except.ok.injEq, forall_eq']
    unfold InRange at h ⊢
    omega
  | error exc => simpa using h

/-- **One call**: from a level in range to a level in range, just if it fits. -/
theorem Governs.inRange_iff (hg : c.Governs dial) (hmem : action ∈ c.mutatingActions)
    (h : InRange (dial.level s)) :
    InRange (dial.level (execute (.str action) args s).state)
      ↔ c.Fits action args (dial.level s) := by
  simp only [mutatingActions, List.mem_cons, List.not_mem_nil, or_false] at hmem
  rcases hmem with rfl | rfl | rfl | rfl | rfl
  · exact iff_of_true (hg.inRange_set h) (hg.fits_of_free (Or.inl rfl))
  · exact hg.inRange_up h
  · exact hg.inRange_down h
  -- a flag is no level
  · refine iff_of_true ?_ (hg.fits_of_free (Or.inr (Or.inl rfl)))
    rw [hg.on]
    change InRange (dial.level (dial.setFlag true s))
    rwa [hg.level_setFlag]
  · refine iff_of_true ?_ (hg.fits_of_free (Or.inr (Or.inr rfl)))
    rw [hg.off]
    change InRange (dial.level (dial.setFlag false s))
    rwa [hg.level_setFlag]

theorem Governs.turns (hg : c.Governs dial) (hmem : action ∈ c.mutatingActions) :
    (execute (.str action) args s).state = s ∨
      (∃ n, (execute (.str action) args s).state = dial.setLevel n s) ∨
        ∃ b, (execute (.str action) args s).state = dial.setFlag b s := by
  simp only [mutatingActions, List.mem_cons, List.not_mem_nil, or_false] at hmem
  rcases hmem with rfl | rfl | rfl | rfl | rfl
  · rw [hg.setTo, state_intArg_change]
    split
    · exact Or.inr (Or.inl ⟨_, rfl⟩)
    · exact Or.inl rfl
  · rw [hg.raise, state_intArg_change]
    split
    · exact Or.inr (Or.inl ⟨_, rfl⟩)
    · exact Or.inl rfl
  · rw [hg.lower, state_intArg_change]
    split
    · exact Or.inr (Or.inl ⟨_, rfl⟩)
    · exact Or.inl rfl
  · rw [hg.on]
    exact Or.inr (Or.inr ⟨true, rfl⟩)
  · rw [hg.off]
    exact Or.inr (Or.inr ⟨false, rfl⟩)

end LevelControl

theorem volume_governs : VolumeCapability.control.Governs volumeDial where
  toDrives := volume_drives
  setTo _ _ := rfl
  raise _ := rfl
  lower _ := rfl
  level_setFlag _ _ := rfl
  apart := by decide

theorem brightness_governs : BrightnessCapability.control.Governs brightnessDial where
  toDrives := brightness_drives
  setTo _ _ := rfl
  raise _ := rfl
  lower _ := rfl
  level_setFlag _ _ := rfl
  apart := by decide

namespace Leveled

variable {kind other : Leveled} {arguments args : PyDict} {action : String} {s : State}

theorem governs (kind : Leveled) : kind.control.Governs kind.dial := by
  cases kind with
  | volume => exact volume_governs
  | brightness => exact brightness_governs

theorem level_execute_of_ne (hne : other ≠ kind) (hmem : action ∈ kind.control.mutatingActions) :
    (execute (.str action) args s).state.level other = s.level other := by
  rcases @LevelControl.Governs.turns _ _ args _ s kind.governs hmem with h | ⟨n, h⟩ | ⟨b, h⟩
  · rw [h]
  · rw [h]
    cases kind <;> cases other <;> first | rfl | exact absurd rfl hne
  · rw [h]
    cases kind <;> cases other <;> rfl

theorem levelsInRange_execute_iff (hmem : action ∈ kind.control.mutatingActions)
    (h : s.LevelsInRange) :
    (execute (.str action) args s).state.LevelsInRange
      ↔ kind.control.Fits action args (s.level kind) := by
  rw [← kind.governs.inRange_iff hmem (h kind)]
  constructor
  · intro hrange
    exact hrange kind
  · intro hrange other
    by_cases hne : other = kind
    · rw [hne]
      exact hrange
    · rw [level_execute_of_ne hne hmem]
      exact h other

/-! ## What a command asks of the bridge -/

def internal (kind : Leveled) : Internal State := fun action arguments => do
  if action.isStr kind.control.set then Act.ofExcept (kind.validateSet arguments)
  execute action arguments

theorem executeAction_eq (kind : Leveled) : kind.setting.capability.executeAction
    = executeAction kind.setting.capability.descriptor kind.internal := by
  cases kind <;> rfl

theorem still_execute
    (hmem : action ∈ "default" :: kind.setting.capability.descriptor.supportedActions)
    (hother : action ∉ kind.control.mutatingActions) : (execute (.str action) args).Still := by
  cases kind with
  | volume =>
    have hread : action = "default" ∨ action = "system.volume.get" := by
      simp [setting, Setting.capability, VolumeCapability, VolumeCapability.descriptor, control,
        VolumeCapability.control, LevelControl.mutatingActions] at hmem hother
      tauto
    rcases hread with rfl | rfl
    · exact ⟨fun _ => rfl⟩
    · exact ⟨fun _ => rfl⟩
  | brightness =>
    have hread : action = "default" ∨ action = "system.brightness.get" := by
      simp [setting, Setting.capability, BrightnessCapability, BrightnessCapability.descriptor,
        control, BrightnessCapability.control, LevelControl.mutatingActions] at hmem hother
      tauto
    rcases hread with rfl | rfl
    · exact ⟨fun _ => rfl⟩
    · exact ⟨fun _ => rfl⟩

theorem mutatingActions_supported (hmem : action ∈ kind.control.mutatingActions) :
    supports kind.setting.capability.descriptor (.str action) = true := by
  cases kind <;>
  · simp only [control, LevelControl.mutatingActions, List.mem_cons, List.not_mem_nil,
      or_false] at hmem
    rcases hmem with rfl | rfl | rfl | rfl | rfl <;> rfl

theorem default_not_mem : "default" ∉ kind.control.mutatingActions := by
  cases kind <;> decide

theorem internal_state (kind : Leveled) (action : String) (arguments : PyDict) (s : State) :
    (kind.internal (.str action) arguments s).state = (execute (.str action) arguments s).state ∨
      action = kind.control.set ∧ (kind.internal (.str action) arguments s).state = s := by
  unfold internal
  by_cases hset : action = kind.control.set
  · cases hvalid : kind.validateSet arguments with
    | ok _ =>
      left
      simp [hset, PyValue.isStr, Act.run_bind]
    | error exc =>
      right
      refine ⟨hset, ?_⟩
      simp [hset, PyValue.isStr, Act.run_bind]
  · left
    simp [PyValue.isStr, hset]

theorem command_cases (kind : Leveled) (arguments : PyDict) (s : State) :
    (∃ action ∈ kind.control.mutatingActions, actionName arguments = some action ∧
        (kind.setting.capability.executeAction arguments s).state
          = (execute (.str action) arguments s).state) ∨
      (kind.setting.capability.executeAction arguments s).state = s ∧
        ∀ action, actionName arguments = some action →
          ∀ level, kind.control.Fits action arguments level := by
  rw [executeAction_eq, executeAction_run]
  change (∃ action ∈ _, _ ∧ (checkedExecute _ kind.internal arguments s).state = _) ∨
    (checkedExecute _ kind.internal arguments s).state = s ∧ _
  unfold checkedExecute
  split
  · next hgate =>
    obtain ⟨name, hname, haction⟩ := exists_of_supports hgate
    have only_name : ∀ {action}, actionName arguments = some action → action = name := by
      intro action ha
      exact PyValue.str.inj ((actionOf_eq ha).symm.trans haction)
    rw [haction]
    by_cases hmem : name ∈ kind.control.mutatingActions
    · have hname : actionName arguments = some name :=
        actionName_of_actionOf haction fun hq => default_not_mem (hq ▸ hmem)
      rcases internal_state kind name arguments s with h | ⟨hset, h⟩
      · exact Or.inl ⟨name, hmem, hname, h⟩
      -- a value that did not validate
      · refine Or.inr ⟨h, ?_⟩
        intro action ha
        rw [only_name ha, hset]
        exact fun _ => kind.governs.fits_of_free (Or.inl rfl)
    · refine Or.inr ⟨?_, ?_⟩
      · rcases internal_state kind name arguments s with h | ⟨_, h⟩
        · exact h.trans ((still_execute hname hmem).state s)
        · exact h
      · intro action ha
        rw [only_name ha]
        exact .of_not_mem hmem
  · next hgate =>
    refine Or.inr ⟨rfl, ?_⟩
    intro action ha
    rw [actionOf_eq ha] at hgate
    exact .of_not_mem fun hmem => hgate (mutatingActions_supported hmem)

/-! ## What a rollback asks of the bridge -/

theorem rollback_eq (kind : Leveled) : DefaultAndroidAdapter.rollback kind.setting.capability
    = kind.control.rollback execute := by
  cases kind <;> rfl

end Leveled

namespace LevelControl

variable (c : LevelControl) (arguments : PyDict)

theorem undo_none (bridge : SystemBridge State) :
    c.undo bridge arguments none = invert bridge (c.logicalInverse arguments) :=
  c.rollback_noResult bridge arguments .none

theorem logicalInverse_mem {action : String} {args : PyDict}
    (h : c.logicalInverse arguments = some (action, args)) : action ∈ c.mutatingActions := by
  unfold logicalInverse at h
  split at h
  · cases h
  · split_ifs at h
    all_goals
      cases h
      simp [mutatingActions]

/-- With a pre-state in hand there is at most one call, and none that moves a level by a step. -/
theorem undo_some (preState : PyValue) (s : State) :
    (c.undo execute arguments (some preState) s).state = s ∨
      ∃ action, (action = c.set ∨ action = c.on ∨ action = c.off) ∧ ∃ args,
        (c.undo execute arguments (some preState) s).state
          = (execute (.str action) args s).state := by
  unfold undo
  cases actionName arguments with
  | none => exact Or.inl rfl
  | some action =>
    dsimp only
    split_ifs
    · unfold restoreLevel
      cases subscript preState "level" with
      | error exc => exact Or.inl rfl
      | ok level =>
        refine Or.inr ⟨c.set, Or.inl rfl, Dict.empty.set "value" level, ?_⟩
        exact callBridge_state execute c.set _ s
    · cases readFlag (some preState) with
      | error exc => exact Or.inl rfl
      | ok _ =>
        refine Or.inr ⟨c.off, Or.inr (Or.inr rfl), Dict.empty, ?_⟩
        exact callBridge_state execute c.off _ s
    · cases readFlag (some preState) with
      | error exc => exact Or.inl rfl
      | ok _ =>
        refine Or.inr ⟨c.on, Or.inr (Or.inl rfl), Dict.empty, ?_⟩
        exact callBridge_state execute c.on _ s
    · exact Or.inl rfl

end LevelControl

/-! ## Steps and runs -/

namespace LevelStep

/-- **One step** leaves the levels in range just if it fits. -/
theorem levelsInRange_iff (step : LevelStep) {s : State} (h : s.LevelsInRange) :
    (step.run s).state.LevelsInRange ↔ step.Fits s := by
  cases step with
  | command kind arguments =>
    have hrun : (run (.command kind arguments) s).state
        = (kind.setting.capability.executeAction arguments s).state :=
      Act.state_bind_of_still (fun _ _ => rfl) s
    rw [hrun]
    rcases kind.command_cases arguments s with ⟨action, hmem, hname, hcall⟩ | ⟨hsame, hother⟩
    · rw [hcall, Leveled.levelsInRange_execute_iff hmem h]
      constructor
      · intro hfits action' hname'
        obtain rfl : action = action' := by simpa [hname] using hname'
        exact hfits
      · intro hfits
        exact hfits action hname
    · rw [hsame]
      exact iff_of_true h fun action hname => hother action hname _
  | rollback kind arguments originalResult =>
    change (DefaultAndroidAdapter.rollback kind.setting.capability arguments originalResult
      s).state.LevelsInRange ↔ _
    rw [kind.rollback_eq, LevelControl.rollback]
    unfold Fits
    cases hpre : preStateOf originalResult with
    | error exc => exact iff_of_true h (by simp [hpre])
    | ok preState =>
      rw [Act.bind_ofExcept]
      cases preState with
      | none =>
        rw [LevelControl.undo_none]
        cases hinv : kind.control.logicalInverse arguments with
        | none => exact iff_of_true h (by simp [hinv])
        | some call =>
          obtain ⟨action, args⟩ := call
          have hmem := kind.control.logicalInverse_mem arguments hinv
          rw [invert, callBridge_state, Leveled.levelsInRange_execute_iff hmem h]
          simp [hpre, hinv]
      | some preState =>
        refine iff_of_true ?_ (by simp [hpre])
        rcases kind.control.undo_some arguments preState s with hsame | ⟨action, hfree, args, hcall⟩
        · rw [hsame]
          exact h
        · rw [hcall, Leveled.levelsInRange_execute_iff (LevelControl.mem_of_free hfree) h]
          exact kind.governs.fits_of_free hfree

end LevelStep

/-- **The levels are in range wherever a run gets just if every step of it fits**, from the first
state of the bridge on, for every run of commands and rollbacks. What a step is asked is about the
state before it and about its arguments: that a step up does not end below 0, and a step down not
above 100, which are the ends the bridge does not clamp at. -/
theorem levels_in_range_iff (steps : List LevelStep) :
    levels.Meets (fun s step => step.Fits s) {} steps ↔
      ∀ pre s, pre <+: steps → levels.exec {} pre = some s →
        InRange s.volumeLevel ∧ InRange s.brightnessLevel := by
  have hinit : ({} : State).LevelsInRange := by
    intro kind
    cases kind <;> exact ⟨by decide, by decide⟩
  have hboth : ∀ s : State,
      s.LevelsInRange ↔ InRange s.volumeLevel ∧ InRange s.brightnessLevel := by
    intro s
    constructor
    · intro h
      exact ⟨h .volume, h .brightness⟩
    · rintro ⟨hvolume, hbrightness⟩ kind
      cases kind
      · exact hvolume
      · exact hbrightness
  rw [System.meets_iff_throughout (R := fun _ => True) ?_ ?_ ?_ hinit trivial]
  · simp only [hboth]
  · intro s step hstep
    cases hstep
  · intro s step s' _ _ _
    trivial
  · intro s step s' h _ hstep
    cases hstep
    exact step.levelsInRange_iff h

def lowered : PyDict := (Dict.empty.set "action" (.str "system.volume.up")).set "step" (.int (-60))

/-- **A level out of range**: up by -60 from 50. -/
theorem raised_below_zero : ¬ ∀ steps s, levels.exec {} steps = some s →
    InRange s.volumeLevel ∧ InRange s.brightnessLevel := by
  intro h
  have hrange := (h [.command .volume lowered] _ rfl).1
  have hlevel : ((LevelStep.command .volume lowered).run {}).state.volumeLevel = -10 := by decide
  change InRange ((LevelStep.command .volume lowered).run {}).state.volumeLevel at hrange
  rw [hlevel] at hrange
  exact absurd hrange.1 (by decide)

end IraOS
