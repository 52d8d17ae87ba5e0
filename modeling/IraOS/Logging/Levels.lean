import IraOS.Lib.System
import IraOS.Logging.Delivery

/-!
# Whose level a logger has

A logger whose level was never set should have the level of its parent, whatever that is now
(`ruleLevel`). `effective_level` walks up as if there were such loggers, but there are none: `get`
makes every logger with the factory's default level and `child` makes it with the level its parent
has at that moment, and from then on the level is the logger's own.

So the rule is kept by accident. It is kept throughout a history just if `get` makes loggers only
under parents of the default level, and no level is changed from which a logger should take its own
(`inherits_iff`).

## The condition on a call

`Harmless` looks at the loggers there are and at the call. Making a logger is harmless if the level
it is made with is that of its parent; for `child` it always is. Setting a level is harmless if
every logger that hangs from this one, with no level set in between, has the new level already. That
a call is harmless is not only enough but needed for the rule to survive it (`step_inherits_iff`),
so over a history the two go together at every call.

## The rule

It is a recursion over the parents, with the levels that were set as a list, the last one first.
That it depends only on what was set and not on when loggers were made is the point of it: a level
that is set is for the logger itself and for those that hang from it, and for no other
(`ruleLevel_set_of` and the lemma after it).
-/

set_option autoImplicit false

namespace IraOS

open Lib

namespace Logger

/-- The level that was last set on the logger, or else its parent's, or else the default; `sets` are
the levels that were set, by the objects' numbers, the last one first. -/
def ruleLevel (default : LogLevel) (sets : List (Nat × LogLevel)) : Logger → LogLevel
  | .root id _ => (sets.lookup id).getD default
  | .under id _ parent =>
    match sets.lookup id with
    | some level => level
    | none => parent.ruleLevel default sets

/-- The logger has its level from `l`: no level was set on it, nor on one in between. -/
def HangsFrom (sets : List (Nat × LogLevel)) : Logger → Logger → Prop
  | .root _ _, _ => False
  | .under id _ parent, l => sets.lookup id = none ∧ (parent = l ∨ parent.HangsFrom sets l)

end Logger

/-- A factory, the loggers that it and they have made, and the levels that were set on them, the
last one first. -/
structure LoggerTree (σ : Type) where
  factory : LoggerFactory σ
  made : List Logger := []
  sets : List (Nat × LogLevel) := []

inductive LevelCall where
  | get (name : String)
  | child (logger : Logger) (suffix : String)
  | setLevel (logger : Logger) (level : LogLevel)
  /-- `set_level` of the factory. -/
  | factorySetLevel (name : String) (level : LogLevel)

namespace LoggerTree

variable {σ : Type}

def get (s : LoggerTree σ) (name : String) : LoggerTree σ :=
  { s with factory := (s.factory.get name).2, made := s.made.insert (s.factory.get name).1 }

def child (s : LoggerTree σ) (logger : Logger) (suffix : String) : LoggerTree σ :=
  { s with
    factory := (s.factory.child logger suffix).2
    made := (s.factory.child logger suffix).1 :: s.made }

def setLevel (s : LoggerTree σ) (logger : Logger) (level : LogLevel) : LoggerTree σ :=
  { s with
    factory := s.factory.setLevelOf logger level
    sets := (logger.id, level) :: s.sets }

def factorySetLevel (s : LoggerTree σ) (name : String) (level : LogLevel) : LoggerTree σ where
  factory := s.factory.setLevel name level
  made := s.made.insert (s.factory.get name).1
  sets := ((s.factory.get name).1.id, level) :: s.sets

/-- The calls, one after the other, of a logger only after it was made. -/
def calls (σ : Type) : System (LoggerTree σ) LevelCall where
  step s
    | .get name => some (s.get name)
    | .child logger suffix => if logger ∈ s.made then some (s.child logger suffix) else none
    | .setLevel logger level => if logger ∈ s.made then some (s.setLevel logger level) else none
    | .factorySetLevel name level => some (s.factorySetLevel name level)

def effectiveLevel (s : LoggerTree σ) (l : Logger) : LogLevel := l.effectiveLevel s.factory.levels

def ruleLevel (s : LoggerTree σ) (l : Logger) : LogLevel :=
  l.ruleLevel s.factory.defaultLevel s.sets

/-- **Levels are inherited**: every logger has the level the rule gives it, and so the level of
every logger it hangs from. -/
structure Inherits (s : LoggerTree σ) : Prop where
  rule : ∀ l ∈ s.made, s.effectiveLevel l = s.ruleLevel l
  follows : ∀ l ∈ s.made, ∀ m ∈ s.made, m.HangsFrom s.sets l →
    s.effectiveLevel m = s.effectiveLevel l

/-- The level is `l`'s already, or no logger hangs from it. -/
def Unheeded (s : LoggerTree σ) (l : Logger) (level : LogLevel) : Prop :=
  ∀ m ∈ s.made, m.HangsFrom s.sets l → s.ruleLevel l = level

/-- What the call may do without harm: make a logger under a parent of the default level, or set a
level that no other logger should take over. -/
def Harmless (s : LoggerTree σ) : LevelCall → Prop
  | .get name => s.factory.loggers.get? name = none →
      ∀ parent, s.factory.findParent name = some parent →
        s.ruleLevel parent = s.factory.defaultLevel
  | .child _ _ => True
  | .setLevel logger level => logger ∈ s.made → s.Unheeded logger level
  | .factorySetLevel name level =>
      ∀ logger, s.factory.loggers.get? name = some logger → s.Unheeded logger level

end LoggerTree

/-! ## The rule -/

namespace Logger

variable {default level : LogLevel} {sets : List (Nat × LogLevel)} {l m : Logger}

theorem effectiveLevel_of {levels : Nat → Option LogLevel} (h : levels l.id = some level) :
    l.effectiveLevel levels = level := by
  cases l with
  | root id name =>
    replace h : levels id = some level := h
    rw [effectiveLevel, h]
    rfl
  | under id name parent =>
    replace h : levels id = some level := h
    rw [effectiveLevel, h]

theorem HangsFrom.ruleLevel_eq (h : m.HangsFrom sets l) :
    m.ruleLevel default sets = l.ruleLevel default sets := by
  induction m with
  | root id name => cases h
  | under id name parent ih =>
    obtain ⟨hunset, hparent⟩ := h
    rw [ruleLevel, hunset]
    rcases hparent with rfl | hparent
    · rfl
    · exact ih hparent

theorem HangsFrom.lt (h : m.HangsFrom sets l) : l.parents.length < m.parents.length := by
  induction m with
  | root id name => cases h
  | under id name parent ih =>
    rw [parents, List.length_cons]
    rcases h.2 with rfl | hparent
    · exact Nat.lt_succ_self _
    · exact Nat.lt_succ_of_lt (ih hparent)

theorem HangsFrom.ne (h : m.HangsFrom sets l) : m ≠ l := by
  rintro rfl
  exact Nat.lt_irrefl _ h.lt

section Closed

variable {made : List Logger} (hparent : ∀ {id name parent}, .under id name parent ∈ made →
  parent ∈ made)

include hparent

theorem HangsFrom.mem (h : m.HangsFrom sets l) (hm : m ∈ made) : l ∈ made := by
  induction m with
  | root id name => cases h
  | under id name parent ih =>
    rcases h.2 with rfl | h
    · exact hparent hm
    · exact ih h (hparent hm)

variable (hdistinct : ∀ l ∈ made, ∀ m ∈ made, l.id = m.id → l = m) (hl : l ∈ made)

include hdistinct hl

theorem ruleLevel_set_of (hm : m ∈ made) (h : m = l ∨ m.HangsFrom sets l) :
    m.ruleLevel default ((l.id, level) :: sets) = level := by
  induction m with
  | root id name =>
    rcases h with rfl | h
    · simp [ruleLevel, Logger.id]
    · cases h
  | under id name parent ih =>
    rcases h with rfl | h
    · simp [ruleLevel, Logger.id]
    · have hne : id ≠ l.id := fun heq => h.ne (hdistinct _ hm l hl heq)
      rw [ruleLevel, Dict.lookup_cons_ite, if_neg hne, h.1]
      exact ih (hparent hm) h.2

theorem ruleLevel_set_of_not (hm : m ∈ made) (hne : m ≠ l) (h : ¬ m.HangsFrom sets l) :
    m.ruleLevel default ((l.id, level) :: sets) = m.ruleLevel default sets := by
  induction m with
  | root id name =>
    have hid : id ≠ l.id := fun heq => hne (hdistinct _ hm l hl heq)
    rw [ruleLevel, ruleLevel, Dict.lookup_cons_ite, if_neg hid]
  | under id name parent ih =>
    have hid : id ≠ l.id := fun heq => hne (hdistinct _ hm l hl heq)
    rw [ruleLevel, ruleLevel, Dict.lookup_cons_ite, if_neg hid]
    cases hset : sets.lookup id with
    | some level => rfl
    | none =>
      have hnot : ¬ (parent = l ∨ parent.HangsFrom sets l) := fun hor => h ⟨hset, hor⟩
      exact ih (hparent hm) (fun heq => hnot (Or.inl heq)) fun hang => hnot (Or.inr hang)

end Closed

end Logger

/-! ## What the calls do -/

namespace LoggerTree

variable {σ : Type} {s s' : LoggerTree σ} {l m : Logger} {level : LogLevel} {name : String}

/-- The loggers are objects of their own, each made after its parent, and each has a level. -/
structure Wellmade (s : LoggerTree σ) : Prop where
  levelled : ∀ l ∈ s.made, ∃ level, s.factory.levels l.id = some level
  fresh : ∀ l ∈ s.made, l.id < s.factory.next
  distinct : ∀ l ∈ s.made, ∀ m ∈ s.made, l.id = m.id → l = m
  parent : ∀ {id name parent}, .under id name parent ∈ s.made → parent ∈ s.made
  registered : ∀ {name l}, s.factory.loggers.get? name = some l → l ∈ s.made
  unset : ∀ id, s.factory.next ≤ id → s.sets.lookup id = none

theorem ruleLevel_of_hangs (h : m.HangsFrom s.sets l) : s.ruleLevel m = s.ruleLevel l :=
  Logger.HangsFrom.ruleLevel_eq h

theorem inherits_of (h : ∀ l ∈ s.made, s.effectiveLevel l = s.ruleLevel l) : Inherits s where
  rule := h
  follows l hl m hm hang := by
    rw [h l hl, h m hm, ruleLevel_of_hangs hang]

structure Makes (s : LoggerTree σ) (l : Logger) (level : LogLevel) (s' : LoggerTree σ) : Prop where
  id : l.id = s.factory.next
  parent : ∀ {id name parent}, l = .under id name parent → parent ∈ s.made
  defaultLevel : s'.factory.defaultLevel = s.factory.defaultLevel
  registered : ∀ {name l'}, s'.factory.loggers.get? name = some l' →
    l' = l ∨ s.factory.loggers.get? name = some l'
  levels : s'.factory.levels = Function.update s.factory.levels l.id (some level)
  next : s'.factory.next = s.factory.next + 1
  made : s'.made = l :: s.made
  sets : s'.sets = s.sets

/-- The level that the rule gives a new logger. -/
def firstLevel (s : LoggerTree σ) : Logger → LogLevel
  | .root _ _ => s.factory.defaultLevel
  | .under _ _ parent => s.ruleLevel parent

namespace Makes

variable (h : s.Makes l level s') (hw : s.Wellmade)

include h hw

theorem id_ne (hm : m ∈ s.made) : m.id ≠ l.id := by
  have hlt := hw.fresh m hm
  rw [h.id]
  omega

theorem wellmade : s'.Wellmade where
  levelled m hm := by
    rw [h.levels]
    rw [h.made] at hm
    rcases List.mem_cons.mp hm with rfl | hm
    · exact ⟨level, Function.update_self ..⟩
    · rw [Function.update_of_ne (h.id_ne hw hm)]
      exact hw.levelled m hm
  fresh m hm := by
    rw [h.next]
    rw [h.made] at hm
    rcases List.mem_cons.mp hm with rfl | hm
    · rw [h.id]
      exact Nat.lt_succ_self _
    · exact Nat.lt_succ_of_lt (hw.fresh m hm)
  distinct m hm m' hm' heq := by
    rw [h.made, List.mem_cons] at hm hm'
    rcases hm with rfl | hm <;> rcases hm' with rfl | hm'
    · rfl
    · exact absurd heq.symm (h.id_ne hw hm')
    · exact absurd heq (h.id_ne hw hm)
    · exact hw.distinct m hm m' hm' heq
  parent := by
    intro id name parent hm
    rw [h.made] at hm ⊢
    rcases List.mem_cons.mp hm with heq | hm
    · exact List.mem_cons_of_mem _ (h.parent heq.symm)
    · exact List.mem_cons_of_mem _ (hw.parent hm)
  registered := by
    intro name m hm
    rw [h.made]
    rcases h.registered hm with rfl | hm
    · exact List.mem_cons_self
    · exact List.mem_cons_of_mem _ (hw.registered hm)
  unset id hid := by
    rw [h.next] at hid
    rw [h.sets]
    exact hw.unset id (by omega)

theorem effectiveLevel_eq (hm : m ∈ s.made) : s'.effectiveLevel m = s.effectiveLevel m := by
  obtain ⟨level', hlevel⟩ := hw.levelled m hm
  rw [effectiveLevel, effectiveLevel, Logger.effectiveLevel_of hlevel, h.levels]
  apply Logger.effectiveLevel_of
  rw [Function.update_of_ne (h.id_ne hw hm), hlevel]

omit hw in
theorem ruleLevel_eq (m : Logger) : s'.ruleLevel m = s.ruleLevel m := by
  rw [ruleLevel, ruleLevel, h.defaultLevel, h.sets]

omit hw in
theorem effectiveLevel_self : s'.effectiveLevel l = level := by
  apply Logger.effectiveLevel_of
  rw [h.levels, Function.update_self]

theorem ruleLevel_self : s.ruleLevel l = s.firstLevel l := by
  have hunset : s.sets.lookup l.id = none := hw.unset l.id (Nat.le_of_eq h.id.symm)
  cases l with
  | root id name =>
    replace hunset : s.sets.lookup id = none := hunset
    rw [ruleLevel, Logger.ruleLevel, hunset]
    rfl
  | under id name parent =>
    replace hunset : s.sets.lookup id = none := hunset
    rw [ruleLevel, Logger.ruleLevel, hunset]
    rfl

/-- **The rule survives a new logger** if it is made with the level it should have. -/
theorem inherits_iff (hs : s.Inherits) : s'.Inherits ↔ level = s.firstLevel l := by
  constructor
  · intro hs'
    have hrule := hs'.rule l (by rw [h.made]; exact List.mem_cons_self)
    rw [h.effectiveLevel_self, h.ruleLevel_eq, h.ruleLevel_self hw] at hrule
    exact hrule
  · intro heq
    apply inherits_of
    intro m hm
    rw [h.made] at hm
    rcases List.mem_cons.mp hm with rfl | hm
    · rw [h.effectiveLevel_self, h.ruleLevel_eq, h.ruleLevel_self hw, heq]
    · rw [h.effectiveLevel_eq hw hm, h.ruleLevel_eq, hs.rule m hm]

end Makes

/-! ## Making a logger -/

theorem registered_of_findParent {factory : LoggerFactory σ} {parent : Logger}
    (h : factory.findParent name = some parent) :
    ∃ name', factory.loggers.get? name' = some parent := by
  rw [LoggerFactory.findParent_eq] at h
  obtain ⟨name', _, hget⟩ := List.exists_of_findSome?_eq_some h
  exact ⟨name', hget⟩

theorem get_of_some (hw : s.Wellmade) (h : s.factory.loggers.get? name = some l) :
    s.factory.get name = (l, s.factory) ∧ s.get name = s := by
  have hfound : s.factory.get name = (l, s.factory) := by
    rw [LoggerFactory.get, h]
  refine ⟨hfound, ?_⟩
  rw [get, hfound, List.insert_of_mem (hw.registered h)]

theorem get_of_none (hw : s.Wellmade) (h : s.factory.loggers.get? name = none) :
    s.Makes (s.factory.get name).1 s.factory.defaultLevel (s.get name) ∧
      s.firstLevel (s.factory.get name).1 =
        ((s.factory.findParent name).map s.ruleLevel).getD s.factory.defaultLevel := by
  obtain ⟨l, hnew, hid, hname, hparent⟩ := LoggerFactory.get_new h
  have hmade : l ∉ s.made := fun hl => Nat.ne_of_lt (hw.fresh l hl) hid
  rw [get, hnew]
  refine ⟨⟨hid, ?_, rfl, ?_, rfl, rfl, List.insert_of_not_mem hmade, rfl⟩, ?_⟩
  · rintro id name' parent rfl
    rcases hparent with ⟨-, hroot⟩ | ⟨parent', hfound, hunder⟩
    · cases hroot
    · injection hunder with _ _ heq
      subst heq
      obtain ⟨name'', hget⟩ := registered_of_findParent hfound
      exact hw.registered hget
  · intro name' l' hget
    replace hget : (s.factory.loggers.set l.name l).get? name' = some l' := hget
    rw [Dict.get?_set] at hget
    split at hget
    · exact Or.inl (Option.some.inj hget).symm
    · exact Or.inr hget
  · rcases hparent with ⟨hnone, rfl⟩ | ⟨parent, hfound, rfl⟩
    · rw [hnone]
      rfl
    · rw [hfound]
      rfl

theorem child_makes (hl : l ∈ s.made) (suffix : String) {level : LogLevel}
    (hlevel : s.factory.levels l.id = some level) :
    s.Makes (s.factory.child l suffix).1 level (s.child l suffix) where
  id := rfl
  parent := by
    rintro id name parent heq
    injection heq with _ _ heq
    exact heq ▸ hl
  defaultLevel := rfl
  registered := fun h => Or.inr h
  levels := by
    show Function.update s.factory.levels s.factory.next (s.factory.levels l.id) = _
    rw [hlevel]
    rfl
  next := rfl
  made := rfl
  sets := rfl

/-! ## Setting a level -/

section SetLevel

variable (hw : s.Wellmade) (hl : l ∈ s.made)

include hw hl

theorem Wellmade.setLevel (level : LogLevel) : (s.setLevel l level).Wellmade where
  levelled m hm := by
    show ∃ level', Function.update s.factory.levels l.id (some level) m.id = some level'
    rw [Function.update_apply]
    split
    · exact ⟨level, rfl⟩
    · exact hw.levelled m hm
  fresh := hw.fresh
  distinct := hw.distinct
  parent := hw.parent
  registered := hw.registered
  unset id hid := by
    have hlt := hw.fresh l hl
    replace hid : s.factory.next ≤ id := hid
    show ((l.id, level) :: s.sets).lookup id = none
    rw [Dict.lookup_cons_ite, if_neg (by omega)]
    exact hw.unset id hid

omit hw hl in
theorem effectiveLevel_setLevel_self : (s.setLevel l level).effectiveLevel l = level := by
  apply Logger.effectiveLevel_of
  exact Function.update_self ..

theorem effectiveLevel_setLevel_ne (hm : m ∈ s.made) (hne : m ≠ l) :
    (s.setLevel l level).effectiveLevel m = s.effectiveLevel m := by
  obtain ⟨level', hlevel⟩ := hw.levelled m hm
  rw [effectiveLevel, effectiveLevel, Logger.effectiveLevel_of hlevel]
  apply Logger.effectiveLevel_of
  show Function.update s.factory.levels l.id (some level) m.id = some level'
  rw [Function.update_of_ne fun heq => hne (hw.distinct m hm l hl heq), hlevel]

/-- **The rule survives a level that is set** if the other loggers are as the rule says, and those
that hang from the logger have the level already. -/
theorem setLevel_inherits_iff
    (hs : ∀ m ∈ s.made, m ≠ l → s.effectiveLevel m = s.ruleLevel m) :
    (s.setLevel l level).Inherits ↔ s.Unheeded l level := by
  constructor
  · intro hs' m hm hang
    have hfollows := hs'.rule m hm
    rw [effectiveLevel_setLevel_ne hw hl hm hang.ne, hs m hm hang.ne] at hfollows
    rw [← ruleLevel_of_hangs hang]
    exact hfollows.trans (Logger.ruleLevel_set_of hw.parent hw.distinct hl hm (Or.inr hang))
  · intro hquiet
    apply inherits_of
    intro m hm
    by_cases hne : m = l
    · subst hne
      rw [effectiveLevel_setLevel_self]
      exact (Logger.ruleLevel_set_of hw.parent hw.distinct hl hm (Or.inl rfl)).symm
    · rw [effectiveLevel_setLevel_ne hw hl hm hne, hs m hm hne]
      by_cases hang : m.HangsFrom s.sets l
      · rw [ruleLevel_of_hangs hang]
        exact (hquiet m hm hang).trans
          (Logger.ruleLevel_set_of hw.parent hw.distinct hl hm (Or.inr hang)).symm
      · exact (Logger.ruleLevel_set_of_not hw.parent hw.distinct hl hm hne hang).symm

end SetLevel

/-! ## One call -/

theorem factorySetLevel_eq (s : LoggerTree σ) (name : String) (level : LogLevel) :
    s.factorySetLevel name level = (s.get name).setLevel (s.factory.get name).1 level := rfl

theorem Wellmade.get (hw : s.Wellmade) (name : String) :
    (s.get name).Wellmade ∧ (s.factory.get name).1 ∈ (s.get name).made := by
  refine ⟨?_, List.mem_insert_self⟩
  cases hget : s.factory.loggers.get? name with
  | some l =>
    rw [(get_of_some hw hget).2]
    exact hw
  | none => exact (get_of_none hw hget).1.wellmade hw

theorem get_inherits_iff (hw : s.Wellmade) (hs : s.Inherits) (name : String) :
    (s.get name).Inherits ↔ s.Harmless (.get name) := by
  rw [Harmless]
  cases hget : s.factory.loggers.get? name with
  | some l =>
    rw [(get_of_some hw hget).2]
    refine iff_of_true hs ?_
    intro hnone
    cases hnone
  | none =>
    obtain ⟨hmakes, hfirst⟩ := get_of_none hw hget
    rw [hmakes.inherits_iff hw hs, hfirst]
    cases s.factory.findParent name with
    | none =>
      refine iff_of_true rfl ?_
      intro _ parent hparent
      cases hparent
    | some parent =>
      constructor
      · rintro heq _ _ ⟨⟩
        exact heq.symm
      · intro h
        exact (h rfl parent rfl).symm

theorem child_inherits (hw : s.Wellmade) (hs : s.Inherits) (hl : l ∈ s.made) (suffix : String) :
    (s.child l suffix).Wellmade ∧ (s.child l suffix).Inherits := by
  obtain ⟨level, hlevel⟩ := hw.levelled l hl
  have hmakes := child_makes hl suffix hlevel
  refine ⟨hmakes.wellmade hw, (hmakes.inherits_iff hw hs).mpr ?_⟩
  rw [← Logger.effectiveLevel_of hlevel]
  exact hs.rule l hl

theorem factorySetLevel_inherits_iff (hw : s.Wellmade) (hs : s.Inherits) (name : String)
    (level : LogLevel) :
    (s.factorySetLevel name level).Inherits ↔ s.Harmless (.factorySetLevel name level) := by
  rw [factorySetLevel_eq]
  rw [Harmless]
  cases hget : s.factory.loggers.get? name with
  | some l =>
    obtain ⟨hfound, hsame⟩ := get_of_some hw hget
    rw [hsame, hfound, setLevel_inherits_iff hw (hw.registered hget) fun m hm _ => hs.rule m hm]
    constructor
    · rintro hquiet _ ⟨⟩
      exact hquiet
    · intro h
      exact h l rfl
  | none =>
    obtain ⟨hwell, hmem⟩ := hw.get name
    obtain ⟨hmakes, -⟩ := get_of_none hw hget
    have hold : ∀ m ∈ (s.get name).made, m ≠ (s.factory.get name).1 → m ∈ s.made := by
      intro m hm hne
      rw [hmakes.made] at hm
      exact (List.mem_cons.mp hm).resolve_left hne
    rw [setLevel_inherits_iff hwell hmem]
    · refine iff_of_true ?_ ?_
      · -- nothing hangs from a logger that is just made
        intro m hm hang
        have hmade := hang.mem hw.parent (hold m hm hang.ne)
        exact absurd rfl (hmakes.id_ne hw hmade)
      · intro l hl
        cases hl
    · intro m hm hne
      rw [hmakes.effectiveLevel_eq hw (hold m hm hne), hmakes.ruleLevel_eq]
      exact hs.rule m (hold m hm hne)

theorem step_wellmade {call : LevelCall} (hw : s.Wellmade) (h : (calls σ).step s call = some s') :
    s'.Wellmade := by
  cases call with
  | get name =>
    cases h
    exact (hw.get name).1
  | child logger suffix =>
    obtain ⟨hmade, ⟨⟩⟩ := Option.ite_none_right_eq_some.mp h
    obtain ⟨level, hlevel⟩ := hw.levelled logger hmade
    exact (child_makes hmade suffix hlevel).wellmade hw
  | setLevel logger level =>
    obtain ⟨hmade, ⟨⟩⟩ := Option.ite_none_right_eq_some.mp h
    exact hw.setLevel hmade level
  | factorySetLevel name level =>
    cases h
    exact (hw.get name).1.setLevel (hw.get name).2 level

/-- A call keeps the levels inherited just if it is harmless. -/
theorem step_inherits_iff {call : LevelCall} (hs : s.Inherits) (hw : s.Wellmade)
    (h : (calls σ).step s call = some s') : s'.Inherits ↔ s.Harmless call := by
  cases call with
  | get name =>
    cases h
    exact get_inherits_iff hw hs name
  | child logger suffix =>
    obtain ⟨hmade, ⟨⟩⟩ := Option.ite_none_right_eq_some.mp h
    exact iff_of_true (child_inherits hw hs hmade suffix).2 trivial
  | setLevel logger level =>
    obtain ⟨hmade, ⟨⟩⟩ := Option.ite_none_right_eq_some.mp h
    rw [setLevel_inherits_iff hw hmade fun m hm _ => hs.rule m hm]
    exact ⟨fun hquiet _ => hquiet, fun h => h hmade⟩
  | factorySetLevel name level =>
    cases h
    exact factorySetLevel_inherits_iff hw hs name level

/-! ## Histories -/

/-- A factory that has made no logger. -/
def new (level : LogLevel) (sinks : List σ) (console : σ) : LoggerTree σ where
  factory := .new level sinks console

theorem wellmade_new (level : LogLevel) (sinks : List σ) (console : σ) :
    (new level sinks console).Wellmade where
  levelled l hl := by cases hl
  fresh l hl := by cases hl
  distinct l hl := by cases hl
  parent hl := by cases hl
  registered hl := by cases hl
  unset _ _ := rfl

/-- **Levels are inherited throughout a history just if every call of it is harmless.** The first
call that is not leaves some logger with a level the rule does not give it, so the history up to
there is one after which levels are not inherited. -/
theorem inherits_throughout_iff (level : LogLevel) (sinks : List σ) (console : σ)
    (history : List LevelCall) :
    (∀ past s, past <+: history → (calls σ).exec (new level sinks console) past = some s →
      s.Inherits) ↔ (calls σ).Meets Harmless (new level sinks console) history := by
  refine (System.meets_iff_throughout (R := Wellmade) ?_ ?_ ?_ ?_ ?_).symm
  · intro s call hstuck
    cases call with
    | get name => cases hstuck
    | child logger suffix => trivial
    | setLevel logger level =>
      intro hmade
      replace hstuck : (if logger ∈ s.made then some (s.setLevel logger level) else none) = none :=
        hstuck
      rw [if_pos hmade] at hstuck
      cases hstuck
    | factorySetLevel name level => cases hstuck
  · intro s call s' _ hw hstep
    exact step_wellmade hw hstep
  · intro s call s' hs hw hstep
    exact step_inherits_iff hs hw hstep
  · apply inherits_of
    intro l hl
    cases hl
  · exact wellmade_new level sinks console

/-- A logger keeps the default level when the level of its parent is set. -/
theorem not_inherits_parent_set : ¬ ∀ (level : LogLevel) (history past : List LevelCall)
    (s : LoggerTree Unit), past <+: history →
      (calls Unit).exec (new level [] ()) past = some s → s.Inherits := by
  intro h
  have hs := h .debug [.get "core", .get "core.events", .factorySetLevel "core" .error] _ _
    List.prefix_rfl rfl
  have hrule := hs.rule (.under 1 "core.events" (.root 0 "core")) (by decide)
  revert hrule
  decide

end LoggerTree

end IraOS
