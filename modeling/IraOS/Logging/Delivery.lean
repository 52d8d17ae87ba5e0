import IraOS.Logging.Factory

/-!
# Where an entry goes

A logger writes to its own sinks and to those of the loggers it was tied to when it was made. The
names it was tied to are those of its ancestors that were requested **in order**: before every
requested name in between, and before the logger itself. An ancestor that is requested later stands
above nothing that was there.

So a sink attached to a logger, or to an ancestor of it, gets an entry of the logger once if and
only if it has one place among the default sinks, the sinks of the logger and those of the ancestors
requested in order.

## After a history

A factory is looked at through what it has been asked for: the names in the order of their first
request, and the sinks that were attached to each. `Wellformed` says that its objects are as that
history has them: one logger for each name, each tied to the nearest name that was there when it was
made, each with the sinks it has been given. The dotted names are an instance of a hierarchy in
which everything above a name is in a line (`Lib.Ancestry`), and which names one is tied to is
settled there.

The default sinks are given to loggers without a parent only, so on a way up they come once, at its
end; a sink that is among them and attached to a logger on the way as well gets the entry twice.
-/

set_option autoImplicit false

namespace IraOS

open Lib


theorem ancestorsAux_rest {cs : List Char} {k : String} {l₁ l₂ : List String}
    (h : ancestorsAux cs = l₁ ++ k :: l₂) : ancestors k = l₂ := by
  induction cs generalizing l₁ with
  | nil => simp [ancestorsAux] at h
  | cons c cs ih =>
    rw [ancestorsAux] at h
    split at h
    · cases l₁ with
      | nil =>
        injection h with hk hrest
        rw [← hk, ← hrest, ancestors, String.toList_ofList, List.reverse_reverse]
      | cons a l₁ =>
        injection h with _ hrest
        exact ih hrest
    · exact ih h

theorem length_of_mem_ancestorsAux {cs : List Char} {m : String} (h : m ∈ ancestorsAux cs) :
    m.toList.length < cs.length := by
  induction cs with
  | nil => simp [ancestorsAux] at h
  | cons c cs ih =>
    rw [ancestorsAux] at h
    split at h
    · rcases List.mem_cons.mp h with rfl | h
      · simp
      · exact Nat.lt_succ_of_lt (ih h)
    · exact Nat.lt_succ_of_lt (ih h)

/-- The hierarchy of dotted names. -/
def dotted : Hierarchy String where
  above := ancestors
  rest := ancestorsAux_rest
  irrefl := fun n h => by
    have hlt := length_of_mem_ancestorsAux h
    simp at hlt

namespace LoggerFactory

variable {σ : Type} {self : LoggerFactory σ}

theorem findParentAux_eq (self : LoggerFactory σ) (cs : List Char) :
    self.findParentAux cs = (ancestorsAux cs).findSome? self.loggers.get? := by
  induction cs with
  | nil => rfl
  | cons c cs ih =>
    rw [findParentAux, ancestorsAux]
    split
    · rw [List.findSome?_cons, ih]
      cases self.loggers.get? (String.ofList cs.reverse) <;> rfl
    · exact ih

theorem findParent_eq (self : LoggerFactory σ) (name : String) :
    self.findParent name = (ancestors name).findSome? self.loggers.get? :=
  findParentAux_eq self _

end LoggerFactory

/-! ## What a factory has after a history -/

def Logger.firstSinks {σ : Type} (defaults : List σ) : Logger → List σ
  | .root _ _ => defaults
  | .under _ _ _ => []

namespace LoggerFactory

variable {σ : Type}

/-- The names that the logger of a name is tied to. -/
def ties (self : LoggerFactory σ) (n : String) : List String :=
  ((self.loggers.get? n).map Logger.parents).getD []

/-- A factory whose objects are where they should be: one for each requested name, its parent among
them, and with the sinks it has been given. -/
structure Wellformed (factory : LoggerFactory σ) (defaults : List σ) (names : List String)
    (attached : String → List σ) : Prop where
  defaultSinks : factory.defaultSinks = defaults
  entered : ∀ n, n ∈ names ↔ ∃ l, factory.loggers.get? n = some l
  named : ∀ {n l}, factory.loggers.get? n = some l → l.name = n
  parent : ∀ {n i m p}, factory.loggers.get? n = some (.under i m p) →
    factory.loggers.get? p.name = some p
  fresh : ∀ {n l}, factory.loggers.get? n = some l → l.id < factory.next
  distinct : ∀ {n n' l l'}, factory.loggers.get? n = some l → factory.loggers.get? n' = some l' →
    l.id = l'.id → n = n'
  sinks : ∀ {n l}, factory.loggers.get? n = some l →
    factory.sinks l.id = l.firstSinks defaults ++ attached n
  unattached : ∀ {n}, n ∉ names → attached n = []
  wired : dotted.Wired names factory.ties

theorem wellformed_new (level : LogLevel) (sinks : List σ) (console : σ) :
    (new level sinks console).Wellformed (if sinks.isEmpty then [console] else sinks) []
      fun _ => [] where
  defaultSinks := rfl
  entered := by simp [new]
  named := by simp [new]
  parent := by simp [new]
  fresh := by simp [new]
  distinct := by simp [new]
  sinks := by simp [new]
  unattached := by simp
  wired := by
    intro n hn
    cases hn

section Steps

variable {self : LoggerFactory σ} {defaults : List σ} {names : List String}
  {attached : String → List σ} {name : String}

theorem findSome?_eq (h : ∀ n, n ∈ names ↔ ∃ l, self.loggers.get? n = some l) (l : List String) :
    l.findSome? self.loggers.get? = (l.find? (· ∈ names)).bind self.loggers.get? := by
  induction l with
  | nil => rfl
  | cons n l ih =>
    cases hget : self.loggers.get? n with
    | none =>
      have hn : n ∉ names := fun hn => by
        obtain ⟨l, hl⟩ := (h n).mp hn
        rw [hget] at hl
        cases hl
      simp [hget, hn, ih]
    | some l =>
      have hn : n ∈ names := (h n).mpr ⟨l, hget⟩
      simp [hget, hn]

theorem get_new (hget : self.loggers.get? name = none) :
    ∃ l, self.get name = (l, self.register l (l.firstSinks self.defaultSinks)) ∧
      l.id = self.next ∧ l.name = name ∧
      ((self.findParent name = none ∧ l = .root self.next name) ∨
        ∃ p, self.findParent name = some p ∧ l = .under self.next name p) := by
  cases hparent : self.findParent name with
  | none => exact ⟨.root self.next name, by simp [get, hget, hparent, Logger.firstSinks], rfl, rfl,
      Or.inl ⟨rfl, rfl⟩⟩
  | some p => exact ⟨.under self.next name p, by simp [get, hget, hparent, Logger.firstSinks], rfl,
      rfl, Or.inr ⟨p, rfl, rfl⟩⟩

theorem Wellformed.register (h : self.Wellformed defaults names attached) {l : Logger}
    (hnew : l.name ∉ names) (hid : l.id = self.next)
    (hparent : ∀ i m p, l = .under i m p → self.loggers.get? p.name = some p)
    (hties : l.parents = Hierarchy.through self.ties ((ancestors l.name).find? (· ∈ names))) :
    (self.register l (l.firstSinks defaults)).Wellformed defaults (names ++ [l.name]) attached := by
  have hset : ∀ n, (self.register l (l.firstSinks defaults)).loggers.get? n =
      if n = l.name then some l else self.loggers.get? n := fun n => Dict.get?_set _ _ _ _
  have hnone : self.loggers.get? l.name = none := by
    cases hl : self.loggers.get? l.name with
    | none => rfl
    | some l' => exact absurd ((h.entered _).mpr ⟨l', hl⟩) hnew
  -- a name that had a logger keeps it, and only the new name gets the new one
  have hold : ∀ {n l'}, self.loggers.get? n = some l' → n ≠ l.name := by
    rintro n l' hl' rfl
    rw [hnone] at hl'
    cases hl'
  have hcases : ∀ {n l'}, (self.register l (l.firstSinks defaults)).loggers.get? n = some l' →
      (n = l.name ∧ l' = l) ∨ self.loggers.get? n = some l' := by
    intro n l' hl'
    rw [hset] at hl'
    split at hl'
    · injection hl' with hl'
      exact Or.inl ⟨‹_›, hl'.symm⟩
    · exact Or.inr hl'
  constructor
  case defaultSinks => exact h.defaultSinks
  case entered =>
    intro n
    rw [hset, List.mem_append, List.mem_singleton, h.entered]
    by_cases hn : n = l.name <;> simp [hn]
  case named =>
    intro n l' hl'
    rcases hcases hl' with ⟨rfl, rfl⟩ | hl'
    · rfl
    · exact h.named hl'
  case parent =>
    intro n i m p hl'
    have hp : self.loggers.get? p.name = some p := by
      rcases hcases hl' with ⟨-, heq⟩ | hl'
      · exact hparent i m p heq.symm
      · exact h.parent hl'
    rw [hset, if_neg (hold hp)]
    exact hp
  case fresh =>
    intro n l' hl'
    show l'.id < self.next + 1
    rcases hcases hl' with ⟨-, rfl⟩ | hl'
    · omega
    · exact Nat.lt_succ_of_lt (h.fresh hl')
  case distinct =>
    intro n n' l₁ l₂ hl₁ hl₂ heq
    rcases hcases hl₁ with ⟨hn, h₁⟩ | hl₁ <;> rcases hcases hl₂ with ⟨hn', h₂⟩ | hl₂
    · rw [hn, hn']
    · have hlt := h.fresh hl₂
      rw [← heq, h₁] at hlt
      omega
    · have hlt := h.fresh hl₁
      rw [heq, h₂] at hlt
      omega
    · exact h.distinct hl₁ hl₂ heq
  case sinks =>
    intro n l' hl'
    show Function.update self.sinks l.id (l.firstSinks defaults) l'.id = _
    rcases hcases hl' with ⟨rfl, rfl⟩ | hl'
    · rw [Function.update_self, h.unattached hnew, List.append_nil]
    · have hne : l'.id ≠ l.id := by
        have hlt := h.fresh hl'
        omega
      rw [Function.update_of_ne hne, h.sinks hl']
  case unattached =>
    intro n hn
    exact h.unattached fun hmem => hn (by simp [hmem])
  case wired =>
    refine h.wired.enter hnew ?_ fun n hn => ?_
    · rw [ties, hset, if_pos rfl]
      exact hties
    · have hne : n ≠ l.name := fun heq => hnew (heq ▸ hn)
      rw [ties, hset, if_neg hne, ties]

theorem Wellformed.get (h : self.Wellformed defaults names attached) (name : String) :
    (self.get name).2.Wellformed defaults (FactoryCall.enter names name) attached ∧
      (self.get name).2.loggers.get? name = some (self.get name).1 := by
  cases hget : self.loggers.get? name with
  | some l =>
    have hname : name ∈ names := (h.entered name).mpr ⟨l, hget⟩
    rw [LoggerFactory.get, hget, FactoryCall.enter, if_pos hname]
    exact ⟨h, hget⟩
  | none =>
    have hname : name ∉ names := fun hname => by
      obtain ⟨l, hl⟩ := (h.entered name).mp hname
      rw [hget] at hl
      cases hl
    obtain ⟨l, heq, hid, rfl, hparent⟩ := get_new hget
    have hfind : self.findParent l.name =
        ((ancestors l.name).find? (· ∈ names)).bind self.loggers.get? := by
      rw [findParent_eq, findSome?_eq h.entered]
    rw [heq, FactoryCall.enter, if_neg hname, h.defaultSinks]
    refine ⟨h.register hname hid ?_ ?_, Dict.get?_set_self _ _ _⟩
    · rintro i m p rfl
      rcases hparent with ⟨-, hl⟩ | ⟨p', hp', hl⟩
      · cases hl
      · injection hl with _ _ hl
        subst hl
        rw [hfind] at hp'
        obtain ⟨q, -, hq⟩ := Option.bind_eq_some_iff.mp hp'
        rw [h.named hq]
        exact hq
    · cases hnearest : (ancestors l.name).find? (· ∈ names) with
      | none =>
        rw [hnearest] at hfind
        rcases hparent with ⟨-, hl⟩ | ⟨p', hp', -⟩
        · rw [hl]
          rfl
        · rw [hfind] at hp'
          cases hp'
      | some q =>
        have hq : q ∈ names := by simpa using List.find?_some hnearest
        obtain ⟨lq, hlq⟩ := (h.entered q).mp hq
        have hp : self.findParent l.name = some lq := by
          rw [hfind, hnearest]
          exact hlq
        rcases hparent with ⟨hp', -⟩ | ⟨p', hp', hl⟩
        · rw [hp] at hp'
          cases hp'
        · rw [hp] at hp'
          injection hp' with hp'
          subst hp'
          rw [hl]
          simp [Logger.parents, Hierarchy.through, ties, hlq, h.named hlq]

theorem Wellformed.attach (h : self.Wellformed defaults names attached) {l : Logger}
    (hl : self.loggers.get? name = some l) (sink : σ) :
    ({ self with sinks := Function.update self.sinks l.id (self.sinks l.id ++ [sink]) } :
      LoggerFactory σ).Wellformed defaults names
        fun n => attached n ++ ((FactoryCall.addSink name sink).sinkFor n).toList where
  defaultSinks := h.defaultSinks
  entered := h.entered
  named := h.named
  parent := h.parent
  fresh := h.fresh
  distinct := h.distinct
  sinks := by
    intro n l' hl'
    show Function.update self.sinks l.id _ l'.id = _
    by_cases hid : l'.id = l.id
    · have hn := h.distinct hl' hl hid
      subst hn
      rw [hl] at hl'
      injection hl' with hl'
      subst hl'
      simp [h.sinks hl, FactoryCall.sinkFor]
    · have hn : name ≠ n := by
        rintro rfl
        rw [hl] at hl'
        injection hl' with hl'
        exact hid (hl' ▸ rfl)
      simp [Function.update_of_ne hid, h.sinks hl', FactoryCall.sinkFor, hn]
  unattached := by
    intro n hn
    have hne : name ≠ n := fun heq => hn (heq ▸ (h.entered name).mpr ⟨l, hl⟩)
    simp [h.unattached hn, FactoryCall.sinkFor, hne]
  wired := h.wired

theorem Wellformed.apply (h : self.Wellformed defaults names attached) (call : FactoryCall σ) :
    (call.apply self).Wellformed defaults (FactoryCall.enter names call.name)
      fun n => attached n ++ (call.sinkFor n).toList := by
  obtain ⟨hget, hl⟩ := h.get call.name
  have hnothing : ∀ call : FactoryCall σ, (∀ n, call.sinkFor n = none) →
      (fun n => attached n ++ (call.sinkFor n).toList) = attached := by
    intro call hcall
    funext n
    simp [hcall]
  cases call with
  | get name =>
    rw [hnothing _ fun _ => rfl]
    exact hget
  | addSink name sink => exact hget.attach hl sink
  | setLevel name level =>
    rw [hnothing _ fun _ => rfl]
    -- a level is nothing that `Wellformed` is about
    exact { hget with }

end Steps

theorem Wellformed.run {self : LoggerFactory σ} {defaults : List σ} {names : List String}
    {attached : String → List σ} (h : self.Wellformed defaults names attached)
    (calls : List (FactoryCall σ)) :
    (FactoryCall.run self calls).Wellformed defaults
      (calls.foldl (fun names call => FactoryCall.enter names call.name) names)
      fun n => attached n ++ FactoryCall.attached calls n := by
  induction calls generalizing self names attached with
  | nil =>
    have hnil : (fun n => attached n ++ FactoryCall.attached [] n) = attached := by
      funext n
      simp [FactoryCall.attached]
    rw [hnil]
    exact h
  | cons call calls ih =>
    have hcons : (fun n => attached n ++ FactoryCall.attached (call :: calls) n) =
        fun n => (attached n ++ (call.sinkFor n).toList) ++ FactoryCall.attached calls n := by
      funext n
      cases hc : call.sinkFor n <;> simp [FactoryCall.attached, hc]
    rw [hcons]
    exact ih (h.apply call)

theorem wellformed_run (level : LogLevel) (sinks : List σ) (console : σ)
    (calls : List (FactoryCall σ)) :
    (FactoryCall.run (new level sinks console) calls).Wellformed
      (if sinks.isEmpty then [console] else sinks) (FactoryCall.requested calls)
      (FactoryCall.attached calls) := by
  have h := (wellformed_new level sinks console).run calls
  simp only [List.nil_append] at h
  exact h

/-! ## Delivery -/

theorem Wellformed.parents_eq {self : LoggerFactory σ} {defaults : List σ} {names : List String}
    {attached : String → List σ} (h : self.Wellformed defaults names attached) {n : String}
    {l : Logger} (hl : self.loggers.get? n = some l) :
    l.parents = (ancestors n).filter fun m => dotted.InOrder names n m := by
  have hn : n ∈ names := (h.entered n).mpr ⟨l, hl⟩
  have hwired := h.wired n hn
  rw [ties, hl] at hwired
  exact hwired

section Delivery

variable [DecidableEq σ] {self : LoggerFactory σ} {defaults : List σ} {names : List String}
  {attached : String → List σ}

/-- What a sink gets of a dispatch: the entry, once for each place it has among the default sinks
and the sinks of the loggers on the way up. -/
theorem Wellformed.dispatch (h : self.Wellformed defaults names attached) {l : Logger}
    (hl : self.loggers.get? l.name = some l) (entry : LogEntry) (s : σ) :
    (l.dispatch self.sinks entry).filter (fun p => p.1 = s) =
      List.replicate (((l.name :: l.parents).map fun m => (attached m).count s).sum +
        defaults.count s) (s, entry) := by
  have hown : ∀ sinks : List σ, ((sinks.map fun sink => (sink, entry)).filter fun p => p.1 = s) =
      List.replicate (sinks.count s) (s, entry) := by
    intro sinks
    induction sinks with
    | nil => rfl
    | cons x sinks ih =>
      by_cases hx : x = s
      · subst hx
        simp [ih, List.replicate_succ]
      · simp [hx, ih]
  induction l with
  | root i m =>
    have hsinks : self.sinks i = defaults ++ attached m := h.sinks hl
    rw [Logger.dispatch, hown, hsinks, List.count_append]
    simp [Logger.name, Logger.parents, Nat.add_comm]
  | under i m parent ih =>
    have hsinks : self.sinks i = attached m := h.sinks hl
    rw [Logger.dispatch, List.filter_append, hown, hsinks, ih (h.parent hl),
      List.replicate_append_replicate]
    simp [Logger.name, Logger.parents, Nat.add_assoc]

end Delivery

end LoggerFactory

namespace FactoryCall

variable {σ : Type} [DecidableEq σ]

/-- The ancestors of a name that were requested in order: before every requested name between them
and it, and before it. -/
def inOrder (calls : List (FactoryCall σ)) (name : String) : List String :=
  (ancestors name).filter fun m => dotted.InOrder (requested calls) name m

/-- The places a sink has: among the default sinks, the sinks attached to the name, and those
attached to its ancestors that were requested in order. -/
def places (defaults : List σ) (calls : List (FactoryCall σ)) (name : String) (s : σ) : Nat :=
  ((name :: inOrder calls name).map fun m => (attached calls m).count s).sum + defaults.count s

end FactoryCall

namespace LoggerFactory

open FactoryCall

variable {σ : Type} [DecidableEq σ]

/-- What a sink gets of an entry that is logged at an enabled level, after any history. -/
theorem log_filter {level : LogLevel} {sinks : List σ} {console : σ}
    {calls : List (FactoryCall σ)} {name : String} (hname : name ∈ requested calls) {l : Logger}
    (hl : ((run (new level sinks console) calls).get name).1 = l) {entryLevel : LogLevel}
    (enabled :
      (l.effectiveLevel (run (new level sinks console) calls).levels).value ≤ entryLevel.value)
    (ctx : LogContext) (message : Text) (exception : Option Exn) (metadata : LogMetadata) (s : σ) :
    ((run (new level sinks console) calls).log l ctx entryLevel message exception metadata).filter
        (fun p => p.1 = s) =
      List.replicate (places (if sinks.isEmpty then [console] else sinks) calls name s)
        (s, l.buildEntry ctx entryLevel message exception metadata) := by
  have h := wellformed_run level sinks console calls
  obtain ⟨l', hget⟩ := (h.entered name).mp hname
  have heq : l' = l := by
    rw [← hl, get, hget]
  subst heq
  have hnamed := h.named hget
  rw [log, if_neg (by omega), h.dispatch (by rw [hnamed, hget]), places, inOrder,
    h.parents_eq hget, hnamed]

/-- **An entry logged at an enabled level** reaches every sink attached to the logger or to an
ancestor of it exactly once if and only if each of them has exactly one place. A sink with no place
is one on an ancestor that was requested too late; a sink with two gets the entry twice. -/
theorem emitted_once_iff (level : LogLevel) (sinks : List σ) (console : σ)
    (calls : List (FactoryCall σ)) {name : String} (hname : name ∈ requested calls) {l : Logger}
    (hl : ((run (new level sinks console) calls).get name).1 = l) {entryLevel : LogLevel}
    (enabled :
      (l.effectiveLevel (run (new level sinks console) calls).levels).value ≤ entryLevel.value)
    (ctx : LogContext) (message : Text) (exception : Option Exn) (metadata : LogMetadata) :
    (∀ m ∈ name :: ancestors name, ∀ s ∈ attached calls m,
      ((run (new level sinks console) calls).log l ctx entryLevel message exception metadata).filter
          (fun p => p.1 = s) =
        [(s, l.buildEntry ctx entryLevel message exception metadata)]) ↔
      ∀ m ∈ name :: ancestors name, ∀ s ∈ attached calls m,
        places (if sinks.isEmpty then [console] else sinks) calls name s = 1 := by
  have hone : ∀ (n : Nat) (x : σ × LogEntry), List.replicate n x = [x] ↔ n = 1 := by
    intro n x
    constructor
    · intro h
      simpa using congrArg List.length h
    · rintro rfl
      rfl
  simp only [log_filter hname hl enabled, hone]

/-- A sink on `core`, which is requested before `core.events`. -/
def parentFirst : List (FactoryCall Nat) := [.addSink "core" 1, .get "core.events"]

def childFirst : List (FactoryCall Nat) := [.get "core.events", .addSink "core" 1]

def loggerOf (calls : List (FactoryCall Nat)) (name : String) : Logger :=
  ((run (new .info [0] 0) calls).get name).1

theorem parentFirst_emitted :
    attached parentFirst "core" = [1] ∧
      ∀ m ∈ "core.events" :: ancestors "core.events", ∀ s ∈ attached parentFirst m,
        ((run (new .info [0] 0) parentFirst).log (loggerOf parentFirst "core.events") {} .error []
            none .empty).filter (fun p => p.1 = s) =
          [(s, (loggerOf parentFirst "core.events").buildEntry {} .error [] none .empty)] :=
  ⟨by decide,
    (emitted_once_iff .info [0] 0 parentFirst (by decide) rfl (by decide) {} [] none .empty).mpr
      (by decide)⟩

/-- An error logged on `core.events` does not reach the sink of `core`. -/
theorem childFirst_not_emitted :
    ¬ ∀ (level : LogLevel) (sinks : List Nat) (console : Nat) (calls : List (FactoryCall Nat))
      (name : String), name ∈ requested calls → ∀ (l : Logger),
      ((run (new level sinks console) calls).get name).1 = l → ∀ (entryLevel : LogLevel),
      (l.effectiveLevel (run (new level sinks console) calls).levels).value ≤ entryLevel.value →
      ∀ (ctx : LogContext) (message : Text) (exception : Option Exn) (metadata : LogMetadata),
      ∀ m ∈ name :: ancestors name, ∀ s ∈ attached calls m,
      ((run (new level sinks console) calls).log l ctx entryLevel message exception metadata).filter
          (fun p => p.1 = s) =
        [(s, l.buildEntry ctx entryLevel message exception metadata)] := by
  intro h
  have hcore := h .info [0] 0 childFirst "core.events" (by decide) _ rfl .error (by decide) {} []
    none .empty "core" (by decide) 1 (by decide)
  have hlength := congrArg List.length hcore
  revert hlength
  decide

end LoggerFactory

end IraOS
