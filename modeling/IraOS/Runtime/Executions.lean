import IraOS.Lib.Trace
import IraOS.Runtime.Manager

/-!
# What the tool runtime answers for

Over any number of tasks, in whatever order they take their turns, whatever the capabilities do and
however the bus answers: **the registry is what the calls so far have made of it**, in the order
they were made; the events about one id are its registrations and removals, joined up; and every
call of `execute` runs at most one capability, the one that was under the id when the call was made,
and is answered for what came of it (`runtime_accounted`).

An execution that is reported as failed may have run all the same: it is enough that the bus raises
on the event that it is complete. Nothing is said about a capability that is taken out of the
registry while an execution waits; it is run still.

## What is said of an execution

`Execution` is about one call at any moment of it: what has been done, and where its task is. At
most one capability has been run, and before it there is the event that the admitted request starts,
which the bus has taken. The answer is a result, of which `Answers` says what it is for: what the
capability returned, or a text that is blamed on what came before (`Blamed`), the refusal of the
request, the exception of the capability, or that of the bus. An exception comes through only if it
is what the bus made of the last event, the one that tells of the failure.

## The proof

`Doing` is the same to the letter: for every place a call can be at, the list of what it has done.
It is kept turn by turn, by the rule for calls (`Lib.Calls`), and `Execution` is read off it
afterwards. What the turns do to the registry and what they tell of it is a second invariant, of the
whole (`RegistryKept`); no call has a part in it after its first turn.
-/

set_option autoImplicit false

namespace IraOS

open Lib

/-! ## Reading the log -/

namespace RuntimeAction

def event? : RuntimeAction → Option RuntimeEvent
  | .event e => some e
  | _ => none

def invocation? : RuntimeAction → Option (CapabilityRef × ExecutionContext)
  | .invoked inst context => some (inst, context)
  | _ => none

/-- The call, as far as it is about the registry. -/
def registryOp? : RuntimeAction → Option RegistryOp
  | .called (.register inst) => some (.register inst)
  | .called (.unregister capabilityId) => some (.unregister capabilityId)
  | _ => none

/-- An event about the id, as the change it tells of. -/
def announces (id : String) : RuntimeAction → Option (Bool × Bool)
  | .event (.capabilityRegistered capabilityId _) =>
    if capabilityId = id then some (false, true) else none
  | .event (.capabilityUnregistered capabilityId) =>
    if capabilityId = id then some (true, false) else none
  | _ => none

end RuntimeAction

def RuntimeEvent.startOf (r : ExecutionRequest) : RuntimeEvent :=
  .executionStarted r.executionId r.capabilityId

def RuntimeEvent.completionOf (r : ExecutionRequest) (resultData : PyAny) : RuntimeEvent :=
  .executionCompleted r.executionId true resultData

namespace RuntimeManager

open RuntimeAction

variable {δ : Type} (objects : Objects δ) (caps : InMemoryCapabilityRegistry.Capabilities)

def events (done : List RuntimeAction) : List RuntimeEvent := done.filterMap event?

def invocations (done : List RuntimeAction) : List (CapabilityRef × ExecutionContext) :=
  done.filterMap invocation?

def registryAfter (log : List (Nat × RuntimeAction)) : InMemoryCapabilityRegistry.Capabilities :=
  RegistryOp.applyAll objects Dict.empty (log.filterMap fun x => x.2.registryOp?)

def announcements (id : String) (log : List (Nat × RuntimeAction)) : List (Bool × Bool) :=
  log.filterMap fun x => x.2.announces id

/-! ## What is to hold of a call -/

structure Admitted (request : RuntimeRequest) (r : ExecutionRequest) (inst : CapabilityRef) :
    Prop where
  request : request = .executionRequest r.executionId r.capabilityId (some r.arguments) r.metadata
  executionId : r.executionId.isEmpty = false
  capabilityId : r.capabilityId.isEmpty = false
  registered : caps.get? r.capabilityId = some inst

/-- Why an execution has failed, by what had been done before it did, and what the caller is told.
A request that is refused has done nothing at all. Of a capability's exception only the class is
told; what the capability says in it is not. -/
inductive Blamed (request : RuntimeRequest) : List RuntimeAction → Text → Prop
  | refused {e : Exn} (h : accept caps request = .error e) : Blamed request [] e.message
  | ran {done : List RuntimeAction} {e : Exn} (h : .returned (.error e) ∈ done) :
      Blamed request done (lit ("Capability execution failed: " ++ e.cls.name))
  | bus {done : List RuntimeAction} {e : Exn} (h : .raised e ∈ done) :
      Blamed request done (errorOf e)

/-- The two actions every failure ends in: the text is logged, and told. -/
def failure (request : RuntimeRequest) (error : Text) : List RuntimeAction :=
  [.logged error, .event (.executionFailed request.requestId error)]

/-- The answer to `execute`, once `done` has been done. A failure is blamed on what came before it
was told; what the bus makes of being told comes after, and is the one exception that comes
through. -/
def Answers (request : RuntimeRequest) (done : List RuntimeAction) :
    Except Exn (Option ExecutionResult) → Prop
  | .ok (some result) =>
    (∃ r inst resultData, Admitted caps request r inst ∧ result = completed r resultData ∧
      .returned (.ok resultData) ∈ done ∧
      events done = [.startOf r, .completionOf r resultData]) ∨
    ∃ before error, Blamed caps request before error ∧
      result = failed request.requestId error ∧ done = before ++ failure request error
  | .ok none => False
  -- the bus would not have the failure told
  | .error e => ∃ before error, Blamed caps request before error ∧
      done = before ++ failure request error ++ [.raised e]

structure Execution (request : RuntimeRequest) (done : List RuntimeAction) (p : RuntimePlace) :
    Prop where
  /-- At most one capability is run, and the right one. -/
  invoked : invocations done = [] ∨ ∃ r inst, Admitted caps request r inst ∧
    invocations done = [(inst, ⟨r, (objects inst).metadata⟩)]
  /-- Before it is run there is the event of its own start, and the bus has taken that. -/
  started : Guarded (fun before x => (invocation? x).isSome = true →
    ∃ r inst, Admitted caps request r inst ∧ x = .invoked inst ⟨r, (objects inst).metadata⟩ ∧
      before = [.event (.startOf r)]) done
  answered : p = .idle → ∃ before result, done = before ++ [.answered result] ∧
    Answers caps request before result

def Announced (outcome : Except Exn InMemoryCapabilityRegistry.Capabilities)
    (event : RuntimeEvent) (done : List RuntimeAction) (p : RuntimePlace) : Prop :=
  match outcome with
  | .error e => done = [.answered (.error e)]
  | .ok _ => events done = [event] ∧ (p = .idle → ∃ before result, done = before ++
      [.answered result] ∧ (result = .ok none ∨ ∃ e, .raised e ∈ before ∧ result = .error e))

def CallKept : RuntimeCall → List RuntimeAction → RuntimePlace → Prop
  | .register inst => Announced (InMemoryCapabilityRegistry.register objects caps inst)
      (.capabilityRegistered (objects inst).metadata.id (objects inst).metadata.name)
  | .unregister capabilityId => Announced (InMemoryCapabilityRegistry.unregister caps capabilityId)
      (.capabilityUnregistered capabilityId)
  | .execute request => Execution objects caps request

/-- What holds of the runtime at any moment: the registry is what the calls have made of it, the
events about every id join up to whether it is registered, and every call does as it should. -/
structure Accounted
    (s : Tasks.State InMemoryCapabilityRegistry.Capabilities RuntimePlace RuntimeAction) :
    Prop where
  registry : s.shared = registryAfter objects s.log
  announced : ∀ id, Leads false (announcements id s.log) (s.shared.contains id)
  calls : Tasks.CallsKept RuntimeAction.called
    (fun pre => CallKept objects (registryAfter objects pre)) .idle s

/-! ## What a call does, to the letter -/

inductive Failing (request : RuntimeRequest) : List RuntimeAction → Exn → Prop
  | refused {e : Exn} (h : accept caps request = .error e) : Failing request [] e
  | starting {r : ExecutionRequest} {inst : CapabilityRef} (h : Admitted caps request r inst)
      (e : Exn) : Failing request [.event (.startOf r), .raised e] e
  | running {r : ExecutionRequest} {inst : CapabilityRef} (h : Admitted caps request r inst)
      (e : Exn) : Failing request [.event (.startOf r),
        .invoked inst ⟨r, (objects inst).metadata⟩, .returned (.error e)]
        (RuntimeExecutor.failure e)
  | completing {r : ExecutionRequest} {inst : CapabilityRef} (h : Admitted caps request r inst)
      (resultData : PyAny) (e : Exn) : Failing request [.event (.startOf r),
        .invoked inst ⟨r, (objects inst).metadata⟩, .returned (.ok resultData),
        .event (.completionOf r resultData), .raised e] e

inductive Executing (request : RuntimeRequest) : List RuntimeAction → RuntimePlace → Prop
  | starting {r : ExecutionRequest} {inst : CapabilityRef} (h : Admitted caps request r inst) :
      Executing request [.event (.startOf r)] (.starting r inst)
  | running {r : ExecutionRequest} {inst : CapabilityRef} (h : Admitted caps request r inst) :
      Executing request [.event (.startOf r), .invoked inst ⟨r, (objects inst).metadata⟩]
        (.running r inst)
  | completing {r : ExecutionRequest} {inst : CapabilityRef} (h : Admitted caps request r inst)
      (resultData : PyAny) : Executing request [.event (.startOf r),
        .invoked inst ⟨r, (objects inst).metadata⟩, .returned (.ok resultData),
        .event (.completionOf r resultData)] (.completing r resultData)
  | completed {r : ExecutionRequest} {inst : CapabilityRef} (h : Admitted caps request r inst)
      (resultData : PyAny) : Executing request [.event (.startOf r),
        .invoked inst ⟨r, (objects inst).metadata⟩, .returned (.ok resultData),
        .event (.completionOf r resultData),
        .answered (.ok (some (RuntimeManager.completed r resultData)))] .idle
  | failing {before : List RuntimeAction} {e : Exn} (h : Failing objects caps request before e) :
      Executing request (before ++ failure request (errorOf e))
        (.failing request.requestId (errorOf e))
  | failed {before : List RuntimeAction} {e : Exn} (h : Failing objects caps request before e) :
      Executing request (before ++ failure request (errorOf e) ++
        [.answered (.ok (some (RuntimeManager.failed request.requestId (errorOf e))))]) .idle
  | untold {before : List RuntimeAction} {e : Exn} (h : Failing objects caps request before e)
      (e' : Exn) : Executing request
        (before ++ failure request (errorOf e) ++ [.raised e', .answered (.error e')]) .idle

inductive Registering (outcome : Except Exn InMemoryCapabilityRegistry.Capabilities)
    (event : RuntimeEvent) : List RuntimeAction → RuntimePlace → Prop
  | refused {e : Exn} (h : outcome = .error e) :
      Registering outcome event [.answered (.error e)] .idle
  | announcing {after : InMemoryCapabilityRegistry.Capabilities} (h : outcome = .ok after) :
      Registering outcome event [.event event] .announcing
  | announced {after : InMemoryCapabilityRegistry.Capabilities} (h : outcome = .ok after) :
      Registering outcome event [.event event, .answered (.ok none)] .idle
  | unannounced {after : InMemoryCapabilityRegistry.Capabilities} (h : outcome = .ok after)
      (e : Exn) : Registering outcome event
        [.event event, .raised e, .answered (.error e)] .idle

def Doing : RuntimeCall → List RuntimeAction → RuntimePlace → Prop
  | .register inst => Registering (InMemoryCapabilityRegistry.register objects caps inst)
      (.capabilityRegistered (objects inst).metadata.id (objects inst).metadata.name)
  | .unregister capabilityId =>
      Registering (InMemoryCapabilityRegistry.unregister caps capabilityId)
        (.capabilityUnregistered capabilityId)
  | .execute request => Executing objects caps request

/-! ## Being let in -/

section Admission

variable {caps} {executionId capabilityId : String} {arguments : Option PyDict} {metadata : PyDict}

theorem validateRequest_ok {r : ExecutionRequest}
    (h : RuntimeValidator.validateRequest executionId capabilityId arguments metadata = .ok r) :
    executionId.isEmpty = false ∧ capabilityId.isEmpty = false ∧
      ∃ given, arguments = some given ∧ r = ⟨executionId, capabilityId, given, metadata⟩ := by
  unfold RuntimeValidator.validateRequest at h
  split at h
  · cases h
  · next hid =>
    split at h
    · cases h
    · next hcap =>
      cases arguments with
      | none => cases h
      | some given =>
        cases h
        exact ⟨Bool.eq_false_of_not_eq_true hid, Bool.eq_false_of_not_eq_true hcap, given, rfl, rfl⟩

theorem validateRequest_of {r : ExecutionRequest} (hid : r.executionId.isEmpty = false)
    (hcap : r.capabilityId.isEmpty = false) :
    RuntimeValidator.validateRequest r.executionId r.capabilityId (some r.arguments) r.metadata =
      .ok r := by
  unfold RuntimeValidator.validateRequest
  rw [hid, hcap]
  rfl

theorem validateRequest_error {e : Exn}
    (h : RuntimeValidator.validateRequest executionId capabilityId arguments metadata = .error e) :
    e.cls = .validationError := by
  unfold RuntimeValidator.validateRequest at h
  split at h
  · cases h
    rfl
  · split at h
    · cases h
      rfl
    · cases arguments with
      | none =>
        cases h
        rfl
      | some given => cases h

theorem dispatch_error {r : ExecutionRequest} {e : Exn}
    (h : RuntimeDispatcher.dispatch r caps = .error e) : e.cls = .capabilityNotFoundError := by
  unfold RuntimeDispatcher.dispatch InMemoryCapabilityRegistry.lookup at h
  split at h
  · cases h
  · cases h
    rfl

variable {request : RuntimeRequest}

theorem accept_ok_iff {r : ExecutionRequest} {inst : CapabilityRef} :
    accept caps request = .ok (r, inst) ↔ Admitted caps request r inst := by
  constructor
  · intro h
    cases request with
    | other executionId => cases h
    | executionRequest executionId capabilityId arguments metadata =>
      obtain ⟨r', hvalid, h⟩ := bind_eq_ok.mp h
      obtain ⟨inst', hfound, h⟩ := bind_eq_ok.mp h
      cases h
      obtain ⟨hid, hcap, given, rfl, rfl⟩ := validateRequest_ok hvalid
      exact ⟨rfl, hid, hcap, InMemoryCapabilityRegistry.lookup_ok hfound⟩
  · intro h
    have hfound : RuntimeDispatcher.dispatch r caps = .ok inst :=
      InMemoryCapabilityRegistry.lookup_of_get? h.registered
    rw [h.request, accept, validateRequest_of h.executionId h.capabilityId]
    simp only [bind, Except.bind, hfound]
    rfl

theorem Admitted.requestId {r : ExecutionRequest} {inst : CapabilityRef}
    (h : Admitted caps request r inst) : r.executionId = request.requestId := by
  rw [h.request]
  rfl

/-- What is raised before the capability is reached, the caller is told as it is. -/
theorem errorOf_refused {e : Exn} (h : accept caps request = .error e) : errorOf e = e.message := by
  have hcls : e.cls = .validationError ∨ e.cls = .capabilityNotFoundError := by
    cases request with
    | other executionId =>
      cases h
      exact Or.inl rfl
    | executionRequest executionId capabilityId arguments metadata =>
      rw [accept] at h
      cases hvalid : RuntimeValidator.validateRequest executionId capabilityId arguments
          metadata with
      | error e' =>
        rw [hvalid] at h
        cases h
        exact Or.inl (validateRequest_error hvalid)
      | ok r =>
        rw [hvalid] at h
        cases hfound : RuntimeDispatcher.dispatch r caps with
        | error e' =>
          simp only [bind, Except.bind, hfound] at h
          cases h
          exact Or.inr (dispatch_error hfound)
        | ok inst =>
          simp only [bind, Except.bind, hfound] at h
          cases h
  unfold errorOf
  rcases hcls with hcls | hcls <;> rw [hcls] <;> rfl

end Admission

/-! ## What the letter comes to -/

section Letter

variable {objects} {caps} {request : RuntimeRequest} {before done : List RuntimeAction} {e : Exn}
  {p : RuntimePlace} {r : ExecutionRequest} {inst : CapabilityRef}

theorem Failing.blamed (h : Failing objects caps request before e) :
    Blamed caps request before (errorOf e) := by
  cases h with
  | refused h =>
    rw [errorOf_refused h]
    exact .refused h
  | starting h e => exact .bus (by simp)
  | running h e =>
    show Blamed caps request _ (lit ("Capability execution failed: " ++ e.cls.name))
    exact .ran (by simp)
  | completing h resultData e => exact .bus (by simp)

theorem Execution.of_quiet (h : invocations done = [])
    (answered : p = .idle → ∃ before result, done = before ++ [.answered result] ∧
      Answers caps request before result) : Execution objects caps request done p where
  invoked := Or.inl h
  started := by
    refine .of_mem fun x hx _ hinv => ?_
    have hnone : invocation? x = none := List.filterMap_eq_nil_iff.mp h x hx
    rw [hnone] at hinv
    cases hinv
  answered := answered

theorem Execution.of_ran (h : Admitted caps request r inst) {after : List RuntimeAction}
    (hdone : done = .event (.startOf r) :: .invoked inst ⟨r, (objects inst).metadata⟩ :: after)
    (hafter : invocations after = [])
    (answered : p = .idle → ∃ before result, done = before ++ [.answered result] ∧
      Answers caps request before result) : Execution objects caps request done p where
  invoked := by
    refine Or.inr ⟨r, inst, h, ?_⟩
    rw [hdone]
    show (inst, _) :: invocations after = _
    rw [hafter]
  started := by
    rw [hdone]
    show Guarded _ ([RuntimeAction.event (.startOf r)] ++ .invoked inst _ :: after)
    refine Guarded.single ?_ ?_ fun _ => ⟨r, inst, h, rfl, rfl⟩
    · intro y hy hinv
      rw [List.mem_singleton.mp hy] at hinv
      cases hinv
    · intro y hy hinv
      have hnone : invocation? y = none := List.filterMap_eq_nil_iff.mp hafter y hy
      rw [hnone] at hinv
      cases hinv
  answered := answered

theorem Failing.execution (h : Failing objects caps request before e) {after : List RuntimeAction}
    (hafter : invocations after = [])
    (answered : p = .idle → ∃ pre result, before ++ after = pre ++ [.answered result] ∧
      Answers caps request pre result) :
    Execution objects caps request (before ++ after) p := by
  cases h with
  | refused h => exact .of_quiet hafter answered
  | starting h e => exact .of_quiet hafter answered
  | running h e => exact .of_ran h rfl hafter answered
  | completing h resultData e => exact .of_ran h rfl hafter answered

theorem Executing.execution (h : Executing objects caps request done p) :
    Execution objects caps request done p := by
  cases h with
  | starting h => exact .of_quiet rfl nofun
  | running h => exact .of_ran h rfl rfl nofun
  | completing h resultData => exact .of_ran h rfl rfl nofun
  | completed h resultData =>
    refine .of_ran h rfl rfl fun _ =>
      ⟨[_, _, _, _], _, rfl, Or.inl ⟨_, _, resultData, h, rfl, ?_, rfl⟩⟩
    simp
  | failing h => exact h.execution rfl nofun
  | failed h =>
    rw [List.append_assoc]
    refine h.execution rfl fun _ => ⟨_, _, (List.append_assoc ..).symm, Or.inr ?_⟩
    exact ⟨_, _, h.blamed, rfl, rfl⟩
  | @untold before e h e' =>
    rw [List.append_assoc]
    refine h.execution rfl fun _ =>
      ⟨before ++ failure request (errorOf e) ++ [.raised e'], .error e', ?_, ?_⟩
    · simp
    · exact ⟨before, errorOf e, h.blamed, rfl⟩

theorem Registering.kept {outcome : Except Exn InMemoryCapabilityRegistry.Capabilities}
    {event : RuntimeEvent} (h : Registering outcome event done p) :
    Announced outcome event done p := by
  cases h with
  | refused h =>
    subst h
    rfl
  | announcing h =>
    subst h
    exact ⟨rfl, nofun⟩
  | announced h =>
    subst h
    exact ⟨rfl, fun _ => ⟨[_], _, rfl, Or.inl rfl⟩⟩
  | unannounced h e =>
    subst h
    exact ⟨rfl, fun _ => ⟨[_, _], _, rfl, Or.inr ⟨e, by simp, rfl⟩⟩⟩

theorem Doing.kept {call : RuntimeCall} (h : Doing objects caps call done p) :
    CallKept objects caps call done p := by
  cases call with
  | register inst => exact Registering.kept h
  | unregister capabilityId => exact Registering.kept h
  | execute request => exact Executing.execution h

end Letter

/-! ## Turns -/

section Turns

variable {objects} {caps} {call : RuntimeCall} {done : List RuntimeAction} {p : RuntimePlace}
  {reply : RuntimeReply} {i : Nat} {t : RuntimeTurn}

/-! A call's first turn, by what comes of it. -/

theorem begin_register_error {inst : CapabilityRef} {e : Exn}
    (h : InMemoryCapabilityRegistry.register objects caps inst = .error e) :
    begin objects caps (.register inst) =
      answer caps [.called (.register inst)] (.error e) := by
  simp only [begin, h]

theorem begin_register_ok {inst : CapabilityRef} {after : InMemoryCapabilityRegistry.Capabilities}
    (h : InMemoryCapabilityRegistry.register objects caps inst = .ok after) :
    begin objects caps (.register inst) = ⟨after, .announcing, [.called (.register inst), .event
      (.capabilityRegistered (objects inst).metadata.id (objects inst).metadata.name)]⟩ := by
  simp only [begin, h]

theorem begin_unregister_error {capabilityId : String} {e : Exn}
    (h : InMemoryCapabilityRegistry.unregister caps capabilityId = .error e) :
    begin objects caps (.unregister capabilityId) =
      answer caps [.called (.unregister capabilityId)] (.error e) := by
  simp only [begin, h]

theorem begin_unregister_ok {capabilityId : String}
    {after : InMemoryCapabilityRegistry.Capabilities}
    (h : InMemoryCapabilityRegistry.unregister caps capabilityId = .ok after) :
    begin objects caps (.unregister capabilityId) = ⟨after, .announcing,
      [.called (.unregister capabilityId), .event (.capabilityUnregistered capabilityId)]⟩ := by
  simp only [begin, h]

theorem begin_execute_error {request : RuntimeRequest} {e : Exn}
    (h : accept caps request = .error e) : begin objects caps (.execute request) =
      fail caps [.called (.execute request)] request.requestId e := by
  simp only [begin, h]

theorem begin_execute_ok {request : RuntimeRequest} {r : ExecutionRequest} {inst : CapabilityRef}
    (h : accept caps request = .ok (r, inst)) : begin objects caps (.execute request) =
      ⟨caps, .starting r inst, [.called (.execute request), .event (.startOf r)]⟩ := by
  simp only [begin, h]
  rfl

theorem begin_doing (call : RuntimeCall) : ∃ actions,
    (begin objects caps call).actions = .called call :: actions ∧
      Doing objects caps call actions (begin objects caps call).pc := by
  cases call with
  | register inst =>
    cases h : InMemoryCapabilityRegistry.register objects caps inst with
    | error e =>
      rw [begin_register_error h]
      exact ⟨_, rfl, Registering.refused h⟩
    | ok after =>
      rw [begin_register_ok h]
      exact ⟨_, rfl, Registering.announcing h⟩
  | unregister capabilityId =>
    cases h : InMemoryCapabilityRegistry.unregister caps capabilityId with
    | error e =>
      rw [begin_unregister_error h]
      exact ⟨_, rfl, Registering.refused h⟩
    | ok after =>
      rw [begin_unregister_ok h]
      exact ⟨_, rfl, Registering.announcing h⟩
  | execute request =>
    cases h : accept caps request with
    | error e =>
      rw [begin_execute_error h]
      exact ⟨_, rfl, Executing.failing (.refused h)⟩
    | ok admitted =>
      obtain ⟨r, inst⟩ := admitted
      rw [begin_execute_ok h]
      exact ⟨_, rfl, Executing.starting (accept_ok_iff.mp h)⟩

theorem executing_fail {request : RuntimeRequest} {before : List RuntimeAction} {e : Exn}
    {executionId : String} (h : Failing objects caps request (done ++ before) e)
    (hid : executionId = request.requestId) (now : InMemoryCapabilityRegistry.Capabilities) :
    Executing objects caps request (done ++ (fail now before executionId e).actions)
      (fail now before executionId e).pc := by
  subst hid
  show Executing objects caps request (done ++ (before ++ failure request (errorOf e))) _
  rw [← List.append_assoc]
  exact .failing h

theorem Executing.turn {request : RuntimeRequest} (h : Executing objects caps request done p)
    (hp : p ≠ .idle) {now : InMemoryCapabilityRegistry.Capabilities}
    (ht : turn objects i now p reply = some t) :
    Executing objects caps request (done ++ t.actions) t.pc := by
  cases h with
  | @starting r inst h =>
    cases reply with
    | call | returned => cases ht
    | published answer =>
      cases answer with
      | ok => cases ht; exact .running h
      | error e => cases ht; exact executing_fail (.starting h e) h.requestId now
  | @running r inst h =>
    cases reply with
    | call | published => cases ht
    | returned outcome =>
      cases outcome with
      | ok resultData => cases ht; exact .completing h resultData
      | error e => cases ht; exact executing_fail (.running h e) h.requestId now
  | @completing r inst h resultData =>
    cases reply with
    | call | returned => cases ht
    | published answer =>
      cases answer with
      | ok => cases ht; exact .completed h resultData
      | error e => cases ht; exact executing_fail (.completing h resultData e) h.requestId now
  | failing h =>
    cases reply with
    | call | returned => cases ht
    | published answer =>
      cases answer with
      | ok => cases ht; exact .failed h
      | error e => cases ht; exact .untold h e
  | completed | failed | untold => exact absurd rfl hp

theorem Registering.turn {outcome : Except Exn InMemoryCapabilityRegistry.Capabilities}
    {event : RuntimeEvent} (h : Registering outcome event done p) (hp : p ≠ .idle)
    {now : InMemoryCapabilityRegistry.Capabilities} (ht : turn objects i now p reply = some t) :
    Registering outcome event (done ++ t.actions) t.pc := by
  cases h with
  | announcing h =>
    cases reply with
    | call | returned => cases ht
    | published answer =>
      cases answer with
      | ok => cases ht; exact .announced h
      | error e => cases ht; exact .unannounced h e
  | refused | announced | unannounced => exact absurd rfl hp

theorem Doing.turn (h : Doing objects caps call done p) (hp : p ≠ .idle)
    {now : InMemoryCapabilityRegistry.Capabilities} (ht : turn objects i now p reply = some t) :
    Doing objects caps call (done ++ t.actions) t.pc := by
  cases call with
  | register inst => exact Registering.turn h hp ht
  | unregister capabilityId => exact Registering.turn h hp ht
  | execute request => exact Executing.turn h hp ht

/-- What a turn does to the registry, and what it tells of that. It tells of a change in the turn
that makes it, so that between a change and its event there is nobody else. -/
structure Shared (objects : Objects δ) (caps : InMemoryCapabilityRegistry.Capabilities)
    (t : RuntimeTurn) : Prop where
  registry : t.shared = RegistryOp.applyAll objects caps (t.actions.filterMap registryOp?)
  announced : ∀ id,
    Leads (caps.contains id) (t.actions.filterMap (announces id)) (t.shared.contains id)

theorem Shared.same (hsame : t.shared = caps) (hops : t.actions.filterMap registryOp? = [])
    (hsilent : ∀ id, t.actions.filterMap (announces id) = []) : Shared objects caps t where
  registry := by
    rw [hsame, hops]
    rfl
  announced id := by
    rw [hsilent, hsame]
    rfl

theorem register_cases (objects : Objects δ) (caps : InMemoryCapabilityRegistry.Capabilities)
    (inst : CapabilityRef) :
    (∃ e, InMemoryCapabilityRegistry.register objects caps inst = .error e) ∨
      caps.contains (objects inst).metadata.id = false ∧
        InMemoryCapabilityRegistry.register objects caps inst =
          .ok (caps.set (objects inst).metadata.id inst) := by
  unfold InMemoryCapabilityRegistry.register
  simp only
  split
  · exact Or.inl ⟨_, rfl⟩
  · split
    · exact Or.inl ⟨_, rfl⟩
    · next hnot => exact Or.inr ⟨Bool.eq_false_of_not_eq_true hnot, rfl⟩

theorem unregister_cases (caps : InMemoryCapabilityRegistry.Capabilities) (capabilityId : String) :
    (∃ e, InMemoryCapabilityRegistry.unregister caps capabilityId = .error e) ∨
      caps.contains capabilityId = true ∧
        InMemoryCapabilityRegistry.unregister caps capabilityId =
          .ok (caps.erase capabilityId) := by
  unfold InMemoryCapabilityRegistry.unregister
  split
  · next hthere => exact Or.inr ⟨hthere, rfl⟩
  · exact Or.inl ⟨_, rfl⟩

theorem announces_event {call : RuntimeCall} {event : RuntimeEvent} {id : String} :
    [RuntimeAction.called call, .event event].filterMap (announces id) =
      ((RuntimeAction.event event).announces id).toList := by
  show [RuntimeAction.event event].filterMap (announces id) = _
  rw [List.filterMap_cons]
  cases (RuntimeAction.event event).announces id <;> rfl

theorem register_shared (inst : CapabilityRef) :
    Shared objects caps (begin objects caps (.register inst)) := by
  have happly : (RegistryOp.register inst).apply objects caps =
      (InMemoryCapabilityRegistry.register objects caps inst).toOption.getD caps := rfl
  rcases register_cases objects caps inst with ⟨e, h⟩ | ⟨hfree, h⟩
  · rw [begin_register_error h]
    rw [h] at happly
    exact ⟨happly.symm, fun id => rfl⟩
  · rw [begin_register_ok h]
    rw [h] at happly
    refine ⟨happly.symm, fun id => ?_⟩
    show Leads (caps.contains id) _ ((caps.set (objects inst).metadata.id inst).contains id)
    by_cases hid : (objects inst).metadata.id = id
    · subst hid
      rw [Dict.contains_set_self, hfree, announces_event, announces, if_pos rfl]
      exact Leads.single Bool.noConfusion
    · rw [Dict.contains_set_ne (Ne.symm hid), announces_event, announces, if_neg hid]
      rfl

theorem unregister_shared (capabilityId : String) :
    Shared objects caps (begin objects caps (.unregister capabilityId)) := by
  have happly : (RegistryOp.unregister capabilityId).apply objects caps =
      (InMemoryCapabilityRegistry.unregister caps capabilityId).toOption.getD caps := rfl
  rcases unregister_cases caps capabilityId with ⟨e, h⟩ | ⟨hthere, h⟩
  · rw [begin_unregister_error h]
    rw [h] at happly
    exact ⟨happly.symm, fun id => rfl⟩
  · rw [begin_unregister_ok h]
    rw [h] at happly
    refine ⟨happly.symm, fun id => ?_⟩
    show Leads (caps.contains id) _ ((caps.erase capabilityId).contains id)
    by_cases hid : capabilityId = id
    · subst hid
      rw [Dict.contains_erase_self, hthere, announces_event, announces, if_pos rfl]
      exact Leads.single Bool.noConfusion
    · rw [Dict.contains_erase_ne (Ne.symm hid), announces_event, announces, if_neg hid]
      rfl

theorem begin_shared (call : RuntimeCall) : Shared objects caps (begin objects caps call) := by
  cases call with
  | register inst => exact register_shared inst
  | unregister capabilityId => exact unregister_shared capabilityId
  | execute request =>
    cases h : accept caps request with
    | error e =>
      rw [begin_execute_error h]
      exact .same rfl rfl fun _ => rfl
    | ok admitted =>
      obtain ⟨r, inst⟩ := admitted
      rw [begin_execute_ok h]
      exact .same rfl rfl fun _ => rfl

/-- A call's later turns leave the registry alone. -/
theorem turn_shared (hp : p ≠ .idle) (ht : turn objects i caps p reply = some t) :
    Shared objects caps t := by
  cases p with
  | idle => exact absurd rfl hp
  | announcing | starting | completing | failing =>
    cases reply with
    | call | returned => cases ht
    | published answer =>
      cases answer <;>
      · cases ht
        exact .same rfl rfl fun _ => rfl
  | running r inst =>
    cases reply with
    | call | published => cases ht
    | returned outcome =>
      cases outcome <;>
      · cases ht
        exact .same rfl rfl fun _ => rfl

theorem turn_idle (ht : turn objects i caps .idle reply = some t) :
    ∃ call, t = begin objects caps call := by
  cases reply with
  | call call =>
    cases ht
    exact ⟨call, rfl⟩
  | published | returned => cases ht

theorem turn_shared_any (ht : turn objects i caps p reply = some t) : Shared objects caps t := by
  by_cases hp : p = .idle
  · subst hp
    obtain ⟨call, rfl⟩ := turn_idle ht
    exact begin_shared call
  · exact turn_shared hp ht

end Turns

/-! ## Runs -/

/-- The invariant of the whole: the registry, and what has been told of it. -/
structure RegistryKept (objects : Objects δ)
    (s : Tasks.State InMemoryCapabilityRegistry.Capabilities RuntimePlace RuntimeAction) :
    Prop where
  registry : s.shared = registryAfter objects s.log
  announced : ∀ id, Leads false (announcements id s.log) (s.shared.contains id)

theorem RegistryKept.take {objects : Objects δ}
    {s : Tasks.State InMemoryCapabilityRegistry.Capabilities RuntimePlace RuntimeAction}
    (h : RegistryKept objects s) {t : RuntimeTurn} (ht : Shared objects s.shared t) (i : Nat) :
    RegistryKept objects (s.take i t) where
  registry := by
    show t.shared = RegistryOp.applyAll objects Dict.empty
      ((s.log ++ t.actions.map (Prod.mk i)).filterMap fun x => x.2.registryOp?)
    rw [List.filterMap_append, List.filterMap_map, RegistryOp.applyAll, List.foldl_append]
    exact ht.registry.trans (congrArg (RegistryOp.applyAll objects · _) h.registry)
  announced id := by
    show Leads false ((s.log ++ t.actions.map (Prod.mk i)).filterMap _) (t.shared.contains id)
    rw [List.filterMap_append, List.filterMap_map]
    exact (h.announced id).append (ht.announced id)

/-- **However any number of tasks use the runtime**, whatever the capabilities do and however the
bus answers: the registry is what the calls made of it, its events are its changes, and every call
is answered for what came of it. -/
theorem runtime_accounted (objects : Objects δ) {ls : List (Nat × RuntimeReply)}
    {s : Tasks.State InMemoryCapabilityRegistry.Capabilities RuntimePlace RuntimeAction}
    (he : (system objects).exec start ls = some s) : Accounted objects s := by
  have hstart : RegistryKept objects start := ⟨rfl, fun _ => rfl⟩
  have hcalls : Tasks.CallsKept RuntimeAction.called
      (fun pre => Doing objects (registryAfter objects pre)) .idle start :=
    fun i => Or.inl ⟨rfl, rfl⟩
  have hrun := Tasks.exec_calls (J := RegistryKept objects) ?_ ?_ ?_ hstart hcalls he
  · obtain ⟨hkept, hcalls⟩ := hrun
    refine ⟨hkept.registry, hkept.announced, fun i => ?_⟩
    rcases hcalls i with hidle | ⟨pre, call, post, hlog, hdoing⟩
    · exact Or.inl hidle
    · exact Or.inr ⟨pre, call, post, hlog, hdoing.kept⟩
  · intro s i r t hs ht
    exact hs.take (turn_shared_any ht) i
  · intro s i r t hs ht
    obtain ⟨call, rfl⟩ := turn_idle ht
    obtain ⟨actions, hactions, hdoing⟩ : ∃ actions,
        (begin objects s.shared call).actions = .called call :: actions ∧
          Doing objects s.shared call actions (begin objects s.shared call).pc := begin_doing call
    exact ⟨call, actions, hactions, hs.registry ▸ hdoing⟩
  · intro s i r t pre call done _ hidle hdoing ht
    exact hdoing.turn hidle ht

def torch : Capability Unit where
  metadata := ⟨"1", "Torch", "", "1", none⟩
  execute := fun _ => pure (.value .none)

/-- The capability is taken out of the registry before the execution that found it is under way, and
it is run; the bus will not have the completion told. -/
def overtaken : List (Nat × RuntimeReply) :=
  [(0, .call (.register 0)),
    (1, .call (.execute (.executionRequest "e" "1" (some Dict.empty) Dict.empty))),
    (0, .published (.ok ())), (0, .call (.unregister "1")),
    (1, .published (.ok ())), (1, .returned (.ok (.value .none))),
    (1, .published (.error ⟨.runtimeError, []⟩)), (0, .published (.ok ())),
    (1, .published (.ok ()))]

theorem overtaken_accounted :
    ∃ s, (system fun _ => torch).exec start overtaken = some s ∧ Accounted (fun _ => torch) s := by
  refine ⟨_, rfl, ?_⟩
  exact runtime_accounted (fun _ => torch)
    (show (system fun _ => torch).exec start overtaken = some _ from rfl)

end RuntimeManager

end IraOS
