import IraOS.Android.Capabilities
import IraOS.Lib.Undo

/-!
# Answers that hold references

Some bridges answer with objects they keep: a network bridge's snapshot holds the very list of
paired devices, a file bridge's the very record it took out of its store. What such an answer says
can change after it was given, so it is no `PyValue`; `execute_action`
(`core/android/capabilities/ base.py`) is the same for it, and so is what the kernel asks of a
capability that can roll back. `executeAction_eq_report` is the agreement with the base class on
answers that are plain values.

A `RecordingCapability` is a capability of the base class over any type of answers, and the second
half of the module is about many commands of one. Two notions of a history are used:

* `undoable` is the stack: commands that succeed, rolled back in reverse order. It instantiates
  `Lib.Undo`, and `undoable_reverses` is its law for any capability.
* `Reached` is every history: executions that succeed or fail, and rollbacks of any result at any
  time, as often as anybody likes. Its induction (`Reached.induct`) carries a property of the state
  together with one of the results returned, since a result may be used long after the state has
  moved on.
-/

set_option autoImplicit false

namespace IraOS

open Lib

variable {σ α : Type}

namespace BaseAndroidCapability

/-- What `execute_action` returns: the data of a result that is a success, or a result that is a
failure, whose data is empty. -/
abbrev Reported (α : Type) := Except CapabilityResult α

def checked (descriptor : CapabilityDescriptor) (internal : PyValue → PyDict → Act σ Exn Empty α)
    (arguments : PyDict) : Act σ Exn Empty α :=
  let action := actionOf arguments
  if supports descriptor action then internal action arguments
  else Act.throw ⟨.invalidArgumentError,
    [.text "Action '", .value action, .text ("' is not supported by " ++ descriptor.id ++ ".")]⟩

def report (descriptor : CapabilityDescriptor) (internal : PyValue → PyDict → Act σ Exn Empty α)
    (arguments : PyDict) : Act σ Exn Empty (Reported α) := do
  match ← Act.attempt (checked descriptor internal arguments) with
  | .ok data => pure (.ok data)
  | .error exc => pure (.error (failureOf descriptor exc))

def reported (descriptor : CapabilityDescriptor) : Except Exn α → Reported α
  | .ok data => .ok data
  | .error exc => .error (failureOf descriptor exc)

theorem report_run (descriptor : CapabilityDescriptor)
    (internal : PyValue → PyDict → Act σ Exn Empty α) (arguments : PyDict) (s : σ) :
    report descriptor internal arguments s
      = ⟨.ok (reported descriptor (checked descriptor internal arguments s).result),
        (checked descriptor internal arguments s).state, []⟩ := by
  unfold report
  have ht := Act.trace_nil (checked descriptor internal arguments s).trace
  rw [Act.run_bind, Act.run_attempt]
  cases (checked descriptor internal arguments s).result <;> simp [ht, reported]

def resultOf (descriptor : CapabilityDescriptor) : Reported PyValue → CapabilityResult
  | .ok data => { capabilityId := descriptor.id, success := true, data := data }
  | .error failure => failure

/-- `execute_action` of the base class is a report of plain values. -/
theorem executeAction_eq_report {δ : Type} (descriptor : CapabilityDescriptor)
    (internal : Internal δ) (arguments : PyDict) (d : δ) :
    executeAction descriptor internal arguments d =
      (report descriptor internal arguments >>= fun reported =>
        pure (.result (resultOf descriptor reported))) d := by
  rw [executeAction_run, Act.run_bind_of_ok (report_run ..)]
  have hreport : reportOf descriptor internal arguments d = resultOf descriptor
      (reported descriptor (checked descriptor internal arguments d).result) := by
    have hsame : checkedExecute descriptor internal arguments d
        = checked descriptor internal arguments d := rfl
    unfold reportOf
    rw [hsame]
    cases (checked descriptor internal arguments d).result <;> rfl
  rw [hreport]
  rfl

/-- A supported action whose own code gets through is reported with its data. -/
theorem report_ok {descriptor : CapabilityDescriptor}
    {internal : PyValue → PyDict → Act σ Exn Empty α} {arguments : PyDict} {s s' : σ} {data : α}
    (h : report descriptor internal arguments s = ⟨.ok (.ok data), s', []⟩) :
    internal (actionOf arguments) arguments s = ⟨.ok data, s', []⟩ := by
  rw [report_run, Run.mk.injEq, Except.ok.injEq] at h
  obtain ⟨hdata, hstate, _⟩ := h
  generalize hrun : checked descriptor internal arguments s = run at hdata hstate
  obtain ⟨result, state, t⟩ := run
  obtain rfl := Act.trace_nil t
  dsimp only at hdata hstate
  subst hstate
  cases result with
  | error exc => cases hdata
  | ok data' =>
    cases hdata
    unfold checked at hrun
    split at hrun
    · exact hrun
    · cases hrun

end BaseAndroidCapability

open BaseAndroidCapability

/-- A mutating capability of the base class whose bridge keeps a `σ` and answers with an `α`. Its
rollback is made from the arguments of the command and from the result that was reported of it. -/
structure RecordingCapability (σ α : Type) where
  descriptor : CapabilityDescriptor
  executeInternal : PyValue → PyDict → Act σ Exn Empty α
  supportsRollback : PyDict → Except Exn Bool
  rollback : PyDict → Reported α → Act σ Exn Empty Unit

namespace RecordingCapability

def executeAction (capability : RecordingCapability σ α) (arguments : PyDict) :
    Act σ Exn Empty (Reported α) :=
  report capability.descriptor capability.executeInternal arguments

def undone (capability : RecordingCapability σ α) (arguments : PyDict) : Act σ Exn Empty Unit := do
  let result ← capability.executeAction arguments
  capability.rollback arguments result

/-! ## Many commands

The capability is given once for every `ι`: what an execution takes besides its arguments, such as
the id that is drawn in it. -/

variable {ι : Type}

abbrev Call (ι : Type) := PyDict × ι

/-- The commands that succeed and can be rolled back, and their rollbacks. -/
def undoable (capability : ι → RecordingCapability σ α) : Undoable σ (Call ι) α where
  exec s call :=
    match (capability call.2).supportsRollback call.1,
      ((capability call.2).executeAction call.1 s).result with
    | .ok true, .ok (.ok data) => some (data, ((capability call.2).executeAction call.1 s).state)
    | _, _ => none
  undo s call data :=
    match ((capability call.2).rollback call.1 (.ok data) s).result with
    | .ok _ => some ((capability call.2).rollback call.1 (.ok data) s).state
    | .error _ => none

theorem exec_undoable {capability : ι → RecordingCapability σ α} {s s' : σ} {call : Call ι}
    {data : α} (h : (undoable capability).exec s call = some (data, s')) :
    (capability call.2).supportsRollback call.1 = .ok true ∧
      (capability call.2).executeInternal (actionOf call.1) call.1 s = ⟨.ok data, s', []⟩ := by
  unfold undoable at h
  dsimp only at h
  split at h
  · next hsupports hresult =>
    cases h
    have hrun : (capability call.2).executeAction call.1 s
        = ⟨.ok (.ok data), ((capability call.2).executeAction call.1 s).state, []⟩ := by
      rw [← hresult, ← Act.trace_nil ((capability call.2).executeAction call.1 s).trace]
    exact ⟨hsupports, report_ok hrun⟩
  · cases h

theorem exec_undoable_of {capability : ι → RecordingCapability σ α} {s s' : σ} {call : Call ι}
    {data : α} (hsupports : (capability call.2).supportsRollback call.1 = .ok true)
    (haction : supports (capability call.2).descriptor (actionOf call.1) = true)
    (hrun : (capability call.2).executeInternal (actionOf call.1) call.1 s = ⟨.ok data, s', []⟩) :
    (undoable capability).exec s call = some (data, s') := by
  have hchecked : checked (capability call.2).descriptor (capability call.2).executeInternal
      call.1 s = ⟨.ok data, s', []⟩ := by
    unfold checked
    rw [if_pos haction, hrun]
  have hreport : (capability call.2).executeAction call.1 s = ⟨.ok (.ok data), s', []⟩ := by
    rw [executeAction, report_run, hchecked]
    rfl
  simp [undoable, hsupports, hreport]

theorem undo_undoable {capability : ι → RecordingCapability σ α} {s s' : σ} {call : Call ι}
    {data : α} (h : (capability call.2).rollback call.1 (.ok data) s = ⟨.ok (), s', []⟩) :
    (undoable capability).undo s call data = some s' := by
  simp [undoable, h]

/-- The stack law of a capability's commands, from what one that is executed keeps and what its
rollback makes of any state that is related to the one it left. -/
theorem undoable_reverses {capability : ι → RecordingCapability σ α} {G : σ → Call ι → Prop}
    {I : σ → Prop} {Rel : σ → σ → Prop} (hrefl : ∀ {s}, I s → Rel s s)
    (hexec : ∀ {s s₁ : σ} {call : Call ι} {data : α}, I s →
      (undoable capability).exec s call = some (data, s₁) →
        I s₁ ∧ (G s call → ∀ {s₂ : σ}, Rel s₁ s₂ → ∃ s₃,
          (capability call.2).rollback call.1 (.ok data) s₂ = ⟨.ok (), s₃, []⟩ ∧ Rel s s₃)) :
    (undoable capability).Reverses G I Rel where
  keeps hs _ h := (hexec hs h).1
  refl := hrefl
  inverse := by
    intro s s₁ s₂ call data hs hg h hback
    obtain ⟨s₃, hroll, hrel⟩ := (hexec hs h).2 hg hback
    exact ⟨s₃, undo_undoable hroll, hrel⟩

/-- The states a history leads to from `init`, and what was returned on the way: every command runs
when it runs and ends as it ends, and what an execution returned is rolled back whenever, and as
often as, somebody likes. -/
inductive Reached (capability : ι → RecordingCapability σ α) (init : σ) :
    List (Call ι × Reported α) → σ → Prop where
  | start : Reached capability init [] init
  | act {log s} (call : Call ι) {reported s'} (reach : Reached capability init log s)
      (run : (capability call.2).executeAction call.1 s = ⟨.ok reported, s', []⟩) :
      Reached capability init ((call, reported) :: log) s'
  | rollback {log s} {call : Call ι} {reported} (reach : Reached capability init log s)
      (returned : (call, reported) ∈ log) :
      Reached capability init log ((capability call.2).rollback call.1 reported s).state

/-- What an execution comes to where the capability's own code, raising, leaves the state alone. -/
theorem executeAction_cases {capability : RecordingCapability σ α}
    (hatomic : ∀ action arguments, (capability.executeInternal action arguments).Atomic)
    {arguments : PyDict} {s s' : σ} {reported : Reported α}
    (h : capability.executeAction arguments s = ⟨.ok reported, s', []⟩) :
    (∃ data, reported = .ok data ∧
      capability.executeInternal (actionOf arguments) arguments s = ⟨.ok data, s', []⟩) ∨
    s' = s ∧ ∃ failure, reported = .error failure := by
  cases reported with
  | ok data => exact Or.inl ⟨data, rfl, report_ok h⟩
  | error failure =>
    refine Or.inr ⟨?_, failure, rfl⟩
    rw [executeAction, report_run, Run.mk.injEq, Except.ok.injEq] at h
    obtain ⟨hresult, hstate, _⟩ := h
    generalize hrun : checked capability.descriptor capability.executeInternal arguments s = run
      at hresult hstate
    obtain ⟨result, state, t⟩ := run
    cases result with
    | ok data => cases hresult
    | error exc =>
      rw [← hstate]
      unfold checked at hrun
      split at hrun
      · exact (hatomic _ _).state hrun
      · cases hrun
        rfl

/-- What every execution and every rollback keeps holds however a history goes: `I` of the state,
and `J` of what was returned, which no later step may take from it. -/
theorem Reached.induct {capability : ι → RecordingCapability σ α} {init : σ} {I : σ → Prop}
    {J : σ → α → Prop}
    (hatomic : ∀ i action arguments, ((capability i).executeInternal action arguments).Atomic)
    (hinit : I init)
    (hact : ∀ {i action arguments s s' data}, I s →
      (capability i).executeInternal action arguments s = ⟨.ok data, s', []⟩ →
        I s' ∧ J s' data ∧ ∀ data', J s data' → J s' data')
    (hback : ∀ {i arguments s data}, I s → J s data →
      I ((capability i).rollback arguments (.ok data) s).state ∧
        ∀ data', J s data' → J ((capability i).rollback arguments (.ok data) s).state data')
    (hfail : ∀ {i arguments s failure},
      ((capability i).rollback arguments (.error failure) s).state = s)
    {log : List (Call ι × Reported α)} {s : σ} (h : Reached capability init log s) :
    I s ∧ ∀ call data, (call, .ok data) ∈ log → J s data := by
  induction h with
  | start => exact ⟨hinit, fun _ _ hmem => absurd hmem List.not_mem_nil⟩
  | @act log s call reported s' _ run ih =>
    rcases executeAction_cases (hatomic call.2) run with ⟨data, rfl, hrun⟩ | ⟨rfl, _, rfl⟩
    -- what was returned before is still good after this step
    · obtain ⟨hI, hJ, hkeep⟩ := hact ih.1 hrun
      refine ⟨hI, ?_⟩
      intro call' data' hmem
      rcases List.mem_cons.mp hmem with hq | hmem
      · cases hq
        exact hJ
      · exact hkeep data' (ih.2 call' data' hmem)
    · refine ⟨ih.1, ?_⟩
      intro call' data' hmem
      rcases List.mem_cons.mp hmem with hq | hmem
      · cases hq
      · exact ih.2 call' data' hmem
  | @rollback log s call reported _ returned ih =>
    cases reported with
    | error failure =>
      rw [hfail]
      exact ih
    | ok data =>
      have hdata := ih.2 call data returned
      refine ⟨(hback ih.1 hdata).1, ?_⟩
      intro call' data' hmem
      exact (hback ih.1 hdata).2 data' (ih.2 call' data' hmem)

theorem Reached.invariant {capability : ι → RecordingCapability σ α} {init : σ} {I : σ → Prop}
    (hatomic : ∀ i action arguments, ((capability i).executeInternal action arguments).Atomic)
    (hinit : I init)
    (hact : ∀ {i action arguments s s' data}, I s →
      (capability i).executeInternal action arguments s = ⟨.ok data, s', []⟩ → I s')
    (hback : ∀ {i arguments s data}, I s →
      I ((capability i).rollback arguments (.ok data) s).state)
    (hfail : ∀ {i arguments s failure},
      ((capability i).rollback arguments (.error failure) s).state = s)
    {log : List (Call ι × Reported α)} {s : σ} (h : Reached capability init log s) : I s := by
  refine (h.induct (J := fun _ _ => True) hatomic hinit ?_ ?_ hfail).1
  · intro i action arguments s s' data hs hrun
    exact ⟨hact hs hrun, trivial, fun _ h => h⟩
  · intro i arguments s data hs _
    exact ⟨hback hs, fun _ h => h⟩

end RecordingCapability

end IraOS
