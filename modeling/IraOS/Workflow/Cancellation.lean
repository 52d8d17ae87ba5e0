import IraOS.Workflow.Manager

/-!
# When a cancel is kept

`cancel` writes a status that `submit` never reads. So a cancel is kept only where nothing writes
the status after it: the submit has made its last write, and no pause comes after. Anywhere earlier
the submit's next write overwrites it, and the task is dispatched all the same.

The result is about the exact moment. A submit is *settled* once it is past its last write
(`Pc.isSettled`), and a cancel is *accepted* when it has written its status and heard of no
exception (`Pc.isAccepted`). A step is `Late` if it undoes no cancel: a cancel writes only once the
submit is settled, and a pause writes only while no cancel was accepted. In a run of late steps an
accepted cancel stands, and the submit does nothing from then on that makes progress: it dispatches
nothing and announces no completion.

That needs two facts about single turns. A call writes the status of its own workflow and no other
(`turn_writes`), so it is only the calls about the same workflow that matter; and a settled submit
writes nothing (`submit_settled`). The invariant `Cancelled` is put together of the two.

`cancelDuring_lost` is a run that is not late: the cancel comes while the submit announces its
queued task, returns, and the task is dispatched after it.
-/

set_option autoImplicit false

namespace IraOS

open Lib

namespace WorkflowManagerImpl

def Pc.isSettled : Pc → Bool
  | .failing _ | .returned _ | .raised _ => true
  | _ => false

/-- A `cancel`, `pause` or `resume` at this place has written its status, or found nothing to
write, and heard of no exception. -/
def Pc.isAccepted : Pc → Bool
  | .announcing | .returned _ => true
  | _ => false

def Action.isProgress : Action → Bool
  | .dispatched _ => true
  | .published (.workflowCompleted _ _) => true
  | _ => false

/-! ## One turn -/

/-- **A settled submit does nothing to be undone.** -/
theorem submit_settled {self : Self} {request : WorkflowRequest} {taskId : String} {pc : Pc}
    {reply : Reply} {t : Turn} (hs : pc.isSettled = true)
    (ht : submit self request taskId pc reply = some t) :
    t.shared = self ∧ t.pc.isSettled = true ∧ t.actions = [] := by
  cases pc <;> simp only [Pc.isSettled, Bool.false_eq_true] at hs
  case failing exc =>
    cases reply <;> simp only [submit, Option.some.injEq, reduceCtorEq] at ht <;> subst ht <;>
      exact ⟨rfl, rfl, rfl⟩
  all_goals cases reply <;> simp [submit] at ht

theorem control_cases {first : Turn} {self : Self} {pc : Pc} {reply : Reply} {t : Turn}
    (ht : control first self pc reply = some t) :
    (pc = .idle ∧ t = first) ∨ (pc = .announcing ∧ t.shared = self) := by
  cases pc <;> cases reply <;> simp only [control, Option.some.injEq, reduceCtorEq] at ht <;>
    subst ht
  · exact Or.inl ⟨rfl, rfl⟩
  · exact Or.inr ⟨rfl, rfl⟩
  · exact Or.inr ⟨rfl, rfl⟩

/-! ## Whose status a turn writes -/

def WritesOnly (id : String) (self : Self) (t : Turn) : Prop :=
  ∀ w, id ≠ w → t.shared.statuses.get? w = self.statuses.get? w

theorem WritesOnly.nothing {id : String} {self : Self} {t : Turn} (h : t.shared = self) :
    WritesOnly id self t := fun _ _ => by rw [h]

theorem WritesOnly.set {id : String} {self : Self} {t : Turn} {status : WorkflowStatus}
    (h : t.shared.statuses = self.statuses.set id status) : WritesOnly id self t :=
  fun _ hw => by rw [h, Dict.get?_set_ne (Ne.symm hw)]

theorem dequeueTask_writes (self : Self) (request : WorkflowRequest) :
    WritesOnly request.workflowId self (dequeueTask self request) := by
  unfold dequeueTask
  obtain ⟨task, queue⟩ := self.queue.dequeue
  cases task with
  | some taskToRun => exact .set rfl
  | none =>
    intro w hw
    have hrunning : (self.statuses.set request.workflowId .RUNNING).get? w
        = self.statuses.get? w := Dict.get?_set_ne (Ne.symm hw)
    exact (WritesOnly.set (t := fail _ request _) rfl w hw).trans hrunning

theorem settle_writes (self : Self) (request : WorkflowRequest) (taskToRun : WorkflowTask)
    (result : Except Exn PyAny) :
    WritesOnly request.workflowId self (settle self request taskToRun result) := by
  cases result with
  | ok dispatchResult => exact .nothing rfl
  | error exc => exact .set rfl

theorem submit_writes {self : Self} {request : WorkflowRequest} {taskId : String} {pc : Pc}
    {reply : Reply} {t : Turn} (ht : submit self request taskId pc reply = some t) :
    WritesOnly request.workflowId self t := by
  cases pc <;> cases reply <;> simp only [submit, Option.some.injEq, reduceCtorEq] at ht <;>
    subst ht
  case starting.proceed => exact dequeueTask_writes _ _
  case dispatching.executed => exact settle_writes _ _ _ _
  all_goals first | exact .nothing rfl | exact .set rfl

/-- **A call writes the status of its own workflow only.** -/
theorem turn_writes {call : WorkflowCall} {self : Self} {pc : Pc} {reply : Reply} {t : Turn}
    (ht : turn call self pc reply = some t) : WritesOnly call.workflowId self t := by
  have hcontrol : ∀ {id : String} {first : Turn}, WritesOnly id self first →
      control first self pc reply = some t → WritesOnly id self t := by
    intro id first hfirst hc
    rcases control_cases hc with ⟨_, rfl⟩ | ⟨_, h⟩
    · exact hfirst
    · exact .nothing h
  cases call with
  | submit request taskId => exact submit_writes ht
  | cancel id =>
    refine hcontrol ?_ ht
    unfold cancel
    split
    · exact .set rfl
    · exact .nothing rfl
  | pause id =>
    refine hcontrol ?_ ht
    unfold pause
    split
    · exact .set rfl
    · exact .nothing rfl
  | resume id =>
    refine hcontrol ?_ ht
    unfold resume
    split
    · exact .nothing rfl
    · split
      · exact .set rfl
      · exact .nothing rfl

/-! ## A cancelled workflow -/

/-- **What does not undo a cancel**: any turn but one of a submit that is still going and the
first of a pause. -/
theorem turn_keeps_cancelled {call : WorkflowCall} {self : Self} {pc : Pc} {reply : Reply}
    {t : Turn} {w : String} (ht : turn call self pc reply = some t)
    (hc : self.statuses.get? w = some .CANCELLED)
    (hsubmit : ∀ request taskId, call = .submit request taskId → request.workflowId = w →
      pc.isSettled = true)
    (hpause : call = .pause w → pc ≠ .idle) : t.shared.statuses.get? w = some .CANCELLED := by
  by_cases hw : call.workflowId = w
  case neg => rw [turn_writes ht w hw, hc]
  cases call with
  | submit request taskId => rw [(submit_settled (hsubmit _ _ rfl hw) ht).1, hc]
  | cancel id =>
    obtain rfl : id = w := hw
    rcases control_cases ht with ⟨_, rfl⟩ | ⟨_, h⟩
    · unfold cancel
      split
      · exact Dict.get?_set_self ..
      · exact hc
    · rw [h, hc]
  | pause id =>
    obtain rfl : id = w := hw
    rcases control_cases ht with ⟨hidle, _⟩ | ⟨_, h⟩
    · exact absurd hidle (hpause rfl)
    · rw [h, hc]
  | resume id =>
    obtain rfl : id = w := hw
    rcases control_cases ht with ⟨_, rfl⟩ | ⟨_, h⟩
    · unfold resume
      rw [hc]
      exact hc
    · rw [h, hc]

/-! ## Whole runs -/

/-- A step that undoes no cancel of `w`: a cancel writes only once the submit `i` has made its last
write, and a pause writes only while no cancel was accepted. -/
def Late (calls : Nat → WorkflowCall) (i : Nat) (w : String) (s : State) (l : Nat × Reply) : Prop :=
  s.pcs l.1 = .idle → s.shared.statuses.contains w = true →
    (calls l.1 = .cancel w → (s.pcs i).isSettled = true) ∧
    (calls l.1 = .pause w → ∀ j, calls j = .cancel w → (s.pcs j).isAccepted = false)

def Cancelled (calls : Nat → WorkflowCall) (i : Nat) (w : String) (s : State) : Prop :=
  ∀ j, calls j = .cancel w → (s.pcs j).isAccepted = true →
    (s.pcs i).isSettled = true ∧ s.shared.statuses.get? w = some .CANCELLED

section Runs

variable {calls : Nat → WorkflowCall} {i : Nat} {w : String}

theorem settled_step
    (hone : ∀ k request taskId, calls k = .submit request taskId → request.workflowId = w → k = i)
    {s : State} {k : Nat} {reply : Reply} {t : Turn} {request : WorkflowRequest} {taskId : String}
    (hi : calls i = .submit request taskId) (hsettled : (s.pcs i).isSettled = true)
    (hstatus : s.shared.statuses.get? w = some .CANCELLED) {j : Nat} (hj : calls j = .cancel w)
    (hacc : (s.pcs j).isAccepted = true) (hlate : Late calls i w s (k, reply))
    (ht : turn (calls k) s.shared (s.pcs k) reply = some t) :
    ((s.take k t).pcs i).isSettled = true ∧ (s.take k t).logOf i = s.logOf i ∧
      (s.take k t).shared.statuses.get? w = some .CANCELLED := by
  have hkept : t.shared.statuses.get? w = some .CANCELLED := by
    apply turn_keeps_cancelled ht hstatus
    · intro request taskId hk hw
      exact hone k request taskId hk hw ▸ hsettled
    · intro hk hidle
      have hno := (hlate hidle (Dict.contains_iff.mpr ⟨_, hstatus⟩)).2 hk j hj
      rw [hacc] at hno
      exact absurd hno (by simp)
  by_cases hk : k = i
  · subst hk
    rw [hi] at ht
    obtain ⟨_, hpc, hactions⟩ := submit_settled hsettled ht
    refine ⟨?_, ?_, hkept⟩
    · rw [Tasks.take_pcs_self]; exact hpc
    · rw [Tasks.take_logOf_self, hactions, List.append_nil]
  · refine ⟨?_, Tasks.take_logOf_ne hk t, hkept⟩
    rw [Tasks.take_pcs_ne (Ne.symm hk)]; exact hsettled

/-- **One late step keeps the invariant.** -/
theorem Cancelled.step
    (hone : ∀ k request taskId, calls k = .submit request taskId → request.workflowId = w → k = i)
    {request : WorkflowRequest} {taskId : String} (hi : calls i = .submit request taskId)
    {s s' : State} {l : Nat × Reply} (h : Cancelled calls i w s) (hlate : Late calls i w s l)
    (hstep : (serving calls).step s l = some s') : Cancelled calls i w s' := by
  obtain ⟨k, reply⟩ := l
  obtain ⟨t, ht, rfl⟩ := Tasks.step_some hstep
  intro j hj hacc
  by_cases hbefore : (s.pcs j).isAccepted = true
  · obtain ⟨hsettled, hstatus⟩ := h j hj hbefore
    have hs := settled_step hone hi hsettled hstatus hj hbefore hlate ht
    exact ⟨hs.1, hs.2.2⟩
  -- the cancel was accepted in this very step
  have hjk : j = k := by
    by_contra hne
    rw [Tasks.take_pcs_ne hne] at hacc
    exact hbefore hacc
  subst hjk
  have hij : i ≠ j := by
    rintro rfl
    rw [hi] at hj
    exact absurd hj (by simp)
  rw [Tasks.take_pcs_self] at hacc
  rw [hj] at ht
  rcases control_cases ht with ⟨hidle, rfl⟩ | ⟨hpc, _⟩
  · unfold cancel at hacc ⊢
    split at hacc
    · next hknown =>
      rw [Tasks.take_pcs_ne hij, if_pos hknown]
      exact ⟨(hlate hidle hknown).1 hj, Dict.get?_set_self ..⟩
    · exact absurd hacc (by simp [Pc.isAccepted])
  · rw [hpc] at hbefore
    exact absurd rfl hbefore

structure CancelKept (i : Nat) (w : String) (s t : State) : Prop where
  status : t.shared.statuses.get? w = some .CANCELLED
  quiet : ∃ new, t.logOf i = s.logOf i ++ new ∧ ∀ a ∈ new, a.isProgress = false

/-- **Late cancels are kept**: once one has returned, the submit dispatches nothing and completes
nothing any more, and the status stays `CANCELLED`. A cancel is late when the submit is past its own
writes of the status. A pause that came after it would take its place, and is ruled out with it. -/
theorem cancel_kept {request : WorkflowRequest} {taskId : String}
    (hi : calls i = .submit request taskId)
    (hone : ∀ k request taskId, calls k = .submit request taskId → request.workflowId = w → k = i)
    {ls ms : List (Nat × Reply)} {s t : State}
    (hm : (serving calls).Meets (Late calls i w) initial (ls ++ ms))
    (hs : (serving calls).exec initial ls = some s) (ht : (serving calls).exec s ms = some t)
    {j : Nat} (hj : calls j = .cancel w) {r : Option WorkflowResult}
    (hr : s.pcs j = .returned r) : CancelKept i w s t := by
  obtain ⟨hm₁, hm₂⟩ := System.meets_append hm hs
  have hinit : Cancelled calls i w initial := by
    intro _ _ h
    exact absurd h (by simp [initial, Pc.isAccepted])
  have hcancelled : Cancelled calls i w s :=
    System.exec_induct (fun _ _ _ h hl hst => h.step hone hi hl hst) hinit hm₁ hs
  obtain ⟨hsettled, hstatus⟩ := hcancelled j hj (by rw [hr]; rfl)
  have hrun : t.pcs j = .returned r ∧ (t.pcs i).isSettled = true ∧ t.logOf i = s.logOf i ∧
      t.shared.statuses.get? w = some .CANCELLED := by
    refine Tasks.exec_turns (P := fun u => u.pcs j = .returned r ∧
      (u.pcs i).isSettled = true ∧ u.logOf i = s.logOf i ∧
      u.shared.statuses.get? w = some .CANCELLED) ?_ ⟨hr, hsettled, rfl, hstatus⟩ hm₂ ht
    intro u k reply tn hu hlate htn
    obtain ⟨hur, hus, hul, huc⟩ := hu
    obtain ⟨h₁, h₂, h₃⟩ := settled_step hone hi hus huc hj (by rw [hur]; rfl) hlate htn
    refine ⟨?_, h₁, h₂.trans hul, h₃⟩
    by_cases hk : j = k
    · subst hk
      rw [hj, hur] at htn
      cases reply <;> simp [turn, control] at htn
    · rw [Tasks.take_pcs_ne hk, hur]
  exact ⟨hrun.2.2.2, [], by rw [hrun.2.2.1, List.append_nil], by simp⟩

end Runs

/-! ## A cancel too early -/

def cancelling : Nat → WorkflowCall
  | 0 => .submit { workflowId := "w", targetCapability := "ping" } "task-w"
  | 1 => .cancel "w"
  | _ => .resume "w"

def pong : ExecutionOutcome where
  commandId := "task-w"
  capabilityId := "ping"
  status := .SUCCEEDED

def cancelAfter : List (Nat × Reply) :=
  [(0, .proceed), (0, .proceed), (0, .proceed), (0, .proceed), (0, .executed (.ok pong)),
    (0, .proceed), (0, .proceed), (1, .proceed), (1, .proceed)]

def cancelDuring : List (Nat × Reply) := [(0, .proceed), (1, .proceed), (1, .proceed)]

def afterCancelling (ls : List (Nat × Reply)) : State :=
  ((serving cancelling).exec initial ls).getD initial

theorem cancelling_one (k : Nat) (request : WorkflowRequest) (taskId : String)
    (h : cancelling k = .submit request taskId) (_ : request.workflowId = "w") : k = 0 := by
  match k with
  | 0 => rfl
  | 1 => exact absurd h (by simp [cancelling])
  | k + 2 => exact absurd h (by simp [cancelling])

theorem late_of {s : State} {l : Nat × Reply}
    (h : (s.pcs 0).isSettled = true ∨ l.1 ≠ 1) : Late cancelling 0 "w" s l := by
  intro _ _
  constructor
  · intro hc
    apply h.resolve_right
    intro hne
    match l, hne with
    | (0, _), _ => exact absurd hc (by simp [cancelling])
    | (k + 2, _), _ => exact absurd hc (by simp [cancelling])
  · intro hp
    match l with
    | (0, _) => exact absurd hp (by simp [cancelling])
    | (1, _) => exact absurd hp (by simp [cancelling])
    | (k + 2, _) => exact absurd hp (by simp [cancelling])

theorem cancelAfter_late :
    (serving cancelling).Meets (Late cancelling 0 "w") initial
      (cancelAfter ++ [(2, .proceed)]) := by
  have hother : ∀ {s : State} {reply : Reply}, Late cancelling 0 "w" s (0, reply) :=
    late_of (Or.inr (by simp))
  refine System.meets_cons hother rfl (System.meets_cons hother rfl ?_)
  refine System.meets_cons hother rfl (System.meets_cons hother rfl ?_)
  refine System.meets_cons hother rfl (System.meets_cons hother rfl ?_)
  refine System.meets_cons hother rfl (System.meets_cons (late_of (Or.inl rfl)) rfl ?_)
  refine System.meets_cons (late_of (Or.inl rfl)) rfl ?_
  exact System.meets_cons (late_of (Or.inl rfl)) rfl trivial

theorem cancel_kept_cancelAfter :
    CancelKept 0 "w" (afterCancelling cancelAfter)
      (afterCancelling (cancelAfter ++ [(2, .proceed)])) :=
  cancel_kept (show cancelling 0 = .submit _ _ from rfl) cancelling_one cancelAfter_late rfl rfl
    (show cancelling 1 = .cancel "w" from rfl) (show _ = Pc.returned none from rfl)

theorem cancelDuring_lost :
    let s := afterCancelling cancelDuring
    let t := afterCancelling (cancelDuring ++ [(0, .proceed), (0, .proceed), (0, .proceed)])
    s.pcs 1 = .returned none ∧ s.shared.statuses.get? "w" = some .CANCELLED ∧
      (s.logOf 0).any Action.isProgress = false ∧ (t.logOf 0).any Action.isProgress = true ∧
      t.shared.statuses.get? "w" = some .RUNNING ∧ ¬ CancelKept 0 "w" s t := by
  intro s t
  have ht : t.shared.statuses.get? "w" = some .RUNNING := rfl
  refine ⟨rfl, rfl, rfl, rfl, ht, ?_⟩
  intro h
  rw [h.status] at ht
  exact absurd ht (by decide)

end WorkflowManagerImpl

end IraOS
