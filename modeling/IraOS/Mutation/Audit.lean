import IraOS.Core.Frame

/-!
# AuditManager

`core/mutation/audit.py`: every registered sink is handed every record. A sink that raises stops
nobody; only when all of them have does the call raise.

So there are two statements to make of it, and they are kept apart. **Every sink gets the record**
(`record_run`), whatever the others do: that is an equation for the trace, with one entry for each
sink in the order of their registration. And the call raises an `AuditError` exactly if there are
sinks and every one of them raised; with no sink registered it returns, and nothing is recorded.

The manager above it catches what is raised here and logs it (`DefaultMutationManager.persist`), so
none of this gets to whoever asked for the mutation.

A sink is awaited, so other tasks may act at each one; what they do to the registry is in the world,
and the records do not depend on it.
-/

set_option autoImplicit false

namespace IraOS

open Lib

variable {δ : Type}

namespace AuditManager

def recordFrom (env : Env δ) (record : AuditRecord) : Nat → List AuditSink → Kernel δ Nat
  | _, [] => pure 0
  | i, sink :: rest => do
    Act.emit (.sink i record)
    await env (.sink i)
    let failures ← recordFrom env record (i + 1) rest
    match sink.record record with
    | .ok () => pure failures
    | .error _ => pure (failures + 1)

def record (env : Env δ) (record : AuditRecord) : Kernel δ Unit := do
  Act.emit (.audit record)
  if env.sinks.isEmpty then pure ()
  else do
    let failures ← recordFrom env record 0 env.sinks
    if failures = env.sinks.length then
      Act.throw ⟨.auditError, lit ("All " ++ toString failures ++
        " AuditSinks failed to record audit_id: " ++ record.auditId)⟩

def afterSinks (env : Env δ) : Nat → List AuditSink → World δ → World δ
  | _, [], w => w
  | i, _ :: rest, w => afterSinks env (i + 1) rest (w.after env (.sink i))

def sinkEntries (record : AuditRecord) : Nat → List AuditSink → List Entry
  | _, [] => []
  | i, _ :: rest => .sink i record :: sinkEntries record (i + 1) rest

/-- Whatever the sinks do, each of them is handed the record once, and nothing is raised on the
way. -/
theorem recordFrom_run (env : Env δ) (record : AuditRecord) (i : Nat) (sinks : List AuditSink)
    (w : World δ) :
    ∃ failures, recordFrom env record i sinks w
      = ⟨.ok failures, afterSinks env i sinks w, sinkEntries record i sinks⟩ := by
  induction sinks generalizing i w with
  | nil => exact ⟨0, rfl⟩
  | cons sink rest ih =>
    obtain ⟨failures, ih⟩ := ih (i + 1) (w.after env (.sink i))
    cases hs : sink.record record with
    | ok u =>
      exact ⟨failures, by simp [recordFrom, Act.run_bind, ih, hs, afterSinks, sinkEntries]⟩
    | error exc =>
      exact ⟨failures + 1, by simp [recordFrom, Act.run_bind, ih, hs, afterSinks, sinkEntries]⟩

/-- **Every sink gets the record.** The call raises, if at all, only once they all have it. -/
theorem record_run (env : Env δ) (rec : AuditRecord) (w : World δ) :
    ∃ result, record env rec w
      = ⟨result, afterSinks env 0 env.sinks w, .audit rec :: sinkEntries rec 0 env.sinks⟩ := by
  unfold record
  cases hs : env.sinks with
  | nil => exact ⟨.ok (), by simp [Act.run_bind, afterSinks, sinkEntries]⟩
  | cons sink rest =>
    obtain ⟨failures, hr⟩ := recordFrom_run env rec 0 (sink :: rest) w
    by_cases hf : failures = rest.length + 1
    · exact ⟨.error _, by simp [Act.run_bind, hr, hf]; rfl⟩
    · exact ⟨.ok (), by simp [Act.run_bind, hr, hf]⟩

theorem afterSinks_moves {env : Env δ} {S : Await → Prop} {R : World δ → World δ → Prop}
    (h : Stable env S R) (hs : ∀ i, S (.sink i)) (i : Nat) (sinks : List AuditSink)
    (w : World δ) : R w (afterSinks env i sinks w) := by
  induction sinks generalizing i w with
  | nil => exact h.refl w
  | cons sink rest ih => exact h.trans _ _ _ (h.after _ (hs i) w) (ih (i + 1) _)

theorem mem_sinkEntries {rec : AuditRecord} {x : Entry} {i : Nat} {sinks : List AuditSink}
    (h : x ∈ sinkEntries rec i sinks) : ∃ j, x = .sink j rec := by
  induction sinks generalizing i with
  | nil => exact absurd h (by simp [sinkEntries])
  | cons sink rest ih =>
    rcases List.mem_cons.mp h with h | h
    · exact ⟨i, h⟩
    · exact ih h

end AuditManager

end IraOS
