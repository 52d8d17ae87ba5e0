import IraOS.Core.Capability

/-!
# The kernel's surroundings, and programs that run in them

Everything an execution meets on its way that is not the pipeline's own code is here as data: the
event bus, the confirmation providers, the audit sinks, the security components, the capability
objects, and the other tasks of the event loop. A run of the pipeline reaches each `await` at most
once, so the bus answers by publish statement (`PublishSite`) and the other tasks act by await
(`Await`): a quantifier over `Env` is a quantifier over everything the surroundings can do at every
await of one call, other tasks' interleavings with it included.

## What the bus can do

`EventBus.publish` isolates its subscribers, so it raises only from a middleware, and a middleware
may raise on the way to the subscribers or on the way back from them. The difference matters: in the
second case the event was heard (`Delivery.raisesAfter`), and what the caller does then comes on top
of an announcement that has been made.

## What is in the world, and what is seen

A `World` has the device, the registry and how many uuids have been drawn; a uuid is a function of
that number, so two that are drawn are never the same. A `Kernel` program is observed through
`Entry`s: the events that were delivered and the calls that crossed from one component into another
(what was looked up, asked, executed, rolled back and recorded, with the answers). What is to come
before what is said of the order of these entries.

## What is not here

Time, and the log. No branch of the pipeline depends on either, but for one call of the logger that
raises (`Mutation.Confirmation`), which is part of the program there.
-/

set_option autoImplicit false

namespace IraOS

open Lib

/-! ## What a run passes through -/

inductive PublishSite where
  | executionRequested | executionAuthorized | executionDispatched | executionSucceeded
  | executionDenied | executionFailed
  | permissionRequested | policyEvaluationCompleted | permissionGranted | permissionDenied
  | deny
  | mutationRequested | mutationConfirmed | mutationRejected | mutationStarted
  | mutationCompleted | mutationRolledBack | rollbackFailed | auditRecorded
  deriving DecidableEq, Repr

/-- Who asks the confirmation manager: the mutation manager on behalf of a capability, or the
dispatcher on behalf of security. -/
inductive Asker where
  | mutation | security
  deriving DecidableEq, Repr

/-- The awaits of the pipeline at which another task can run. -/
inductive Await where
  | publish (site : PublishSite)
  | confirmation (asker : Asker)
  | execution
  | rollback
  | sink (i : Nat)
  deriving DecidableEq, Repr

/-- What the bus does with one event. It can raise only from a middleware, on the way to the
subscribers or on the way back from them. -/
inductive Delivery where
  | delivers
  | raisesBefore (exc : Exn)
  | raisesAfter (exc : Exn)

/-- A `ConfirmationProvider`: whether it supports a level, and its answer to a request. Either may
raise. -/
structure ConfirmationProvider where
  supports : ConfirmationLevel → Except Exn Bool
  requestConfirmation : MutationContext → ConfirmationLevel → Except Exn Bool

structure AuditSink where
  record : AuditRecord → Except Exn Unit

/-- The three components `SecurityManager` is built from, as what they answer or raise. -/
structure SecurityComponents where
  validate : PermissionRequest → Except Exn Unit
  evaluate : PermissionRequest → Except Exn PermissionDecision
  authorize : PermissionDecision → Except Exn PermissionResult

structure Env (δ : Type) where
  objects : Objects δ
  bus : PublishSite → Delivery
  others : Await → List RegistryOp
  providers : List ConfirmationProvider
  sinks : List AuditSink
  security : SecurityComponents
  /-- `DefaultExecutionService._mutation_manager` is there. -/
  mutationManager : Bool := true
  /-- `DefaultProtectedDispatcher._confirmation_manager` is there. -/
  confirmationManager : Bool := true

/-! ## What an observer sees -/

/-- Where `DefaultExecutionService.execute` hands a command. -/
inductive Route where
  | mutationManager | protectedDispatcher
  deriving DecidableEq, Repr

inductive Entry where
  | event (e : Event)
  /-- The classifier answered, from the instance it found, if any. -/
  | classified (found : Option CapabilityRef) (type : ExecutionType)
  /-- `execute` handed the command on. -/
  | routed (route : Route)
  /-- `process_mutation` looked the capability up: the instance whose metadata it uses and which
  it rolls back. -/
  | resolved (inst : CapabilityRef)
  /-- `check_permission` returned. -/
  | permission (capabilityId : String) (state : PermissionState)
  /-- `request_confirmation` returned. -/
  | confirmation (asker : Asker) (level : ConfirmationLevel) (answer : Bool)
  /-- The executor called the capability's `execute`. -/
  | executed (inst : CapabilityRef)
  /-- `process_mutation` called the capability's `rollback`. -/
  | rollback (inst : CapabilityRef)
  /-- `AuditManager.record` was called. -/
  | audit (record : AuditRecord)
  /-- The `i`-th registered sink was handed the record. -/
  | sink (i : Nat) (record : AuditRecord)

def Entry.isExecution : Entry → Bool
  | .executed _ => true
  | _ => false

theorem Entry.isExecution_iff {x : Entry} : x.isExecution = true ↔ ∃ inst, x = .executed inst := by
  cases x <;> simp [isExecution]

/-! ## Programs -/

structure World (δ : Type) where
  registry : InMemoryCapabilityRegistry.Capabilities
  device : δ
  /-- How many uuids have been drawn. -/
  uuids : Nat := 0

abbrev Kernel (δ α : Type) : Type := Act (World δ) Exn Entry α

variable {δ α : Type}

/-- `str(uuid.uuid4())`: never the same twice. -/
def uuid4 : Kernel δ String := fun w =>
  ⟨.ok ("uuid-" ++ toString w.uuids), { w with uuids := w.uuids + 1 }, []⟩

/-- What the other tasks did while this one waited at `p`: their calls of the registry. They may do
more, which the pipeline does not see. -/
def World.after (env : Env δ) (p : Await) (w : World δ) : World δ :=
  { w with registry := RegistryOp.applyAll env.objects w.registry (env.others p) }

def await (env : Env δ) (p : Await) : Kernel δ Unit := Act.modify (World.after env p)

/-- `await self._event_bus.publish(e)`, at the publish statement `site`: the event is seen unless
the bus raises on the way to the subscribers, and the other tasks have had their turn. -/
def publish (env : Env δ) (site : PublishSite) (e : Event) : Kernel δ Unit := do
  await env (.publish site)
  match env.bus site with
  | .delivers => Act.emit (.event e)
  | .raisesBefore exc => Act.throw exc
  | .raisesAfter exc => do
      Act.emit (.event e)
      Act.throw exc

def onDevice (m : DeviceAct δ α) : Kernel δ α :=
  Act.zoom World.device (fun d w => { w with device := d }) m

def Env.BusDelivers (env : Env δ) : Prop := ∀ site, env.bus site = .delivers

def Env.Untouched (env : Env δ) (id : String) : Prop :=
  ∀ p, ∀ op ∈ env.others p, op.target env.objects ≠ id

/-! ## Running the primitives -/

@[simp] theorem World.after_device (env : Env δ) (p : Await) (w : World δ) :
    (w.after env p).device = w.device := rfl

theorem World.after_get? {env : Env δ} {id : String} (h : env.Untouched id) (p : Await)
    (w : World δ) : (w.after env p).registry.get? id = w.registry.get? id :=
  RegistryOp.get?_applyAll_ne (h p)

@[simp] theorem run_await (env : Env δ) (p : Await) (w : World δ) :
    await env p w = ⟨.ok (), w.after env p, []⟩ := rfl

@[simp] theorem run_uuid4 (w : World δ) :
    (uuid4 : Kernel δ String) w
      = ⟨.ok ("uuid-" ++ toString w.uuids), { w with uuids := w.uuids + 1 }, []⟩ := rfl

theorem run_publish (env : Env δ) (site : PublishSite) (e : Event) (w : World δ) :
    publish env site e w = match env.bus site with
      | .delivers => ⟨.ok (), w.after env (.publish site), [.event e]⟩
      | .raisesBefore exc => ⟨.error exc, w.after env (.publish site), []⟩
      | .raisesAfter exc => ⟨.error exc, w.after env (.publish site), [.event e]⟩ := by
  unfold publish
  rw [Act.run_bind, run_await]
  cases env.bus site <;> rfl

theorem run_publish_delivers {env : Env δ} {site : PublishSite} (h : env.bus site = .delivers)
    (e : Event) (w : World δ) :
    publish env site e w = ⟨.ok (), w.after env (.publish site), [.event e]⟩ := by
  rw [run_publish, h]

theorem publish_cases (env : Env δ) (site : PublishSite) (e : Event) (w : World δ) :
    (env.bus site = .delivers ∧
      publish env site e w = ⟨.ok (), w.after env (.publish site), [.event e]⟩) ∨
    (env.bus site ≠ .delivers ∧ ∃ exc t, (∀ x ∈ t, x = .event e) ∧
      publish env site e w = ⟨.error exc, w.after env (.publish site), t⟩) := by
  rw [run_publish]
  cases env.bus site with
  | delivers => exact Or.inl ⟨rfl, rfl⟩
  | raisesBefore exc => exact Or.inr ⟨by simp, exc, [], by simp, rfl⟩
  | raisesAfter exc => exact Or.inr ⟨by simp, exc, _, by simp, rfl⟩

@[simp] theorem publish_state (env : Env δ) (site : PublishSite) (e : Event) (w : World δ) :
    (publish env site e w).state = w.after env (.publish site) := by
  rw [run_publish]
  cases env.bus site <;> rfl

theorem publish_trace (env : Env δ) (site : PublishSite) (e : Event) (w : World δ) :
    (publish env site e w).trace = [] ∨ (publish env site e w).trace = [.event e] := by
  rw [run_publish]
  cases env.bus site
  · exact Or.inr rfl
  · exact Or.inl rfl
  · exact Or.inr rfl

theorem publish_ok {env : Env δ} {site : PublishSite} {e : Event} {u : Unit} {w w' : World δ}
    {t : List Entry} (h : publish env site e w = ⟨.ok u, w', t⟩) : t = [.event e] := by
  rw [run_publish] at h
  cases hb : env.bus site with
  | delivers => rw [hb] at h; cases h; rfl
  | raisesBefore exc => rw [hb] at h; exact absurd h (by simp)
  | raisesAfter exc => rw [hb] at h; exact absurd h (by simp)

theorem publish_ok_iff {env : Env δ} {site : PublishSite} {e : Event} {w : World δ} {u : Unit} :
    (publish env site e w).result = .ok u ↔ env.bus site = .delivers := by
  rw [run_publish]
  cases env.bus site <;> simp

theorem publish_emits {p : Entry → Prop} (env : Env δ) (site : PublishSite) {e : Event}
    (h : p (.event e)) : Act.EmitsOnly p (publish env site e) where
  mem w x hx := by
    rcases publish_trace env site e w with ht | ht
    · rw [ht] at hx; exact absurd hx (by simp)
    · rw [ht, List.mem_singleton] at hx; exact hx ▸ h

theorem run_onDevice (m : DeviceAct δ α) (w : World δ) :
    onDevice m w = ⟨(m w.device).result, { w with device := (m w.device).state }, []⟩ := rfl

end IraOS
