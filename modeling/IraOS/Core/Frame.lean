import IraOS.Core.Kernel
import Mathlib.Logic.Relation

/-!
# Frames: what a component can touch

Between two steps of its own a component does three things to the world: it waits, it draws a uuid,
and — the executor and a rollback only — it works on the device. `Stable env S R` says that waiting
at the awaits in `S` and drawing uuids goes along `R`; each component then has one lemma saying that
it moves along every such `R`, and a result picks the `R` it needs: the device stands still, the
registry keeps what it has under one id, or it goes nowhere but where the awaits passed take it
(`Env.Passes`).

So a component's frame is stated once, and "it touches no device" and "it leaves the binding of an
id alone" are two instances of the same lemma. Which awaits a component can pass is part of its
lemma: the confirmation is passed by the mutation manager and by the dispatcher, and only the
executor waits at an execution.

## Two ways to ask others to keep off

`Env.Untouched` asks that no other task makes any call about an id. `Env.NeverRebinds` asks for
less, and is about states instead of calls: through whatever awaits, the id comes to stand for no
*other* instance. Registering something else, failing to register under the id, or taking the id out
of the registry is all allowed. The first is what a result needs that says the lookups find one
instance; the second is enough where a lookup that finds nothing ends the run.
-/

set_option autoImplicit false

namespace IraOS

open Lib

variable {δ α β : Type}

/-- Waiting at `S` and drawing uuids takes the world along `R`. -/
structure Stable (env : Env δ) (S : Await → Prop) (R : World δ → World δ → Prop) : Prop where
  refl : ∀ w, R w w
  trans : ∀ a b c, R a b → R b c → R a c
  after : ∀ p, S p → ∀ w, R w (w.after env p)
  uuids : ∀ w, R w { w with uuids := w.uuids + 1 }

/-- `w` and `w'` hold the same device state. -/
def SameDevice (w w' : World δ) : Prop := w'.device = w.device

def SameBinding (id : String) (w w' : World δ) : Prop :=
  w'.registry.get? id = w.registry.get? id

/-- What the registry may have become when some of the awaits in `S` have been passed, in whatever
order they come: at each of them the other tasks make their calls, and a call that raises changes
nothing. -/
def Env.Passes (env : Env δ) (S : Await → Prop) :
    InMemoryCapabilityRegistry.Capabilities → InMemoryCapabilityRegistry.Capabilities → Prop :=
  Relation.ReflTransGen fun caps caps' =>
    ∃ p, S p ∧ caps' = RegistryOp.applyAll env.objects caps (env.others p)

/-- However the awaits in `S` are passed, `id` comes to stand for no other instance than `bound`. It
may come to stand for none, and a `register` of another instance that raises, because the id is
taken, is no harm. -/
def Env.NeverRebinds (env : Env δ) (S : Await → Prop) (id : String)
    (bound : Option CapabilityRef) (caps : InMemoryCapabilityRegistry.Capabilities) : Prop :=
  ∀ caps', env.Passes S caps caps' → ∀ inst, caps'.get? id = some inst → bound = some inst

namespace Env.NeverRebinds

variable {env : Env δ} {S : Await → Prop} {id : String} {bound : Option CapabilityRef}
  {caps caps' : InMemoryCapabilityRegistry.Capabilities} {inst : CapabilityRef}

theorem get? (h : env.NeverRebinds S id bound caps) (hi : caps.get? id = some inst) :
    bound = some inst :=
  h caps .refl inst hi

theorem passes (h : env.NeverRebinds S id bound caps) (hp : env.Passes S caps caps') :
    env.NeverRebinds S id bound caps' :=
  fun caps'' hp' => h caps'' (hp.trans hp')

theorem of_bound (hbound : caps.get? id = some inst)
    (hkept : ∀ p, S p → .unregister id ∉ env.others p) :
    env.NeverRebinds S id (some inst) caps := by
  have hpassed : ∀ caps', env.Passes S caps caps' → caps'.get? id = some inst := by
    intro caps' hp
    induction hp with
    | refl => exact hbound
    | tail _ hstep ih =>
      obtain ⟨p, hp, rfl⟩ := hstep
      exact RegistryOp.get?_applyAll_bound ih (hkept p hp)
  intro caps' hp inst' hi
  exact (hpassed caps' hp).symm.trans hi

end Env.NeverRebinds

namespace Stable

variable {env : Env δ} {S : Await → Prop} {R R' : World δ → World δ → Prop}

theorem sameDevice : Stable env S SameDevice where
  refl _ := rfl
  trans _ _ _ h h' := Eq.trans h' h
  after _ _ _ := rfl
  uuids _ := rfl

theorem sameBinding {id : String} (h : env.Untouched id) : Stable env S (SameBinding id) where
  refl _ := rfl
  trans _ _ _ h h' := Eq.trans h' h
  after p _ w := World.after_get? h p w
  uuids _ := rfl

theorem passes {S' : Await → Prop} (hs : ∀ p, S p → S' p) :
    Stable env S fun w w' => env.Passes S' w.registry w'.registry where
  refl _ := .refl
  trans _ _ _ h h' := h.trans h'
  after p hp _ := .single ⟨p, hs p hp, rfl⟩
  uuids _ := .refl

theorem mono {S' : Await → Prop} (h : Stable env S R) (hs : ∀ p, S' p → S p) :
    Stable env S' R where
  refl := h.refl
  trans := h.trans
  after p hp := h.after p (hs p hp)
  uuids := h.uuids

theorem and (h : Stable env S R) (h' : Stable env S R') :
    Stable env S fun w w' => R w w' ∧ R' w w' where
  refl w := ⟨h.refl w, h'.refl w⟩
  trans a b c hab hbc := ⟨h.trans a b c hab.1 hbc.1, h'.trans a b c hab.2 hbc.2⟩
  after p hp w := ⟨h.after p hp w, h'.after p hp w⟩
  uuids w := ⟨h.uuids w, h'.uuids w⟩

/-! ## The primitives -/

theorem pure (h : Stable env S R) (a : α) : Act.Moves R (pure a : Kernel δ α) := ⟨h.refl⟩

theorem throw (h : Stable env S R) (exc : Exn) : Act.Moves R (Act.throw exc : Kernel δ α) :=
  ⟨h.refl⟩

theorem ofExcept (h : Stable env S R) (x : Except Exn α) :
    Act.Moves R (Act.ofExcept x : Kernel δ α) := ⟨h.refl⟩

theorem emit (h : Stable env S R) (x : Entry) : Act.Moves R (Act.emit x : Kernel δ Unit) :=
  ⟨h.refl⟩

theorem uuid4 (h : Stable env S R) : Act.Moves R (uuid4 : Kernel δ String) := ⟨h.uuids⟩

theorem bind (h : Stable env S R) {m : Kernel δ α} {f : α → Kernel δ β} (hm : Act.Moves R m)
    (hf : ∀ a, Act.Moves R (f a)) : Act.Moves R (m >>= f) := Act.Moves.bind h.trans hm hf

theorem publish (h : Stable env S R) {site : PublishSite} (hs : S (.publish site)) (e : Event) :
    Act.Moves R (publish env site e) where
  state w := by
    rw [publish_state]
    exact h.after _ hs w

end Stable

end IraOS
