import IraOS.Identity.Models

/-!
# The identity registry

`core/identity/registry.py`. The two dictionaries are one relation seen from two sides (`Filed`),
and the registry carries that as a field: every operation has to keep it, so **no history of them
leaves a username that resolves to somebody else**, or an entry under another entry's id.

An identity is filed under its id and under its username. A new version of it may come under another
username, if nobody has that; the old username is given up then, and the three lemmas about `Filed`
(a new entry, a new version, a new version under a new name) are the three writes there are. An
operation that raises returns no registry, so there is nothing it could have left half done. Whether
the code does leave nothing half done is looked at in `Identity.Maps`.
-/

set_option autoImplicit false

namespace IraOS

open Lib

/-! ## Two indices of one set -/

/-- `byUsername` is `byId` read by username. So a username belongs to one identity, an identity is
found under its own id and its own username, and there is nothing else in either. -/
structure Filed (byId byUsername : Dict String Identity) : Prop where
  own : ∀ k i, byId.get? k = some i → i.id = k
  sync : ∀ u i, byUsername.get? u = some i ↔ byId.get? i.id = some i ∧ i.username = u

namespace Filed

variable {byId byUsername : Dict String Identity}

theorem empty : Filed Dict.empty Dict.empty := ⟨by simp, by simp⟩

theorem name_of (h : Filed byId byUsername) {i : Identity} (hi : byId.get? i.id = some i) :
    byUsername.get? i.username = some i := (h.sync i.username i).mpr ⟨hi, rfl⟩

theorem own_set (h : Filed byId byUsername) (new : Identity) (k : String) (i : Identity)
    (hi : (byId.set new.id new).get? k = some i) : i.id = k := by
  rw [Dict.get?_set] at hi
  split at hi
  · next hk => cases hi; exact hk.symm
  · exact h.own k i hi

theorem register (h : Filed byId byUsername) {new : Identity}
    (hid : byId.get? new.id = none) (hname : byUsername.get? new.username = none) :
    Filed (byId.set new.id new) (byUsername.set new.username new) where
  own := h.own_set new
  sync u i := by
    rw [Dict.get?_set, Dict.get?_set]
    by_cases hu : u = new.username
    · rw [if_pos hu]
      constructor
      · intro hi
        cases hi
        exact ⟨if_pos rfl, hu.symm⟩
      · rintro ⟨hi, hiu⟩
        split at hi
        · exact hi
        · have hold := h.name_of hi
          rw [hiu, hu, hname] at hold
          cases hold
    · rw [if_neg hu, h.sync]
      by_cases hi : i.id = new.id
      · rw [if_pos hi, hi, hid]
        constructor
        · intro hq
          cases hq.1
        · intro hq
          cases hq.1
          exact absurd hq.2.symm hu
      · rw [if_neg hi]

theorem remove (h : Filed byId byUsername) {old : Identity}
    (hold : byId.get? old.id = some old) :
    Filed (byId.erase old.id) (byUsername.erase old.username) where
  own k i hi := by
    rw [Dict.get?_erase] at hi
    split at hi
    · cases hi
    · exact h.own k i hi
  sync u i := by
    rw [Dict.get?_erase, Dict.get?_erase]
    by_cases hi : i.id = old.id
    · rw [if_pos hi]
      constructor
      · intro hq
        split at hq
        · cases hq
        · next hu =>
          obtain ⟨hq, hiu⟩ := (h.sync u i).mp hq
          rw [hi, hold, Option.some.injEq] at hq
          exact absurd (hiu.symm.trans (congrArg Identity.username hq.symm)) hu
      · intro hq
        cases hq.1
    · rw [if_neg hi, ← h.sync]
      by_cases hu : u = old.username
      · rw [if_pos hu, hu, h.name_of hold]
        constructor
        · intro hq
          cases hq
        · intro hq
          rw [Option.some.injEq] at hq
          exact absurd (congrArg Identity.id hq.symm) hi
      · rw [if_neg hu]

theorem congr (h : Filed byId byUsername) {byId' byUsername' : Dict String Identity}
    (hid : ∀ k, byId'.get? k = byId.get? k)
    (hname : ∀ u, byUsername'.get? u = byUsername.get? u) : Filed byId' byUsername' where
  own k i hi := h.own k i (hid k ▸ hi)
  sync u i := by rw [hid, hname]; exact h.sync u i

theorem rename (h : Filed byId byUsername) {old new : Identity}
    (hold : byId.get? new.id = some old)
    (hname : old.username = new.username ∨ byUsername.get? new.username = none) :
    Filed (byId.set new.id new) ((byUsername.erase old.username).set new.username new) := by
  have hid : old.id = new.id := h.own _ _ hold
  have hfree : (byUsername.erase old.username).get? new.username = none := by
    rw [Dict.get?_erase]
    rcases hname with hname | hname
    · rw [if_pos hname.symm]
    · rw [hname, ite_self]
  have hgone : (byId.erase old.id).get? new.id = none := by rw [hid, Dict.get?_erase_self]
  refine ((h.remove (hid ▸ hold)).register hgone hfree).congr ?_ ?_
  · intro k
    rw [Dict.get?_set, Dict.get?_set, Dict.get?_erase, hid]
    split <;> rfl
  · intro u
    rfl

theorem update (h : Filed byId byUsername) {old new : Identity}
    (hold : byId.get? new.id = some old) (hname : old.username = new.username) :
    Filed (byId.set new.id new) (byUsername.set new.username new) := by
  refine (h.rename hold (Or.inl hname)).congr (fun _ => rfl) ?_
  intro u
  rw [Dict.get?_set, Dict.get?_set, Dict.get?_erase, hname]
  split <;> rfl

end Filed

/-! ## The registry -/

structure IdentityRegistry where
  byId : Dict String Identity
  byUsername : Dict String Identity
  filed : Filed byId byUsername

namespace IdentityRegistry

def empty : IdentityRegistry := ⟨Dict.empty, Dict.empty, Filed.empty⟩

variable (r : IdentityRegistry)

def get (identityId : String) : Option Identity := r.byId.get? identityId

def getByUsername (username : String) : Option Identity := r.byUsername.get? username

def «exists» (identityId : String) : Bool := r.byId.contains identityId

def register (identity : Identity) : Except Exn IdentityRegistry :=
  match hid : r.byId.get? identity.id with
  | some _ => .error ⟨.identityRegistrationError,
      lit ("Identity with ID '" ++ identity.id ++ "' already exists.")⟩
  | none =>
    match hname : r.byUsername.get? identity.username with
    | some _ => .error ⟨.identityRegistrationError,
        lit ("Identity with username '" ++ identity.username ++ "' already exists.")⟩
    | none => .ok
        { byId := r.byId.set identity.id identity
          byUsername := r.byUsername.set identity.username identity
          filed := r.filed.register hid hname }

def remove (identityId : String) : IdentityRegistry :=
  match hold : r.byId.get? identityId with
  | none => r
  | some old =>
    have hid : old.id = identityId := r.filed.own _ _ hold
    { byId := r.byId.erase identityId
      byUsername := r.byUsername.erase old.username
      filed := hid ▸ r.filed.remove (hid.symm ▸ hold) }

def replace (identity : Identity) : Except Exn IdentityRegistry :=
  match hold : r.byId.get? identity.id with
  | none => .error ⟨.identityRegistrationError,
      lit ("Identity with ID '" ++ identity.id ++ "' does not exist to replace.")⟩
  | some existing =>
    if hname : existing.username = identity.username then
      .ok
        { byId := r.byId.set identity.id identity
          byUsername := r.byUsername.set identity.username identity
          filed := r.filed.update hold hname }
    else
      match htaken : r.byUsername.get? identity.username with
      | some _ => .error ⟨.identityRegistrationError,
          lit ("Username '" ++ identity.username ++ "' is already taken.")⟩
      | none => .ok
          { byId := r.byId.set identity.id identity
            byUsername :=
              (r.byUsername.erase existing.username).set identity.username identity
            filed := r.filed.rename hold (Or.inr htaken) }

def clear : IdentityRegistry := empty

/-! ## Histories -/

inductive Op where
  | register (identity : Identity)
  | replace (identity : Identity)
  | remove (identityId : String)
  | clear

def apply : Op → IdentityRegistry
  | .register identity => (r.register identity).toOption.getD r
  | .replace identity => (r.replace identity).toOption.getD r
  | .remove identityId => r.remove identityId
  | .clear => clear

/-- The registry after a history of operations. -/
def after (history : List Op) : IdentityRegistry := history.foldl apply empty

end IdentityRegistry

end IraOS
