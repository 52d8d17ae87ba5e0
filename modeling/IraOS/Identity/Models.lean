import IraOS.Core.Value

/-!
# Identities and sessions

`core/identity/models.py`, `core/identity/session.py` and `core/identity/roles.py`. A `datetime` is
a number of microseconds, in UTC.

A session has expired when its `expires_at` has been reached, and there is no session without one.
Nothing but the clock enters into it: a session that was logged out is as good as it was for whoever
still has the object (`Identity.Revocation`).
-/

set_option autoImplicit false

namespace IraOS

open Lib

inductive Role where
  | OWNER | ADMIN | ASSISTANT | GUEST | AUTOMATION | DEVELOPER
  deriving DecidableEq, Repr

structure Identity where
  id : String
  username : String
  displayName : String
  email : Option String := none
  roles : List Role := []
  metadata : PyDict := Dict.empty
  createdAt : Int
  updatedAt : Int
  active : Bool := true

structure Session where
  sessionId : String
  identityId : String
  deviceId : Option String
  startedAt : Int
  expiresAt : Option Int
  authenticated : Bool
  metadata : PyDict := Dict.empty

def Session.isExpired (s : Session) (now : Int) : Bool :=
  match s.expiresAt with
  | none => false
  | some expiresAt => decide (expiresAt ≤ now)

inductive IdentityEvent where
  | identityAuthenticated (identityId sessionId : String)
  | identityLoggedOut (identityId sessionId : String)

theorem Session.isExpired_mono {s : Session} {now later : Int} (hle : now ≤ later)
    (h : s.isExpired now = true) : s.isExpired later = true := by
  unfold Session.isExpired at h ⊢
  cases he : s.expiresAt with
  | none => rw [he] at h; exact h
  | some expiresAt =>
    rw [he] at h
    simp only [decide_eq_true_eq] at h ⊢
    omega

end IraOS
