import Mathlib.Data.List.Basic

/-!
# UTF-16

Characters as code units, one below `0x10000` and a surrogate pair from there on, and back. A
surrogate that is not half of a pair is no character.

It is here because escapes in JSON are code units and not characters: a character beyond the first
plane is written as two escapes, and a reader has to put them together again. What is encoded is
decoded as it was (`decode_encode`). The other way round does not hold, as a sequence of units may
have a surrogate in it that stands alone, and `decode` then gives nothing.
-/

set_option autoImplicit false

namespace Lib.Utf16

/-- The code units of a character. -/
def units (c : Char) : List Nat :=
  if c.toNat < 0x10000 then [c.toNat]
  else [0xD800 + (c.toNat - 0x10000) / 0x400, 0xDC00 + (c.toNat - 0x10000) % 0x400]

def IsHigh (u : Nat) : Prop := 0xD800 ≤ u ∧ u < 0xDC00

def IsLow (u : Nat) : Prop := 0xDC00 ≤ u ∧ u < 0xE000

instance (u : Nat) : Decidable (IsHigh u) := inferInstanceAs (Decidable (_ ∧ _))

instance (u : Nat) : Decidable (IsLow u) := inferInstanceAs (Decidable (_ ∧ _))

def single (u : Nat) : Option Char :=
  if IsHigh u ∨ IsLow u ∨ 0x10000 ≤ u then none else some (Char.ofNat u)

/-- The character of a pair. -/
def pair (hi lo : Nat) : Char := Char.ofNat (0x10000 + (hi - 0xD800) * 0x400 + (lo - 0xDC00))

def decode : List Nat → Option (List Char)
  | [] => some []
  | [u] => (single u).map fun c => [c]
  | u :: v :: us =>
    if IsHigh u ∧ IsLow v then (decode us).map fun cs => pair u v :: cs
    else
      match single u with
      | none => none
      | some c => (decode (v :: us)).map fun cs => c :: cs

theorem toNat_valid (c : Char) :
    c.toNat < 0xD800 ∨ 0xDFFF < c.toNat ∧ c.toNat < 0x110000 := c.valid

theorem units_lt {c : Char} {u : Nat} (h : u ∈ units c) : u < 0x10000 := by
  have hvalid := toNat_valid c
  unfold units at h
  split at h
  · rw [List.mem_singleton.mp h]
    assumption
  · simp only [List.mem_cons, List.not_mem_nil, or_false] at h
    omega

theorem single_toNat {c : Char} (h : c.toNat < 0x10000) : single c.toNat = some c := by
  have hvalid := toNat_valid c
  unfold single IsHigh IsLow
  rw [if_neg (by omega), Char.ofNat_toNat]

theorem pair_units {c : Char} (h : ¬ c.toNat < 0x10000) :
    pair (0xD800 + (c.toNat - 0x10000) / 0x400) (0xDC00 + (c.toNat - 0x10000) % 0x400) = c := by
  unfold pair
  have hsum : 0x10000 + (0xD800 + (c.toNat - 0x10000) / 0x400 - 0xD800) * 0x400 +
      (0xDC00 + (c.toNat - 0x10000) % 0x400 - 0xDC00) = c.toNat := by omega
  rw [hsum, Char.ofNat_toNat]

theorem decode_single {c : Char} (h : c.toNat < 0x10000) (us : List Nat) :
    decode (c.toNat :: us) = (decode us).map fun cs => c :: cs := by
  have hvalid := toNat_valid c
  cases us with
  | nil =>
    show (single c.toNat).map _ = _
    rw [single_toNat h]
    rfl
  | cons v us =>
    have hnot : ¬ IsHigh c.toNat := by
      unfold IsHigh
      omega
    rw [decode, if_neg fun hboth => hnot hboth.1, single_toNat h]

theorem decode_units (c : Char) (us : List Nat) :
    decode (units c ++ us) = (decode us).map fun cs => c :: cs := by
  have hvalid := toNat_valid c
  unfold units
  split
  · next h => exact decode_single h us
  · next h =>
    have hhigh : IsHigh (0xD800 + (c.toNat - 0x10000) / 0x400) := by
      unfold IsHigh
      omega
    have hlow : IsLow (0xDC00 + (c.toNat - 0x10000) % 0x400) := by
      unfold IsLow
      omega
    show decode (_ :: _ :: us) = _
    rw [decode, if_pos ⟨hhigh, hlow⟩, pair_units h]

/-- **What was encoded is decoded.** -/
theorem decode_encode (cs : List Char) : decode (cs.flatMap units) = some cs := by
  induction cs with
  | nil => rfl
  | cons c cs ih =>
    rw [List.flatMap_cons, decode_units, ih]
    rfl

example : decode (units '😀') = some ['😀'] := by decide

end Lib.Utf16
