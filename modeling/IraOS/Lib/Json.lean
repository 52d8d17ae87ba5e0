import IraOS.Lib.Utf16
import Mathlib.Data.List.TakeWhile

/-!
# JSON, in printable ASCII

Values are printed on one line, with a space after every comma and colon and nothing but the
characters from space to tilde: whatever a string holds beyond those is escaped by its UTF-16 code
units. **What was printed reads back as it was** (`read_print`), and a printed value holds no line
break (`allPrintable_print`), so values can be kept one a line (`readLines_printLines`).

## What a value is

Objects are lists of members, in the order in which they are printed, and may repeat a key: what a
reader makes of a repeated key is not a matter of the text. An integer is an integer of any size. A
number that is no integer is kept as it was spelled, for what it comes to is a matter of who reads
it.

## The reader

The reader takes every JSON text and some that are none: it is not particular about how a number is
spelled. That does no harm to the round trip, which is about printed texts only, and it keeps the
grammar of numbers out of the proof.

It goes by depth, which the length of the text bounds, so it is structurally recursive and can be
evaluated.

## The proof

`ReadsBack n` is the round trip for everything that is printed in at most `n` characters, with
whatever may come after it: values, members, items and strings together. It goes by induction on `n`
and by cases on what is printed. What comes after matters because a number ends only where something
that is no part of one comes (`Ends`).
-/

set_option autoImplicit false

namespace Lib

namespace Json

/-! ## Words -/

def isWordChar (c : Char) : Bool := c.isAlphanum || c == '+' || c == '-' || c == '.'

def isDigits (w : List Char) : Bool := !w.isEmpty && w.all Char.isDigit

def isInt : List Char → Bool
  | '-' :: ds => isDigits ds
  | ds => isDigits ds

def intOf : List Char → Int
  | '-' :: ds => -(Nat.ofDigitChars 10 ds 0 : Int)
  | ds => (Nat.ofDigitChars 10 ds 0 : Int)

def reserved : List (List Char) := ["null".toList, "true".toList, "false".toList]

/-- A number that is no integer, by its spelling. -/
structure Numeral where
  spelling : List Char
  nonempty : spelling ≠ []
  word : spelling.all isWordChar = true
  free : spelling ∉ reserved
  notInt : isInt spelling = false
  deriving DecidableEq

end Json

inductive Json where
  | null
  | bool (b : Bool)
  | int (i : Int)
  | number (x : Json.Numeral)
  | str (s : String)
  | arr (xs : List Json)
  | obj (members : List (String × Json))

namespace Json

/-! ## Printing -/

def hex4 (u : Nat) : List Char :=
  [Nat.digitChar (u / 4096 % 16), Nat.digitChar (u / 256 % 16), Nat.digitChar (u / 16 % 16),
    Nat.digitChar (u % 16)]

def shortEscapes : List (Nat × Char) :=
  [(0x22, '"'), (0x5C, '\\'), (0x0A, 'n'), (0x0D, 'r'), (0x09, 't'), (0x0C, 'f'), (0x08, 'b')]

/-- One code unit within a string: itself where it may stand in a string, a short escape where it
has one, and else four hexadecimal digits. -/
def printUnit (u : Nat) : List Char :=
  match shortEscapes.lookup u with
  | some e => ['\\', e]
  | none => if 0x20 ≤ u ∧ u ≤ 0x7E then [Char.ofNat u] else '\\' :: 'u' :: hex4 u

def printString (s : String) : List Char :=
  '"' :: (s.toList.flatMap Utf16.units).flatMap printUnit ++ ['"']

def printInt : Int → List Char
  | .ofNat n => Nat.toDigits 10 n
  | .negSucc n => '-' :: Nat.toDigits 10 (n + 1)

mutual

def print : Json → List Char
  | .null => "null".toList
  | .bool b => if b then "true".toList else "false".toList
  | .int i => printInt i
  | .number x => x.spelling
  | .str s => printString s
  | .arr [] => ['[', ']']
  | .arr (x :: xs) => '[' :: print x ++ printItems xs
  | .obj [] => ['{', '}']
  | .obj ((k, v) :: members) => '{' :: printString k ++ ':' :: ' ' :: print v ++
      printMembers members

def printItems : List Json → List Char
  | [] => [']']
  | x :: xs => ',' :: ' ' :: print x ++ printItems xs

def printMembers : List (String × Json) → List Char
  | [] => ['}']
  | (k, v) :: members => ',' :: ' ' :: printString k ++ ':' :: ' ' :: print v ++
      printMembers members

end

/-! ## Reading -/

def isSpace (c : Char) : Bool := c == ' ' || c == '\n' || c == '\r' || c == '\t'

def skip (cs : List Char) : List Char := cs.dropWhile isSpace

def hexVal (c : Char) : Option Nat :=
  if c.isDigit then some (c.toNat - '0'.toNat)
  else if 'a' ≤ c ∧ c ≤ 'f' then some (c.toNat - 'a'.toNat + 10)
  else if 'A' ≤ c ∧ c ≤ 'F' then some (c.toNat - 'A'.toNat + 10)
  else none

def readableEscapes : List (Char × Nat) := ('/', 0x2F) :: shortEscapes.map Prod.swap

/-- The code units of a string up to its closing quote, and the text after that. -/
def readUnits : List Char → Option (List Nat × List Char)
  | [] => none
  | '"' :: rest => some ([], rest)
  | '\\' :: 'u' :: h₃ :: h₂ :: h₁ :: h₀ :: rest => do
    let u ← [h₃, h₂, h₁, h₀].foldlM (fun u h => (hexVal h).map (u * 16 + ·)) 0
    let (us, rest) ← readUnits rest
    some (u :: us, rest)
  | '\\' :: e :: rest => do
    let u ← readableEscapes.lookup e
    let (us, rest) ← readUnits rest
    some (u :: us, rest)
  | c :: rest =>
    if c.toNat < 0x20 ∨ c = '\\' then none
    else do
      let (us, rest) ← readUnits rest
      some (Utf16.units c ++ us, rest)

def readString (cs : List Char) : Option (String × List Char) := do
  let (us, rest) ← readUnits cs
  let s ← Utf16.decode us
  some (String.ofList s, rest)

def ofWord (w : List Char) : Option Json :=
  if w = "null".toList then some .null
  else if w = "true".toList then some (.bool true)
  else if w = "false".toList then some (.bool false)
  else if isInt w = true then some (.int (intOf w))
  else if h : w ≠ [] ∧ w.all isWordChar = true ∧ w ∉ reserved ∧ isInt w = false then
    some (.number ⟨w, h.1, h.2.1, h.2.2.1, h.2.2.2⟩)
  else none

def readWord (cs : List Char) : Option (Json × List Char) :=
  (ofWord (cs.takeWhile isWordChar)).map fun v => (v, cs.dropWhile isWordChar)

mutual

/-- A value, nested no deeper than `fuel`, and the text after it. -/
def readValue : Nat → List Char → Option (Json × List Char)
  | 0, _ => none
  | fuel + 1, cs =>
    match skip cs with
    | '"' :: rest => (readString rest).map fun (s, rest) => (.str s, rest)
    | '[' :: rest =>
      match skip rest with
      | ']' :: rest => some (.arr [], rest)
      | rest => do
        let (x, rest) ← readValue fuel rest
        let (xs, rest) ← readItems fuel rest
        some (.arr (x :: xs), rest)
    | '{' :: rest =>
      match skip rest with
      | '}' :: rest => some (.obj [], rest)
      | rest => do
        let (m, rest) ← readMember fuel rest
        let (members, rest) ← readMembers fuel rest
        some (.obj (m :: members), rest)
    | rest => readWord rest

def readItems : Nat → List Char → Option (List Json × List Char)
  | 0, _ => none
  | fuel + 1, cs =>
    match skip cs with
    | ']' :: rest => some ([], rest)
    | ',' :: rest => do
      let (x, rest) ← readValue fuel rest
      let (xs, rest) ← readItems fuel rest
      some (x :: xs, rest)
    | _ => none

def readMember : Nat → List Char → Option ((String × Json) × List Char)
  | 0, _ => none
  | fuel + 1, cs =>
    match skip cs with
    | '"' :: rest => do
      let (k, rest) ← readString rest
      match skip rest with
      | ':' :: rest => do
        let (v, rest) ← readValue fuel rest
        some ((k, v), rest)
      | _ => none
    | _ => none

def readMembers : Nat → List Char → Option (List (String × Json) × List Char)
  | 0, _ => none
  | fuel + 1, cs =>
    match skip cs with
    | '}' :: rest => some ([], rest)
    | ',' :: rest => do
      let (m, rest) ← readMember fuel rest
      let (members, rest) ← readMembers fuel rest
      some (m :: members, rest)
    | _ => none

end

/-- One value with white space around it, and nothing else in the text. -/
def read (cs : List Char) : Option Json :=
  match readValue (cs.length + 1) cs with
  | some (v, rest) => if skip rest = [] then some v else none
  | none => none

/-! ## Strings read back -/

theorem hexVal_digitChar : ∀ d < 16, hexVal (Nat.digitChar d) = some d := by decide

theorem toNat_ofNat_ascii : ∀ u < 0x7F, (Char.ofNat u).toNat = u := by decide

def unitThen (u : Nat) (rest : List Char) : Option (List Nat × List Char) :=
  (readUnits rest).map fun p => (u :: p.1, p.2)

theorem readUnits_hex4 {u : Nat} (h : u < 0x10000) (rest : List Char) :
    readUnits ('\\' :: 'u' :: hex4 u ++ rest) = unitThen u rest := by
  have hval : [Nat.digitChar (u / 4096 % 16), Nat.digitChar (u / 256 % 16),
      Nat.digitChar (u / 16 % 16), Nat.digitChar (u % 16)].foldlM
        (fun u h => (hexVal h).map (u * 16 + ·)) 0 = some u := by
    have hmod : ∀ n, n % 16 < 16 := fun n => Nat.mod_lt n (by decide)
    simp only [List.foldlM_cons, List.foldlM_nil, hexVal_digitChar _ (hmod _), Option.map_some,
      Option.bind_eq_bind, Option.bind_some, Option.pure_def, Option.some.injEq]
    omega
  unfold unitThen hex4
  rw [List.cons_append, List.cons_append, List.cons_append, List.cons_append, List.cons_append,
    List.cons_append, List.nil_append, readUnits, hval]
  cases readUnits rest <;> rfl

theorem readUnits_short {u : Nat} {e : Char} (h : (u, e) ∈ shortEscapes) (rest : List Char) :
    readUnits ('\\' :: e :: rest) = unitThen u rest := by
  have hall : ∀ p ∈ shortEscapes, p.2 ≠ 'u' ∧ readableEscapes.lookup p.2 = some p.1 := by decide
  obtain ⟨hu, hlook⟩ := hall _ h
  unfold unitThen
  rw [readUnits]
  · simp only [hlook, Option.bind_eq_bind, Option.bind_some]
    cases readUnits rest <;> rfl
  · intro _ _ _ _ _ heq
    exact absurd heq hu

theorem readUnits_plain {u : Nat} (h : 0x20 ≤ u ∧ u ≤ 0x7E) (hnone : shortEscapes.lookup u = none)
    (rest : List Char) : readUnits (Char.ofNat u :: rest) = unitThen u rest := by
  have hnat : (Char.ofNat u).toNat = u := toNat_ofNat_ascii u (by omega)
  have hnot : ∀ c : Char, shortEscapes.lookup c.toNat ≠ none → Char.ofNat u ≠ c := by
    rintro _ hsome rfl
    rw [hnat] at hsome
    exact hsome hnone
  have hslash : Char.ofNat u ≠ '\\' := hnot _ (by decide)
  unfold unitThen
  rw [readUnits]
  · have hrange : ¬ (u < 0x20 ∨ Char.ofNat u = '\\') := by
      rw [not_or]
      exact ⟨by omega, hslash⟩
    rw [hnat, if_neg hrange, Utf16.units, hnat, if_pos (by omega)]
    cases readUnits rest <;> rfl
  · exact hnot _ (by decide)
  · intro _ _ _ _ _ heq
    exact absurd heq hslash
  · intro _ _ heq
    exact absurd heq hslash

theorem readUnits_printUnit {u : Nat} (h : u < 0x10000) (rest : List Char) :
    readUnits (printUnit u ++ rest) = unitThen u rest := by
  unfold printUnit
  cases hlook : shortEscapes.lookup u with
  | some e =>
    obtain ⟨l, l', heq, _⟩ := List.lookup_eq_some_iff.mp hlook
    exact readUnits_short (by rw [heq]; simp) rest
  | none =>
    simp only
    split
    · next hplain => exact readUnits_plain hplain hlook rest
    · exact readUnits_hex4 h rest

theorem readUnits_printUnits {us : List Nat} (h : ∀ u ∈ us, u < 0x10000) (rest : List Char) :
    readUnits (us.flatMap printUnit ++ '"' :: rest) = some (us, rest) := by
  induction us with
  | nil => rfl
  | cons u us ih =>
    rw [List.flatMap_cons, List.append_assoc, readUnits_printUnit (h u List.mem_cons_self),
      unitThen, ih fun u' hu' => h u' (List.mem_cons_of_mem _ hu')]
    rfl

theorem readString_printString (s : String) (rest : List Char) :
    readString ((s.toList.flatMap Utf16.units).flatMap printUnit ++ '"' :: rest) =
      some (s, rest) := by
  have hunits : ∀ u ∈ s.toList.flatMap Utf16.units, u < 0x10000 := by
    intro u hu
    obtain ⟨c, _, hc⟩ := List.mem_flatMap.mp hu
    exact Utf16.units_lt hc
  unfold readString
  rw [readUnits_printUnits hunits]
  simp [Utf16.decode_encode]

/-! ## Words read back -/

def Ends (rest : List Char) : Prop := rest.takeWhile isWordChar = []

theorem readWord_append {w rest : List Char} {v : Json} (hw : w.all isWordChar = true)
    (hv : ofWord w = some v) (hrest : Ends rest) : readWord (w ++ rest) = some (v, rest) := by
  have hall : ∀ c ∈ w, isWordChar c = true := List.all_eq_true.mp hw
  have hdrop : rest.dropWhile isWordChar = rest := by
    have hsplit := List.takeWhile_append_dropWhile (p := isWordChar) (l := rest)
    rwa [hrest, List.nil_append] at hsplit
  unfold readWord
  rw [List.takeWhile_append_of_pos hall, List.dropWhile_append_of_pos hall, hrest,
    List.append_nil, hv, hdrop]
  rfl

theorem isWordChar_of_isDigit {c : Char} (h : c.isDigit = true) : isWordChar c = true := by
  simp [isWordChar, Char.isAlphanum, h]

theorem toDigits_isDigits (n : Nat) : isDigits (Nat.toDigits 10 n) = true := by
  have hne : Nat.toDigits 10 n ≠ [] := Nat.toDigits_ne_nil
  unfold isDigits
  rw [Bool.and_eq_true, List.all_eq_true]
  exact ⟨by simp [hne], fun c hc => Nat.isDigit_of_mem_toDigits (by decide) (by decide) hc⟩

theorem isDigits_head {ds : List Char} (h : isDigits ds = true) :
    ∃ d ds', ds = d :: ds' ∧ d.isDigit = true := by
  cases ds with
  | nil => cases h
  | cons d ds =>
    unfold isDigits at h
    rw [Bool.and_eq_true, List.all_cons, Bool.and_eq_true] at h
    exact ⟨d, ds, rfl, h.2.1⟩

theorem not_minus {d : Char} (h : d.isDigit = true) : d ≠ '-' := by
  rintro rfl
  exact absurd h (by decide)

theorem isInt_digits {ds : List Char} (h : isDigits ds = true) :
    isInt ds = true ∧ intOf ds = (Nat.ofDigitChars 10 ds 0 : Int) := by
  obtain ⟨d, ds', rfl, hd⟩ := isDigits_head h
  have hne := not_minus hd
  constructor
  · rw [isInt]
    · exact h
    · intro ds heq
      exact hne (List.cons.inj heq).1
  · rw [intOf]
    intro ds heq
    exact hne (List.cons.inj heq).1

theorem printInt_reads (i : Int) : isInt (printInt i) = true ∧ intOf (printInt i) = i := by
  cases i with
  | ofNat n =>
    obtain ⟨hint, hof⟩ := isInt_digits (toDigits_isDigits n)
    refine ⟨hint, ?_⟩
    show intOf (Nat.toDigits 10 n) = n
    rw [hof, Nat.ofDigitChars_ten_toDigits]
  | negSucc n =>
    refine ⟨toDigits_isDigits (n + 1), ?_⟩
    show -(Nat.ofDigitChars 10 (Nat.toDigits 10 (n + 1)) 0 : Int) = Int.negSucc n
    rw [Nat.ofDigitChars_ten_toDigits]
    rfl

theorem printInt_word (i : Int) : (printInt i).all isWordChar = true := by
  have hdigits : ∀ n, (Nat.toDigits 10 n).all isWordChar = true := by
    intro n
    rw [List.all_eq_true]
    intro c hc
    exact isWordChar_of_isDigit (Nat.isDigit_of_mem_toDigits (by decide) (by decide) hc)
  cases i with
  | ofNat n => exact hdigits n
  | negSucc n => exact hdigits (n + 1)

theorem ofWord_int {w : List Char} (h : isInt w = true) : ofWord w = some (.int (intOf w)) := by
  have hnot : ∀ w' ∈ reserved, w ≠ w' := by
    rintro w' hw' rfl
    have hall : ∀ w ∈ reserved, isInt w = false := by decide
    rw [hall w hw'] at h
    cases h
  unfold ofWord
  rw [if_neg (hnot _ (by simp [reserved])), if_neg (hnot _ (by simp [reserved])),
    if_neg (hnot _ (by simp [reserved])), if_pos h]

theorem ofWord_numeral (x : Numeral) : ofWord x.spelling = some (.number x) := by
  have hnot : ∀ w ∈ reserved, x.spelling ≠ w := by
    rintro w hw rfl
    exact x.free hw
  unfold ofWord
  rw [if_neg (hnot _ (by simp [reserved])), if_neg (hnot _ (by simp [reserved])),
    if_neg (hnot _ (by simp [reserved])), if_neg (by simp [x.notInt]),
    dif_pos ⟨x.nonempty, x.word, x.free, x.notInt⟩]

/-! ## Values read back -/

def Starts (c : Char) : Prop := c = '"' ∨ c = '[' ∨ c = '{' ∨ isWordChar c = true

theorem Starts.ne {c : Char} (h : Starts c) {c' : Char} (hword : isWordChar c' = false)
    (hother : c' ≠ '"' ∧ c' ≠ '[' ∧ c' ≠ '{') : c ≠ c' := by
  rintro rfl
  rcases h with rfl | rfl | rfl | h
  · exact hother.1 rfl
  · exact hother.2.1 rfl
  · exact hother.2.2 rfl
  · rw [hword] at h
    cases h

theorem Starts.not_isSpace {c : Char} (h : Starts c) : isSpace c = false := by
  have hne : ∀ c', c' = ' ' ∨ c' = '\n' ∨ c' = '\r' ∨ c' = '\t' → c ≠ c' := by
    rintro c' (rfl | rfl | rfl | rfl) <;> exact h.ne (by decide) (by decide)
  simp [isSpace, hne]

theorem skip_cons {c : Char} (h : isSpace c = false) (cs : List Char) :
    skip (c :: cs) = c :: cs := List.dropWhile_cons_of_neg (by simp [h])

theorem words_start {w : List Char} (hne : w ≠ []) (h : w.all isWordChar = true) :
    ∃ c cs, w = c :: cs ∧ isWordChar c = true := by
  cases w with
  | nil => exact absurd rfl hne
  | cons c cs =>
    rw [List.all_cons, Bool.and_eq_true] at h
    exact ⟨c, cs, rfl, h.1⟩

theorem print_word (v : Json) :
    ((print v).all isWordChar = true ∧ print v ≠ [] ∧ ofWord (print v) = some v) ∨
      (∃ s, v = .str s) ∨ (∃ xs, v = .arr xs) ∨ ∃ members, v = .obj members := by
  cases v with
  | null => exact Or.inl ⟨by decide, by decide, rfl⟩
  | bool b => cases b <;> exact Or.inl ⟨by decide, by decide, rfl⟩
  | int i =>
    obtain ⟨hint, hof⟩ := printInt_reads i
    refine Or.inl ⟨printInt_word i, ?_, ?_⟩
    · show printInt i ≠ []
      rintro hnil
      rw [hnil] at hint
      cases hint
    · show ofWord (printInt i) = some (.int i)
      rw [ofWord_int hint, hof]
  | number x => exact Or.inl ⟨x.word, x.nonempty, ofWord_numeral x⟩
  | str s => exact Or.inr (Or.inl ⟨s, rfl⟩)
  | arr xs => exact Or.inr (Or.inr (Or.inl ⟨xs, rfl⟩))
  | obj members => exact Or.inr (Or.inr (Or.inr ⟨members, rfl⟩))

theorem print_starts (v : Json) : ∃ c cs, print v = c :: cs ∧ Starts c := by
  rcases print_word v with ⟨hword, hne, -⟩ | ⟨s, rfl⟩ | ⟨xs, rfl⟩ | ⟨members, rfl⟩
  · obtain ⟨c, cs, heq, hc⟩ := words_start hne hword
    exact ⟨c, cs, heq, Or.inr (Or.inr (Or.inr hc))⟩
  · exact ⟨_, _, rfl, Or.inl rfl⟩
  · cases xs <;> exact ⟨_, _, rfl, Or.inr (Or.inl rfl)⟩
  · cases members <;> exact ⟨_, _, rfl, Or.inr (Or.inr (Or.inl rfl))⟩

section Reader

variable {fuel : Nat} {c : Char} {cs rest : List Char}

theorem readValue_word (h : isWordChar c = true) :
    readValue (fuel + 1) (c :: cs) = readWord (c :: cs) := by
  have hne : ∀ c', isWordChar c' = false → c ≠ c' := by
    rintro c' hc' rfl
    rw [hc'] at h
    cases h
  have hspace : isSpace c = false := Starts.not_isSpace (Or.inr (Or.inr (Or.inr h)))
  rw [readValue, skip_cons hspace]
  split
  · next heq => exact absurd (List.cons.inj heq).1 (hne _ (by decide))
  · next heq => exact absurd (List.cons.inj heq).1 (hne _ (by decide))
  · next heq => exact absurd (List.cons.inj heq).1 (hne _ (by decide))
  · rfl

theorem readValue_str {s : String} (h : readString cs = some (s, rest)) :
    readValue (fuel + 1) ('"' :: cs) = some (.str s, rest) := by
  show (readString cs).map _ = _
  rw [h]
  rfl

theorem readValue_arr {x : Json} {xs : List Json} {mid : List Char} (hc : Starts c)
    (hx : readValue fuel (c :: cs) = some (x, mid)) (hxs : readItems fuel mid = some (xs, rest)) :
    readValue (fuel + 1) ('[' :: c :: cs) = some (.arr (x :: xs), rest) := by
  rw [readValue, skip_cons (by decide)]
  simp only [skip_cons hc.not_isSpace]
  split
  · next heq => exact absurd (List.cons.inj heq).1 (hc.ne (by decide) (by decide))
  · simp only [hx, hxs, Option.bind_eq_bind, Option.bind_some]

theorem readValue_obj {m : String × Json} {members : List (String × Json)} {mid : List Char}
    (hm : readMember fuel ('"' :: cs) = some (m, mid))
    (hmembers : readMembers fuel mid = some (members, rest)) :
    readValue (fuel + 1) ('{' :: '"' :: cs) = some (.obj (m :: members), rest) := by
  show (readMember fuel ('"' :: cs)).bind _ = _
  rw [hm]
  show (readMembers fuel mid).bind _ = _
  rw [hmembers]
  rfl

theorem readItems_cons {x : Json} {xs : List Json} {mid : List Char}
    (hx : readValue fuel (' ' :: cs) = some (x, mid))
    (hxs : readItems fuel mid = some (xs, rest)) :
    readItems (fuel + 1) (',' :: ' ' :: cs) = some (x :: xs, rest) := by
  show (readValue fuel (' ' :: cs)).bind _ = _
  rw [hx]
  show (readItems fuel mid).bind _ = _
  rw [hxs]
  rfl

theorem readMembers_cons {m : String × Json} {members : List (String × Json)} {mid : List Char}
    (hm : readMember fuel (' ' :: cs) = some (m, mid))
    (hmembers : readMembers fuel mid = some (members, rest)) :
    readMembers (fuel + 1) (',' :: ' ' :: cs) = some (m :: members, rest) := by
  show (readMember fuel (' ' :: cs)).bind _ = _
  rw [hm]
  show (readMembers fuel mid).bind _ = _
  rw [hmembers]
  rfl

theorem readMember_str {k : String} {v : Json} {mid : List Char}
    (hk : readString cs = some (k, ':' :: ' ' :: mid))
    (hv : readValue fuel (' ' :: mid) = some (v, rest)) :
    readMember (fuel + 1) ('"' :: cs) = some ((k, v), rest) := by
  show (readString cs).bind _ = _
  rw [hk]
  show (readValue fuel (' ' :: mid)).bind _ = _
  rw [hv]
  rfl

theorem readValue_space : readValue fuel (' ' :: cs) = readValue fuel cs := by
  cases fuel with
  | zero => rfl
  | succ fuel =>
    have hskip : skip (' ' :: cs) = skip cs := rfl
    rw [readValue, readValue, hskip]

theorem readMember_space : readMember fuel (' ' :: cs) = readMember fuel cs := by
  cases fuel with
  | zero => rfl
  | succ fuel =>
    have hskip : skip (' ' :: cs) = skip cs := rfl
    rw [readMember, readMember, hskip]

end Reader

/-- Whatever is printed in at most `fuel` characters reads back, with whatever may stand after
it. -/
structure ReadsBack (fuel : Nat) : Prop where
  value : ∀ v rest, (print v).length ≤ fuel → Ends rest →
    readValue fuel (print v ++ rest) = some (v, rest)
  items : ∀ xs rest, (printItems xs).length ≤ fuel →
    readItems fuel (printItems xs ++ rest) = some (xs, rest)
  member : ∀ k v rest, (printString k ++ ':' :: ' ' :: print v).length ≤ fuel → Ends rest →
    readMember fuel (printString k ++ ':' :: ' ' :: print v ++ rest) = some ((k, v), rest)
  members : ∀ ms rest, (printMembers ms).length ≤ fuel →
    readMembers fuel (printMembers ms ++ rest) = some (ms, rest)

theorem ends_cons {c : Char} (h : isWordChar c = false) (cs : List Char) : Ends (c :: cs) :=
  List.takeWhile_cons_of_neg (by simp [h])

theorem ends_printItems (xs : List Json) (rest : List Char) : Ends (printItems xs ++ rest) := by
  cases xs <;> exact ends_cons (by decide) _

theorem ends_printMembers (ms : List (String × Json)) (rest : List Char) :
    Ends (printMembers ms ++ rest) := by
  rcases ms with _ | ⟨⟨k, v⟩, ms⟩ <;> exact ends_cons (by decide) _

theorem printString_append (s : String) (rest : List Char) :
    printString s ++ rest =
      '"' :: ((s.toList.flatMap Utf16.units).flatMap printUnit ++ '"' :: rest) := by
  simp [printString]

theorem readsBack_zero : ReadsBack 0 where
  value v rest hlen _ := by
    obtain ⟨c, cs, heq, _⟩ := print_starts v
    rw [heq] at hlen
    exact absurd hlen (by simp)
  items xs rest hlen := by cases xs <;> simp [printItems] at hlen
  member k v rest hlen _ := by simp at hlen
  members ms rest hlen := by rcases ms with _ | ⟨⟨k, v⟩, ms⟩ <;> simp [printMembers] at hlen

theorem ReadsBack.word {fuel : Nat} {v : Json} {rest : List Char}
    (hword : (print v).all isWordChar = true) (hne : print v ≠ []) (hof : ofWord (print v) = some v)
    (hrest : Ends rest) : readValue (fuel + 1) (print v ++ rest) = some (v, rest) := by
  have hread := readWord_append hword hof hrest
  obtain ⟨c, cs, heq, hc⟩ := words_start hne hword
  rw [heq, List.cons_append] at hread ⊢
  rw [readValue_word hc, hread]

theorem ReadsBack.succ {fuel : Nat} (ih : ReadsBack fuel) : ReadsBack (fuel + 1) where
  value v rest hlen hrest := by
    rcases print_word v with ⟨hword, hne, hof⟩ | ⟨s, rfl⟩ | ⟨xs, rfl⟩ | ⟨ms, rfl⟩
    · exact ReadsBack.word hword hne hof hrest
    · rw [print, printString_append]
      exact readValue_str (readString_printString s rest)
    · cases xs with
      | nil => rfl
      | cons x xs =>
        rw [print] at hlen ⊢
        simp only [List.length_append, List.length_cons] at hlen
        have hx := ih.value x (printItems xs ++ rest) (by omega) (ends_printItems xs rest)
        have hxs := ih.items xs rest (by omega)
        obtain ⟨c, cs, heq, hc⟩ := print_starts x
        rw [List.cons_append, List.cons_append, List.append_assoc]
        rw [heq, List.cons_append] at hx ⊢
        exact readValue_arr hc hx hxs
    · rcases ms with _ | ⟨⟨k, v⟩, ms⟩
      · rfl
      · rw [print] at hlen ⊢
        simp only [List.length_append, List.length_cons] at hlen
        have hm := ih.member k v (printMembers ms ++ rest)
          (by simp only [List.length_append, List.length_cons]; omega) (ends_printMembers ms rest)
        have hms := ih.members ms rest (by omega)
        rw [List.append_assoc, printString_append] at hm
        rw [List.append_assoc, List.cons_append, List.cons_append, List.append_assoc,
          printString_append]
        exact readValue_obj hm hms
  items xs rest hlen := by
    cases xs with
    | nil => rfl
    | cons x xs =>
      rw [printItems] at hlen ⊢
      simp only [List.length_append, List.length_cons] at hlen
      have hx := ih.value x (printItems xs ++ rest) (by omega) (ends_printItems xs rest)
      have hxs := ih.items xs rest (by omega)
      rw [List.append_assoc]
      exact readItems_cons (readValue_space.trans hx) hxs
  member k v rest hlen hrest := by
    simp only [List.length_append, List.length_cons] at hlen
    have hv := ih.value v rest (by omega) hrest
    rw [List.append_assoc, printString_append]
    exact readMember_str (readString_printString k _) (readValue_space.trans hv)
  members ms rest hlen := by
    rcases ms with _ | ⟨⟨k, v⟩, ms⟩
    · rfl
    · rw [printMembers] at hlen ⊢
      simp only [List.length_append, List.length_cons] at hlen
      have hm := ih.member k v (printMembers ms ++ rest)
        (by simp only [List.length_append, List.length_cons]; omega) (ends_printMembers ms rest)
      have hms := ih.members ms rest (by omega)
      rw [List.append_assoc]
      exact readMembers_cons (readMember_space.trans hm) hms

theorem readsBack (fuel : Nat) : ReadsBack fuel := by
  induction fuel with
  | zero => exact readsBack_zero
  | succ fuel ih => exact ih.succ

/-- **What was printed reads back as it was.** -/
theorem read_print (v : Json) : read (print v) = some v := by
  have hback := (readsBack ((print v).length + 1)).value v [] (by omega) rfl
  rw [List.append_nil] at hback
  unfold read
  rw [hback]
  rfl

/-! ## One value a line -/

def Printable (c : Char) : Prop := 0x20 ≤ c.toNat ∧ c.toNat ≤ 0x7E

instance (c : Char) : Decidable (Printable c) := inferInstanceAs (Decidable (_ ∧ _))

def AllPrintable (cs : List Char) : Prop := ∀ c ∈ cs, Printable c

instance (cs : List Char) : Decidable (AllPrintable cs) :=
  List.decidableBAll Printable cs

theorem AllPrintable.append {cs cs' : List Char} (h : AllPrintable cs) (h' : AllPrintable cs') :
    AllPrintable (cs ++ cs') := by
  intro c hc
  rcases List.mem_append.mp hc with hc | hc
  · exact h c hc
  · exact h' c hc

theorem AllPrintable.cons {c : Char} {cs : List Char} (hc : Printable c) (h : AllPrintable cs) :
    AllPrintable (c :: cs) := List.forall_mem_cons.mpr ⟨hc, h⟩

theorem isWordChar_eq (c : Char) : isWordChar c =
    ((decide (c.val ≥ 'A'.val ∧ c.val ≤ 'Z'.val) || (c.val ≥ 'a'.val && c.val ≤ 'z'.val) ||
      (c.val ≥ '0'.val && c.val ≤ '9'.val)) || c == '+' || c == '-' || c == '.') := rfl

theorem allPrintable_of_words {w : List Char} (h : w.all isWordChar = true) : AllPrintable w := by
  intro c hc
  have hword : isWordChar c = true := List.all_eq_true.mp h c hc
  rw [isWordChar_eq] at hword
  unfold Printable
  simp only [Bool.or_eq_true, Bool.and_eq_true, decide_eq_true_eq, beq_iff_eq,
    UInt32.le_iff_toNat_le, ge_iff_le] at hword
  have hval : c.toNat = c.val.toNat := rfl
  rcases hword with ((hword | rfl) | rfl) | rfl
  · have : 'A'.val.toNat = 65 ∧ 'Z'.val.toNat = 90 ∧ 'a'.val.toNat = 97 ∧ 'z'.val.toNat = 122 ∧
        '0'.val.toNat = 48 ∧ '9'.val.toNat = 57 := ⟨rfl, rfl, rfl, rfl, rfl, rfl⟩
    omega
  all_goals decide

theorem allPrintable_printUnit (u : Nat) : AllPrintable (printUnit u) := by
  have hhex : ∀ d < 16, Printable (Nat.digitChar d) := by decide
  have hmod : ∀ n, Printable (Nat.digitChar (n % 16)) :=
    fun n => hhex _ (Nat.mod_lt n (by decide))
  have hshort : ∀ p ∈ shortEscapes, Printable p.2 := by decide
  unfold printUnit
  cases hlook : shortEscapes.lookup u with
  | some e =>
    obtain ⟨l, l', heq, _⟩ := List.lookup_eq_some_iff.mp hlook
    have he : Printable e := hshort (u, e) (by rw [heq]; simp)
    exact .cons (by decide) (.cons he (by decide))
  | none =>
    simp only
    split
    · next hplain =>
      refine .cons ?_ (by decide)
      unfold Printable
      rw [toNat_ofNat_ascii u (by omega)]
      exact hplain
    · refine .cons (by decide) (.cons (by decide) ?_)
      exact .cons (hmod _) (.cons (hmod _) (.cons (hmod _) (.cons (hmod _) (by decide))))

theorem allPrintable_printString (s : String) : AllPrintable (printString s) := by
  refine .append (.cons (by decide) ?_) (.cons (by decide) (by decide))
  intro c hc
  obtain ⟨u, _, hu⟩ := List.mem_flatMap.mp hc
  exact allPrintable_printUnit u c hu

mutual

theorem allPrintable_print : ∀ v, AllPrintable (print v)
  | .null => by decide
  | .bool b => by cases b <;> decide
  | .int i => allPrintable_of_words (printInt_word i)
  | .number x => allPrintable_of_words x.word
  | .str s => allPrintable_printString s
  | .arr [] => by decide
  | .arr (x :: xs) =>
    .append (.cons (by decide) (allPrintable_print x)) (allPrintable_printItems xs)
  | .obj [] => by decide
  | .obj ((k, v) :: members) =>
    .append (.append (.cons (by decide) (allPrintable_printString k))
      (.cons (by decide) (.cons (by decide) (allPrintable_print v))))
      (allPrintable_printMembers members)

theorem allPrintable_printItems : ∀ xs, AllPrintable (printItems xs)
  | [] => by decide
  | x :: xs =>
    .append (.cons (by decide) (.cons (by decide) (allPrintable_print x)))
      (allPrintable_printItems xs)

theorem allPrintable_printMembers : ∀ ms, AllPrintable (printMembers ms)
  | [] => by decide
  | (k, v) :: members =>
    .append (.append (.cons (by decide) (.cons (by decide) (allPrintable_printString k)))
      (.cons (by decide) (.cons (by decide) (allPrintable_print v))))
      (allPrintable_printMembers members)

end

def printLine (v : Json) : List Char := print v ++ ['\n']

def readLines (text : List Char) : Option (List Json) :=
  (text.splitOn '\n').dropLast.mapM read

theorem not_mem_print (v : Json) : '\n' ∉ print v := by
  intro hmem
  exact absurd (allPrintable_print v _ hmem) (by decide)

/-- **Values kept one a line read back, all of them and in order.** -/
theorem readLines_printLines (vs : List Json) : readLines (vs.flatMap printLine) = some vs := by
  have hsplit : ∀ vs : List Json,
      (vs.flatMap printLine).splitOn '\n' = vs.map print ++ [[]] := by
    intro vs
    induction vs with
    | nil => rfl
    | cons v vs ih =>
      rw [List.flatMap_cons, printLine, List.append_assoc, List.singleton_append,
        List.splitOn_append_cons_self_of_not_mem (not_mem_print v), ih]
      rfl
  unfold readLines
  rw [hsplit, List.dropLast_concat]
  induction vs with
  | nil => rfl
  | cons v vs ih =>
    rw [List.map_cons, List.mapM_cons, read_print, ih]
    rfl

end Json

end Lib
