import IraOS.Lib.Dict
import Mathlib.Data.Rat.Floor

/-!
# Values and exceptions

The dynamic values the kernel passes through without looking at them — command arguments, command
metadata, what a bridge answers — and the exceptions it raises and tells apart.

An f-string is kept as its pieces (`Text`) rather than formatted: `str()` of an arbitrary value is
then nobody's business here, and two messages are the same when the source builds them the same way.
Where a message is compared with something, or looked into, the module that does so says what it
formats to.

## Values

`PyValue` has what a JSON document has, enumeration members besides, and floats with the three that
are no numbers. A dictionary is a list of entries with text for keys, as that is what the arguments
and the metadata of a command are built of. `equals` is Python's `==`: a `bool` is a number, an
integer equals the float it is, a NaN equals nothing, and two dictionaries are equal whatever order
their keys come in.

## Exceptions

An exception is its class and what `str()` makes of it. Classes the program catches or raises by
name are constructors, and every other class is `other`, by its name; which handler gets an
exception is then a matter of the class alone.

## `int()`

The one conversion that is looked at closely is `int()` of a string, as two components hand what
they are given to it: the white space it skips, the digits of other scripts it reads, underscores
between digits, and the 4300 digits past which it raises.
-/

set_option autoImplicit false

namespace IraOS

open Lib

/-! ## Values -/

inductive PyFloat where
  | finite (q : Rat)
  | inf (negative : Bool)
  | nan
  deriving DecidableEq, Repr

inductive PyValue where
  | none
  | bool (b : Bool)
  | int (i : Int)
  | float (x : PyFloat)
  | str (s : String)
  | list (xs : List PyValue)
  | dict (entries : List (String × PyValue))
  /-- A member of an `Enum` class, by class and member name. -/
  | enum (cls member : String)

/-- `Mapping[str, Any]`. -/
abbrev PyDict := Dict String PyValue

inductive Piece where
  | text (s : String)
  | value (v : PyValue)
  | repr (v : PyValue)

/-- A string the source formats, unformatted. Two of them are equal if they are built of the same
pieces; adjacent literals are kept as the source has them. -/
abbrev Text := List Piece

def lit (s : String) : Text := [.text s]

def Text.ofOption : Option Text → Text
  | none => lit "None"
  | some t => t

def Text.isEmptyStr (t : Text) : Bool :=
  t.all fun
    | .text s => s.isEmpty
    | .value (.str s) => s.isEmpty
    | .value _ | .repr _ => false

def Text.orElse : Option Text → Option Text → Option Text
  | some t, other => if t.isEmptyStr then other else some t
  | none, other => other

namespace PyValue

def typeName : PyValue → String
  | .none => "NoneType"
  | .bool _ => "bool"
  | .int _ => "int"
  | .float _ => "float"
  | .str _ => "str"
  | .list _ => "list"
  | .dict _ => "dict"
  | .enum cls _ => cls

def isStr (v : PyValue) (s : String) : Bool :=
  match v with
  | .str t => t == s
  | _ => false

def truthy : PyValue → Bool
  | .none => false
  | .bool b => b
  | .int i => decide (i ≠ 0)
  | .float (.finite q) => decide (q ≠ 0)
  | .float _ => true
  | .str s => !s.isEmpty
  | .list xs => !xs.isEmpty
  | .dict es => !es.isEmpty
  | .enum _ _ => true

def number? : PyValue → Option PyFloat
  | .bool b => some (.finite (if b then 1 else 0))
  | .int i => some (.finite i)
  | .float x => some x
  | _ => Option.none

mutual

/-- `v == w`. A NaN equals nothing, and members of an `Enum` are nobody's numbers or strings. -/
def equals : PyValue → PyValue → Bool
  | .list xs, .list ys => listEquals xs ys
  | .dict es, .dict fs => es.length == fs.length && entriesEqual es fs
  | .none, .none => true
  | .str s, .str t => s == t
  | .enum cls member, .enum cls' member' => cls == cls' && member == member'
  | v, w =>
    match v.number?, w.number? with
    | some x, some y => decide (x = y ∧ x ≠ .nan)
    | _, _ => false

def listEquals : List PyValue → List PyValue → Bool
  | [], [] => true
  | x :: xs, y :: ys => equals x y && listEquals xs ys
  | _, _ => false

def entriesEqual : List (String × PyValue) → List (String × PyValue) → Bool
  | [], _ => true
  | (k, v) :: es, fs =>
    (match fs.lookup k with
      | some w => equals v w
      | Option.none => false) && entriesEqual es fs

end

end PyValue

/-! ## Exceptions -/

/-- The exception classes the kernel raises or catches by name. Every handler of the modelled
code is an `except Exception` or narrower, so nothing outside `Exception` is here; `other` is a
class from elsewhere, by its name. -/
inductive ExnClass where
  | typeError | valueError | overflowError | attributeError | notImplementedError | runtimeError
  -- core/security/exceptions.py
  | securityError | permissionValidationError | policyNotFoundError | permissionDeniedError
  | policyEvaluationError
  -- core/execution/exceptions.py
  | executionValidationError | executionRuntimeError
  -- core/runtime/exceptions.py
  | validationError | capabilityNotFoundError | executionFailedError
  -- core/mutation/exceptions.py
  | rollbackError | auditError
  -- core/android/exceptions.py
  | androidAdapterError
  -- core/android/capabilities/exceptions.py
  | capabilityError | resourceUnavailableError | invalidArgumentError | platformExecutionError
  | unsupportedPlatformError | capabilityPermissionDenied
  -- core/workflow/exceptions.py
  | workflowError | workflowValidationError | workflowNotFoundError | taskExecutionError
  -- core/memory/exceptions.py
  | memoryNotFound | duplicateMemory | memoryValidationError
  -- core/identity/exceptions.py
  | authenticationError | sessionExpiredError | identityRegistrationError
  | sessionRegistrationError
  -- core/container/exceptions.py; its `ValidationError` has the name of the runtime's
  | resolutionError | circularDependencyError | containerValidationError
  -- core/lifecycle/exceptions.py, and the built-in it raises for a late hook
  | startupError | timeoutError
  | other (name : String)
  deriving DecidableEq, Repr

def ExnClass.name : ExnClass → String
  | .typeError => "TypeError"
  | .valueError => "ValueError"
  | .overflowError => "OverflowError"
  | .attributeError => "AttributeError"
  | .notImplementedError => "NotImplementedError"
  | .runtimeError => "RuntimeError"
  | .securityError => "SecurityError"
  | .permissionValidationError => "PermissionValidationError"
  | .policyNotFoundError => "PolicyNotFoundError"
  | .permissionDeniedError => "PermissionDeniedError"
  | .policyEvaluationError => "PolicyEvaluationError"
  | .executionValidationError => "ExecutionValidationError"
  | .executionRuntimeError => "ExecutionRuntimeError"
  | .validationError => "ValidationError"
  | .capabilityNotFoundError => "CapabilityNotFoundError"
  | .executionFailedError => "ExecutionFailedError"
  | .rollbackError => "RollbackError"
  | .auditError => "AuditError"
  | .androidAdapterError => "AndroidAdapterError"
  | .capabilityError => "CapabilityError"
  | .resourceUnavailableError => "ResourceUnavailableError"
  | .invalidArgumentError => "InvalidArgumentError"
  | .platformExecutionError => "PlatformExecutionError"
  | .unsupportedPlatformError => "UnsupportedPlatformError"
  | .capabilityPermissionDenied => "PermissionDeniedError"
  | .workflowError => "WorkflowError"
  | .workflowValidationError => "WorkflowValidationError"
  | .workflowNotFoundError => "WorkflowNotFoundError"
  | .taskExecutionError => "TaskExecutionError"
  | .memoryNotFound => "MemoryNotFound"
  | .duplicateMemory => "DuplicateMemory"
  | .memoryValidationError => "MemoryValidationError"
  | .authenticationError => "AuthenticationError"
  | .sessionExpiredError => "SessionExpiredError"
  | .identityRegistrationError => "IdentityRegistrationError"
  | .sessionRegistrationError => "SessionRegistrationError"
  | .resolutionError => "ResolutionError"
  | .circularDependencyError => "CircularDependencyError"
  | .containerValidationError => "ValidationError"
  | .startupError => "StartupError"
  | .timeoutError => "TimeoutError"
  | .other name => name

def ExnClass.isSecurityError : ExnClass → Bool
  | .securityError | .permissionValidationError | .policyNotFoundError | .permissionDeniedError
  | .policyEvaluationError => true
  | _ => false

def ExnClass.isCapabilityError : ExnClass → Bool
  | .capabilityError | .resourceUnavailableError | .invalidArgumentError
  | .platformExecutionError | .unsupportedPlatformError | .capabilityPermissionDenied => true
  | _ => false

structure Exn where
  cls : ExnClass
  message : Text

/-! ## `int()` -/

/-- The code points whose decimal value is zero, each the first of a run of ten digits. -/
def decimalZeros : List Nat :=
  [0x0030, 0x0660, 0x06F0, 0x07C0, 0x0966, 0x09E6, 0x0A66, 0x0AE6, 0x0B66, 0x0BE6, 0x0C66,
   0x0CE6, 0x0D66, 0x0DE6, 0x0E50, 0x0ED0, 0x0F20, 0x1040, 0x1090, 0x17E0, 0x1810, 0x1946,
   0x19D0, 0x1A80, 0x1A90, 0x1B50, 0x1BB0, 0x1C40, 0x1C50, 0xA620, 0xA8D0, 0xA900, 0xA9D0,
   0xA9F0, 0xAA50, 0xABF0, 0xFF10, 0x104A0, 0x10D30, 0x11066, 0x110F0, 0x11136, 0x111D0,
   0x112F0, 0x11450, 0x114D0, 0x11650, 0x116C0, 0x11730, 0x118E0, 0x11950, 0x11C50, 0x11D50,
   0x11DA0, 0x11F50, 0x16A60, 0x16AC0, 0x16B50, 0x1D7CE, 0x1D7D8, 0x1D7E2, 0x1D7EC, 0x1D7F6,
   0x1E140, 0x1E2F0, 0x1E4F0, 0x1E950, 0x1FBF0]

def digit? (c : Char) : Option Nat :=
  (decimalZeros.find? fun z => decide (z ≤ c.toNat ∧ c.toNat < z + 10)).map fun z => c.toNat - z

def isSpace (c : Char) : Bool :=
  let n := c.toNat
  decide (9 ≤ n ∧ n ≤ 13) || decide (0x1C ≤ n ∧ n ≤ 0x20) || decide (n = 0x85) ||
    decide (n = 0xA0) || decide (n = 0x1680) || decide (0x2000 ≤ n ∧ n ≤ 0x200A) ||
    decide (n = 0x2028) || decide (n = 0x2029) || decide (n = 0x202F) || decide (n = 0x205F) ||
    decide (n = 0x3000)

/-- Digits with single underscores between them, read into a number; `afterDigit` is whether the
character before was a digit, without which there may be no underscore here and no end. -/
def digits? (acc : Nat) (afterDigit : Bool) : List Char → Option Nat
  | [] => if afterDigit then some acc else none
  | c :: cs =>
      if c = '_' then (if afterDigit then digits? acc false cs else none)
      else match digit? c with
        | some d => digits? (acc * 10 + d) true cs
        | none => none

/-- The white space `int()` skips at the two ends of a string: `str.isspace`, but for the four
separators from U+001C to U+001F. These are ASCII, so they are not made into blanks before the
literal is read, and the reader's own notion of a blank is C's. -/
def isIntSpace (c : Char) : Bool :=
  isSpace c && !decide (0x1C ≤ c.toNat ∧ c.toNat ≤ 0x1F)

/-- The limit on the digits of a literal that CPython starts with
(`sys.get_int_max_str_digits()`). -/
def maxStrDigits : Nat := 4300

/-- An integer literal: the number, and how many digits it is written with. Leading zeros are
counted, and underscores are not. -/
def intLiteral? (cs : List Char) : Option (Int × Nat) :=
  let written (cs : List Char) := cs.countP fun c => decide (c ≠ '_')
  match cs with
  | '-' :: cs => (digits? 0 false cs).map fun n => (-(n : Int), written cs)
  | '+' :: cs => (digits? 0 false cs).map fun n => ((n : Int), written cs)
  | cs => (digits? 0 false cs).map fun n => ((n : Int), written cs)

/-- `int(s)` of a string. A literal is a `ValueError` too when it has more digits than the
interpreter converts. -/
def intOfStr (s : String) : Except Exn Int :=
  match intLiteral? ((s.toList.dropWhile isIntSpace).reverse.dropWhile isIntSpace).reverse with
  | none => .error ⟨.valueError,
      lit "invalid literal for int() with base 10: " ++ [.repr (.str s)]⟩
  | some (i, written) =>
    if written ≤ maxStrDigits then .ok i
    else .error ⟨.valueError,
      lit ("Exceeds the limit (" ++ toString maxStrDigits ++ " digits) for integer string " ++
        "conversion: value has " ++ toString written ++ " digits; use " ++
        "sys.set_int_max_str_digits() to increase the limit")⟩

/-- `int(v)`: of a number its integer part, of a string what it is a literal of, and an exception
for everything else. -/
def PyValue.toInt : PyValue → Except Exn Int
  | .bool b => .ok (if b then 1 else 0)
  | .int i => .ok i
  | .float (.finite q) => .ok (if 0 ≤ q then q.floor else q.ceil)
  | .float (.inf _) => .error ⟨.overflowError, lit "cannot convert float infinity to integer"⟩
  | .float .nan => .error ⟨.valueError, lit "cannot convert float NaN to integer"⟩
  | .str s => intOfStr s
  | v => .error ⟨.typeError,
      lit ("int() argument must be a string, a bytes-like object or a real number, not '" ++
        v.typeName ++ "'")⟩

example : intOfStr " -1_000 " = .ok (-1000) := rfl

-- a separator that `str.strip` would take off is no part of a literal
example : intLiteral? ("\x1c7".toList.dropWhile isIntSpace) = none := by decide

end IraOS
