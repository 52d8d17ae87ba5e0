import IraOS.Config.Loader
import IraOS.Core.Value

/-!
# The validator

`Validator` (`core/config/validator.py`) reads a schema — a dataclass and the types of its fields,
dataclasses again or not — and makes of a raw table the instance that the schema describes, or
raises. It is generic in the schema, and so is everything here: a type is a value (`FieldType`), and
what the validator does with it goes by the shape of the type first and of the raw value second.

The conversions of the built-in types that are about digits — `str()` of a number or of something
that holds numbers, `float()` of a string or of an integer — are a parameter: which string and which
float comes out does not matter to any type, and that they can raise does.

## What it looks at

A field of a union type is read as `None`, as a secret, or as the first member that takes it; of any
other type by the conversion of that type. A field whose type is a dataclass reads a table of its
own. An unknown key is passed over; a missing one is the default's, if there is one.

What is raised inside a conversion becomes a `ValidationError` with the path of the field. The rules
come last, go by the name of the class, and put what they refuse into their message.
-/

set_option autoImplicit false

namespace IraOS

open Lib

/-! ## Raw values -/

/-- What a raw table has where it has no table. -/
inductive ConfigLeaf where
  | none
  | bool (b : Bool)
  | int (i : Int)
  | float (x : PyFloat)
  | str (s : String)
  /-- A `SecretValue`, by what it keeps. -/
  | secret (value : String)
  | list (items : List (Nested String ConfigLeaf))

abbrev ConfigValue := Nested String ConfigLeaf

abbrev ConfigEntries := List (String × ConfigValue)

/-- The conversions that are about digits. They are those of the interpreter, and nothing is assumed
of them, except where a theorem says so. -/
structure Conversions where
  /-- `str()` of what is neither a string nor a secret. -/
  strOf : ConfigValue → Except Exn String
  floatOfStr : String → Except Exn PyFloat
  floatOfInt : Int → Except Exn PyFloat

namespace PyFloat

def lt : PyFloat → PyFloat → Bool
  | .nan, _ | _, .nan => false
  | .inf negative, y => negative && y != .inf true
  | .finite _, .inf negative => !negative
  | .finite p, .finite q => decide (p < q)

def le : PyFloat → PyFloat → Bool
  | .nan, _ | _, .nan => false
  | .inf negative, y => negative || y == .inf false
  | .finite _, .inf negative => !negative
  | .finite p, .finite q => decide (p ≤ q)

theorem le_zero_iff (x : PyFloat) :
    le (.finite 0) x = true ↔ lt x (.finite 0) = false ∧ x ≠ .nan := by
  cases x with
  | finite q => simp [le, lt, not_lt]
  | inf negative => cases negative <;> simp [le, lt]
  | nan => simp [le]

end PyFloat

namespace ConfigLeaf

def scalar? : ConfigLeaf → Option PyValue
  | .none => some .none
  | .bool b => some (.bool b)
  | .int i => some (.int i)
  | .float x => some (.float x)
  | .str s => some (.str s)
  | .secret _ | .list _ => Option.none

end ConfigLeaf

namespace ConfigValue

/-- `type(v).__name__`. -/
def typeName : ConfigValue → String
  | .table _ => "dict"
  | .leaf (.list _) => "list"
  | .leaf (.secret _) => "SecretValue"
  | .leaf .none => "NoneType"
  | .leaf (.bool _) => "bool"
  | .leaf (.int _) => "int"
  | .leaf (.float _) => "float"
  | .leaf (.str _) => "str"

/-- `str(v)`. A `SecretValue` prints masked (`core/config/secrets.py`). -/
def str (py : Conversions) : ConfigValue → Except Exn String
  | .leaf (.str s) => .ok s
  | .leaf (.secret _) => .ok "******"
  | v => py.strOf v

/-- `int(v)`. -/
def toInt : ConfigValue → Except Exn Int
  | .leaf l =>
    match l.scalar? with
    | some v => v.toInt
    | none => .error ⟨.typeError, lit ("int() argument must be a string, a bytes-like object " ++
        "or a real number, not '" ++ typeName (.leaf l) ++ "'")⟩
  | .table _ => .error ⟨.typeError, lit ("int() argument must be a string, a bytes-like object " ++
      "or a real number, not 'dict'")⟩

/-- `float(v)`. -/
def toFloat (py : Conversions) : ConfigValue → Except Exn PyFloat
  | .leaf (.bool b) => .ok (.finite (if b then 1 else 0))
  | .leaf (.int i) => py.floatOfInt i
  | .leaf (.float x) => .ok x
  | .leaf (.str s) => py.floatOfStr s
  | v => .error ⟨.typeError, lit ("float() argument must be a string or a real number, not '" ++
      typeName v ++ "'")⟩

/-- `bool(v)`. -/
def toBool : ConfigValue → Bool
  | .leaf .none => false
  | .leaf (.bool b) => b
  | .leaf (.int i) => decide (i ≠ 0)
  | .leaf (.float (.finite q)) => decide (q ≠ 0)
  | .leaf (.float _) => true
  | .leaf (.str s) => !s.isEmpty
  | .leaf (.secret _) => true
  | .leaf (.list items) => !items.isEmpty
  | .table entries => !entries.isEmpty

def number? : ConfigValue → Option PyFloat
  | .leaf l => l.scalar?.bind PyValue.number?
  | .table _ => none

/-- `[x.strip() for x in s.split(",")]`. -/
def commaSeparated (s : String) : List ConfigValue :=
  (s.toList.splitOn ',').map fun cs =>
    .leaf (.str (String.ofList ((cs.dropWhile isSpace).reverse.dropWhile isSpace).reverse))

end ConfigValue

/-! ## Schemas -/

/-- What the validator returns: a value, or an instance of a dataclass. -/
inductive Built where
  | value (v : ConfigValue)
  | instance (cls : String) (fields : List (String × Built))

/-- The declared types. A field of a dataclass is its name, its type and, where it has one, its
default or what its `default_factory` makes. -/
inductive FieldType where
  | int
  | float
  | str
  | bool
  | noneType
  | secret
  | list (item : FieldType)
  | union (args : List FieldType)
  | dataclass (name : String) (fields : List (String × FieldType × Option Built))

abbrev Fields := List (String × FieldType × Option Built)

namespace FieldType

def name : FieldType → String
  | .int => "int"
  | .float => "float"
  | .str => "str"
  | .bool => "bool"
  | .noneType => "NoneType"
  | .secret => "SecretValue"
  | .list _ => "list"
  | .union _ => "Union"
  | .dataclass name _ => name

def isDataclass : FieldType → Bool
  | .dataclass _ _ => true
  | _ => false

def isSecret : FieldType → Bool
  | .secret => true
  | _ => false

def isNoneType : FieldType → Bool
  | .noneType => true
  | _ => false

mutual

def inner : FieldType → String
  | .noneType => "None"
  | .secret => "core.config.secrets.SecretValue"
  | .list item => "list[" ++ item.inner ++ "]"
  | .union args => " | ".intercalate (inners args)
  | t => t.name

def inners : List FieldType → List String
  | [] => []
  | t :: rest => t.inner :: inners rest

end

def toText : FieldType → Text
  | .list item => lit (FieldType.list item).inner
  | .union args => lit (FieldType.union args).inner
  | t => lit ("<class '" ++ t.inner ++ "'>")

end FieldType

/-- `core.config.exceptions.ValidationError`. -/
def configValidationError : ExnClass := .other "ValidationError"

namespace Validator

/-! ## core/config/validator.py -/

def coerce (py : Conversions) : FieldType → ConfigValue → Except Exn ConfigValue
  | .list item, .leaf (.list items) => do
    let items ← items.mapM (coerce py item)
    return .leaf (.list items)
  -- a string is taken apart at its commas, whatever the items are to be
  | .list _, .leaf (.str s) => .ok (.leaf (.list (ConfigValue.commaSeparated s)))
  | .list _, _ => .error ⟨.valueError, lit "Not a list"⟩
  | .int, v => do
    let i ← ConfigValue.toInt v
    return .leaf (.int i)
  | .float, v => do
    let x ← ConfigValue.toFloat py v
    return .leaf (.float x)
  | .str, v => do
    let s ← ConfigValue.str py v
    return .leaf (.str s)
  | .bool, v => .ok (.leaf (.bool (ConfigValue.toBool v)))
  | _, v => .ok v

def mismatch (value : ConfigValue) (expected : FieldType) (path : String) : Text :=
  lit ("Type mismatch at '" ++ path ++ "': expected ") ++ expected.toText ++
    lit (", got " ++ ConfigValue.typeName value)

/-- The loop of naive union matching: the first member that takes the value. -/
def firstMatch (py : Conversions) (value : ConfigValue) : List FieldType → Option ConfigValue
  | [] => none
  | t :: rest =>
    if t.isNoneType then firstMatch py value rest
    else
      match coerce py t value with
      | .ok v => some v
      | .error _ => firstMatch py value rest

/-- `SecretValue(str(value))`. -/
def wrapped (py : Conversions) (value : ConfigValue) : Except Exn ConfigValue := do
  let s ← ConfigValue.str py value
  return .leaf (.secret s)

/-- The branch of `_coerce_and_validate` for a union. -/
def coerceUnion (py : Conversions) (args : List FieldType) (value : ConfigValue) (path : String) :
    Except Exn ConfigValue :=
  match value, args.any FieldType.isNoneType, args.any FieldType.isSecret with
  | .leaf .none, true, _ => .ok (.leaf .none)
  -- with a secret among the members, `None` is let through whether it is one or not
  | .leaf .none, false, true => .ok (.leaf .none)
  | value, _, true => wrapped py value
  | value, _, false =>
    match firstMatch py value args with
    | some v => .ok v
    | none => .error ⟨configValidationError, mismatch value (.union args) path⟩

/-- The branch for a type that is no union. -/
def coercePlain (py : Conversions) (expected : FieldType) (value : ConfigValue) (path : String) :
    Except Exn ConfigValue :=
  match coerce py expected value with
  | .ok v => .ok v
  | .error exc =>
    .error ⟨configValidationError, mismatch value expected path ++ lit ". " ++ exc.message⟩

def coerceAndValidate (py : Conversions) (value : ConfigValue) (expected : FieldType)
    (path : String) : Except Exn ConfigValue :=
  match expected, value with
  | .union args, value => coerceUnion py args value path
  | .secret, .leaf .none =>
    .error ⟨configValidationError, lit ("Secret cannot be None at '" ++ path ++ "'")⟩
  | .secret, value => wrapped py value
  | .bool, .leaf (.str s) =>
    if s.toLower ∈ ["true", "1", "yes", "on"] then .ok (.leaf (.bool true))
    else if s.toLower ∈ ["false", "0", "no", "off"] then .ok (.leaf (.bool false))
    else .error ⟨configValidationError,
      lit ("Invalid boolean string '" ++ s ++ "' at '" ++ path ++ "'")⟩
  | expected, value => coercePlain py expected value path

def getNumber (cls : String) (fields : List (String × Built)) (name : String) :
    Except Exn (ConfigValue × PyFloat) :=
  match fields.lookup name with
  | some (.value v) =>
    match ConfigValue.number? v with
    | some x => .ok (v, x)
    | none => .error ⟨.typeError, lit ("comparison not supported between instances of '" ++
        ConfigValue.typeName v ++ "' and 'int'")⟩
  | some (.instance cls' _) =>
    .error ⟨.typeError, lit ("comparison not supported between instances of '" ++ cls' ++
      "' and 'int'")⟩
  | none =>
    .error ⟨.attributeError, lit ("'" ++ cls ++ "' object has no attribute '" ++ name ++ "'")⟩

/-- `raise ValidationError(f"{message}{v}")`: the value is printed first, and that may raise. -/
def refuse (py : Conversions) (message : String) (v : ConfigValue) : Except Exn Unit := do
  let s ← ConfigValue.str py v
  .error ⟨configValidationError, lit (message ++ s)⟩

def applyRules (py : Conversions) (cls : String) (fields : List (String × Built)) :
    Except Exn Unit :=
  if cls = "ServerConfig" then do
    let (port, portNumber) ← getNumber cls fields "port"
    if !(PyFloat.le (.finite 1) portNumber && PyFloat.le portNumber (.finite 65535)) then
      refuse py "Port must be between 1 and 65535, got " port
    let (timeout, timeoutNumber) ← getNumber cls fields "timeout"
    if PyFloat.lt timeoutNumber (.finite 0) then
      refuse py "Timeout must be >= 0, got " timeout
  else if cls = "KernelConfig" then do
    let (limit, limitNumber) ← getNumber cls fields "event_limit"
    if PyFloat.le limitNumber (.finite 0) then
      refuse py "Event limit must be positive, got " limit
  else .ok ()

def fieldPath (path fieldName : String) : String :=
  if path.isEmpty then fieldName else path ++ "." ++ fieldName

/-- A field whose name the table does not have. -/
def missing (default : Option Built) (path : String) : Except Exn Built :=
  match default with
  | some b => .ok b
  | none => .error ⟨configValidationError,
      lit ("Missing required configuration section/field: '" ++ path ++ "'")⟩

mutual

def validateAndBuild (py : Conversions) : FieldType → ConfigEntries → String → Except Exn Built
  | .dataclass name fields, rawData, path => do
    let kwargs ← buildFields py fields rawData path
    applyRules py name kwargs
    return .instance name kwargs
  | schema, _, _ =>
    .error ⟨configValidationError, lit ("Schema " ++ schema.name ++ " must be a dataclass.")⟩

/-- The loop over `dataclasses.fields(schema)`. -/
def buildFields (py : Conversions) :
    Fields → ConfigEntries → String → Except Exn (List (String × Built))
  | [], _, _ => .ok []
  | (fieldName, type, default) :: rest, rawData, path => do
    let path' := fieldPath path fieldName
    let b ← (
      match rawData.lookup fieldName with
      | none => missing default path'
      | some value =>
        if type.isDataclass then
          match value with
          | .table entries => validateAndBuild py type entries path'
          | .leaf l => .error ⟨configValidationError, lit ("Expected dictionary for '" ++ path' ++
              "', got " ++ ConfigValue.typeName (.leaf l))⟩
        else (coerceAndValidate py value type path').map Built.value)
    let kwargs ← buildFields py rest rawData path
    return (fieldName, b) :: kwargs

end

end Validator

end IraOS
