import IraOS.Config.Validator

/-!
# The schema

`core/config/schema.py`: the sections of the configuration, and what it is for something the
validator built to inhabit a type (`HasType`) and to keep to the domain rules (`Lawful`).

`Lawful` says what the messages of `_apply_rules` say, not what its comparisons do. A message that
promises a port from 1 to 65535, or a timeout of no less than zero, is taken at its word, so that it
shows where a comparison lets more through. `HasType` goes by the declared type: a value inhabits a
union if it inhabits a member, and an instance its class if its fields inhabit theirs, under the
same names and in the same order.
-/

set_option autoImplicit false

namespace IraOS

open Lib

/-! ## core/config/schema.py -/

namespace Schema

def IdentityConfig : FieldType := .dataclass "IdentityConfig" [("session_timeout", .int, none)]

def KernelConfig : FieldType := .dataclass "KernelConfig" [("event_limit", .int, none)]

def ServerConfig : FieldType :=
  .dataclass "ServerConfig" [("host", .str, none), ("port", .int, none), ("timeout", .float, none)]

def LoggingConfig : FieldType :=
  .dataclass "LoggingConfig" [("level", .str, none), ("format", .str, none)]

def SecurityConfig : FieldType :=
  .dataclass "SecurityConfig"
    [("api_key", .union [.secret, .noneType], some (.value (.leaf .none))),
     ("allowed_origins", .list .str, some (.value (.leaf (.list []))))]

def LLMConfig : FieldType :=
  .dataclass "LLMConfig"
    [("model", .str, none), ("temperature", .float, none), ("max_history", .int, none),
     ("provider_key", .union [.secret, .noneType], some (.value (.leaf .none)))]

def DatabaseConfig : FieldType :=
  .dataclass "DatabaseConfig"
    [("connection_string", .union [.secret, .str], none),
     ("max_connections", .int, some (.value (.leaf (.int 10))))]

def PluginConfig : FieldType :=
  .dataclass "PluginConfig"
    [("enabled", .bool, some (.value (.leaf (.bool true)))),
     ("plugin_dir", .str, some (.value (.leaf (.str "plugins"))))]

def AndroidConfig : FieldType :=
  .dataclass "AndroidConfig"
    [("enabled", .bool, some (.value (.leaf (.bool false)))),
     ("sync_interval", .int, some (.value (.leaf (.int 60))))]

def DesktopConfig : FieldType :=
  .dataclass "DesktopConfig"
    [("enabled", .bool, some (.value (.leaf (.bool true)))),
     ("theme", .str, some (.value (.leaf (.str "dark"))))]

def sections : Fields :=
  [("kernel", KernelConfig, none), ("server", ServerConfig, none),
   ("logging", LoggingConfig, none), ("security", SecurityConfig, none), ("llm", LLMConfig, none),
   ("database", DatabaseConfig, none), ("plugin", PluginConfig, none),
   ("android", AndroidConfig, none), ("desktop", DesktopConfig, none),
   ("identity", IdentityConfig, none)]

def IRAConfig : FieldType := .dataclass "IRAConfig" sections

end Schema

/-! ## Inhabiting a type -/

mutual

inductive HasType : Built → FieldType → Prop
  | int (i : Int) : HasType (.value (.leaf (.int i))) .int
  | float (x : PyFloat) : HasType (.value (.leaf (.float x))) .float
  | str (s : String) : HasType (.value (.leaf (.str s))) .str
  | bool (b : Bool) : HasType (.value (.leaf (.bool b))) .bool
  | noneType : HasType (.value (.leaf .none)) .noneType
  | secret (s : String) : HasType (.value (.leaf (.secret s))) .secret
  | list {items : List ConfigValue} {item : FieldType}
      (each : ∀ v ∈ items, HasType (.value v) item) :
      HasType (.value (.leaf (.list items))) (.list item)
  | union {b : Built} {t : FieldType} {args : List FieldType} (mem : t ∈ args) (h : HasType b t) :
      HasType b (.union args)
  | dataclass {name : String} {fields : Fields} {values : List (String × Built)}
      (h : HaveTypes values fields) : HasType (.instance name values) (.dataclass name fields)

inductive HaveTypes : List (String × Built) → Fields → Prop
  | nil : HaveTypes [] []
  | cons {fieldName : String} {b : Built} {type : FieldType} {default : Option Built}
      {values : List (String × Built)} {fields : Fields} (head : HasType b type)
      (tail : HaveTypes values fields) :
      HaveTypes ((fieldName, b) :: values) ((fieldName, type, default) :: fields)

end

/-- `None` inhabits the types that have it as a member. -/
theorem hasType_none_union {args : List FieldType} (flat : ∀ t ∈ args, ∀ args', t ≠ .union args') :
    HasType (.value (.leaf .none)) (.union args) ↔ FieldType.noneType ∈ args := by
  constructor
  · intro h
    cases h with
    | union mem h =>
      cases h with
      | noneType => exact mem
      | union => exact absurd rfl (flat _ mem _)
  · intro mem
    exact .union mem .noneType

/-! ## The domain rules -/

/-- What `_apply_rules` asks of an instance of a class, by its messages. -/
def Rules (cls : String) (values : List (String × Built)) : Prop :=
  (cls = "ServerConfig" →
    (∃ port, values.lookup "port" = some (.value (.leaf (.int port))) ∧
      1 ≤ port ∧ port ≤ 65535) ∧
    ∃ timeout, values.lookup "timeout" = some (.value (.leaf (.float timeout))) ∧
      PyFloat.le (.finite 0) timeout = true) ∧
  (cls = "KernelConfig" →
    ∃ limit, values.lookup "event_limit" = some (.value (.leaf (.int limit))) ∧ 0 < limit)

/-- Every instance in it keeps to the rules of its class. A value that is no instance of a class has
no rules to keep to, and the sections of a configuration are looked at one by one. -/
inductive Lawful : Built → Prop
  | value (v : ConfigValue) : Lawful (.value v)
  | inst {cls : String} {values : List (String × Built)} (rules : Rules cls values)
      (below : ∀ e ∈ values, Lawful e.2) : Lawful (.instance cls values)

end IraOS
