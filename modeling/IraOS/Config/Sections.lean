import IraOS.Config.Soundness

/-!
# The sections of the configuration

The validator on the schema of IRA. Every type in it is one the validator knows how to read, and the
rules are about fields that are there; of what can slip through, two paths are left. The connection
string of the database is `SecretValue | str` and may be `None` all the same, and the timeout of the
server may be a NaN.

So **what `validate_and_build` returns for this schema is sound just if the raw table has neither of
the two** (`sound_iff`), for every raw table it accepts. The general results are those of
`Config.Soundness`; here it is checked that the schema is of the kind they are about, and what their
conditions come to at its two paths.
-/

set_option autoImplicit false

namespace IraOS

open Lib

namespace Schema

variable {py : Conversions}

theorem supported_dataclass_iff {name : String} {fields : Fields} :
    Supported (.dataclass name fields) ↔ (∀ f ∈ fields, Supported f.2.1) ∧
      ∀ f ∈ fields, ∀ b, f.2.2 = some b → HasType b f.2.1 := by
  constructor
  · intro h
    cases h with
    | dataclass types defaults => exact ⟨types, defaults⟩
  · intro h
    exact .dataclass h.1 h.2

theorem supported_secretOr {t : FieldType} (flat : ∀ args', t ≠ .union args') :
    Supported (.union [.secret, t]) :=
  .secretUnion (by simp) (by simp [flat])

theorem hasType_none_secretOr : HasType (.value (.leaf .none)) (.union [.secret, .noneType]) :=
  .union (by simp) .noneType

theorem supported_IRAConfig : Supported IRAConfig := by
  simp [IRAConfig, sections, KernelConfig, ServerConfig, LoggingConfig, SecurityConfig, LLMConfig,
    DatabaseConfig, PluginConfig, AndroidConfig, DesktopConfig, IdentityConfig,
    supported_dataclass_iff, supported_secretOr, hasType_none_secretOr, Supported.int,
    Supported.float, Supported.str, Supported.bool, Supported.strings, HasType.int, HasType.str,
    HasType.bool, HasType.list]

theorem ruled_dataclass_iff {name : String} {fields : Fields} :
    Ruled (.dataclass name fields) ↔
      (name = "ServerConfig" →
        fields.lookup "port" = some (.int, none) ∧ fields.lookup "timeout" = some (.float, none)) ∧
      (name = "KernelConfig" → fields.lookup "event_limit" = some (.int, none)) ∧
      (∀ f ∈ fields, Ruled f.2.1) ∧ ∀ f ∈ fields, ∀ b, f.2.2 = some b → Lawful b := by
  constructor
  · intro h
    cases h with
    | plain h => cases h
    | dataclass server kernel types defaults => exact ⟨server, kernel, types, defaults⟩
  · rintro ⟨server, kernel, types, defaults⟩
    exact .dataclass server kernel types defaults

theorem ruled_IRAConfig : Ruled IRAConfig := by
  simp only [IRAConfig, sections, KernelConfig, ServerConfig, LoggingConfig, SecurityConfig,
    LLMConfig, DatabaseConfig, PluginConfig, AndroidConfig, DesktopConfig, IdentityConfig,
    ruled_dataclass_iff, List.forall_mem_cons]
  simp [Lawful.value]
  and_intros <;> first | exact .plain rfl | rfl

theorem look_section {raw : ConfigEntries} {s k : String} {l : ConfigLeaf} :
    (Nested.table raw).look [s, k] = .leaf l ↔
      ∃ entries, raw.lookup s = some (.table entries) ∧ entries.lookup k = some (.leaf l) := by
  rw [Nested.look_table_cons]
  cases raw.lookup s with
  | none => simp [Nested.reached, Found.under]
  | some v =>
    cases v with
    | leaf _ => simp [Nested.reached, Nested.look, Found.under]
    | table entries =>
      rw [Nested.reached, Nested.look_table_cons]
      cases h : entries.lookup k with
      | none => simp [Nested.reached, Found.under, h]
      | some v =>
        cases v with
        | leaf _ => simp [Nested.reached, Nested.look, Found.under, h]
        | table _ => simp [Nested.reached, Nested.look, Found.under, h]

theorem slips_union_iff {args : List FieldType} {value : ConfigValue} :
    Slips (.union args) value ↔ value = .leaf .none ∧ .secret ∈ args ∧ .noneType ∉ args := by
  constructor
  · intro h
    cases h with
    | here secret noNone => exact ⟨rfl, secret, noNone⟩
  · rintro ⟨rfl, secret, noNone⟩
    exact .here secret noNone

theorem slips_dataclass_iff {name : String} {fields : Fields} {value : ConfigValue} :
    Slips (.dataclass name fields) value ↔ ∃ entries, value = .table entries ∧
      ∃ f ∈ fields, ∃ v, entries.lookup f.1 = some v ∧ Slips f.2.1 v := by
  constructor
  · intro h
    cases h with
    | under field found h => exact ⟨_, rfl, _, field, _, found, h⟩
  · rintro ⟨entries, rfl, f, hf, v, found, h⟩
    exact .under hf found h

theorem slips_IRAConfig_iff {raw : ConfigEntries} :
    Slips IRAConfig (.table raw) ↔
      (Nested.table raw).look ["database", "connection_string"] = .leaf .none := by
  have int : ∀ v, ¬ Slips .int v := fun v => Validator.not_slips (by simp) rfl
  have float : ∀ v, ¬ Slips .float v := fun v => Validator.not_slips (by simp) rfl
  have str : ∀ v, ¬ Slips .str v := fun v => Validator.not_slips (by simp) rfl
  have bool : ∀ v, ¬ Slips .bool v := fun v => Validator.not_slips (by simp) rfl
  have strings : ∀ v, ¬ Slips (.list .str) v := fun v => Validator.not_slips (by simp) rfl
  rw [look_section]
  simp [IRAConfig, sections, KernelConfig, ServerConfig, LoggingConfig, SecurityConfig,
    LLMConfig, DatabaseConfig, PluginConfig, AndroidConfig, DesktopConfig, IdentityConfig,
    slips_dataclass_iff, slips_union_iff, int, float, str, bool, strings]

theorem nan_dataclass_iff {name : String} {fields : Fields} {value : ConfigValue} :
    NaNTimeout py (.dataclass name fields) value ↔ ∃ entries, value = .table entries ∧
      ((name = "ServerConfig" ∧
          ∃ v, entries.lookup "timeout" = some v ∧ ConfigValue.toFloat py v = .ok .nan) ∨
        ∃ f ∈ fields, ∃ v, entries.lookup f.1 = some v ∧ NaNTimeout py f.2.1 v) := by
  constructor
  · intro h
    cases h with
    | here found nan => exact ⟨_, rfl, Or.inl ⟨rfl, _, found, nan⟩⟩
    | under field found h => exact ⟨_, rfl, Or.inr ⟨_, field, _, found, h⟩⟩
  · rintro ⟨entries, rfl, ⟨rfl, v, found, nan⟩ | ⟨f, hf, v, found, h⟩⟩
    · exact .here found nan
    · exact .under hf found h

theorem nan_IRAConfig_iff {raw : ConfigEntries} :
    NaNTimeout py IRAConfig (.table raw) ↔
      ∃ l, (Nested.table raw).look ["server", "timeout"] = .leaf l ∧
        ConfigValue.toFloat py (.leaf l) = .ok .nan := by
  have plain : ∀ t : FieldType, t.isDataclass = false → ∀ v, ¬ NaNTimeout py t v := by
    intro t ht v h
    rw [Validator.isDataclass_of_nan h] at ht
    cases ht
  have hserver : NaNTimeout py IRAConfig (.table raw) ↔
      ∃ entries v, raw.lookup "server" = some (.table entries) ∧
        entries.lookup "timeout" = some v ∧ ConfigValue.toFloat py v = .ok .nan := by
    simp [IRAConfig, sections, KernelConfig, ServerConfig, LoggingConfig, SecurityConfig,
      LLMConfig, DatabaseConfig, PluginConfig, AndroidConfig, DesktopConfig, IdentityConfig,
      nan_dataclass_iff, plain .int rfl, plain .float rfl, plain .str rfl, plain .bool rfl,
      plain (.list .str) rfl, plain (.union [.secret, .noneType]) rfl,
      plain (.union [.secret, .str]) rfl]
  rw [hserver]
  constructor
  · rintro ⟨entries, v, hraw, found, nan⟩
    cases v with
    | leaf l => exact ⟨l, look_section.mpr ⟨entries, hraw, found⟩, nan⟩
    | table _ => cases nan
  · rintro ⟨l, hlook, nan⟩
    obtain ⟨entries, hraw, found⟩ := look_section.mp hlook
    exact ⟨entries, .leaf l, hraw, found, nan⟩

/-- **What `validate_and_build(IRAConfig, raw)` returns** is well typed and keeps to the rules if
and only if the raw table has no null for the connection string and no NaN for the timeout. The
timeout is looked at as it is converted, so a string that reads as a NaN counts as one. -/
theorem sound_iff {raw : ConfigTable ConfigLeaf} {built : Built}
    (h : Validator.validateAndBuild py IRAConfig raw.entries "" = .ok built) :
    (HasType built IRAConfig ∧ Lawful built) ↔
      raw.at? ["database", "connection_string"] ≠ .leaf .none ∧
      ∀ l, raw.at? ["server", "timeout"] = .leaf l →
        ConfigValue.toFloat py (.leaf l) ≠ .ok .nan := by
  have hplain : ∀ p l, raw.at? p = .leaf l ↔ (Nested.table raw.entries).look p = .leaf l := by
    intro p l
    show (raw.look p).plain = _ ↔ raw.look p = _
    cases raw.look p <;> simp [Found.plain]
  rw [Validator.validateAndBuild_hasType supported_IRAConfig h,
    Validator.validateAndBuild_lawful ruled_IRAConfig h, slips_IRAConfig_iff, nan_IRAConfig_iff]
  simp only [hplain, not_exists, not_and, ne_eq]

/-- CPython's conversions of small numbers, and none of the others. -/
def smallConversions : Conversions where
  strOf
    | .leaf .none => .ok "None"
    | .leaf (.bool b) => .ok (if b then "True" else "False")
    | .leaf (.int i) => .ok (toString i)
    | _ => .error ⟨.notImplementedError, []⟩
  floatOfStr _ := .error ⟨.notImplementedError, []⟩
  floatOfInt i := .ok (.finite i)

/-- The defaults (`get_default_dict`), with a connection string of one's own. -/
def rawEntries (connection : ConfigLeaf) : ConfigEntries :=
  [("kernel", .table [("event_limit", .leaf (.int 1000))]),
   ("server", .table [("host", .leaf (.str "127.0.0.1")), ("port", .leaf (.int 8080)),
     ("timeout", .leaf (.float (.finite 30)))]),
   ("logging", .table [("level", .leaf (.str "INFO")), ("format", .leaf (.str "%(message)s"))]),
   ("security", .table [("api_key", .leaf .none), ("allowed_origins", .leaf (.list []))]),
   ("llm", .table [("model", .leaf (.str "gpt-4o")), ("temperature", .leaf (.float (.finite 1))),
     ("max_history", .leaf (.int 50)), ("provider_key", .leaf .none)]),
   ("database", .table [("connection_string", .leaf connection),
     ("max_connections", .leaf (.int 10))]),
   ("plugin", .table []), ("android", .table []), ("desktop", .table []),
   ("identity", .table [("session_timeout", .leaf (.int 86400))])]

theorem rawEntries_distinct (connection : ConfigLeaf) :
    (Nested.table (rawEntries connection)).Distinct := by
  refine .table _ (by simp [rawEntries]) ?_
  simp only [rawEntries, List.forall_mem_cons]
  and_intros <;>
    first
    | exact .table _ (by simp) (by simp [Nested.Distinct.leaf])
    | simp

def rawTable (connection : ConfigLeaf) : ConfigTable ConfigLeaf :=
  ⟨rawEntries connection, rawEntries_distinct connection⟩

def builtWith (connection : ConfigLeaf) : Built :=
  .instance "IRAConfig"
    [("kernel", .instance "KernelConfig" [("event_limit", .value (.leaf (.int 1000)))]),
     ("server", .instance "ServerConfig" [("host", .value (.leaf (.str "127.0.0.1"))),
       ("port", .value (.leaf (.int 8080))), ("timeout", .value (.leaf (.float (.finite 30))))]),
     ("logging", .instance "LoggingConfig" [("level", .value (.leaf (.str "INFO"))),
       ("format", .value (.leaf (.str "%(message)s")))]),
     ("security", .instance "SecurityConfig" [("api_key", .value (.leaf .none)),
       ("allowed_origins", .value (.leaf (.list [])))]),
     ("llm", .instance "LLMConfig" [("model", .value (.leaf (.str "gpt-4o"))),
       ("temperature", .value (.leaf (.float (.finite 1)))),
       ("max_history", .value (.leaf (.int 50))), ("provider_key", .value (.leaf .none))]),
     ("database", .instance "DatabaseConfig" [("connection_string", .value (.leaf connection)),
       ("max_connections", .value (.leaf (.int 10)))]),
     ("plugin", .instance "PluginConfig" [("enabled", .value (.leaf (.bool true))),
       ("plugin_dir", .value (.leaf (.str "plugins")))]),
     ("android", .instance "AndroidConfig" [("enabled", .value (.leaf (.bool false))),
       ("sync_interval", .value (.leaf (.int 60)))]),
     ("desktop", .instance "DesktopConfig" [("enabled", .value (.leaf (.bool true))),
       ("theme", .value (.leaf (.str "dark")))]),
     ("identity", .instance "IdentityConfig" [("session_timeout", .value (.leaf (.int 86400)))])]

theorem connection_rawTable (connection : ConfigLeaf) :
    (rawTable connection).at? ["database", "connection_string"] = .leaf connection := rfl

theorem timeout_rawTable (connection : ConfigLeaf) :
    (rawTable connection).at? ["server", "timeout"] = .leaf (.float (.finite 30)) := rfl

theorem build_rawTable_str (s : String) :
    Validator.validateAndBuild smallConversions IRAConfig (rawTable (.str s)).entries "" =
      .ok (builtWith (.secret s)) := rfl

theorem build_rawTable_none :
    Validator.validateAndBuild smallConversions IRAConfig (rawTable .none).entries "" =
      .ok (builtWith .none) := rfl

theorem sound_sqlite :
    HasType (builtWith (.secret "sqlite:///:memory:")) IRAConfig ∧
      Lawful (builtWith (.secret "sqlite:///:memory:")) := by
  refine (sound_iff (build_rawTable_str "sqlite:///:memory:")).mpr ⟨?_, ?_⟩
  · rw [connection_rawTable]
    simp
  · intro l hl
    rw [timeout_rawTable] at hl
    injection hl with hl
    subst hl
    simp [ConfigValue.toFloat]

theorem none_connection :
    ¬ ∀ (py : Conversions) (raw : ConfigTable ConfigLeaf) (built : Built),
      Validator.validateAndBuild py IRAConfig raw.entries "" = .ok built →
        HasType built IRAConfig ∧ Lawful built := by
  intro h
  -- the connection string of the result is `None`, and its type has a secret and a string only
  obtain ⟨htyped, -⟩ := h smallConversions (rawTable .none) (builtWith .none) build_rawTable_none
  have hslips : Slips IRAConfig (.table (rawTable .none).entries) :=
    slips_IRAConfig_iff.mpr rfl
  exact (Validator.validateAndBuild_hasType supported_IRAConfig build_rawTable_none).mp htyped
    hslips

end Schema

end IraOS
