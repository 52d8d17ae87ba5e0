import IraOS.Config.EnvVars
import IraOS.Config.Escapes
import IraOS.Config.Manager
import IraOS.Lib.Act

/-!
# Loading the configuration

`ConfigurationManager.load` (`core/config/config.py`), with what the providers do where there is no
table: a file that is not there, or is no JSON, is an empty one, and a file of any other JSON is
handed on as it is. The merge takes it for a table. So what is at the root of the file decides
whether `load` gets to the validator at all, and then it is the validator's own affair what it
raises (`loadPath_refuses_iff`).

A load that raises has not touched the manager.

## Four sources

The defaults, the file, the environment and the overrides, in this order. Only the file can have
anything but a table at its root. What `json.load` does is given with the file, by three outcomes
that the provider tells apart: a value, an error that says the text is no JSON, and any other error,
which an integer of too many digits is, and so are bytes that are no text.

An empty list is no table and is not refused by the provider; `override.items()` raises an
`AttributeError` at it, and the loader has no handler.
-/

set_option autoImplicit false

namespace IraOS

open Lib

/-! ## core/config/providers.py -/

/-- What is at `json_path`. -/
inductive JsonFile where
  | absent
  /-- `json.load` raises a `JSONDecodeError`. -/
  | malformed
  /-- It raises something else: there is an integer of too many digits in the file, or bytes that
  are no text. -/
  | unreadable (exc : Exn) (other : exc.cls ≠ configValidationError)
  | content (v : ConfigValue) (distinct : v.Distinct)

abbrev ProviderData := { v : ConfigValue // v.Distinct }

namespace ConfigTable

def data (t : ConfigTable ConfigLeaf) : ProviderData := ⟨.table t.entries, t.distinct⟩

end ConfigTable

def JsonFileProvider.load : JsonFile → Except Exn ProviderData
  | .absent | .malformed => .ok ConfigTable.empty.data
  | .unreadable exc _ => .error exc
  | .content v distinct => .ok ⟨v, distinct⟩

/-! ## core/config/loader.py -/

namespace ConfigLoader

/-- `_deep_merge`, of whatever a provider answers: `override.items()` wants a table. -/
def mergeData (merged : ConfigTable ConfigLeaf) : ProviderData → Except Exn (ConfigTable ConfigLeaf)
  | ⟨.table entries, distinct⟩ => .ok (deepMerge merged ⟨entries, distinct⟩)
  | ⟨.leaf l, _⟩ => .error ⟨.attributeError,
      lit ("'" ++ ConfigValue.typeName (.leaf l) ++ "' object has no attribute 'items'")⟩

def loadAnswers (merged : ConfigTable ConfigLeaf) :
    List (Except Exn ProviderData) → Except Exn (ConfigTable ConfigLeaf)
  | [] => .ok merged
  | provider :: rest => do
    let providerData ← provider
    let merged ← mergeData merged providerData
    loadAnswers merged rest

end ConfigLoader

/-! ## core/config/config.py -/

namespace ConfigurationManager

def defaultEntries : ConfigEntries :=
  [("kernel", .table [("event_limit", .leaf (.int 1000))]),
   ("server", .table [("host", .leaf (.str "127.0.0.1")), ("port", .leaf (.int 8080)),
     ("timeout", .leaf (.float (.finite 30)))]),
   ("logging", .table [("level", .leaf (.str "INFO")),
     ("format", .leaf (.str "%(asctime)s - %(name)s - %(levelname)s - %(message)s"))]),
   ("security", .table [("api_key", .leaf .none), ("allowed_origins", .leaf (.list []))]),
   ("llm", .table [("model", .leaf (.str "gpt-4o")),
     -- the double that is written 0.7
     ("temperature", .leaf (.float (.finite (3152519739159347 / 4503599627370496)))),
     ("max_history", .leaf (.int 50)), ("provider_key", .leaf .none)]),
   ("database", .table [("connection_string", .leaf (.str "sqlite:///:memory:")),
     ("max_connections", .leaf (.int 10))]),
   ("plugin", .table [("enabled", .leaf (.bool true)), ("plugin_dir", .leaf (.str "plugins"))]),
   ("android", .table [("enabled", .leaf (.bool false)), ("sync_interval", .leaf (.int 60))]),
   ("desktop", .table [("enabled", .leaf (.bool true)), ("theme", .leaf (.str "dark"))]),
   ("identity", .table [("session_timeout", .leaf (.int 86400))])]

theorem defaultEntries_distinct : (Nested.table defaultEntries).Distinct := by
  refine .table _ (by simp [defaultEntries]) ?_
  simp only [defaultEntries, List.forall_mem_cons]
  and_intros <;>
    first
    | exact .table _ (by simp) (by simp [Nested.Distinct.leaf])
    | simp

def getDefaultDict : ConfigTable ConfigLeaf := ⟨defaultEntries, defaultEntries_distinct⟩

abbrev Manager := ConfigurationManager ConfigLeaf Built

/-- `load(json_path)`, of what is at `json_path` and an environment. -/
def loadPath (py : Conversions) (lower : String → String) (file : JsonFile)
    (environ : List (String × String)) : Act Manager Exn Empty Built := do
  let manager ← Act.get
  let rawData ← Act.ofExcept (ConfigLoader.loadAnswers .empty
    [.ok getDefaultDict.data, JsonFileProvider.load file,
      .ok (EnvVarProvider.load lower "IRA_" environ).data, .ok manager.runtimeOverrides.data])
  let config ← Act.ofExcept (Validator.validateAndBuild py Schema.IRAConfig rawData.entries "")
  Act.modify fun manager => { manager with config := some config }
  pure config

end ConfigurationManager

/-! ## What it comes to -/

/-- The table in the file, where there is one to take it for. -/
def JsonFile.table? : JsonFile → Option (ConfigTable ConfigLeaf)
  | .absent | .malformed => some .empty
  | .content (.table entries) distinct => some ⟨entries, distinct⟩
  | .unreadable _ _ | .content (.leaf _) _ => none

namespace ConfigurationManager

open Validator

variable {py : Conversions} {lower : String → String} {file : JsonFile}
  {environ : List (String × String)} {manager : Manager}

def sources (lower : String → String) (json : ConfigTable ConfigLeaf)
    (environ : List (String × String)) : ConfigSources ConfigLeaf where
  defaults := getDefaultDict
  json := json
  env := EnvVarProvider.load lower "IRA_" environ

/-- A file that is a table is merged between the defaults and the environment … -/
theorem loadAnswers_of_table {json : ConfigTable ConfigLeaf} (h : file.table? = some json) :
    ConfigLoader.loadAnswers .empty
        [.ok getDefaultDict.data, JsonFileProvider.load file,
          .ok (EnvVarProvider.load lower "IRA_" environ).data,
          .ok manager.runtimeOverrides.data] =
      .ok (manager.rawData (sources lower json environ)) := by
  have hdata : JsonFileProvider.load file = .ok json.data := by
    cases file with
    | absent | malformed =>
      obtain rfl := Option.some.inj h
      rfl
    | unreadable exc other => cases h
    | content v distinct =>
      cases v with
      | leaf l => cases h
      | table entries =>
        obtain rfl := Option.some.inj h
        rfl
  rw [hdata]
  rfl

/-- … and one that is not stops the merge, with no `ValidationError`. -/
theorem loadAnswers_escapes (h : file.table? = none) {rest : List (Except Exn ProviderData)} :
    Escapes (ConfigLoader.loadAnswers .empty
      (.ok getDefaultDict.data :: JsonFileProvider.load file :: rest)) := by
  cases file with
  | absent | malformed => cases h
  | unreadable exc other => exact escapes_error_iff.mpr other
  | content v distinct =>
    cases v with
    | table entries => cases h
    | leaf l => exact escapes_error_iff.mpr (by simp [configValidationError])

theorem loadPath_run (py : Conversions) (lower : String → String) (file : JsonFile)
    (environ : List (String × String)) (manager : Manager) :
    (loadPath py lower file environ manager).result =
      (ConfigLoader.loadAnswers .empty
        [.ok getDefaultDict.data, JsonFileProvider.load file,
          .ok (EnvVarProvider.load lower "IRA_" environ).data,
          .ok manager.runtimeOverrides.data] >>=
        fun rawData => validateAndBuild py Schema.IRAConfig rawData.entries "") ∧
      ∀ exc, (loadPath py lower file environ manager).result = .error exc →
        (loadPath py lower file environ manager).state = manager := by
  unfold loadPath
  rw [Act.run_bind_of_ok (Act.run_get manager)]
  dsimp only
  cases hraw : ConfigLoader.loadAnswers .empty
      [.ok getDefaultDict.data, JsonFileProvider.load file,
        .ok (EnvVarProvider.load lower "IRA_" environ).data,
        .ok manager.runtimeOverrides.data] with
  | error exc => exact ⟨rfl, fun _ _ => rfl⟩
  | ok rawData =>
    rw [Act.run_bind_of_ok (Act.run_ofExcept _ manager)]
    cases hbuilt : validateAndBuild py Schema.IRAConfig rawData.entries "" with
    | error exc =>
      rw [Act.run_bind_of_error (Act.run_ofExcept _ manager)]
      exact ⟨hbuilt.symm, fun _ _ => rfl⟩
    | ok config =>
      rw [Act.run_bind_of_ok (Act.run_ofExcept _ manager)]
      refine ⟨hbuilt.symm, ?_⟩
      intro exc hexc
      cases hexc

theorem loadPath_eq_load {json : ConfigTable ConfigLeaf} (h : file.table? = some json) :
    (loadPath py lower file environ manager).result =
      (load (fun raw => validateAndBuild py Schema.IRAConfig raw.entries "")
        (sources lower json environ) manager).map Prod.fst := by
  rw [(loadPath_run ..).1, loadAnswers_of_table h]
  show validateAndBuild py Schema.IRAConfig (manager.rawData (sources lower json environ)).entries
    "" = _
  unfold load
  dsimp only
  cases validateAndBuild py Schema.IRAConfig
    (manager.rawData (sources lower json environ)).entries "" <;> rfl

/-- **A load raises nothing but a `ValidationError`**, and leaves the configuration that was loaded
before, just if there is a table in the file to merge, and the validator does not trip over the
merged one. -/
theorem loadPath_refuses_iff (py : Conversions) (lower : String → String) (file : JsonFile)
    (environ : List (String × String)) (manager : Manager) :
    (∀ exc, (loadPath py lower file environ manager).result = .error exc →
        exc.cls = configValidationError ∧
          (loadPath py lower file environ manager).state.config = manager.config) ↔
      ∃ json, file.table? = some json ∧
        ¬ Trips py Schema.IRAConfig (manager.rawData (sources lower json environ)).entries "" := by
  obtain ⟨hresult, hstate⟩ := loadPath_run py lower file environ manager
  have hescapes : (∀ exc, (loadPath py lower file environ manager).result = .error exc →
        exc.cls = configValidationError ∧
          (loadPath py lower file environ manager).state.config = manager.config) ↔
      ¬ Escapes (loadPath py lower file environ manager).result := by
    constructor
    · rintro hall ⟨exc, hexc, hcls⟩
      exact hcls (hall exc hexc).1
    · intro hnot exc hexc
      refine ⟨?_, by rw [hstate exc hexc]⟩
      by_contra hcls
      exact hnot ⟨exc, hexc, hcls⟩
  rw [hescapes, hresult, escapes_bind_iff]
  cases htable : file.table? with
  | none =>
    simp only [reduceCtorEq, false_and, exists_false, iff_false, not_not]
    exact Or.inl (loadAnswers_escapes htable)
  | some json =>
    rw [loadAnswers_of_table htable]
    simp [not_escapes_ok, validateAndBuild_escapes_iff Schema.ruled_IRAConfig]

/-! ## A file that holds a list -/

/-- A load of `[]`, with no environment and no overrides. -/
def loadingList : Run Manager Exn Empty Built :=
  loadPath Schema.smallConversions EnvVarProvider.lowerLetters
    (.content (.leaf (.list [])) (.leaf _)) [] {}

theorem list_escapes :
    loadingList.result = .error ⟨.attributeError, lit "'list' object has no attribute 'items'"⟩ ∧
      ¬ ∀ exc, loadingList.result = .error exc →
        exc.cls = configValidationError ∧ loadingList.state.config = none := by
  have hresult : loadingList.result =
      .error ⟨.attributeError, lit "'list' object has no attribute 'items'"⟩ := rfl
  refine ⟨hresult, fun hall => ?_⟩
  have hcls := (hall _ hresult).1
  simp [configValidationError] at hcls

end ConfigurationManager

end IraOS
