import IraOS.Config.Loader
import IraOS.Core.Value

/-!
# Runtime overrides

`ConfigurationManager` (`core/config/config.py`): `override` lays each map over the ones before it
in `_runtime_overrides`, and `load` has that one table as its fourth provider. **The overrides are
one layer**, and a layer has no way to say that something below it is to go: once an override puts a
leaf where the configuration has a table, and a later one a table where that leaf was, the two
together are a table, and what the configuration had under it is back.

That is all that can come of it. What `load` validates differs from the overrides applied to the
loaded configuration one after another at the paths that are `Resurrected`, and nowhere else.

## Two ways to put layers together

Laying tables over one another is associative up to such paths, which is a fact about nested tables
(`Lib.Nested`): the overrides among themselves first and then over the rest, as the code does it, or
one after another over the rest, as a reader of the code would have it. The condition is on the
overrides and on what is below them, so it can be told before loading whether something would come
back.
-/

set_option autoImplicit false

namespace IraOS

open Lib

/-- What the first three providers answer: `get_default_dict()`, the JSON file, the environment. -/
structure ConfigSources (α : Type) where
  defaults : ConfigTable α
  json : ConfigTable α
  env : ConfigTable α

/-- The manager, for configurations of a type `C`. What it has loaded last and what has been
overridden are all it keeps; the sources are read anew with every load. -/
structure ConfigurationManager (α C : Type) where
  config : Option C := none
  runtimeOverrides : ConfigTable α := .empty

namespace ConfigurationManager

variable {α C ε : Type}


def override (self : ConfigurationManager α C) (overrides : ConfigTable α) :
    ConfigurationManager α C :=
  { self with runtimeOverrides := ConfigLoader.deepMerge self.runtimeOverrides overrides }

/-- The `raw_data` of `load`. -/
def rawData (self : ConfigurationManager α C) (sources : ConfigSources α) : ConfigTable α :=
  let loader : ConfigLoader α := {}
  let loader := loader.addProvider sources.defaults
  let loader := loader.addProvider sources.json
  let loader := loader.addProvider sources.env
  let loader := loader.addProvider self.runtimeOverrides
  loader.loadRaw

/-- `load`, by what `Validator.validate_and_build` makes of the raw data. -/
def load (validateAndBuild : ConfigTable α → Except ε C) (sources : ConfigSources α)
    (self : ConfigurationManager α C) : Except ε (C × ConfigurationManager α C) := do
  let config ← validateAndBuild (self.rawData sources)
  return (config, { self with config := some config })

/-! ## The overrides as one layer, and one after another -/

end ConfigurationManager

def ConfigSources.loaded {α : Type} (sources : ConfigSources α) : ConfigTable α :=
  (ConfigLoader.mk [sources.defaults, sources.json, sources.env]).loadRaw

namespace ConfigurationManager

variable {α C : Type}

/-- The overrides applied to the loaded configuration one after another. -/
def inTurn (sources : ConfigSources α) (overrides : List (ConfigTable α)) : ConfigTable α :=
  overrides.foldl ConfigLoader.deepMerge sources.loaded

/-- The configuration has something at a path, an override cuts that path off with a leaf, and a
later override puts a table in the place of that leaf without anything at the path having been
written since. -/
def Resurrected (sources : ConfigSources α) (overrides : List (ConfigTable α)) (p : List String) :
    Prop :=
  sources.loaded.at? p ≠ .absent ∧ Reopens ConfigTable.look overrides p

theorem runtimeOverrides_foldl (self : ConfigurationManager α C)
    (overrides : List (ConfigTable α)) :
    (overrides.foldl override self).runtimeOverrides =
      overrides.foldl ConfigLoader.deepMerge self.runtimeOverrides := by
  induction overrides generalizing self with
  | nil => rfl
  | cons o rest ih => exact ih (self.override o)

theorem rawData_eq (self : ConfigurationManager α C) (sources : ConfigSources α) :
    self.rawData sources = ConfigLoader.deepMerge sources.loaded self.runtimeOverrides := rfl

theorem not_reopens_nil (overrides : List (ConfigTable α)) :
    ¬ Reopens ConfigTable.look overrides [] := by
  rintro ⟨o, -, -, -, n, hcut, -⟩
  simp at hcut

theorem at_of_resurrected {sources : ConfigSources α} {overrides : List (ConfigTable α)}
    {p : List String} (h : Resurrected sources overrides p) :
    (inTurn sources overrides).at? p = .absent ∧
      ((overrides.foldl override ({} : ConfigurationManager α C)).rawData sources).at? p =
        sources.loaded.at? p := by
  rw [rawData_eq, runtimeOverrides_foldl]
  cases p with
  | nil => exact absurd h.2 (not_reopens_nil overrides)
  | cons k p =>
    exact plain_of_reopens ConfigTable.look ConfigLoader.deepMerge ConfigLoader.look_deepMerge
      sources.loaded (ConfigTable.look_empty k p) h.2

theorem at_of_not_resurrected {sources : ConfigSources α} {overrides : List (ConfigTable α)}
    {p : List String} (h : ¬ Resurrected sources overrides p) :
    ((overrides.foldl override ({} : ConfigurationManager α C)).rawData sources).at? p =
      (inTurn sources overrides).at? p := by
  rw [rawData_eq, runtimeOverrides_foldl]
  cases p with
  | nil => rfl
  | cons k p =>
    have hempty : (ConfigTable.empty : ConfigTable α).look (k :: p) = .absent :=
      ConfigTable.look_empty k p
    by_cases hre : Reopens ConfigTable.look overrides (k :: p)
    · have habsent : sources.loaded.at? (k :: p) = .absent :=
        not_ne_iff.mp fun hne => h ⟨hne, hre⟩
      have hboth := plain_of_reopens ConfigTable.look ConfigLoader.deepMerge
        ConfigLoader.look_deepMerge sources.loaded hempty hre
      exact (hboth.2.trans habsent).trans hboth.1.symm
    · exact plain_of_not_reopens ConfigTable.look ConfigLoader.deepMerge
        ConfigLoader.look_deepMerge sources.loaded hempty hre

/-- **What `load` validates** is the deep merge of the three layers and of the overrides one after
another, if and only if the overrides resurrect nothing. The two differ at the paths that are
resurrected and nowhere else, so one such path is enough for them to be different. -/
theorem rawData_same_inTurn_iff (sources : ConfigSources α) (overrides : List (ConfigTable α)) :
    ((overrides.foldl override ({} : ConfigurationManager α C)).rawData sources).Same
        (inTurn sources overrides) ↔
      ∀ p, ¬ Resurrected sources overrides p := by
  constructor
  · intro hsame p hres
    obtain ⟨hturn, hraw⟩ := at_of_resurrected (C := C) hres
    exact hres.1 ((hraw.symm.trans (hsame p)).trans hturn)
  · intro hno p
    exact at_of_not_resurrected (hno p)

/-! ## A server that loses its port and gets its host back -/

def serverTable (value : Nested String PyValue) (h : value.Distinct) : ConfigTable PyValue :=
  ⟨[("server", value)], .table _ (by simp) (by simpa using h)⟩

/-- `{"server": {"host": "0.0.0.0", "port": 8000}}`, and nothing else anywhere. -/
def serverSources : ConfigSources PyValue where
  defaults := serverTable (.table [("host", .leaf (.str "0.0.0.0")), ("port", .leaf (.int 8000))])
    (.table _ (by simp) (by simp [Nested.Distinct.leaf]))
  json := .empty
  env := .empty

/-- `override({"server": None})`, then `override({"server": {"port": 9000}})`. -/
def serverOverrides : List (ConfigTable PyValue) :=
  [serverTable (.leaf .none) (.leaf _),
   serverTable (.table [("port", .leaf (.int 9000))]) (.table _ (by simp)
    (by simp [Nested.Distinct.leaf]))]

theorem host_resurrected :
    ¬ ((serverOverrides.foldl override ({} : ConfigurationManager PyValue Unit)).rawData
        serverSources).Same (inTurn serverSources serverOverrides) := by
  intro hsame
  have hhost := hsame ["server", "host"]
  have hraw : ((serverOverrides.foldl override ({} : ConfigurationManager PyValue Unit)).rawData
      serverSources).at? ["server", "host"] = .leaf (.str "0.0.0.0") := rfl
  have hturn : (inTurn serverSources serverOverrides).at? ["server", "host"] = .absent := rfl
  rw [hraw, hturn] at hhost
  cases hhost

end ConfigurationManager

end IraOS
