import IraOS.Config.Schema
import IraOS.Lib.Act

/-!
# What the validator lets through

`validate_and_build` is sound for the types it knows how to read, with one exception that is not
about the schema of IRA: **a union with `SecretValue` in it takes `None`** whether it has `None` as
a member or not, where a plain `SecretValue` refuses it. So what is returned inhabits its type if
and only if nothing of the kind `Slips` (`validateAndBuild_hasType`).

The rules have an exception of their own. A NaN is not below zero, and that is all `timeout` is
asked; the message promises that it is at least zero.

## What the results are about

`Supported` is the class of types the validator reads as declared: scalars, lists of strings, flat
unions with a secret in them, and dataclasses of these. A list of numbers is not among them: a
string in its place is taken apart at the commas and stays a list of strings. `Ruled` asks of a
schema that the rules, which go by the name of a class, find the fields they are about.

Both exceptions are relations on the raw table and not on the result: `Slips` follows the schema
down to a field for which the table has a `None`.

## The proof

A value, a field, the fields of a class, a schema: one lemma for each, and the induction is on the
schema. A field's value may be its default, which is not looked at by the validator; so the defaults
have to inhabit their types, which is part of `Supported`.
-/

set_option autoImplicit false

namespace IraOS

open Lib

/-! ## Where `None` slips through -/

inductive Slips : FieldType → ConfigValue → Prop
  | here {args : List FieldType} (secret : FieldType.secret ∈ args)
      (noNone : FieldType.noneType ∉ args) : Slips (.union args) (.leaf .none)
  | under {name fieldName : String} {fields : Fields} {type : FieldType} {default : Option Built}
      {entries : ConfigEntries} {value : ConfigValue}
      (field : (fieldName, type, default) ∈ fields) (found : entries.lookup fieldName = some value)
      (h : Slips type value) : Slips (.dataclass name fields) (.table entries)

/-- The types whose conversions give what they say: the scalars, lists of strings, flat unions with
a secret in them, and dataclasses of these whose defaults inhabit their types. A list of anything
else is not among them, as a string becomes a list of strings. -/
inductive Supported : FieldType → Prop
  | int : Supported .int
  | float : Supported .float
  | str : Supported .str
  | bool : Supported .bool
  | secret : Supported .secret
  | strings : Supported (.list .str)
  | secretUnion {args : List FieldType} (secret : FieldType.secret ∈ args)
      (flat : ∀ t ∈ args, ∀ args', t ≠ .union args') : Supported (.union args)
  | dataclass {name : String} {fields : Fields} (types : ∀ f ∈ fields, Supported f.2.1)
      (defaults : ∀ f ∈ fields, ∀ b, f.2.2 = some b → HasType b f.2.1) :
      Supported (.dataclass name fields)

/-! ## Where a NaN slips through -/

inductive NaNTimeout (py : Conversions) : FieldType → ConfigValue → Prop
  | here {fields : Fields} {entries : ConfigEntries} {value : ConfigValue}
      (found : entries.lookup "timeout" = some value)
      (nan : ConfigValue.toFloat py value = .ok .nan) :
      NaNTimeout py (.dataclass "ServerConfig" fields) (.table entries)
  | under {name fieldName : String} {fields : Fields} {type : FieldType} {default : Option Built}
      {entries : ConfigEntries} {value : ConfigValue}
      (field : (fieldName, type, default) ∈ fields) (found : entries.lookup fieldName = some value)
      (h : NaNTimeout py type value) : NaNTimeout py (.dataclass name fields) (.table entries)

/-- The rules are about fields that the classes have, and have to be given. A rule that asked for a
field which is not there would raise an `AttributeError`, and no `ValidationError`. -/
inductive Ruled : FieldType → Prop
  | plain {t : FieldType} (h : t.isDataclass = false) : Ruled t
  | dataclass {name : String} {fields : Fields}
      (server : name = "ServerConfig" →
        fields.lookup "port" = some (.int, none) ∧ fields.lookup "timeout" = some (.float, none))
      (kernel : name = "KernelConfig" → fields.lookup "event_limit" = some (.int, none))
      (types : ∀ f ∈ fields, Ruled f.2.1)
      (defaults : ∀ f ∈ fields, ∀ b, f.2.2 = some b → Lawful b) : Ruled (.dataclass name fields)

namespace Validator

variable {py : Conversions} {value v : ConfigValue} {path : String}

/-! ## One value -/

theorem isSecret_iff {args : List FieldType} :
    args.any FieldType.isSecret = true ↔ FieldType.secret ∈ args := by
  rw [List.any_eq_true]
  constructor
  · rintro ⟨t, ht, hsecret⟩
    cases t <;> first | exact ht | cases hsecret
  · intro h
    exact ⟨.secret, h, rfl⟩

theorem wrapped_eq (h : wrapped py value = .ok v) : ∃ s, v = .leaf (.secret s) := by
  obtain ⟨s, -, hs⟩ := bind_eq_ok.mp h
  injection hs with hs
  exact ⟨s, hs.symm⟩

theorem coercePlain_eq {t : FieldType} (h : coercePlain py t value path = .ok v) :
    coerce py t value = .ok v := by
  rw [coercePlain] at h
  cases hc : coerce py t value with
  | ok w =>
    rw [hc] at h
    exact h
  | error exc =>
    rw [hc] at h
    cases h

theorem coerceStrings_hasType (h : coerce py (.list .str) value = .ok v) :
    HasType (.value v) (.list .str) := by
  match value, h with
  | .leaf (.list items), h =>
    obtain ⟨items', hitems, hv⟩ := bind_eq_ok.mp h
    injection hv with hv
    subst hv
    refine .list fun w hw => ?_
    obtain ⟨x, -, hx⟩ := exists_of_mem_mapM hitems hw
    obtain ⟨s, -, hs⟩ := bind_eq_ok.mp hx
    injection hs with hs
    exact hs ▸ .str s
  | .leaf (.str s), h =>
    injection h with h
    subst h
    refine .list fun w hw => ?_
    obtain ⟨cs, -, rfl⟩ := List.mem_map.mp hw
    exact .str _

/-- A flat union with a secret in it: what comes out inhabits it, unless it was a `None` that it
does not have. -/
theorem coerceUnion_hasType {args : List FieldType} (secret : FieldType.secret ∈ args)
    (flat : ∀ t ∈ args, ∀ args', t ≠ .union args')
    (h : coerceUnion py args value path = .ok v) :
    HasType (.value v) (.union args) ↔ ¬ Slips (.union args) value := by
  have hany : args.any FieldType.isSecret = true := isSecret_iff.mpr secret
  by_cases hvalue : value = .leaf .none
  -- it is `None`, and comes out as it went in
  · have hv : v = .leaf .none := by
      subst hvalue
      unfold coerceUnion at h
      rw [hany] at h
      cases hnone : args.any FieldType.isNoneType <;>
        · rw [hnone] at h
          injection h with h
          exact h.symm
    subst hvalue hv
    rw [hasType_none_union flat]
    constructor
    · intro mem hslips
      cases hslips with
      | here _ noNone => exact noNone mem
    · intro hslips
      exact Classical.byContradiction fun noNone => hslips (.here secret noNone)
  -- whatever else it is, it is printed and wrapped
  · have hwrapped : wrapped py value = .ok v := by
      unfold coerceUnion at h
      rw [hany] at h
      split at h
      · exact absurd rfl hvalue
      · exact absurd rfl hvalue
      · exact h
      · exact absurd ‹true = false› (by simp)
    obtain ⟨s, rfl⟩ := wrapped_eq hwrapped
    constructor
    · intro _ hslips
      cases hslips
      exact hvalue rfl
    · intro _
      exact .union secret (.secret s)

theorem not_slips {t : FieldType} (hunion : ∀ args, t ≠ .union args)
    (hclass : t.isDataclass = false) : ¬ Slips t value := by
  intro h
  cases h with
  | here => exact hunion _ rfl
  | under => cases hclass

theorem coerceAndValidate_bool (h : coerceAndValidate py value .bool path = .ok v) :
    ∃ b, v = .leaf (.bool b) := by
  match value, h with
  | .leaf (.str s), h =>
    simp only [coerceAndValidate] at h
    split_ifs at h
    · injection h with h
      exact ⟨true, h.symm⟩
    · injection h with h
      exact ⟨false, h.symm⟩
  | .leaf .none, h | .leaf (.bool _), h | .leaf (.int _), h | .leaf (.float _), h
  | .leaf (.secret _), h | .leaf (.list _), h | .table _, h =>
    have hv : coerce py .bool _ = .ok v := @coercePlain_eq py _ _ path _ h
    injection hv with hv
    exact ⟨_, hv.symm⟩

theorem coerceAndValidate_secret (h : coerceAndValidate py value .secret path = .ok v) :
    ∃ s, v = .leaf (.secret s) := by
  match value, h with
  | .leaf .none, h => cases h
  | .leaf (.bool _), h | .leaf (.int _), h | .leaf (.float _), h | .leaf (.str _), h
  | .leaf (.secret _), h | .leaf (.list _), h | .table _, h => exact wrapped_eq h

theorem coerceAndValidate_hasType {t : FieldType} (ht : Supported t)
    (hclass : t.isDataclass = false) (h : coerceAndValidate py value t path = .ok v) :
    HasType (.value v) t ↔ ¬ Slips t value := by
  cases ht with
  | int =>
    obtain ⟨i, -, hv⟩ := bind_eq_ok.mp (coercePlain_eq (t := .int) h)
    injection hv with hv
    exact iff_of_true (hv ▸ .int i) (not_slips (by simp) rfl)
  | float =>
    obtain ⟨x, -, hv⟩ := bind_eq_ok.mp (coercePlain_eq (t := .float) h)
    injection hv with hv
    exact iff_of_true (hv ▸ .float x) (not_slips (by simp) rfl)
  | str =>
    obtain ⟨s, -, hv⟩ := bind_eq_ok.mp (coercePlain_eq (t := .str) h)
    injection hv with hv
    exact iff_of_true (hv ▸ .str s) (not_slips (by simp) rfl)
  | bool =>
    obtain ⟨b, rfl⟩ := coerceAndValidate_bool h
    exact iff_of_true (.bool b) (not_slips (by simp) rfl)
  | secret =>
    obtain ⟨s, rfl⟩ := coerceAndValidate_secret h
    exact iff_of_true (.secret s) (not_slips (by simp) rfl)
  | strings =>
    exact iff_of_true (coerceStrings_hasType (coercePlain_eq (t := .list .str) h))
      (not_slips (by simp) rfl)
  | secretUnion secret flat => exact coerceUnion_hasType secret flat h
  | dataclass => cases hclass

/-! ## One field -/

/-- What the loop makes of one field. -/
def buildField (py : Conversions) (f : String × FieldType × Option Built) (rawData : ConfigEntries)
    (path : String) : Except Exn Built :=
  match rawData.lookup f.1 with
  | none => missing f.2.2 path
  | some value =>
    if f.2.1.isDataclass then
      match value with
      | .table entries => validateAndBuild py f.2.1 entries path
      | .leaf l => .error ⟨configValidationError, lit ("Expected dictionary for '" ++ path ++
          "', got " ++ ConfigValue.typeName (.leaf l))⟩
    else (coerceAndValidate py value f.2.1 path).map Built.value

variable {f : String × FieldType × Option Built} {fields : Fields} {rawData : ConfigEntries}
  {b : Built} {values : List (String × Built)}

theorem buildFields_cons_ok (h : buildFields py (f :: fields) rawData path = .ok values) :
    ∃ b rest, buildField py f rawData (fieldPath path f.1) = .ok b ∧
      buildFields py fields rawData path = .ok rest ∧ values = (f.1, b) :: rest := by
  obtain ⟨fieldName, type, default⟩ := f
  rw [buildFields] at h
  obtain ⟨b, hb, h⟩ := bind_eq_ok.mp h
  obtain ⟨rest, hrest, h⟩ := bind_eq_ok.mp h
  injection h with h
  exact ⟨b, rest, hb, hrest, h.symm⟩

theorem buildField_cases (h : buildField py f rawData path = .ok b) :
    (rawData.lookup f.1 = none ∧ f.2.2 = some b) ∨
    (∃ entries, rawData.lookup f.1 = some (.table entries) ∧
      validateAndBuild py f.2.1 entries path = .ok b) ∨
    (∃ value v, rawData.lookup f.1 = some value ∧ f.2.1.isDataclass = false ∧
      coerceAndValidate py value f.2.1 path = .ok v ∧ b = .value v) := by
  rw [buildField] at h
  cases hraw : rawData.lookup f.1 with
  | none =>
    rw [hraw] at h
    cases hdefault : f.2.2 with
    | none => simp [missing, hdefault] at h
    | some d =>
      simp only [missing, hdefault, Except.ok.injEq] at h
      exact Or.inl ⟨rfl, congrArg some h⟩
  | some value =>
    simp only [hraw] at h
    cases hclass : f.2.1.isDataclass with
    | true =>
      rw [hclass, if_pos rfl] at h
      cases value with
      | leaf l => cases h
      | table entries => exact Or.inr (Or.inl ⟨entries, rfl, h⟩)
    | false =>
      rw [hclass, if_neg (by simp)] at h
      cases hv : coerceAndValidate py value f.2.1 path with
      | error exc =>
        rw [hv] at h
        cases h
      | ok v =>
        rw [hv] at h
        injection h with h
        exact Or.inr (Or.inr ⟨value, v, rfl, rfl, hv, h.symm⟩)

def BuiltFrom (py : Conversions) (rawData : ConfigEntries) (path : String)
    (f : String × FieldType × Option Built) (e : String × Built) : Prop :=
  e.1 = f.1 ∧ buildField py f rawData (fieldPath path f.1) = .ok e.2

theorem buildFields_ok (h : buildFields py fields rawData path = .ok values) :
    List.Forall₂ (BuiltFrom py rawData path) fields values := by
  induction fields generalizing values with
  | nil =>
    injection h with h
    subst h
    exact .nil
  | cons f fields ih =>
    obtain ⟨b, rest, hb, hrest, rfl⟩ := buildFields_cons_ok h
    exact .cons ⟨rfl, hb⟩ (ih hrest)

/-! ## A schema -/

theorem validateAndBuild_ok {name : String}
    (h : validateAndBuild py (.dataclass name fields) rawData path = .ok b) :
    ∃ values, buildFields py fields rawData path = .ok values ∧
      applyRules py name values = .ok () ∧ b = .instance name values := by
  rw [validateAndBuild] at h
  obtain ⟨values, hvalues, h⟩ := bind_eq_ok.mp h
  obtain ⟨⟨⟩, hrules, h⟩ := bind_eq_ok.mp h
  injection h with h
  exact ⟨values, hvalues, hrules, h.symm⟩

theorem buildField_hasType (ht : Supported f.2.1)
    (hdefault : ∀ b, f.2.2 = some b → HasType b f.2.1)
    (ih : ∀ rawData path b, validateAndBuild py f.2.1 rawData path = .ok b →
      (HasType b f.2.1 ↔ ¬ Slips f.2.1 (.table rawData)))
    (h : buildField py f rawData path = .ok b) :
    HasType b f.2.1 ↔ ∀ value, rawData.lookup f.1 = some value → ¬ Slips f.2.1 value := by
  rcases buildField_cases h with ⟨hraw, hb⟩ | ⟨entries, hraw, hb⟩ |
    ⟨value, v, hraw, hclass, hv, rfl⟩
  · simp only [hraw, reduceCtorEq, false_implies, implies_true, iff_true]
    exact hdefault b hb
  · simp only [hraw, Option.some.injEq, forall_eq']
    exact ih entries path b hb
  · simp only [hraw, Option.some.injEq, forall_eq']
    exact coerceAndValidate_hasType ht hclass hv

theorem haveTypes_iff (types : ∀ f ∈ fields, Supported f.2.1)
    (defaults : ∀ f ∈ fields, ∀ b, f.2.2 = some b → HasType b f.2.1)
    (ih : ∀ f ∈ fields, ∀ rawData path b, validateAndBuild py f.2.1 rawData path = .ok b →
      (HasType b f.2.1 ↔ ¬ Slips f.2.1 (.table rawData)))
    (h : List.Forall₂ (BuiltFrom py rawData path) fields values) :
    HaveTypes values fields ↔
      ∀ f ∈ fields, ∀ value, rawData.lookup f.1 = some value → ¬ Slips f.2.1 value := by
  induction h with
  | nil => simp [HaveTypes.nil]
  | @cons f e fields values hbuilt _ ihfields =>
    obtain ⟨fieldName, type, default⟩ := f
    obtain ⟨name, b⟩ := e
    obtain ⟨rfl, hb⟩ := hbuilt
    have hhead := buildField_hasType (types _ (by simp)) (defaults _ (by simp)) (ih _ (by simp)) hb
    have htail := ihfields (fun g hg => types g (List.mem_cons_of_mem _ hg))
      (fun g hg => defaults g (List.mem_cons_of_mem _ hg))
      (fun g hg => ih g (List.mem_cons_of_mem _ hg))
    rw [List.forall_mem_cons, ← hhead, ← htail]
    constructor
    · intro h
      cases h with
      | cons head tail => exact ⟨head, tail⟩
    · intro h
      exact .cons h.1 h.2

/-- What is returned inhabits the schema if and only if no `None` slipped through. -/
theorem validateAndBuild_hasType {t : FieldType} (ht : Supported t)
    (h : validateAndBuild py t rawData path = .ok b) :
    HasType b t ↔ ¬ Slips t (.table rawData) := by
  induction ht generalizing rawData path b with
  | int | float | str | bool | secret | strings | secretUnion => simp [validateAndBuild] at h
  | dataclass types defaults ih =>
    obtain ⟨values, hvalues, -, rfl⟩ := validateAndBuild_ok h
    have hfields := haveTypes_iff types defaults (fun f hf rawData path b => ih f hf)
      (buildFields_ok hvalues)
    constructor
    · intro h hslips
      cases h with
      | dataclass h =>
        cases hslips with
        | under field found h' => exact hfields.mp h _ field _ found h'
    · intro hno
      exact .dataclass (hfields.mpr fun f hf value hfound h => hno (.under hf hfound h))

/-! ## The rules -/

theorem required {fieldName : String} {t : FieldType}
    (h : List.Forall₂ (BuiltFrom py rawData path) fields values)
    (hfield : fields.lookup fieldName = some (t, none)) :
    ∃ b path, values.lookup fieldName = some b ∧
      buildField py (fieldName, t, none) rawData path = .ok b := by
  induction h with
  | nil => cases hfield
  | @cons f e fields values hbuilt _ ih =>
    obtain ⟨name, type, default⟩ := f
    obtain ⟨name', b⟩ := e
    obtain ⟨rfl, hb⟩ := hbuilt
    rw [Dict.lookup_cons_ite] at hfield
    rw [Dict.lookup_cons_ite]
    split_ifs at hfield with heq
    · injection hfield with hfield
      injection hfield with htype hdefault
      subst heq htype hdefault
      exact ⟨b, _, if_pos rfl, hb⟩
    · rw [if_neg heq]
      exact ih hfield

theorem required_int {fieldName : String}
    (h : List.Forall₂ (BuiltFrom py rawData path) fields values)
    (hfield : fields.lookup fieldName = some (.int, none)) :
    ∃ i, values.lookup fieldName = some (.value (.leaf (.int i))) := by
  obtain ⟨b, path, hvalues, hb⟩ := required h hfield
  rcases buildField_cases hb with ⟨-, hdefault⟩ | ⟨entries, -, hb⟩ | ⟨value, v, -, -, hv, rfl⟩
  · cases hdefault
  · simp [validateAndBuild] at hb
  · obtain ⟨i, -, hi⟩ := bind_eq_ok.mp (coercePlain_eq (t := .int) hv)
    injection hi with hi
    exact ⟨i, hi ▸ hvalues⟩

theorem required_float {fieldName : String}
    (h : List.Forall₂ (BuiltFrom py rawData path) fields values)
    (hfield : fields.lookup fieldName = some (.float, none)) :
    ∃ value x, rawData.lookup fieldName = some value ∧ ConfigValue.toFloat py value = .ok x ∧
      values.lookup fieldName = some (.value (.leaf (.float x))) := by
  obtain ⟨b, path, hvalues, hb⟩ := required h hfield
  rcases buildField_cases hb with ⟨-, hdefault⟩ | ⟨entries, -, hb⟩ | ⟨value, v, hraw, -, hv, rfl⟩
  · cases hdefault
  · simp [validateAndBuild] at hb
  · obtain ⟨x, hx, hv⟩ := bind_eq_ok.mp (coercePlain_eq (t := .float) hv)
    injection hv with hv
    exact ⟨value, x, hraw, hx, hv ▸ hvalues⟩

theorem refuse_ne_ok {message : String} {v : ConfigValue} {u : Unit} :
    refuse py message v ≠ .ok u := by
  intro h
  obtain ⟨s, -, h⟩ := bind_eq_ok.mp h
  cases h

theorem getNumber_int {cls name : String} {i : Int}
    (h : values.lookup name = some (.value (.leaf (.int i)))) :
    getNumber cls values name = .ok (.leaf (.int i), .finite i) := by
  rw [getNumber, h]
  rfl

theorem getNumber_float {cls name : String} {x : PyFloat}
    (h : values.lookup name = some (.value (.leaf (.float x)))) :
    getNumber cls values name = .ok (.leaf (.float x), x) := by
  rw [getNumber, h]
  rfl

theorem applyRules_server {port : Int} {timeout : PyFloat}
    (hport : values.lookup "port" = some (.value (.leaf (.int port))))
    (htimeout : values.lookup "timeout" = some (.value (.leaf (.float timeout))))
    (h : applyRules py "ServerConfig" values = .ok ()) :
    (1 ≤ port ∧ port ≤ 65535) ∧ timeout.lt (.finite 0) = false := by
  rw [applyRules, if_pos rfl, getNumber_int hport, getNumber_float htimeout] at h
  simp only [bind, Except.bind] at h
  split at h
  · split at h
    · cases h
    · rename_i hrefuse
      exact absurd hrefuse refuse_ne_ok
  · rename_i hrange
    split at h
    · exact absurd h refuse_ne_ok
    · rename_i hneg
      simp only [PyFloat.le, Bool.not_eq_true', Bool.and_eq_false_iff, not_or,
        Bool.not_eq_false, decide_eq_true_eq] at hrange
      exact ⟨by exact_mod_cast hrange, by simpa using hneg⟩

theorem applyRules_kernel {limit : Int}
    (hlimit : values.lookup "event_limit" = some (.value (.leaf (.int limit))))
    (h : applyRules py "KernelConfig" values = .ok ()) : 0 < limit := by
  rw [applyRules, if_neg (by decide), if_pos rfl, getNumber_int hlimit] at h
  simp only [bind, Except.bind] at h
  split at h
  · exact absurd h refuse_ne_ok
  · rename_i hpos
    simp only [PyFloat.le, decide_eq_true_eq, not_le] at hpos
    exact_mod_cast hpos

/-- An instance that passes keeps to the rules of its class, unless its timeout is a NaN. -/
theorem rules_iff {cls : String}
    (server : cls = "ServerConfig" →
      fields.lookup "port" = some (.int, none) ∧ fields.lookup "timeout" = some (.float, none))
    (kernel : cls = "KernelConfig" → fields.lookup "event_limit" = some (.int, none))
    (hbuilt : List.Forall₂ (BuiltFrom py rawData path) fields values)
    (h : applyRules py cls values = .ok ()) :
    Rules cls values ↔ (cls = "ServerConfig" → ∀ value, rawData.lookup "timeout" = some value →
      ConfigValue.toFloat py value ≠ .ok .nan) := by
  by_cases hserver : cls = "ServerConfig"
  · subst hserver
    obtain ⟨port, hport⟩ := required_int hbuilt (server rfl).1
    obtain ⟨value, timeout, hraw, hfloat, htimeout⟩ := required_float hbuilt (server rfl).2
    obtain ⟨hrange, hneg⟩ := applyRules_server hport htimeout h
    simp [Rules, hport, htimeout, hraw, hrange, PyFloat.le_zero_iff, hneg, hfloat]
  · by_cases hkernel : cls = "KernelConfig"
    · subst hkernel
      obtain ⟨limit, hlimit⟩ := required_int hbuilt (kernel rfl)
      have hpos := applyRules_kernel hlimit h
      simp [Rules, hlimit, hpos]
    · simp [Rules, hserver, hkernel]

theorem validateAndBuild_isDataclass {t : FieldType}
    (h : validateAndBuild py t rawData path = .ok b) : t.isDataclass = true := by
  cases t with
  | dataclass => rfl
  | int | float | str | bool | noneType | secret | list | union => simp [validateAndBuild] at h

theorem isDataclass_of_nan {t : FieldType} (h : NaNTimeout py t value) :
    t.isDataclass = true := by
  cases h with
  | here | under => rfl

theorem forall_lawful_iff
    (defaults : ∀ f ∈ fields, ∀ b, f.2.2 = some b → Lawful b)
    (ih : ∀ f ∈ fields, ∀ rawData path b, validateAndBuild py f.2.1 rawData path = .ok b →
      (Lawful b ↔ ¬ NaNTimeout py f.2.1 (.table rawData)))
    (h : List.Forall₂ (BuiltFrom py rawData path) fields values) :
    (∀ e ∈ values, Lawful e.2) ↔
      ∀ f ∈ fields, ∀ value, rawData.lookup f.1 = some value → ¬ NaNTimeout py f.2.1 value := by
  induction h with
  | nil => simp
  | @cons f e fields values hbuilt _ ihfields =>
    have htail := ihfields (fun g hg => defaults g (List.mem_cons_of_mem _ hg))
      (fun g hg => ih g (List.mem_cons_of_mem _ hg))
    rw [List.forall_mem_cons, List.forall_mem_cons, htail]
    refine and_congr_left' ?_
    rcases buildField_cases hbuilt.2 with ⟨hraw, hb⟩ | ⟨entries, hraw, hb⟩ |
      ⟨value, v, hraw, hclass, -, hv⟩
    · simp only [hraw, reduceCtorEq, false_implies, implies_true, iff_true]
      exact defaults f (by simp) e.2 hb
    · simp only [hraw, Option.some.injEq, forall_eq']
      exact ih f (by simp) entries _ e.2 hb
    · rw [hv]
      refine iff_of_true (.value v) fun _ _ hnan => ?_
      rw [isDataclass_of_nan hnan] at hclass
      cases hclass

theorem validateAndBuild_lawful {t : FieldType}
    (ht : Ruled t) (h : validateAndBuild py t rawData path = .ok b) :
    Lawful b ↔ ¬ NaNTimeout py t (.table rawData) := by
  induction ht generalizing rawData path b with
  | plain hclass =>
    rw [validateAndBuild_isDataclass h] at hclass
    cases hclass
  | dataclass server kernel types defaults ih =>
    obtain ⟨values, hvalues, hrules, rfl⟩ := validateAndBuild_ok h
    have hbuilt := buildFields_ok hvalues
    have hhere := rules_iff server kernel hbuilt hrules
    have hbelow := forall_lawful_iff defaults (fun f hf rawData path b => ih f hf) hbuilt
    constructor
    · intro h hnan
      cases h with
      | inst rules below =>
        cases hnan with
        | here found nan => exact hhere.mp rules rfl _ found nan
        | under field found h' => exact hbelow.mp below _ field _ found h'
    · intro hno
      refine .inst (hhere.mpr ?_) (hbelow.mpr ?_)
      · rintro rfl value found nan
        exact hno (.here found nan)
      · intro f hf value found h
        exact hno (.under hf found h)

end Validator

end IraOS
