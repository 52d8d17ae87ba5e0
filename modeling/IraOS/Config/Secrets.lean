import IraOS.Config.Loading
import IraOS.Lib.Alike

/-!
# What a secret shows of itself

`SecretValue` (`core/config/secrets.py`) prints masked, and the validator wraps what is configured
for a secret before anything is done with it. So **a secret shows in nothing that prints**: two
managers that are called alike, but for what is configured for the secrets, answer alike, messages
of failures included, up to what `get_secret_value` gives (`replies_veiled`). Whether there is a
secret does show.

It is about leaves that `str()` can print. A number of too many digits where a secret belongs is an
exception, and that there was one is seen.

## Two managers, called alike

The statement compares two runs. Their calls are the same, and what is configured is the same but
for leaves at places that end up in a secret or are not read at all (`Hidden`): in a file, in the
environment, or in an override. At such a place both have a leaf, and both leaves print. Then the
answers look the same, call by call, exceptions and their texts included, and the printed answers
**are** the same.

That both have a leaf, and neither of them `None`, is asked because a secret that is missing is
none, and that shows: whether a key is configured can be seen from outside, and what it is cannot.

## The proof

`mask` is what is seen of something that was built: all but what the secrets keep. Each function of
the configuration, from the coercion of one value to the merge of the layers, takes arguments that
look the same to results that look the same, and so does a call of the manager. The rules of the
classes look at numbers, which no secret is.
-/

set_option autoImplicit false

namespace IraOS

open Lib

/-! ## core/config/secrets.py, and what a configuration prints as -/

mutual

/-- `repr(b)`, by what `repr()` makes of the values that are no secrets. -/
def Built.repr (reprOf : ConfigValue → Except Exn String) : Built → Except Exn String
  | .value (.leaf (.secret _)) => .ok "SecretValue(******)"
  | .value v => reprOf v
  | .instance cls fields => do
    let parts ← Built.reprFields reprOf fields
    return cls ++ "(" ++ ", ".intercalate parts ++ ")"

def Built.reprFields (reprOf : ConfigValue → Except Exn String) :
    List (String × Built) → Except Exn (List String)
  | [] => .ok []
  | (fieldName, b) :: rest => do
    let s ← Built.repr reprOf b
    let parts ← Built.reprFields reprOf rest
    return (fieldName ++ "=" ++ s) :: parts

end

/-! ## core/config/config.py -/

namespace ConfigurationManager

variable (py : Conversions) (lower : String → String)

def reload (file : JsonFile) (environ : List (String × String)) : Act Manager Exn Empty Built :=
  loadPath py lower file environ

/-- `validate`: another manager with the same overrides is loaded. -/
def validate (file : JsonFile) (environ : List (String × String)) : Act Manager Exn Empty Unit := do
  let self ← Act.get
  let manager : Manager := { runtimeOverrides := self.runtimeOverrides }
  let _ ← Act.ofExcept (loadPath py lower file environ manager).result
  pure ()

def notLoaded : Exn := ⟨.runtimeError, lit "Configuration has not been loaded."⟩

def get : Act Manager Exn Empty Built := do
  let self ← Act.get
  match self.config with
  | none => Act.throw notLoaded
  | some config => pure config

/-- `isinstance(val, section_type)`, for a class of the schema. -/
def isInstance (sectionType : String) : Built → Bool
  | .value _ => false
  | .instance cls _ => cls == sectionType

def dataclassFields : Built → List (String × Built)
  | .value _ => []
  | .instance _ fields => fields

def «section» (sectionType : String) : Act Manager Exn Empty Built := do
  let self ← Act.get
  match self.config with
  | none => Act.throw notLoaded
  | some config =>
    match (dataclassFields config).find? fun e => isInstance sectionType e.2 with
    | some e => pure e.2
    | none => Act.throw ⟨.valueError, lit ("No configuration section of type " ++ sectionType)⟩

/-! ## Calls -/

inductive Call where
  | override (overrides : ConfigTable ConfigLeaf)
  | load (file : JsonFile) (environ : List (String × String))
  | reload (file : JsonFile) (environ : List (String × String))
  | validate (file : JsonFile) (environ : List (String × String))
  | get
  | section (sectionType : String)

/-- A call; `override` and `validate` return nothing. -/
def Call.run : Call → Act Manager Exn Empty (Option Built)
  | .override overrides => do
    Act.modify fun self => self.override overrides
    pure none
  | .load file environ => do
    let config ← loadPath py lower file environ
    pure (some config)
  | .reload file environ => do
    let config ← ConfigurationManager.reload py lower file environ
    pure (some config)
  | .validate file environ => do
    ConfigurationManager.validate py lower file environ
    pure none
  | .get => do
    let config ← ConfigurationManager.get
    pure (some config)
  | .section sectionType => do
    let val ← ConfigurationManager.«section» sectionType
    pure (some val)

def replies (self : Manager) : List Call → List (Except Exn (Option Built))
  | [] => []
  | call :: rest => (call.run py lower self).result :: replies (call.run py lower self).state rest

def printed (reprOf : ConfigValue → Except Exn String) :
    Except Exn (Option Built) → Except Exn (Option String)
  | .error exc => .error exc
  | .ok none => .ok none
  | .ok (some b) => (b.repr reprOf).map some

end ConfigurationManager

/-! ## Where the secrets are -/

/-- What stands at a path of a raw table ends up in a secret, or is not read at all. The second is
so of the keys that no field has. -/
inductive Hidden : FieldType → List String → Prop
  | secret {t : FieldType} (h : t.takesSecrets = true) : Hidden t []
  | field {name k : String} {fields : Fields} {p : List String}
      (h : ∀ f ∈ fields, f.1 = k → Hidden f.2.1 p) : Hidden (.dataclass name fields) (k :: p)

def Prints (py : Conversions) (l : ConfigLeaf) : Prop :=
  l ≠ .none ∧ ∃ s, ConfigValue.str py (.leaf l) = .ok s

/-- Two leaves at a path: the same, or two secrets. -/
def Veiled (py : Conversions) (t : FieldType) (p : List String) (l l' : ConfigLeaf) : Prop :=
  l = l' ∨ (Hidden t p ∧ Prints py l ∧ Prints py l')

namespace Built

mutual

/-- What is seen of something that was built: all but what the secrets keep. -/
def mask : Built → Built
  | .value (.leaf (.secret _)) => .value (.leaf (.secret ""))
  | .value v => .value v
  | .instance cls fields => .instance cls (maskFields fields)

def maskFields : List (String × Built) → List (String × Built)
  | [] => []
  | (fieldName, b) :: rest => (fieldName, b.mask) :: maskFields rest

end

variable {reprOf : ConfigValue → Except Exn String}

theorem mask_value {v : ConfigValue} (h : ∀ s, v ≠ .leaf (.secret s)) :
    (value v).mask = value v := by
  match v with
  | .table _ | .leaf .none | .leaf (.bool _) | .leaf (.int _) | .leaf (.float _) | .leaf (.str _)
  | .leaf (.list _) => rfl
  | .leaf (.secret s) => exact absurd rfl (h s)

theorem mask_value_eq_value (v : ConfigValue) : ∃ w, (value v).mask = value w := by
  by_cases hv : ∃ s, v = .leaf (.secret s)
  · obtain ⟨s, rfl⟩ := hv
    exact ⟨_, rfl⟩
  · exact ⟨v, mask_value fun s hs => hv ⟨s, hs⟩⟩

theorem mask_value_eq {v v' : ConfigValue} (h : (value v).mask = (value v').mask) :
    v = v' ∨ ∃ s s', v = .leaf (.secret s) ∧ v' = .leaf (.secret s') := by
  by_cases hv : ∃ s, v = .leaf (.secret s) <;> by_cases hv' : ∃ s, v' = .leaf (.secret s)
  · obtain ⟨s, rfl⟩ := hv
    obtain ⟨s', rfl⟩ := hv'
    exact Or.inr ⟨s, s', rfl, rfl⟩
  · obtain ⟨s, rfl⟩ := hv
    rw [mask_value (v := v') fun s' hs' => hv' ⟨s', hs'⟩, mask] at h
    injection h with h
    exact absurd ⟨"", h.symm⟩ hv'
  · obtain ⟨s', rfl⟩ := hv'
    rw [mask_value (v := v) fun s hs => hv ⟨s, hs⟩, mask] at h
    injection h with h
    exact absurd ⟨"", h⟩ hv
  · rw [mask_value fun s hs => hv ⟨s, hs⟩, mask_value fun s hs => hv' ⟨s, hs⟩] at h
    injection h with h
    exact Or.inl h

mutual

/-- What prints is what is seen. -/
theorem repr_mask : ∀ b : Built, b.mask.repr reprOf = b.repr reprOf
  | .value v => by
    by_cases hv : ∃ s, v = .leaf (.secret s)
    · obtain ⟨s, rfl⟩ := hv
      rfl
    · rw [mask_value fun s hs => hv ⟨s, hs⟩]
  | .instance cls fields => by
    rw [mask, Built.repr, Built.repr, reprFields_mask fields]

theorem reprFields_mask : ∀ fields : List (String × Built),
    reprFields reprOf (maskFields fields) = reprFields reprOf fields
  | [] => rfl
  | (fieldName, b) :: rest => by
    rw [maskFields, reprFields, reprFields, repr_mask b, reprFields_mask rest]

end

theorem lookup_maskFields (fields : List (String × Built)) (fieldName : String) :
    (maskFields fields).lookup fieldName = (fields.lookup fieldName).map mask := by
  induction fields with
  | nil => rfl
  | cons e rest ih =>
    rw [maskFields, Dict.lookup_cons_ite, Dict.lookup_cons_ite, ih]
    split <;> rfl

end Built

/-! ## The validator -/

theorem hidden_nil {t : FieldType} (h : Hidden t []) : t.takesSecrets = true := by
  cases h with
  | secret h => exact h

theorem hidden_field {name k : String} {fields : Fields} {p : List String}
    (h : Hidden (.dataclass name fields) (k :: p)) {f : String × FieldType × Option Built}
    (hf : f ∈ fields) (hk : f.1 = k) : Hidden f.2.1 p := by
  cases h with
  | field h => exact h f hf hk

theorem isDataclass_of_hidden {t : FieldType} {k : String} {p : List String}
    (h : Hidden t (k :: p)) : t.isDataclass = true := by
  cases h with
  | field h => rfl

namespace Validator

variable {py : Conversions} {t : FieldType} {path : String}

theorem coerceAndValidate_prints (path : String) (ht : t.takesSecrets = true) {l : ConfigLeaf}
    (hl : Prints py l) :
    ∃ s, coerceAndValidate py (.leaf l) t path = .ok (.leaf (.secret s)) := by
  obtain ⟨hnone, s, hs⟩ := hl
  have hwrapped : wrapped py (.leaf l) = .ok (.leaf (.secret s)) := by
    rw [wrapped, hs]
    rfl
  refine ⟨s, ?_⟩
  cases t with
  | secret =>
    cases l <;> first | exact absurd rfl hnone | exact hwrapped
  | union args =>
    have hany : args.any FieldType.isSecret = true := ht
    have hunion : coerceAndValidate py (.leaf l) (.union args) path =
        coerceUnion py args (.leaf l) path := by cases l <;> rfl
    rw [hunion]
    unfold coerceUnion
    rw [hany]
    cases l <;> first | exact absurd rfl hnone | exact hwrapped
  | int | float | str | bool | noneType | list _ | dataclass _ _ => cases ht

theorem coerceAndValidate_veiled (ht : t.isDataclass = false) {v v' : ConfigValue}
    (h : Nested.Alike (Veiled py t) v v') :
    ((coerceAndValidate py v t path).map Built.value).map Built.mask =
      ((coerceAndValidate py v' t path).map Built.value).map Built.mask := by
  cases h with
  | leaf h =>
    rcases h with rfl | ⟨hidden, hl, hl'⟩
    · rfl
    · obtain ⟨s, hs⟩ := coerceAndValidate_prints path (hidden_nil hidden) hl
      obtain ⟨s', hs'⟩ := coerceAndValidate_prints path (hidden_nil hidden) hl'
      rw [hs, hs']
      rfl
  -- no type but a dataclass has anything hidden below
  | table h =>
    rw [h.eq fun k p l l' hl => ?_]
    rcases hl with hl | ⟨hidden, -⟩
    · exact hl
    · rw [isDataclass_of_hidden hidden] at ht
      cases ht

theorem getNumber_mask {cls fieldName : String} {fields fields' : List (String × Built)}
    (h : Built.maskFields fields = Built.maskFields fields') :
    getNumber cls fields fieldName = getNumber cls fields' fieldName := by
  have hlook : (fields.lookup fieldName).map Built.mask =
      (fields'.lookup fieldName).map Built.mask := by
    rw [← Built.lookup_maskFields, ← Built.lookup_maskFields, h]
  unfold getNumber
  match fields.lookup fieldName, fields'.lookup fieldName, hlook with
  | none, none, _ => rfl
  | some (.value v), some (.value v'), hlook =>
    rcases Built.mask_value_eq (Option.some.inj hlook) with rfl | ⟨s, s', rfl, rfl⟩ <;> rfl
  | some (.instance cls fs), some (.instance cls' fs'), hlook =>
    have hcls : cls = cls' := by
      injection hlook with hlook
      simp only [Built.mask, Built.instance.injEq] at hlook
      exact hlook.1
    rw [hcls]
  | some (.value v), some (.instance cls' fs'), hlook =>
    obtain ⟨w, hw⟩ := Built.mask_value_eq_value v
    rw [Option.map_some, hw] at hlook
    cases hlook
  | some (.instance cls fs), some (.value v), hlook =>
    obtain ⟨w, hw⟩ := Built.mask_value_eq_value v
    rw [Option.map_some, Option.map_some, hw] at hlook
    cases hlook
  | none, some _, hlook => cases hlook
  | some _, none, hlook => cases hlook

theorem applyRules_mask {cls : String} {fields fields' : List (String × Built)}
    (h : Built.maskFields fields = Built.maskFields fields') :
    applyRules py cls fields = applyRules py cls fields' := by
  unfold applyRules
  simp only [getNumber_mask h]

theorem buildFields_mask {fieldName : String} {x x' : Except Exn Built}
    {y y' : Except Exn (List (String × Built))} (hx : x.map Built.mask = x'.map Built.mask)
    (hy : y.map Built.maskFields = y'.map Built.maskFields) :
    Except.map Built.maskFields (do let b ← x; let kwargs ← y; return (fieldName, b) :: kwargs) =
      Except.map Built.maskFields
        (do let b ← x'; let kwargs ← y'; return (fieldName, b) :: kwargs) := by
  cases x with
  | error exc =>
    cases x' with
    | error exc' =>
      injection hx with hx
      rw [hx]
      rfl
    | ok b' => cases hx
  | ok b =>
    cases x' with
    | error exc' => cases hx
    | ok b' =>
      cases y with
      | error exc =>
        cases y' with
        | error exc' =>
          injection hy with hy
          rw [hy]
          rfl
        | ok kwargs' => cases hy
      | ok kwargs =>
        cases y' with
        | error exc' => cases hy
        | ok kwargs' =>
          injection hx with hx
          injection hy with hy
          show Except.ok ((fieldName, b.mask) :: Built.maskFields kwargs) =
            Except.ok ((fieldName, b'.mask) :: Built.maskFields kwargs')
          rw [hx, hy]

mutual

/-- **What is built looks the same**, and so do the messages. -/
theorem validateAndBuild_veiled : ∀ (t : FieldType) (path : String) {es es' : ConfigEntries},
    Nested.AlikeEntries (Veiled py t) es es' →
      (validateAndBuild py t es path).map Built.mask =
        (validateAndBuild py t es' path).map Built.mask
  | .dataclass name fields, path, es, es', h => by
    have hfields := buildFields_veiled fields path h fun f hf p l l' hl => by
      rcases hl with hl | ⟨hidden, hprints⟩
      · exact Or.inl hl
      · exact Or.inr ⟨hidden_field hidden hf rfl, hprints⟩
    rw [validateAndBuild, validateAndBuild]
    cases hkwargs : buildFields py fields es path with
    | error exc =>
      cases hkwargs' : buildFields py fields es' path with
      | error exc' =>
        rw [hkwargs, hkwargs'] at hfields
        injection hfields with hfields
        rw [hfields]
      | ok kwargs' =>
        rw [hkwargs, hkwargs'] at hfields
        cases hfields
    | ok kwargs =>
      cases hkwargs' : buildFields py fields es' path with
      | error exc' =>
        rw [hkwargs, hkwargs'] at hfields
        cases hfields
      | ok kwargs' =>
        rw [hkwargs, hkwargs'] at hfields
        injection hfields with hfields
        have hrules : applyRules py name kwargs = applyRules py name kwargs' :=
          applyRules_mask hfields
        show Except.map Built.mask (do applyRules py name kwargs; return .instance name kwargs) =
          Except.map Built.mask (do applyRules py name kwargs'; return .instance name kwargs')
        rw [hrules]
        cases applyRules py name kwargs' with
        | error exc => rfl
        | ok _ =>
          show Except.ok (Built.instance name (Built.maskFields kwargs)) =
            Except.ok (Built.instance name (Built.maskFields kwargs'))
          rw [hfields]
  | .int, _, _, _, _ | .float, _, _, _, _ | .str, _, _, _, _ | .bool, _, _, _, _
  | .noneType, _, _, _, _ | .secret, _, _, _, _ | .list _, _, _, _, _ | .union _, _, _, _, _ => rfl

theorem buildFields_veiled : ∀ (fields : Fields) (path : String)
    {R : List String → ConfigLeaf → ConfigLeaf → Prop} {es es' : ConfigEntries},
    Nested.AlikeEntries R es es' →
      (∀ f ∈ fields, ∀ p l l', R (f.1 :: p) l l' → Veiled py f.2.1 p l l') →
      (buildFields py fields es path).map Built.maskFields =
        (buildFields py fields es' path).map Built.maskFields
  | [], _, _, _, _, _, _ => rfl
  | (fieldName, t, default) :: rest, path, R, es, es', h, hR => by
    have htail := buildFields_veiled rest path h fun f hf => hR f (List.mem_cons_of_mem _ hf)
    rw [buildFields, buildFields]
    refine buildFields_mask ?_ htail
    rcases (h.lookup fieldName).cases with ⟨hes, hes'⟩ | ⟨v, v', hes, hes', hv⟩
    · rw [hes, hes']
    · have hv : Nested.Alike (Veiled py t) v v' := hv.mono (hR _ List.mem_cons_self)
      rw [hes, hes']
      cases ht : t.isDataclass with
      | false => exact coerceAndValidate_veiled ht hv
      | true =>
        cases hv with
        | table h => exact validateAndBuild_veiled t (fieldPath path fieldName) h
        | leaf h =>
          rcases h with rfl | ⟨hidden, -⟩
          · rfl
          -- a dataclass is no secret
          · have hsecret := hidden_nil hidden
            cases t with
            | dataclass _ _ => cases hsecret
            | int | float | str | bool | noneType | secret | list _ | union _ => cases ht

end

end Validator

/-! ## The loader and its providers -/

namespace ConfigLoader

variable {α : Type}

mutual

theorem mergeItems_alike {R : List String → α → α → Prop}
    {base base' upper upper' : List (String × Nested String α)} :
    Nested.AlikeEntries R upper upper' → Nested.AlikeEntries R base base' →
      Nested.AlikeEntries R (mergeItems base upper) (mergeItems base' upper')
  | .nil, hbase => by simpa [mergeItems] using hbase
  | .cons hv h, hbase => by
    rw [mergeItems, mergeItems]
    exact mergeItems_alike h (hbase.put (mergedValue_alike hv (hbase.lookup _)))

theorem mergedValue_alike {R : List String → α → α → Prop} {value value' : Nested String α}
    {current current' : Option (Nested String α)} :
    Nested.Alike R value value' → Nested.AlikeOption R current current' →
      Nested.Alike R (mergedValue current value) (mergedValue current' value')
  | h, .none => by simpa using h
  | h, .some (.leaf _) => by simpa using h
  | .leaf h, .some (.table _) => .leaf h
  | .table h, .some (.table hbase) => .table (mergeItems_alike h hbase)

end

end ConfigLoader

/-- Two tables that look the same. -/
def TablesAlike (py : Conversions) (table table' : ConfigTable ConfigLeaf) : Prop :=
  Nested.AlikeEntries (Veiled py Schema.IRAConfig) table.entries table'.entries

/-- Two files, or the same one. Where they differ both are JSON, and differ in leaves that are
hidden; a file that is not there, or is none, is the same in both runs. -/
inductive FilesAlike (py : Conversions) : JsonFile → JsonFile → Prop
  | same (file : JsonFile) : FilesAlike py file file
  | content {v v' : ConfigValue} {distinct : v.Distinct} {distinct' : v'.Distinct}
      (h : Nested.Alike (Veiled py Schema.IRAConfig) v v') :
      FilesAlike py (.content v distinct) (.content v' distinct')

/-- Two variables of one name. Where their values differ, it is one that a secret is read from, or
none that is read. -/
def VariablesAlike (lower : String → String) (item item' : String × String) : Prop :=
  item.1 = item'.1 ∧ (item.2 = item'.2 ∨
    ∀ name, EnvVarProvider.stripPrefix "IRA_" item.1 = some name →
      Hidden Schema.IRAConfig (EnvVarProvider.splitFirst (lower name)))

section

variable {py : Conversions} {lower : String → String}

theorem veiled_refl (t : FieldType) (p : List String) (l : ConfigLeaf) : Veiled py t p l l :=
  Or.inl rfl

theorem prints_str (s : String) : Prints py (.str s) := ⟨by simp, s, rfl⟩

theorem visit_alike {item item' : String × String} (h : VariablesAlike lower item item')
    {config config' : ConfigEntries}
    (hconfig : Nested.AlikeEntries (Veiled py Schema.IRAConfig) config config') :
    Nested.AlikeEntries (Veiled py Schema.IRAConfig)
      (EnvVarProvider.visit lower "IRA_" config item)
      (EnvVarProvider.visit lower "IRA_" config' item') := by
  obtain ⟨key, value⟩ := item
  obtain ⟨key', value'⟩ := item'
  obtain ⟨rfl, hvalue⟩ : key = key' ∧ _ := h
  unfold EnvVarProvider.visit EnvVarProvider.assignment
  cases hstrip : EnvVarProvider.stripPrefix "IRA_" key with
  | none => exact hconfig
  | some name =>
    refine hconfig.assign ?_
    rcases hvalue with hvalue | hidden
    · exact Or.inl (congrArg ConfigLeaf.str hvalue)
    · exact Or.inr ⟨hidden name hstrip, prints_str value, prints_str value'⟩

theorem environment_alike {environ environ' : List (String × String)}
    (h : List.Forall₂ (VariablesAlike lower) environ environ') :
    TablesAlike py (EnvVarProvider.load lower "IRA_" environ)
      (EnvVarProvider.load lower "IRA_" environ') := by
  have hloop : ∀ {config config' : ConfigEntries},
      Nested.AlikeEntries (Veiled py Schema.IRAConfig) config config' →
      Nested.AlikeEntries (Veiled py Schema.IRAConfig)
        (environ.foldl (EnvVarProvider.visit lower "IRA_") config)
        (environ'.foldl (EnvVarProvider.visit lower "IRA_") config') := by
    induction h with
    | nil => exact id
    | cons hitem _ ih => exact fun hconfig => ih (visit_alike hitem hconfig)
  exact hloop .nil

/-- What two providers answer. -/
inductive AnswersAlike (py : Conversions) :
    Except Exn ProviderData → Except Exn ProviderData → Prop
  | error (exc : Exn) : AnswersAlike py (.error exc) (.error exc)
  | ok {v v' : ProviderData} (h : Nested.Alike (Veiled py Schema.IRAConfig) v.1 v'.1) :
      AnswersAlike py (.ok v) (.ok v')

theorem jsonFile_alike {file file' : JsonFile} (h : FilesAlike py file file') :
    AnswersAlike py (JsonFileProvider.load file) (JsonFileProvider.load file') := by
  cases h with
  | same =>
    cases hload : JsonFileProvider.load file with
    | error exc => exact .error exc
    | ok v => exact .ok (.refl (veiled_refl _) v.1)
  | content h => exact .ok h

theorem TablesAlike.data {table table' : ConfigTable ConfigLeaf} (h : TablesAlike py table table') :
    AnswersAlike py (.ok table.data) (.ok table'.data) := .ok (.table h)

theorem loadAnswers_alike {providers providers' : List (Except Exn ProviderData)}
    (h : List.Forall₂ (AnswersAlike py) providers providers')
    {merged merged' : ConfigTable ConfigLeaf} (hmerged : TablesAlike py merged merged') :
    (∃ exc, ConfigLoader.loadAnswers merged providers = .error exc ∧
      ConfigLoader.loadAnswers merged' providers' = .error exc) ∨
    ∃ raw raw', ConfigLoader.loadAnswers merged providers = .ok raw ∧
      ConfigLoader.loadAnswers merged' providers' = .ok raw' ∧ TablesAlike py raw raw' := by
  induction h generalizing merged merged' with
  | nil => exact Or.inr ⟨merged, merged', rfl, rfl, hmerged⟩
  | cons hanswer _ ih =>
    cases hanswer with
    | error exc => exact Or.inl ⟨exc, rfl, rfl⟩
    | @ok v v' h =>
      obtain ⟨v, distinct⟩ := v
      obtain ⟨v', distinct'⟩ := v'
      cases h with
      | table h => exact ih (ConfigLoader.mergeItems_alike h hmerged)
      | leaf h =>
        rcases h with rfl | ⟨hidden, -⟩
        · exact Or.inl ⟨_, rfl, rfl⟩
        · cases hidden_nil hidden

end

/-! ## Calls -/

namespace ConfigurationManager

variable {py : Conversions} {lower : String → String} {self self' : Manager}

/-- Two managers that look the same: their overrides do, and the configurations that they have
loaded last, if they have. -/
structure Alike (py : Conversions) (m m' : Manager) : Prop where
  config : m.config.map Built.mask = m'.config.map Built.mask
  overrides : TablesAlike py m.runtimeOverrides m'.runtimeOverrides

/-- Two calls with nothing but secrets between them. -/
inductive Call.Alike (py : Conversions) (lower : String → String) : Call → Call → Prop
  | override {overrides overrides' : ConfigTable ConfigLeaf}
      (h : TablesAlike py overrides overrides') :
      Call.Alike py lower (.override overrides) (.override overrides')
  | load {file file' : JsonFile} {environ environ' : List (String × String)}
      (hfile : FilesAlike py file file')
      (henviron : List.Forall₂ (VariablesAlike lower) environ environ') :
      Call.Alike py lower (.load file environ) (.load file' environ')
  | reload {file file' : JsonFile} {environ environ' : List (String × String)}
      (hfile : FilesAlike py file file')
      (henviron : List.Forall₂ (VariablesAlike lower) environ environ') :
      Call.Alike py lower (.reload file environ) (.reload file' environ')
  | validate {file file' : JsonFile} {environ environ' : List (String × String)}
      (hfile : FilesAlike py file file')
      (henviron : List.Forall₂ (VariablesAlike lower) environ environ') :
      Call.Alike py lower (.validate file environ) (.validate file' environ')
  | get : Call.Alike py lower .get .get
  | section (sectionType : String) :
      Call.Alike py lower (.section sectionType) (.section sectionType)

theorem loadPath_alike {file file' : JsonFile} {environ environ' : List (String × String)}
    (hfile : FilesAlike py file file')
    (henviron : List.Forall₂ (VariablesAlike lower) environ environ')
    (hself : TablesAlike py self.runtimeOverrides self'.runtimeOverrides) :
    (loadPath py lower file environ self).result.map Built.mask =
      (loadPath py lower file' environ' self').result.map Built.mask := by
  have hempty : TablesAlike py .empty .empty := .nil
  have hdefaults : TablesAlike py getDefaultDict getDefaultDict := .refl (veiled_refl _) _
  have hproviders : List.Forall₂ (AnswersAlike py)
      [.ok getDefaultDict.data, JsonFileProvider.load file,
        .ok (EnvVarProvider.load lower "IRA_" environ).data, .ok self.runtimeOverrides.data]
      [.ok getDefaultDict.data, JsonFileProvider.load file',
        .ok (EnvVarProvider.load lower "IRA_" environ').data, .ok self'.runtimeOverrides.data] :=
    .cons hdefaults.data (.cons (jsonFile_alike hfile)
      (.cons (environment_alike henviron).data (.cons hself.data .nil)))
  rw [(loadPath_run ..).1, (loadPath_run ..).1]
  rcases loadAnswers_alike hproviders hempty with ⟨exc, h, h'⟩ | ⟨raw, raw', h, h', hraw⟩
  · rw [h, h']
  · rw [h, h']
    exact Validator.validateAndBuild_veiled Schema.IRAConfig "" hraw

/-- A load that raises leaves the manager as it is, and one that returns sets the configuration. -/
theorem loadPath_state (py : Conversions) (lower : String → String) (file : JsonFile)
    (environ : List (String × String)) (self : Manager) :
    (loadPath py lower file environ self).state =
      { self with
        config := (loadPath py lower file environ self).result.toOption.or self.config } := by
  unfold loadPath
  rw [Act.run_bind_of_ok (Act.run_get self)]
  dsimp only
  cases hraw : ConfigLoader.loadAnswers .empty
      [.ok getDefaultDict.data, JsonFileProvider.load file,
        .ok (EnvVarProvider.load lower "IRA_" environ).data,
        .ok self.runtimeOverrides.data] with
  | error exc => rfl
  | ok rawData =>
    rw [Act.run_bind_of_ok (Act.run_ofExcept _ self)]
    cases hbuilt : Validator.validateAndBuild py Schema.IRAConfig rawData.entries "" with
    | error exc =>
      rw [Act.run_bind_of_error (Act.run_ofExcept _ self)]
      rfl
    | ok config =>
      rw [Act.run_bind_of_ok (Act.run_ofExcept _ self)]
      rfl

/-! ### One call -/

theorem alike_of_load {r r' : Except Exn Built} (h : r.map Built.mask = r'.map Built.mask)
    (hself : Alike py self self') : Alike py
      { self with config := r.toOption.or self.config }
      { self' with config := r'.toOption.or self'.config } := by
  refine ⟨?_, hself.overrides⟩
  cases r with
  | error exc =>
    cases r' with
    | error exc' => exact hself.config
    | ok config' => cases h
  | ok config =>
    cases r' with
    | error exc' => cases h
    | ok config' =>
      injection h with h
      simp [Except.toOption, h]

theorem map_some {r r' : Except Exn Built} (h : r.map Built.mask = r'.map Built.mask) :
    (r.map some).map (Option.map Built.mask) = (r'.map some).map (Option.map Built.mask) := by
  cases r <;> cases r' <;> first | cases h | skip
  · rfl
  · injection h with h
    simp [Except.map, h]

theorem isInstance_mask (sectionType : String) (b : Built) :
    isInstance sectionType b.mask = isInstance sectionType b := by
  cases b with
  | value v =>
    obtain ⟨w, hw⟩ := Built.mask_value_eq_value v
    rw [hw]
    rfl
  | «instance» cls fields => rfl

theorem find_mask (sectionType : String) (fields : List (String × Built)) :
    (Built.maskFields fields).find? (fun e => isInstance sectionType e.2) =
      (fields.find? fun e => isInstance sectionType e.2).map fun e => (e.1, e.2.mask) := by
  induction fields with
  | nil => rfl
  | cons e rest ih =>
    rw [Built.maskFields, List.find?_cons, List.find?_cons, isInstance_mask, ih]
    cases isInstance sectionType e.2 <;> rfl

theorem dataclassFields_mask (b : Built) :
    dataclassFields b.mask = Built.maskFields (dataclassFields b) := by
  cases b with
  | value v =>
    obtain ⟨w, hw⟩ := Built.mask_value_eq_value v
    rw [hw]
    rfl
  | «instance» cls fields => rfl

theorem config_cases (h : Alike py self self') : (self.config = none ∧ self'.config = none) ∨
    ∃ b b', self.config = some b ∧ self'.config = some b' ∧ b.mask = b'.mask := by
  have hconfig := h.config
  cases hb : self.config with
  | none =>
    rw [hb] at hconfig
    exact Or.inl ⟨rfl, Option.map_eq_none_iff.mp hconfig.symm⟩
  | some b =>
    rw [hb] at hconfig
    obtain ⟨b', hb', hmask⟩ := Option.map_eq_some_iff.mp hconfig.symm
    exact Or.inr ⟨b, b', rfl, hb', hmask.symm⟩

def held (self : Manager) : Except Exn Built := self.config.elim (.error notLoaded) .ok

theorem run_get (self : Manager) :
    Call.get.run py lower self = ⟨(held self).map some, self, []⟩ := by
  rw [Call.run, Act.run_bind_pure, ConfigurationManager.get,
    Act.run_bind_of_ok (Act.run_get self), held]
  cases self.config <;> rfl

def sectionOf (sectionType : String) (config : Built) : Except Exn Built :=
  ((dataclassFields config).find? fun e => isInstance sectionType e.2).elim
    (.error ⟨.valueError, lit ("No configuration section of type " ++ sectionType)⟩)
    fun e => .ok e.2

theorem run_section (sectionType : String) (self : Manager) :
    (Call.section sectionType).run py lower self =
      ⟨(self.config.elim (.error notLoaded) (sectionOf sectionType)).map some, self, []⟩ := by
  rw [Call.run, Act.run_bind_pure, ConfigurationManager.«section»,
    Act.run_bind_of_ok (Act.run_get self)]
  cases self.config with
  | none => rfl
  | some config =>
    dsimp only [Option.elim, sectionOf]
    cases (dataclassFields config).find? fun e => isInstance sectionType e.2 <;> rfl

theorem sectionOf_mask (sectionType : String) (config : Built) :
    (sectionOf sectionType config).map Built.mask = sectionOf sectionType config.mask := by
  rw [sectionOf, sectionOf, dataclassFields_mask, find_mask]
  cases (dataclassFields config).find? fun e => isInstance sectionType e.2 <;> rfl

theorem run_validate (file : JsonFile) (environ : List (String × String)) (self : Manager) :
    (Call.validate file environ).run py lower self =
      ⟨(loadPath py lower file environ { runtimeOverrides := self.runtimeOverrides }).result.map
        fun _ => none, self, []⟩ := by
  have hvalidate : ConfigurationManager.validate py lower file environ self =
      ⟨(loadPath py lower file environ { runtimeOverrides := self.runtimeOverrides }).result.map
        fun _ => (), self, []⟩ := by
    rw [ConfigurationManager.validate, Act.run_bind_of_ok (Act.run_get self)]
    cases (loadPath py lower file environ
      { runtimeOverrides := self.runtimeOverrides }).result <;> rfl
  rw [Call.run, Act.run_bind_pure, hvalidate]
  cases (loadPath py lower file environ
    { runtimeOverrides := self.runtimeOverrides }).result <;> rfl

/-- **One call.** -/
theorem run_alike {call call' : Call} (hcall : Call.Alike py lower call call')
    (h : Alike py self self') :
    (call.run py lower self).result.map (Option.map Built.mask) =
        (call'.run py lower self').result.map (Option.map Built.mask) ∧
      Alike py (call.run py lower self).state (call'.run py lower self').state := by
  cases hcall with
  | override hoverrides =>
    exact ⟨rfl, h.config, ConfigLoader.mergeItems_alike hoverrides h.overrides⟩
  | load hfile henviron | reload hfile henviron =>
    have hload := loadPath_alike hfile henviron h.overrides
    rw [Call.run, Call.run]
    try rw [ConfigurationManager.reload, ConfigurationManager.reload]
    rw [Act.run_bind_pure, Act.run_bind_pure, loadPath_state, loadPath_state]
    exact ⟨map_some hload, alike_of_load hload h⟩
  | validate hfile henviron =>
    rw [run_validate, run_validate]
    refine ⟨?_, h⟩
    have hfresh : Alike py { runtimeOverrides := self.runtimeOverrides }
        { runtimeOverrides := self'.runtimeOverrides } := ⟨rfl, h.overrides⟩
    have hload := loadPath_alike hfile henviron hfresh.overrides
    revert hload
    generalize (loadPath py lower _ _ { runtimeOverrides := self.runtimeOverrides }).result = r
    generalize (loadPath py lower _ _ { runtimeOverrides := self'.runtimeOverrides }).result = r'
    intro hload
    cases r <;> cases r' <;> first | cases hload | rfl
    rfl
  | get =>
    rw [run_get, run_get]
    refine ⟨?_, h⟩
    rcases config_cases h with ⟨hnone, hnone'⟩ | ⟨b, b', hb, hb', hmask⟩
    · rw [held, held, hnone, hnone']
    · rw [held, held, hb, hb']
      have hok : (Except.ok b : Except Exn Built).map Built.mask =
          (Except.ok b').map Built.mask := congrArg Except.ok hmask
      exact map_some hok
  | «section» sectionType =>
    rw [run_section, run_section]
    refine ⟨?_, h⟩
    rcases config_cases h with ⟨hnone, hnone'⟩ | ⟨b, b', hb, hb', hmask⟩
    · rw [hnone, hnone']
    · rw [hb, hb']
      refine map_some ?_
      rw [Option.elim_some, Option.elim_some, sectionOf_mask, sectionOf_mask, hmask]

/-! ### Runs of calls -/

theorem replies_masked {calls calls' : List Call}
    (hcalls : List.Forall₂ (Call.Alike py lower) calls calls') (h : Alike py self self') :
    (replies py lower self calls).map (Except.map (Option.map Built.mask)) =
      (replies py lower self' calls').map (Except.map (Option.map Built.mask)) := by
  induction hcalls generalizing self self' with
  | nil => rfl
  | cons hcall _ ih =>
    obtain ⟨hresult, hstate⟩ := run_alike hcall h
    rw [replies, replies, List.map_cons, List.map_cons, hresult, ih hstate]

theorem printed_mask (reprOf : ConfigValue → Except Exn String) (r : Except Exn (Option Built)) :
    printed reprOf (r.map (Option.map Built.mask)) = printed reprOf r := by
  match r with
  | .error exc => rfl
  | .ok none => rfl
  | .ok (some b) => exact congrArg (Except.map some) (Built.repr_mask b)

/-- **Secrets do not show**: managers that are called alike, but for what is configured for the
secrets, answer alike but for what the secrets keep, and their answers print the same. -/
theorem replies_veiled (py : Conversions) (lower : String → String)
    (reprOf : ConfigValue → Except Exn String) {calls calls' : List Call}
    (h : List.Forall₂ (Call.Alike py lower) calls calls') :
    (replies py lower {} calls).map (Except.map (Option.map Built.mask)) =
        (replies py lower {} calls').map (Except.map (Option.map Built.mask)) ∧
      (replies py lower {} calls).map (printed reprOf) =
        (replies py lower {} calls').map (printed reprOf) := by
  have hmasked := replies_masked h (⟨rfl, .nil⟩ : Alike py {} {})
  have hprinted : ∀ rs : List (Except Exn (Option Built)), rs.map (printed reprOf) =
      (rs.map (Except.map (Option.map Built.mask))).map (printed reprOf) := by
    intro rs
    rw [List.map_map]
    exact List.map_congr_left fun r _ => (printed_mask reprOf r).symm
  exact ⟨hmasked, by rw [hprinted, hmasked, ← hprinted]⟩

/-! A key from the environment, and the section it is in. -/

def keyed (key : String) : List Call :=
  [.load .absent [("IRA_SECURITY_API_KEY", key)], .section "SecurityConfig"]

theorem hidden_apiKey : Hidden Schema.IRAConfig ["security", "api_key"] := by
  refine .field fun f hf hk => ?_
  have hfield : f = ("security", Schema.SecurityConfig, none) := by
    simp only [Schema.sections, List.mem_cons, List.not_mem_nil, or_false] at hf
    rcases hf with rfl | rfl | rfl | rfl | rfl | rfl | rfl | rfl | rfl | rfl <;>
      first | rfl | simp at hk
  rw [hfield]
  refine .field fun f hf hk => ?_
  simp only [List.mem_cons, List.not_mem_nil, or_false] at hf
  rcases hf with rfl | rfl
  · exact .secret rfl
  · simp at hk

theorem keyed_alike (key key' : String) : List.Forall₂
    (Call.Alike Schema.smallConversions EnvVarProvider.lowerLetters) (keyed key) (keyed key') := by
  have hstrip : EnvVarProvider.stripPrefix "IRA_" "IRA_SECURITY_API_KEY" =
      some "SECURITY_API_KEY" := by decide
  have hpath : EnvVarProvider.splitFirst (EnvVarProvider.lowerLetters "SECURITY_API_KEY") =
      ["security", "api_key"] := by decide
  refine .cons (.load (.same _) (.cons ⟨rfl, Or.inr fun name hname => ?_⟩ .nil))
    (.cons (.section _) .nil)
  rw [← Option.some.inj (hstrip.symm.trans hname), hpath]
  exact hidden_apiKey

theorem replies_veiled_keyed :
    (replies Schema.smallConversions EnvVarProvider.lowerLetters {} (keyed "abc")).map
        (printed fun _ => .ok "") =
      (replies Schema.smallConversions EnvVarProvider.lowerLetters {} (keyed "xyz")).map
        (printed fun _ => .ok "") :=
  (replies_veiled Schema.smallConversions EnvVarProvider.lowerLetters (fun _ => .ok "")
    (keyed_alike "abc" "xyz")).2

end ConfigurationManager

end IraOS
