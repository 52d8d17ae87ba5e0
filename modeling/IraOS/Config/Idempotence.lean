import IraOS.Config.Sections

/-!
# Coercing what was coerced

An override may carry a value of the type it is for, where a file carries text. A value of a plain
type is its own coercion (`coerce_of_hasType`). A secret is not: whatever is to be one is printed
and wrapped, and what a `SecretValue` prints is its mask. So a secret that comes as a secret is
lost, but for the one that reads like the mask (`coerce_idempotent_iff`).

The statement is about every type of a field in the schema and every value that the validator takes
for it: validating the result again gives the same result, **just if the type takes no secrets, or
the value is `None`, or it reads like the mask**. That what was given as a secret is still in the
result is part of it, as a result that is lost the first time comes out the same ever after.
-/

set_option autoImplicit false

namespace IraOS

open Lib

namespace FieldType

/-- A secret is a member of the type. -/
def takesSecrets : FieldType → Bool
  | .secret => true
  | .union args => args.any isSecret
  | _ => false

def fields : FieldType → Fields
  | .dataclass _ fields => fields
  | _ => []

end FieldType

namespace Schema

def fieldTypes : List FieldType := sections.flatMap fun s => s.2.1.fields.map fun f => f.2.1

theorem mem_fieldTypes {t : FieldType} (h : t ∈ fieldTypes) :
    t = .int ∨ t = .float ∨ t = .str ∨ t = .bool ∨ t = .list .str ∨
      t = .union [.secret, .noneType] ∨ t = .union [.secret, .str] := by
  simp only [fieldTypes, sections, KernelConfig, ServerConfig, LoggingConfig, SecurityConfig,
    LLMConfig, DatabaseConfig, PluginConfig, AndroidConfig, DesktopConfig, IdentityConfig,
    FieldType.fields, List.flatMap_cons, List.flatMap_nil, List.map_cons, List.map_nil,
    List.cons_append, List.nil_append, List.mem_cons, List.not_mem_nil] at h
  tauto

end Schema

namespace Validator

variable {py : Conversions} {value v : ConfigValue} {path : String}

/-! ## Plain types -/

theorem mapM_eq_self {f : ConfigValue → Except Exn ConfigValue} {items : List ConfigValue}
    (h : ∀ x ∈ items, f x = .ok x) : items.mapM f = .ok items := by
  induction items with
  | nil => rfl
  | cons x rest ih =>
    rw [List.mapM_cons, h x List.mem_cons_self,
      ih fun y hy => h y (List.mem_cons_of_mem _ hy)]
    rfl

theorem coerce_of_hasType {t : FieldType}
    (ht : t = .int ∨ t = .float ∨ t = .str ∨ t = .bool ∨ t = .list .str)
    (h : HasType (.value v) t) : coerceAndValidate py v t path = .ok v := by
  rcases ht with rfl | rfl | rfl | rfl | rfl
  · cases h
    rfl
  · cases h
    rfl
  · cases h
    rfl
  · cases h
    rfl
  · cases h with
    | @list items _ each =>
      have hitems : items.mapM (coerce py .str) = .ok items := by
        apply mapM_eq_self
        intro x hx
        have hstr := each x hx
        cases hstr
        rfl
      have hcoerce : coerce py (.list .str) (.leaf (.list items)) = .ok (.leaf (.list items)) := by
        rw [coerce, hitems]
        rfl
      show coercePlain py _ _ _ = _
      rw [coercePlain, hcoerce]

/-! ## Secrets -/

theorem coerce_none {args : List FieldType} (hsecret : FieldType.secret ∈ args) :
    coerceAndValidate py (.leaf .none) (.union args) path = .ok (.leaf .none) := by
  show coerceUnion py args _ path = _
  unfold coerceUnion
  rw [isSecret_iff.mpr hsecret]
  cases args.any FieldType.isNoneType <;> rfl

theorem coerce_wrapped {args : List FieldType} (hsecret : FieldType.secret ∈ args)
    (hvalue : value ≠ .leaf .none) :
    coerceAndValidate py value (.union args) path = wrapped py value := by
  show coerceUnion py args value path = _
  unfold coerceUnion
  rw [isSecret_iff.mpr hsecret]
  split
  · exact absurd rfl hvalue
  · exact absurd rfl hvalue
  · rfl
  · exact absurd ‹true = false› (by simp)

def mask : String := "******"

/-- The value is `None`, or it reads like the mask already. -/
def Masked (py : Conversions) (value : ConfigValue) : Prop :=
  value = .leaf .none ∨
    (ConfigValue.str py value = .ok mask ∧ ∀ s, value = .leaf (.secret s) → s = mask)

/-- Coercing `v`, which came of `value`, gives `v` again, and a secret that was given is in it. -/
def Stable (py : Conversions) (t : FieldType) (value v : ConfigValue) : Prop :=
  (∀ path, coerceAndValidate py v t path = .ok v) ∧
    (t.takesSecrets = true → ∀ s, value = .leaf (.secret s) → v = .leaf (.secret s))

theorem stable_union_iff {args : List FieldType} (hsecret : FieldType.secret ∈ args)
    (h : coerceAndValidate py value (.union args) path = .ok v) :
    Stable py (.union args) value v ↔ Masked py value := by
  by_cases hvalue : value = .leaf .none
  · subst hvalue
    rw [coerce_none hsecret] at h
    obtain rfl := Except.ok.inj h
    apply iff_of_true
    · exact ⟨fun _ => coerce_none hsecret, fun _ s hs => hs⟩
    · exact Or.inl rfl
  · rw [coerce_wrapped hsecret hvalue] at h
    obtain ⟨s, hs, hv⟩ := bind_eq_ok.mp h
    obtain rfl := Except.ok.inj hv
    have hagain : ∀ path, coerceAndValidate py (.leaf (.secret s)) (.union args) path =
        .ok (.leaf (.secret mask)) := fun path => coerce_wrapped hsecret (by simp)
    have htakes : (FieldType.union args).takesSecrets = true := isSecret_iff.mpr hsecret
    unfold Stable Masked
    rw [hs]
    constructor
    · rintro ⟨hsame, hkeeps⟩
      have hmask := hsame path
      rw [hagain] at hmask
      obtain rfl : mask = s := by simpa using hmask
      refine Or.inr ⟨rfl, fun s' hs' => ?_⟩
      have hkept := hkeeps htakes s' hs'
      simpa using hkept.symm
    · rintro (hnone | ⟨hmask, hsecret'⟩)
      · exact absurd hnone hvalue
      · obtain rfl : s = mask := Except.ok.inj hmask
        exact ⟨hagain, fun _ s' hs' => by rw [hsecret' s' hs']⟩

/-- **Coercion is idempotent and keeps secrets** just where none is taken, or there is none to keep:
for every type of a field and every value that the validator takes for it. A secret that is
validated again is wrapped around its own mask, and is lost. -/
theorem coerce_idempotent_iff {t : FieldType} (ht : t ∈ Schema.fieldTypes)
    (h : coerceAndValidate py value t path = .ok v) :
    Stable py t value v ↔ (t.takesSecrets = true → Masked py value) := by
  have hplain : (t = .int ∨ t = .float ∨ t = .str ∨ t = .bool ∨ t = .list .str) →
      (Stable py t value v ↔ (t.takesSecrets = true → Masked py value)) := by
    intro ht'
    have hfalse : t.takesSecrets = false := by rcases ht' with rfl | rfl | rfl | rfl | rfl <;> rfl
    have hsupported : Supported t := by
      rcases ht' with rfl | rfl | rfl | rfl | rfl
      · exact .int
      · exact .float
      · exact .str
      · exact .bool
      · exact .strings
    have hnot : t.isDataclass = false ∧ ∀ args, t ≠ .union args := by
      rcases ht' with rfl | rfl | rfl | rfl | rfl <;> exact ⟨rfl, by simp⟩
    have htype := (coerceAndValidate_hasType hsupported hnot.1 h).mpr (not_slips hnot.2 hnot.1)
    unfold Stable
    simp only [hfalse, Bool.false_eq_true, false_imp_iff, and_true, iff_true]
    exact fun path => coerce_of_hasType ht' htype
  rcases Schema.mem_fieldTypes ht with h' | h' | h' | h' | h' | rfl | rfl
  · exact hplain (Or.inl h')
  · exact hplain (by simp [h'])
  · exact hplain (by simp [h'])
  · exact hplain (by simp [h'])
  · exact hplain (by simp [h'])
  · rw [stable_union_iff (by simp) h]
    exact ⟨fun hmasked _ => hmasked, fun hmasked => hmasked rfl⟩
  · rw [stable_union_iff (by simp) h]
    exact ⟨fun hmasked _ => hmasked, fun hmasked => hmasked rfl⟩

/-! ## An API key given as a secret -/

theorem apiKey_mem : FieldType.union [.secret, .noneType] ∈ Schema.fieldTypes := by
  simp [Schema.fieldTypes, Schema.sections, Schema.SecurityConfig, FieldType.fields]

theorem coerce_idempotent_apiKey :
    Stable Schema.smallConversions (.union [.secret, .noneType]) (.leaf (.str "k"))
        (.leaf (.secret "k")) ↔
      ((FieldType.union [.secret, .noneType]).takesSecrets = true →
        Masked Schema.smallConversions (.leaf (.str "k"))) := by
  have h : coerceAndValidate Schema.smallConversions (.leaf (.str "k"))
      (.union [.secret, .noneType]) "security.api_key" = .ok (.leaf (.secret "k")) := rfl
  exact coerce_idempotent_iff apiKey_mem h

/-- It comes out as its mask. -/
theorem apiKey_lost :
    coerceAndValidate Schema.smallConversions (.leaf (.secret "k")) (.union [.secret, .noneType])
        "security.api_key" = .ok (.leaf (.secret mask)) ∧
      ¬ ∀ (py : Conversions) (t : FieldType) (value v : ConfigValue) (path : String),
        t ∈ Schema.fieldTypes → coerceAndValidate py value t path = .ok v →
          Stable py t value v := by
  have h : coerceAndValidate Schema.smallConversions (.leaf (.secret "k"))
      (.union [.secret, .noneType]) "security.api_key" = .ok (.leaf (.secret mask)) := rfl
  refine ⟨h, ?_⟩
  intro hall
  have hkept := (hall _ _ _ _ _ apiKey_mem h).2 rfl "k" rfl
  simp [mask] at hkept

end Validator

end IraOS
