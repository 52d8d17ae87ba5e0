import IraOS.Config.Idempotence

/-!
# What gets past the validator

The validator turns what goes wrong in a conversion into a `ValidationError`, but for two things
that it does outside of any `try`: it prints what is to be a secret, and it prints the number that
it refuses into the message that says so. Where one of these does not print (an integer of some
thousands of digits does not) the exception of `str()` gets out, if nothing before it in the schema
was refused. That is all that does (`validateAndBuild_escapes_iff`).

## The first thing that is not taken

A validator stops at the first field it cannot take, and the fields before it have been taken in
full. So `Trips` names a field, or the rules of a class, and what comes before: the fields of the
class up to that one are `Taken`, and it is the one that raises. A section is a field whose own
fields are gone through in the same way, and the rules of a class come after all of its fields.

What a rule refuses is a number that the configuration has given, since the fields the rules are
about have no defaults. `Refused` says which of them is refused first, for the two classes with
rules.

## The induction

It is on the schema, as the recursion of the validator is, with the loop over the fields inside. The
condition is compared with the validator's run as it is, and not with a list of the exceptions that
there are: whatever a conversion raises is caught, so its class does not matter.
-/

set_option autoImplicit false

namespace IraOS

open Lib

namespace Validator

def Escapes {α : Type} (r : Except Exn α) : Prop :=
  ∃ exc, r = .error exc ∧ exc.cls ≠ configValidationError

section

variable {α β : Type}

theorem not_escapes_ok (a : α) : ¬ Escapes (.ok a : Except Exn α) := by
  rintro ⟨exc, h, -⟩
  cases h

theorem escapes_error_iff {exc : Exn} :
    Escapes (.error exc : Except Exn α) ↔ exc.cls ≠ configValidationError := by
  constructor
  · rintro ⟨exc', h, hcls⟩
    cases h
    exact hcls
  · intro hcls
    exact ⟨exc, rfl, hcls⟩

theorem not_escapes_refused (message : Text) :
    ¬ Escapes (.error ⟨configValidationError, message⟩ : Except Exn α) := by
  rw [escapes_error_iff]
  exact fun h => h rfl

theorem escapes_bind_iff {m : Except Exn α} {f : α → Except Exn β} :
    Escapes (m >>= f) ↔ Escapes m ∨ ∃ a, m = .ok a ∧ Escapes (f a) := by
  cases m with
  | error exc =>
    show Escapes (.error exc) ↔ _
    simp [escapes_error_iff]
  | ok a =>
    show Escapes (f a) ↔ _
    simp [not_escapes_ok]

end

variable {py : Conversions} {value v : ConfigValue} {path : String}

/-- `str()` raises on the value. -/
def Unprintable (py : Conversions) (value : ConfigValue) : Prop :=
  Escapes (ConfigValue.str py value)

/-! ## One value -/

theorem not_escapes_plain {t : FieldType} : ¬ Escapes (coercePlain py t value path) := by
  unfold coercePlain
  split
  · exact not_escapes_ok _
  · exact not_escapes_refused _

theorem wrapped_escapes_iff : Escapes (wrapped py value) ↔ Unprintable py value := by
  unfold wrapped
  rw [escapes_bind_iff]
  exact or_iff_left fun ⟨_, _, h⟩ => not_escapes_ok _ h

theorem union_escapes_iff {args : List FieldType} :
    Escapes (coerceUnion py args value path) ↔
      FieldType.secret ∈ args ∧ value ≠ .leaf .none ∧ Unprintable py value := by
  by_cases hsecret : FieldType.secret ∈ args
  · by_cases hvalue : value = .leaf .none
    · subst hvalue
      have hnone : coerceUnion py args (.leaf .none) path = .ok (.leaf .none) :=
        coerce_none hsecret
      simp [hnone, not_escapes_ok]
    · have hwrapped : coerceUnion py args value path = wrapped py value :=
        coerce_wrapped hsecret hvalue
      simp [hwrapped, wrapped_escapes_iff, hsecret, hvalue]
  · have hany : args.any FieldType.isSecret = false := by
      rw [Bool.eq_false_iff, ne_eq, isSecret_iff]
      exact hsecret
    apply iff_of_false
    · unfold coerceUnion
      rw [hany]
      split
      · exact not_escapes_ok _
      · exact absurd ‹false = true› (by simp)
      · exact absurd ‹false = true› (by simp)
      · split
        · exact not_escapes_ok _
        · exact not_escapes_refused _
    · exact fun h => hsecret h.1

theorem bool_not_escapes : ¬ Escapes (coerceAndValidate py value .bool path) := by
  cases value with
  | table entries =>
    unfold coerceAndValidate
    exact not_escapes_plain
  | leaf l =>
    cases l with
    | str s =>
      simp only [coerceAndValidate]
      split_ifs
      · exact not_escapes_ok _
      · exact not_escapes_ok _
      · exact not_escapes_refused _
    | none | bool b | int i | float x | list items | secret secret =>
      unfold coerceAndValidate
      exact not_escapes_plain

theorem coerceAndValidate_escapes_iff {t : FieldType} :
    Escapes (coerceAndValidate py value t path) ↔
      t.takesSecrets = true ∧ value ≠ .leaf .none ∧ Unprintable py value := by
  cases t with
  | union args =>
    rw [FieldType.takesSecrets, isSecret_iff]
    exact union_escapes_iff
  | secret =>
    by_cases hvalue : value = .leaf .none
    · subst hvalue
      exact iff_of_false (not_escapes_refused _) fun h => h.2.1 rfl
    · have hwrapped : coerceAndValidate py value .secret path = wrapped py value := by
        unfold coerceAndValidate
        split <;> simp_all
      simp [hwrapped, wrapped_escapes_iff, FieldType.takesSecrets, hvalue]
  | bool => exact iff_of_false bool_not_escapes (by simp [FieldType.takesSecrets])
  | int | float | str | noneType | list item | dataclass name fields =>
    apply iff_of_false
    · unfold coerceAndValidate
      exact not_escapes_plain
    · simp [FieldType.takesSecrets]

/-! ## One field -/

variable {f : String × FieldType × Option Built} {fields : Fields} {rawData : ConfigEntries}
  {values : List (String × Built)}

def Taken (py : Conversions) (fields : Fields) (rawData : ConfigEntries) (path : String) : Prop :=
  ∃ values, buildFields py fields rawData path = .ok values

theorem not_escapes_schema {t : FieldType} (ht : t.isDataclass = false) :
    ¬ Escapes (validateAndBuild py t rawData path) := by
  cases t with
  | dataclass name fields => cases ht
  | int | float | str | bool | noneType | secret | list item | union args =>
    unfold validateAndBuild
    exact not_escapes_refused _

theorem not_dataclass_of_takes {t : FieldType} (h : t.takesSecrets = true) :
    t.isDataclass = false := by
  cases t <;> first | rfl | cases h

theorem buildField_escapes_iff : Escapes (buildField py f rawData path) ↔
    ∃ value, rawData.lookup f.1 = some value ∧
      ((f.2.1.takesSecrets = true ∧ value ≠ .leaf .none ∧ Unprintable py value) ∨
        ∃ entries, value = .table entries ∧ Escapes (validateAndBuild py f.2.1 entries path)) := by
  unfold buildField
  cases hraw : rawData.lookup f.1 with
  | none =>
    apply iff_of_false
    · show ¬ Escapes (missing f.2.2 path)
      unfold missing
      split
      · exact not_escapes_ok _
      · exact not_escapes_refused _
    · simp
  | some value =>
    simp only [Option.some.injEq, exists_eq_left']
    cases hclass : f.2.1.isDataclass with
    | true =>
      have hnot : ¬ f.2.1.takesSecrets = true := by
        intro htakes
        rw [not_dataclass_of_takes htakes] at hclass
        cases hclass
      simp only [if_true, hnot]
      cases value with
      | leaf l => exact iff_of_false (not_escapes_refused _) (by simp)
      | table entries => simp
    | false =>
      have hvalue : Escapes ((coerceAndValidate py value f.2.1 path).map Built.value) ↔
          Escapes (coerceAndValidate py value f.2.1 path) := by
        cases coerceAndValidate py value f.2.1 path with
        | ok v => exact iff_of_false (not_escapes_ok _) (not_escapes_ok _)
        | error exc => exact escapes_error_iff.trans escapes_error_iff.symm
      simp only [Bool.false_eq_true, if_false, hvalue, coerceAndValidate_escapes_iff,
        not_escapes_schema hclass, and_false, exists_false, or_false]

/-! ## The fields, in order -/

theorem buildFields_cons : buildFields py (f :: fields) rawData path =
    (buildField py f rawData (fieldPath path f.1) >>= fun b =>
      buildFields py fields rawData path >>= fun rest => .ok ((f.1, b) :: rest)) := rfl

theorem taken_cons_iff : Taken py (f :: fields) rawData path ↔
    (∃ b, buildField py f rawData (fieldPath path f.1) = .ok b) ∧
      Taken py fields rawData path := by
  unfold Taken
  rw [buildFields_cons]
  constructor
  · rintro ⟨values, h⟩
    obtain ⟨b, hb, h⟩ := bind_eq_ok.mp h
    obtain ⟨rest, hrest, -⟩ := bind_eq_ok.mp h
    exact ⟨⟨b, hb⟩, rest, hrest⟩
  · rintro ⟨⟨b, hb⟩, rest, hrest⟩
    exact ⟨(f.1, b) :: rest, by rw [hb, hrest]; rfl⟩

theorem buildFields_escapes_iff : Escapes (buildFields py fields rawData path) ↔
    ∃ before f after, fields = before ++ f :: after ∧ Taken py before rawData path ∧
      Escapes (buildField py f rawData (fieldPath path f.1)) := by
  induction fields with
  | nil =>
    apply iff_of_false (not_escapes_ok _)
    rintro ⟨before, f, after, h, -⟩
    simp at h
  | cons g rest ih =>
    have htail : ∀ b, Escapes (buildFields py rest rawData path >>= fun rest =>
        (.ok ((g.1, b) :: rest) : Except Exn _)) ↔ Escapes (buildFields py rest rawData path) := by
      intro b
      rw [escapes_bind_iff]
      exact or_iff_left fun ⟨_, _, h⟩ => not_escapes_ok _ h
    rw [buildFields_cons, escapes_bind_iff]
    simp only [htail, ih]
    constructor
    · rintro (hhead | ⟨b, hb, before, f, after, rfl, htaken, hescapes⟩)
      · exact ⟨[], g, rest, rfl, ⟨[], rfl⟩, hhead⟩
      · exact ⟨g :: before, f, after, rfl, taken_cons_iff.mpr ⟨⟨b, hb⟩, htaken⟩, hescapes⟩
    · rintro ⟨before, f, after, heq, htaken, hescapes⟩
      cases before with
      | nil =>
        obtain ⟨rfl, rfl⟩ := List.cons.inj heq
        exact Or.inl hescapes
      | cons g' before =>
        obtain ⟨rfl, rfl⟩ := List.cons.inj heq
        obtain ⟨⟨b, hb⟩, htaken⟩ := taken_cons_iff.mp htaken
        exact Or.inr ⟨b, hb, before, f, after, rfl, htaken, hescapes⟩

/-! ## The rules -/

theorem refuse_escapes_iff {message : String} :
    Escapes (refuse py message v) ↔ Unprintable py v := by
  unfold refuse
  rw [escapes_bind_iff]
  exact or_iff_left fun ⟨_, _, h⟩ => not_escapes_refused _ h

inductive Refused (py : Conversions) (rawData : ConfigEntries) (cls : String) : ConfigValue → Prop
  | port {value : ConfigValue} {port : Int} (server : cls = "ServerConfig")
      (found : rawData.lookup "port" = some value) (int : ConfigValue.toInt value = .ok port)
      (out : ¬ (1 ≤ port ∧ port ≤ 65535)) : Refused py rawData cls (.leaf (.int port))
  | timeout {value value' : ConfigValue} {port : Int} {timeout : PyFloat}
      (server : cls = "ServerConfig") (found : rawData.lookup "port" = some value)
      (int : ConfigValue.toInt value = .ok port) (range : 1 ≤ port ∧ port ≤ 65535)
      (found' : rawData.lookup "timeout" = some value')
      (float : ConfigValue.toFloat py value' = .ok timeout)
      (negative : timeout.lt (.finite 0) = true) :
      Refused py rawData cls (.leaf (.float timeout))
  | limit {value : ConfigValue} {limit : Int} (kernel : cls = "KernelConfig")
      (found : rawData.lookup "event_limit" = some value)
      (int : ConfigValue.toInt value = .ok limit) (out : limit ≤ 0) :
      Refused py rawData cls (.leaf (.int limit))

theorem required_int_raw {fieldName : String}
    (h : List.Forall₂ (BuiltFrom py rawData path) fields values)
    (hfield : fields.lookup fieldName = some (.int, none)) :
    ∃ value i, rawData.lookup fieldName = some value ∧ ConfigValue.toInt value = .ok i ∧
      values.lookup fieldName = some (.value (.leaf (.int i))) := by
  obtain ⟨b, path, hvalues, hb⟩ := required h hfield
  rcases buildField_cases hb with ⟨-, hdefault⟩ | ⟨entries, -, hb⟩ | ⟨value, v, hraw, -, hv, rfl⟩
  · cases hdefault
  · simp [validateAndBuild] at hb
  · obtain ⟨i, hi, hv⟩ := bind_eq_ok.mp (coercePlain_eq (t := .int) hv)
    obtain rfl := Except.ok.inj hv
    exact ⟨value, i, hraw, hi, hvalues⟩

theorem server_escapes_iff {port : Int} {timeout : PyFloat}
    (hport : values.lookup "port" = some (.value (.leaf (.int port))))
    (htimeout : values.lookup "timeout" = some (.value (.leaf (.float timeout)))) :
    Escapes (applyRules py "ServerConfig" values) ↔
      (¬ (1 ≤ port ∧ port ≤ 65535) ∧ Unprintable py (.leaf (.int port))) ∨
        ((1 ≤ port ∧ port ≤ 65535) ∧ timeout.lt (.finite 0) = true ∧
          Unprintable py (.leaf (.float timeout))) := by
  have hrange : (PyFloat.le (.finite 1) (.finite port) &&
      PyFloat.le (.finite port) (.finite 65535)) = decide (1 ≤ port ∧ port ≤ 65535) := by
    rw [Bool.decide_and]
    simp only [PyFloat.le]
    norm_cast
  rw [applyRules, if_pos rfl, getNumber_int hport, getNumber_float htimeout]
  show Escapes (if (!_) = true then refuse py _ _ >>= fun _ => _ else _) ↔ _
  rw [hrange]
  by_cases hin : 1 ≤ port ∧ port ≤ 65535
  · simp only [hin, and_self, decide_true, Bool.not_true, Bool.false_eq_true, if_false, not_true,
      false_and, false_or, true_and]
    show Escapes (if PyFloat.lt timeout (.finite 0) = true then refuse py _ _ else _) ↔ _
    cases hneg : PyFloat.lt timeout (.finite 0) with
    | true => simp [refuse_escapes_iff]
    | false =>
      simp only [Bool.false_eq_true, if_false, false_and, iff_false]
      exact not_escapes_ok _
  · simp only [hin, decide_false, Bool.not_false, if_true, escapes_bind_iff, refuse_escapes_iff,
      not_false_iff, true_and, false_and, or_false]
    apply or_iff_left
    rintro ⟨_, h, -⟩
    exact refuse_ne_ok h

theorem kernel_escapes_iff {limit : Int}
    (hlimit : values.lookup "event_limit" = some (.value (.leaf (.int limit)))) :
    Escapes (applyRules py "KernelConfig" values) ↔
      limit ≤ 0 ∧ Unprintable py (.leaf (.int limit)) := by
  have hle : PyFloat.le (.finite limit) (.finite 0) = decide (limit ≤ 0) := by
    simp only [PyFloat.le]
    norm_cast
  rw [applyRules, if_neg (by decide), if_pos rfl, getNumber_int hlimit]
  show Escapes (if PyFloat.le _ _ = true then refuse py _ _ else _) ↔ _
  rw [hle]
  by_cases hlimit : limit ≤ 0
  · simp [hlimit, refuse_escapes_iff]
  · simp only [hlimit, decide_false, Bool.false_eq_true, if_false, false_and, iff_false]
    exact not_escapes_ok _

theorem refused_server_iff {value value' : ConfigValue} {port : Int} {timeout : PyFloat}
    (hraw : rawData.lookup "port" = some value) (hint : ConfigValue.toInt value = .ok port)
    (hraw' : rawData.lookup "timeout" = some value')
    (hfloat : ConfigValue.toFloat py value' = .ok timeout) :
    Refused py rawData "ServerConfig" v ↔
      (¬ (1 ≤ port ∧ port ≤ 65535) ∧ v = .leaf (.int port)) ∨
        ((1 ≤ port ∧ port ≤ 65535) ∧ timeout.lt (.finite 0) = true ∧
          v = .leaf (.float timeout)) := by
  constructor
  · intro h
    cases h with
    | port _ found int out =>
      rw [hraw] at found
      obtain rfl := Option.some.inj found
      rw [hint] at int
      obtain rfl := Except.ok.inj int
      exact Or.inl ⟨out, rfl⟩
    | timeout _ found int range found' float negative =>
      rw [hraw] at found
      obtain rfl := Option.some.inj found
      rw [hint] at int
      obtain rfl := Except.ok.inj int
      rw [hraw'] at found'
      obtain rfl := Option.some.inj found'
      rw [hfloat] at float
      obtain rfl := Except.ok.inj float
      exact Or.inr ⟨range, negative, rfl⟩
    | limit kernel => exact absurd kernel (by decide)
  · rintro (⟨hout, rfl⟩ | ⟨hin, hneg, rfl⟩)
    · exact .port rfl hraw hint hout
    · exact .timeout rfl hraw hint hin hraw' hfloat hneg

theorem refused_kernel_iff {value : ConfigValue} {limit : Int}
    (hraw : rawData.lookup "event_limit" = some value)
    (hint : ConfigValue.toInt value = .ok limit) :
    Refused py rawData "KernelConfig" v ↔ limit ≤ 0 ∧ v = .leaf (.int limit) := by
  constructor
  · intro h
    cases h with
    | port server | timeout server => exact absurd server (by decide)
    | limit _ found int out =>
      rw [hraw] at found
      obtain rfl := Option.some.inj found
      rw [hint] at int
      obtain rfl := Except.ok.inj int
      exact ⟨out, rfl⟩
  · rintro ⟨hout, rfl⟩
    exact .limit rfl hraw hint hout

theorem applyRules_escapes_iff {cls : String}
    (server : cls = "ServerConfig" →
      fields.lookup "port" = some (.int, none) ∧ fields.lookup "timeout" = some (.float, none))
    (kernel : cls = "KernelConfig" → fields.lookup "event_limit" = some (.int, none))
    (hbuilt : List.Forall₂ (BuiltFrom py rawData path) fields values) :
    Escapes (applyRules py cls values) ↔ ∃ v, Refused py rawData cls v ∧ Unprintable py v := by
  by_cases hserver : cls = "ServerConfig"
  · subst hserver
    obtain ⟨value, port, hraw, hint, hport⟩ := required_int_raw hbuilt (server rfl).1
    obtain ⟨value', timeout, hraw', hfloat, htimeout⟩ := required_float hbuilt (server rfl).2
    rw [server_escapes_iff hport htimeout]
    simp only [refused_server_iff hraw hint hraw' hfloat]
    constructor
    · rintro (⟨hout, hprint⟩ | ⟨hin, hneg, hprint⟩)
      · exact ⟨_, Or.inl ⟨hout, rfl⟩, hprint⟩
      · exact ⟨_, Or.inr ⟨hin, hneg, rfl⟩, hprint⟩
    · rintro ⟨v, ⟨hout, rfl⟩ | ⟨hin, hneg, rfl⟩, hprint⟩
      · exact Or.inl ⟨hout, hprint⟩
      · exact Or.inr ⟨hin, hneg, hprint⟩
  · by_cases hkernel : cls = "KernelConfig"
    · subst hkernel
      obtain ⟨value, limit, hraw, hint, hlimit⟩ := required_int_raw hbuilt (kernel rfl)
      rw [kernel_escapes_iff hlimit]
      simp only [refused_kernel_iff hraw hint]
      constructor
      · rintro ⟨hout, hprint⟩
        exact ⟨_, ⟨hout, rfl⟩, hprint⟩
      · rintro ⟨v, ⟨hout, rfl⟩, hprint⟩
        exact ⟨hout, hprint⟩
    · apply iff_of_false
      · rw [applyRules, if_neg hserver, if_neg hkernel]
        exact not_escapes_ok _
      · rintro ⟨v, hrefused, -⟩
        cases hrefused with
        | port server | timeout server => exact hserver server
        | limit kernel => exact hkernel kernel

/-! ## A schema -/

/-- **What the validator trips over**: the first thing it does not take is something to be printed
that does not print. -/
inductive Trips (py : Conversions) : FieldType → ConfigEntries → String → Prop
  /-- A field is to be a secret. -/
  | secret {cls : String} {before after : Fields} {f : String × FieldType × Option Built}
      {rawData : ConfigEntries} {path : String} {value : ConfigValue}
      (taken : Taken py before rawData path) (found : rawData.lookup f.1 = some value)
      (takes : f.2.1.takesSecrets = true) (given : value ≠ .leaf .none)
      (unprintable : Unprintable py value) :
      Trips py (.dataclass cls (before ++ f :: after)) rawData path
  /-- It is in a section. -/
  | inside {cls : String} {before after : Fields} {f : String × FieldType × Option Built}
      {rawData entries : ConfigEntries} {path : String}
      (taken : Taken py before rawData path) (found : rawData.lookup f.1 = some (.table entries))
      (h : Trips py f.2.1 entries (fieldPath path f.1)) :
      Trips py (.dataclass cls (before ++ f :: after)) rawData path
  /-- A number is refused. -/
  | rule {cls : String} {fields : Fields} {rawData : ConfigEntries} {path : String}
      {v : ConfigValue} (taken : Taken py fields rawData path) (refused : Refused py rawData cls v)
      (unprintable : Unprintable py v) : Trips py (.dataclass cls fields) rawData path

theorem schema_escapes_iff {cls : String} :
    Escapes (validateAndBuild py (.dataclass cls fields) rawData path) ↔
      Escapes (buildFields py fields rawData path) ∨
        ∃ values, buildFields py fields rawData path = .ok values ∧
          Escapes (applyRules py cls values) := by
  have hrules : ∀ values, Escapes (applyRules py cls values >>= fun _ =>
      (.ok (.instance cls values) : Except Exn Built)) ↔ Escapes (applyRules py cls values) := by
    intro values
    rw [escapes_bind_iff]
    exact or_iff_left fun ⟨_, _, h⟩ => not_escapes_ok _ h
  have hunfold : validateAndBuild py (.dataclass cls fields) rawData path =
      (buildFields py fields rawData path >>= fun values =>
        applyRules py cls values >>= fun _ => .ok (.instance cls values)) := by
    rw [validateAndBuild]
    rfl
  rw [hunfold, escapes_bind_iff]
  simp only [hrules]

/-- **That is all that gets out**, by induction on the schema. -/
theorem validateAndBuild_escapes_iff {t : FieldType} (ht : Ruled t) :
    Escapes (validateAndBuild py t rawData path) ↔ Trips py t rawData path := by
  induction ht generalizing rawData path with
  | @plain t hclass =>
    apply iff_of_false (not_escapes_schema hclass)
    intro h
    cases h <;> cases hclass
  | @dataclass cls fields server kernel types defaults ih =>
    rw [schema_escapes_iff, buildFields_escapes_iff]
    simp only [buildField_escapes_iff]
    constructor
    · rintro (⟨before, f, after, rfl, htaken, value, hfound, hvalue⟩ | ⟨values, hvalues, hrules⟩)
      · rcases hvalue with ⟨htakes, hgiven, hprint⟩ | ⟨entries, rfl, hbelow⟩
        · exact .secret htaken hfound htakes hgiven hprint
        · exact .inside htaken hfound ((ih f (by simp)).mp hbelow)
      · obtain ⟨v, hrefused, hprint⟩ :=
          (applyRules_escapes_iff server kernel (buildFields_ok hvalues)).mp hrules
        exact .rule ⟨values, hvalues⟩ hrefused hprint
    · intro h
      cases h with
      | @secret _ before after f _ _ value taken found takes given unprintable =>
        exact Or.inl ⟨before, f, after, rfl, taken, value, found,
          Or.inl ⟨takes, given, unprintable⟩⟩
      | @inside _ before after f _ entries _ taken found h =>
        exact Or.inl ⟨before, f, after, rfl, taken, .table entries, found,
          Or.inr ⟨entries, rfl, (ih f (by simp)).mpr h⟩⟩
      | @rule _ _ _ _ v taken refused unprintable =>
        obtain ⟨values, hvalues⟩ := taken
        exact Or.inr ⟨values, hvalues, (applyRules_escapes_iff server kernel
          (buildFields_ok hvalues)).mpr ⟨v, refused, unprintable⟩⟩

end Validator

end IraOS
