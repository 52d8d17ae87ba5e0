import IraOS.Config.Validator
import IraOS.Lib.Leaves

/-!
# Configuration from the environment

`EnvVarProvider` (`core/config/providers.py`): `IRA_SERVER_PORT=8080` is
`{"server": {"port": "8080"}}`. A name without a section, `IRA_SERVER`, puts a string where others
put a table, and wins over all of them: before it their table is overwritten, and after it they find
it in their way. So which table comes out does not depend on the order of the variables.

Taken as writes of leaves at paths (`Lib.Nested`), two variables with different paths commute:
either neither path leads through the other, or the shorter one has the last word in both orders.
Two names that are the same in lower case have the same path, and of them the later one is read;
that is the exception (`load_perm`).

`str.lower` is about characters, and is a parameter.
-/

set_option autoImplicit false

namespace IraOS

open Lib

namespace EnvVarProvider

/-! ## core/config/providers.py -/

def stripPrefix (pre key : String) : Option String :=
  if pre.toList <+: key.toList then some (String.ofList (key.toList.drop pre.toList.length))
  else none

/-- `s.split('_', 1)`. -/
def splitFirst (s : String) : List String :=
  match s.toList.dropWhile fun c => c != '_' with
  | [] => [s]
  | _ :: rest => [String.ofList (s.toList.takeWhile fun c => c != '_'), String.ofList rest]

def assignment (lower : String → String) (pre : String) (item : String × String) :
    Option (List String × ConfigLeaf) :=
  match stripPrefix pre item.1 with
  | none => none
  | some name => some (splitFirst (lower name), .str item.2)

/-- One turn of the loop over `os.environ.items()`. -/
def visit (lower : String → String) (pre : String) (config : ConfigEntries)
    (item : String × String) : ConfigEntries :=
  match assignment lower pre item with
  | none => config
  | some (path, value) => Nested.assign value path config

theorem visit_distinct {lower : String → String} {pre : String} {config : ConfigEntries}
    (h : (Nested.table config).Distinct) (item : String × String) :
    (Nested.table (visit lower pre config item)).Distinct := by
  unfold visit
  split
  · exact h
  · exact Nested.assign_distinct h

theorem visits_distinct {lower : String → String} {pre : String} {config : ConfigEntries}
    (h : (Nested.table config).Distinct) (environ : List (String × String)) :
    (Nested.table (environ.foldl (visit lower pre) config)).Distinct := by
  induction environ generalizing config with
  | nil => exact h
  | cons item rest ih => exact ih (visit_distinct h item)

/-- `load`, of an environment that enumerates as `environ`. -/
def load (lower : String → String) (pre : String) (environ : List (String × String)) :
    ConfigTable ConfigLeaf :=
  ⟨environ.foldl (visit lower pre) [], visits_distinct ConfigTable.empty.distinct environ⟩

/-! ## The paths of the variables -/

/-- The names that are read, as they are read. -/
def names (lower : String → String) (pre : String) (environ : List (String × String)) :
    List String :=
  environ.filterMap fun item => (stripPrefix pre item.1).map lower

theorem splitFirst_ne_nil (s : String) : splitFirst s ≠ [] := by
  unfold splitFirst
  split <;> simp

theorem splitFirst_cases (s : String) : splitFirst s = [s] ∨
    ∃ part rest, splitFirst s = [part, rest] ∧ s.toList = part.toList ++ '_' :: rest.toList := by
  have hall := List.takeWhile_append_dropWhile (p := fun c => c != '_') (l := s.toList)
  unfold splitFirst
  cases hdrop : s.toList.dropWhile fun c => c != '_' with
  | nil => exact Or.inl rfl
  | cons c rest =>
    have hc : c = '_' := by
      have hhead := List.head_dropWhile_not (fun c => c != '_') (l := s.toList) (by simp [hdrop])
      simpa [hdrop] using hhead
    rw [hdrop, hc] at hall
    exact Or.inr ⟨_, _, rfl, by simpa using hall.symm⟩

theorem splitFirst_injective {s s' : String} (h : splitFirst s = splitFirst s') : s = s' := by
  rcases splitFirst_cases s with hs | ⟨part, rest, hs, hjoin⟩ <;>
    rcases splitFirst_cases s' with hs' | ⟨part', rest', hs', hjoin'⟩ <;> rw [hs, hs'] at h
  · exact List.head_eq_of_cons_eq h
  · cases h
  · cases h
  · obtain ⟨rfl, rfl⟩ : part = part' ∧ rest = rest' := by simpa using h
    exact String.ext (hjoin.trans hjoin'.symm)

theorem load_entries (lower : String → String) (pre : String) (environ : List (String × String)) :
    (load lower pre environ).entries =
      Nested.assignAll (environ.filterMap (assignment lower pre)) [] := by
  have hloop : ∀ config, environ.foldl (visit lower pre) config =
      Nested.assignAll (environ.filterMap (assignment lower pre)) config := by
    induction environ with
    | nil => exact fun _ => rfl
    | cons item rest ih =>
      intro config
      rw [List.foldl_cons, ih, List.filterMap_cons, visit]
      cases assignment lower pre item <;> rfl
  exact hloop []

theorem assignment_paths (lower : String → String) (pre : String)
    (environ : List (String × String)) :
    (environ.filterMap (assignment lower pre)).map Prod.fst =
      (names lower pre environ).map splitFirst := by
  rw [names, List.map_filterMap, List.map_filterMap]
  congr
  funext item
  unfold assignment
  cases stripPrefix pre item.1 <;> rfl

/-- **The order of the environment does not matter**, as long as no two names are the same in lower
case. Names of which one leads through the other are allowed: the shorter one wins in either order,
by overwriting what is there or by being in the way of what comes. -/
theorem load_perm (lower : String → String) (pre : String)
    {environ environ' : List (String × String)} (hperm : environ.Perm environ')
    (hnodup : (names lower pre environ).Nodup) :
    (load lower pre environ).Same (load lower pre environ') := by
  have hpaths : ((environ.filterMap (assignment lower pre)).map Prod.fst).Nodup := by
    rw [assignment_paths]
    exact hnodup.map fun _ _ => splitFirst_injective
  have hne : ∀ e ∈ environ.filterMap (assignment lower pre), e.1 ≠ [] := by
    intro e he
    have hmem := List.mem_map_of_mem (f := Prod.fst) he
    rw [assignment_paths] at hmem
    obtain ⟨name, -, hname⟩ := List.mem_map.mp hmem
    exact hname ▸ splitFirst_ne_nil name
  intro p
  have hlook := Nested.assignAll_perm (hperm.filterMap _) hne hpaths [] p
  rw [← load_entries, ← load_entries] at hlook
  exact congrArg Found.plain hlook

/-! ## A section that is a string, and a key in it -/

/-- Lower case, letter by letter. -/
def lowerLetters (s : String) : String := String.ofList (s.toList.map Char.toLower)

def serverAndPort : List (String × String) := [("IRA_SERVER", "x"), ("IRA_SERVER_PORT", "1")]

theorem load_perm_serverAndPort :
    (load lowerLetters "IRA_" serverAndPort).Same
      (load lowerLetters "IRA_" serverAndPort.reverse) :=
  load_perm lowerLetters "IRA_" (List.reverse_perm _).symm (by decide)

example : (load lowerLetters "IRA_" serverAndPort).at? ["server"] = .leaf (.str "x") ∧
    (load lowerLetters "IRA_" serverAndPort.reverse).at? ["server"] = .leaf (.str "x") := by
  constructor <;> rfl

end EnvVarProvider

end IraOS
