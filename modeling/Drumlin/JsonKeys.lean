import Drumlin.Library.Runs
import Drumlin.Library.StdMap
import Drumlin.StringList

/-!
# The keys of a configuration

`setKey` and `setDefaultValue` (jsonconfig.cpp) put values under keys of an object, both by
`insert`; `getKey` finds one.  What the values are does not matter.
-/

namespace Drumlin.Config

/-- `json::value`: an object with its members, or of another kind. -/
inductive JsonValue (Json : Type*)
  | object (members : Std.ExtTreeMap Str Json)
  | other (value : Json)

namespace JsonValue

variable {Json : Type*}

/-- `get_object`, which throws if there is no object. -/
def getObject : JsonValue Json → Option (Std.ExtTreeMap Str Json)
  | object members => some members
  | other _ => none

/-- `find` of a key. -/
def find (value : JsonValue Json) (key : Str) : Option (Option Json) :=
  value.getObject.map fun members => members[key]?

/-- `JsonConfig::setKey`, with the value of the configuration. -/
def setKey (json : JsonValue Json) (l : List (Str × Json)) : Option (JsonValue Json) :=
  json.getObject.map fun members => object (StdMap.insertEach members l)

/-- `JsonConfig::getKey`. -/
def getKey (json : JsonValue Json) (key : Str) : Option (Option Json) := json.find key

/-- The body of the loop of `setDefaultValue`. -/
def setDefault (parent : JsonValue Json) (pair : Str × Json) : Option (JsonValue Json) :=
  (parent.find pair.1).bind fun found =>
    if found.isNone then
      parent.getObject.map fun members => object (members.insertIfNew pair.1 pair.2)
    else
      some parent

/-- `JsonConfig::setDefaultValue`. -/
def setDefaultValue (parent : JsonValue Json) (l : List (Str × Json)) : Option (JsonValue Json) :=
  Runs.exec setDefault parent l

/-! ## Setting and defaulting -/

/-- To look for a key before inserting it makes no difference. -/
theorem setDefaultValue_eq_setKey (json : JsonValue Json) {members : Std.ExtTreeMap Str Json}
    (is_object : json = object members) (l : List (Str × Json)) :
    json.setDefaultValue l = json.setKey l := by
  subst is_object
  rw [setKey, getObject, Option.map_some, setDefaultValue]
  induction l generalizing members with
  | nil => rfl
  | cons pair l induction =>
      have one : setDefault (object members) pair =
          some (object (members.insertIfNew pair.1 pair.2)) := by
        rw [setDefault, find, getObject, Option.map_some, Option.bind_some]
        by_cases present : pair.1 ∈ members
        · have found : members[pair.1]?.isNone = false := by simp [present]
          rw [found, StdMap.insertIfNew_of_mem present]
          rfl
        · rw [Std.ExtTreeMap.getElem?_eq_none present]
          rfl
      exact Runs.exec_cons_eq_some.mpr ⟨_, one, induction⟩

/-- Both leave a key what it was, and put the listed value under one that was absent. -/
theorem getKey_insertEach (members : Std.ExtTreeMap Str Json) (l : List (Str × Json)) (key : Str) :
    (object (StdMap.insertEach members l)).getKey key = some (members[key]?.or (l.lookup key)) := by
  rw [getKey, find, getObject, Option.map_some, StdMap.getElem?_insertEach_eq]

/-- After setting, the listed keys have the listed values and the others what they had; defaulting
changes only keys that were absent. -/
structure SetsAndDefaults (members : Std.ExtTreeMap Str Json) (l : List (Str × Json)) : Prop where
  sets : ∃ json, setKey (object members) l = some json ∧
    (∀ pair ∈ l, json.getKey pair.1 = some (some pair.2)) ∧
      ∀ key ∉ l.map Prod.fst, json.getKey key = getKey (object members) key
  defaults : ∃ json, setDefaultValue (object members) l = some json ∧
    ∀ key ∈ members, json.getKey key = getKey (object members) key

/-- With distinct keys, that is so precisely if each listed key that is present has the listed value
already. -/
theorem setsAndDefaults_iff (members : Std.ExtTreeMap Str Json) {l : List (Str × Json)}
    (distinct : (l.map Prod.fst).Nodup) :
    SetsAndDefaults members l ↔
      ∀ pair ∈ l, ∀ value, members[pair.1]? = some value → value = pair.2 := by
  have set : setKey (object members) l = some (object (StdMap.insertEach members l)) := rfl
  constructor
  · intro law pair member value present
    obtain ⟨json, set_json, listed, -⟩ := law.sets
    obtain rfl : object (StdMap.insertEach members l) = json :=
      Option.some.inj (set.symm.trans set_json)
    have same := listed pair member
    rw [getKey_insertEach, present, Option.some_or] at same
    exact Option.some.inj (Option.some.inj same)
  · intro agree
    refine ⟨⟨_, set, ?_, ?_⟩, ⟨_, (setDefaultValue_eq_setKey _ rfl l).trans set, ?_⟩⟩
    · intro pair member
      rw [getKey_insertEach, StdMap.lookup_eq_some_of_mem distinct member]
      cases present : members[pair.1]? with
      | none => rfl
      | some value => rw [agree pair member value present, Option.some_or]
    · intro key unlisted
      have not_found : l.lookup key = none := List.lookup_eq_none_iff.mpr fun pair member =>
        bne_iff_ne.mpr fun same => unlisted (same ▸ List.mem_map_of_mem member)
      rw [getKey_insertEach, not_found, Option.or_none]
      rfl
    · intro key present
      obtain ⟨value, found⟩ := Option.isSome_iff_exists.mp
        (Std.ExtTreeMap.mem_iff_isSome_getElem?.mp present)
      rw [getKey_insertEach, found, Option.some_or, getKey, find, getObject, Option.map_some, found]

/-- An absent key, and one that has the value already. -/
theorem setsAndDefaults_two :
    SetsAndDefaults (Std.ExtTreeMap.insert ∅ [97] 1) [([97], 1), ([98], 2)] := by
  refine (setsAndDefaults_iff _ (by decide)).mpr ?_
  intro pair member value present
  simp only [List.mem_cons, List.not_mem_nil, or_false] at member
  rcases member with rfl | rfl
  · simpa using present.symm
  · simp at present

/-- The value of a key that is present is not replaced. -/
theorem setsAndDefaults_fails :
    ¬∀ (members : Std.ExtTreeMap Str Nat) (l : List (Str × Nat)), (l.map Prod.fst).Nodup →
      SetsAndDefaults members l := by
  intro always
  obtain ⟨json, set, listed, -⟩ :=
    (always (Std.ExtTreeMap.insert ∅ [97] 1) [([97], 2)] (by decide)).sets
  obtain rfl : object (StdMap.insertEach (Std.ExtTreeMap.insert ∅ [97] 1) [([97], 2)]) = json :=
    Option.some.inj set
  have same := listed ([97], 2) List.mem_cons_self
  rw [getKey_insertEach, Std.ExtTreeMap.getElem?_insert_self, Option.some_or] at same
  exact absurd same (by decide)

end JsonValue

end Drumlin.Config
