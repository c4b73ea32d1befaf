import Drumlin.Library.Cxx
import Drumlin.Library.Runs
import Drumlin.Library.StdMap
import Drumlin.StringList

/-!
# The registry

`Registry` (registry.h) maps names to pointers.  `add` leaves a name alone that is taken, `remove`
deletes what it removes unless it is told not to, and `removeAll` deletes nothing.
-/

namespace Drumlin

open Std

/-! ## The code -/

/-- `Registry`, and what became of the pointers.  A pointer, which is not null, is known by its
number. -/
structure Registry where
  /-- `map`. -/
  map : ExtTreeMap Str Nat
  /-- The pointers passed to `add`. -/
  added : List Nat
  /-- The pointers passed to `delete`. -/
  deleted : List Nat
  /-- The pointers that the registry does not have, and did not delete. -/
  released : List Nat

namespace Registry

/-- `Registry::Registry`. -/
def empty : Registry := ⟨∅, [], [], []⟩

/-- `Registry::add`. -/
def add (str : Str) (src : Nat) (registry : Registry) : Registry :=
  { registry with
    map := registry.map.insertIfNew str src
    added := registry.added ++ [src]
    released := if str ∈ registry.map then registry.released ++ [src] else registry.released }

/-- `Registry::remove`. -/
def remove (str : Str) (noDelete : Bool) (registry : Registry) : Registry :=
  match registry.map[str]? with
  | none => registry
  | some src =>
      { registry with
        map := registry.map.erase str
        deleted := if noDelete then registry.deleted else registry.deleted ++ [src]
        released := if noDelete then registry.released ++ [src] else registry.released }

/-- `Registry::removeAll`, whatever it is told. -/
def removeAll (_noDelete : Bool) (registry : Registry) : Registry :=
  { registry with
    map := ∅
    released := registry.released ++ registry.map.toList.map Prod.snd }

/-- `Registry::list`. -/
def list (registry : Registry) : List Str := registry.map.toList.map Prod.fst

/-- `Registry::fromString`, for the type of the registry.  A null pointer would be as none. -/
def fromString (name : Str) (registry : Registry) : Option Nat :=
  (registry.map.toList.find? fun pair => pair.1 = name).map Prod.snd

/-- A call that changes the registry. -/
inductive Call
  | add (str : Str) (src : Nat)
  | remove (str : Str) (noDelete : Bool)
  | removeAll (noDelete : Bool)

/-- The registry after a call. -/
def call (registry : Registry) : Call → Registry
  | .add str src => registry.add str src
  | .remove str noDelete => registry.remove str noDelete
  | .removeAll noDelete => registry.removeAll noDelete

/-- The call adds no pointer that was added before. -/
def AddsNew (registry : Registry) : Call → Prop
  | .add _ src => src ∉ registry.added
  | _ => True

variable {registry : Registry} {request : Call} {str name : Str} {src pointer : Nat}

/-! ## What is found -/

/-- The search through all entries finds what the map has under the name. -/
theorem fromString_eq (name : Str) (registry : Registry) :
    registry.fromString name = registry.map[name]? := by
  have distinct : (registry.map.toList.map Prod.fst).Nodup := by
    rw [ExtTreeMap.map_fst_toList_eq_keys]
    exact ExtTreeMap.nodup_keys
  ext pointer
  simp only [fromString, Option.map_eq_some_iff, Cxx.find?_eq_some_iff Prod.fst distinct,
    Prod.exists, ExtTreeMap.mem_toList_iff_getElem?_eq_some]
  constructor
  · rintro ⟨other, value, ⟨found, rfl⟩, rfl⟩
    exact found
  · exact fun found => ⟨name, pointer, ⟨found, rfl⟩, rfl⟩

theorem mem_list_iff (name : Str) (registry : Registry) :
    name ∈ registry.list ↔ ∃ pointer, registry.fromString name = some pointer := by
  simp only [fromString_eq, list, List.mem_map, Prod.exists,
    ExtTreeMap.mem_toList_iff_getElem?_eq_some]
  constructor
  · rintro ⟨other, pointer, found, rfl⟩
    exact ⟨pointer, found⟩
  · exact fun ⟨pointer, found⟩ => ⟨name, pointer, found, rfl⟩

/-! ## Where the pointers are -/

/-- Each pointer that was added is in one place: under one name, deleted once, or released. -/
structure Owns (registry : Registry) : Prop where
  held : ∀ (name : Str) (pointer : Nat), registry.fromString name = some pointer →
    pointer ∈ registry.added ∧ pointer ∉ registry.deleted ∧ pointer ∉ registry.released
  unique : ∀ (name other : Str) (pointer : Nat), registry.fromString name = some pointer →
    registry.fromString other = some pointer → name = other
  once : registry.deleted.Nodup
  gone : ∀ pointer ∈ registry.deleted, pointer ∈ registry.added ∧ pointer ∉ registry.released
  known : ∀ pointer ∈ registry.released, pointer ∈ registry.added
  somewhere : ∀ pointer ∈ registry.added,
    (∃ name : Str, registry.fromString name = some pointer) ∨
      pointer ∈ registry.deleted ∨ pointer ∈ registry.released

theorem owns_empty : empty.Owns := by
  constructor <;> simp [empty, fromString_eq]

/-- A pointer that was not added before is nowhere. -/
theorem Owns.nowhere (owns : registry.Owns) (fresh : src ∉ registry.added) :
    (∀ name : Str, registry.fromString name ≠ some src) ∧ src ∉ registry.deleted ∧
      src ∉ registry.released :=
  ⟨fun name found => fresh (owns.held name src found).1, fun gone => fresh (owns.gone src gone).1,
    fun known => fresh (owns.known src known)⟩

theorem Owns.add (owns : registry.Owns) (str : Str) (fresh : src ∉ registry.added) :
    (registry.add str src).Owns := by
  obtain ⟨unnamed, alive, kept⟩ := owns.nowhere fresh
  obtain ⟨held, unique, once, gone, known, somewhere_⟩ := owns
  simp only [fromString_eq] at unnamed held unique somewhere_
  by_cases taken : str ∈ registry.map
  · rw [Registry.add, StdMap.insertIfNew_of_mem taken, if_pos taken]
    constructor <;> simp only [fromString_eq] <;> grind
  · have lookup (name : Str) : (registry.map.insertIfNew str src)[name]? =
        if str = name then some src else registry.map[name]? :=
      StdMap.getElem?_insertIfNew_of_notMem taken src name
    have here : registry.map[str]? = none := by simpa using taken
    rw [Registry.add, if_neg taken]
    constructor <;> simp only [fromString_eq, lookup]
    case somewhere =>
      intro pointer member
      rcases List.mem_append.mp member with before | new
      · rcases somewhere_ pointer before with ⟨name, found⟩ | elsewhere
        · have other : str ≠ name := by
            rintro rfl
            simp [here] at found
          exact .inl ⟨name, by rw [if_neg other, found]⟩
        · exact .inr elsewhere
      · obtain rfl := List.mem_singleton.mp new
        exact .inl ⟨str, if_pos rfl⟩
    all_goals grind

theorem Owns.remove (owns : registry.Owns) (str : Str) (noDelete : Bool) :
    (registry.remove str noDelete).Owns := by
  rw [Registry.remove]
  split
  · exact owns
  · rename_i src found
    obtain ⟨held, unique, once, gone, known, somewhere_⟩ := owns
    simp only [fromString_eq] at held unique somewhere_
    have lookup (name : Str) : (registry.map.erase str)[name]? =
        if str = name then none else registry.map[name]? := by
      simp [ExtTreeMap.getElem?_erase]
    cases noDelete <;> constructor <;> simp only [fromString_eq, lookup] <;> grind

theorem Owns.removeAll (owns : registry.Owns) (noDelete : Bool) :
    (registry.removeAll noDelete).Owns := by
  have values (pointer : Nat) : pointer ∈ registry.map.toList.map Prod.snd ↔
      ∃ name : Str, registry.map[name]? = some pointer := by
    simp [ExtTreeMap.mem_toList_iff_getElem?_eq_some]
  obtain ⟨held, unique, once, gone, known, somewhere_⟩ := owns
  simp only [fromString_eq] at held unique somewhere_
  rw [Registry.removeAll]
  constructor <;>
    simp only [fromString_eq, List.mem_append, values, ExtTreeMap.getElem?_empty] <;> grind

theorem Owns.call (owns : registry.Owns) (fresh : registry.AddsNew request) :
    (registry.call request).Owns := by
  cases request with
  | add str src => exact owns.add str fresh
  | remove str noDelete => exact owns.remove str noDelete
  | removeAll noDelete => exact owns.removeAll noDelete

/-- However the registry is used, as long as no pointer is added twice: no pointer is deleted twice,
what is found under a name was not deleted, and is found under no other; a pointer that was added
and is found under no name was deleted or released, and not both. -/
theorem owns_of_calls {calls : List Call}
    (fresh : Runs.Along (Runs.total call) AddsNew empty calls) :
    (calls.foldl call empty).Owns := by
  have run := Runs.exec_total call empty calls
  refine Runs.exec_invariant (fun registry request next owns fresh taken => ?_) owns_empty fresh run
  obtain rfl := Option.some.inj taken
  exact owns.call fresh

/-- A pointer under a taken name, a removal and another one under the name that is free again. -/
theorem owns_of_calls_again :
    ([Call.add [97] 1, .add [97] 2, .remove [97] false, .add [97] 3].foldl call empty).Owns :=
  owns_of_calls (by simp [AddsNew, call, add, remove, empty])

end Registry

end Drumlin
