import Mathlib.Data.List.Nodup
import Mathlib.Tactic.Common
import Std.Data.ExtTreeMap

/-!
# `std::map`

`insert` leaves an entry alone that is there already.  A map filled by `insert` from pairs keeps as
many entries as there are pairs precisely if no two of them have one key, and then it has just the
pairs.
-/

namespace StdMap

open Std

variable {κ υ : Type*} [Ord κ] [TransOrd κ] {map : ExtTreeMap κ υ} {pairs : List (κ × υ)}

/-- Insert pairs one after another. -/
def insertEach (map : ExtTreeMap κ υ) (pairs : List (κ × υ)) : ExtTreeMap κ υ :=
  pairs.foldl (fun map pair => map.insertIfNew pair.1 pair.2) map

@[simp] theorem insertEach_nil (map : ExtTreeMap κ υ) : insertEach map [] = map := rfl

@[simp] theorem insertEach_cons (map : ExtTreeMap κ υ) (pair : κ × υ) (pairs : List (κ × υ)) :
    insertEach map (pair :: pairs) = insertEach (map.insertIfNew pair.1 pair.2) pairs := rfl

theorem size_insertEach_le (map : ExtTreeMap κ υ) (pairs : List (κ × υ)) :
    (insertEach map pairs).size ≤ map.size + pairs.length := by
  induction pairs generalizing map with
  | nil => simp
  | cons pair pairs induction =>
      have rest := induction (map.insertIfNew pair.1 pair.2)
      have one : (map.insertIfNew pair.1 pair.2).size ≤ map.size + 1 :=
        ExtTreeMap.size_insertIfNew_le
      rw [insertEach_cons, List.length_cons]
      omega

variable [LawfulEqOrd κ]

theorem insertIfNew_of_mem {key : κ} (present : key ∈ map) (value : υ) :
    map.insertIfNew key value = map := by
  apply ExtTreeMap.ext_getElem?
  intro other
  rw [ExtTreeMap.getElem?_insertIfNew, if_neg (fun absent => absent.2 present)]

theorem getElem?_insertIfNew_of_notMem [DecidableEq κ] {key : κ} (absent : key ∉ map) (value : υ)
    (other : κ) :
    (map.insertIfNew key value)[other]? = if key = other then some value else map[other]? := by
  simp [ExtTreeMap.getElem?_insertIfNew, absent]

/-- What was in the map before stays, and of the pairs with one key the first is inserted. -/
theorem getElem?_insertEach_eq [BEq κ] [LawfulBEq κ] (map : ExtTreeMap κ υ)
    (pairs : List (κ × υ)) (key : κ) :
    (insertEach map pairs)[key]? = map[key]?.or (pairs.lookup key) := by
  induction pairs generalizing map with
  | nil => simp
  | cons pair pairs induction =>
      obtain ⟨first, value⟩ := pair
      rw [insertEach_cons, induction, ExtTreeMap.getElem?_insertIfNew, List.lookup_cons]
      by_cases same : first = key
      · subst same
        by_cases present : first ∈ map <;> simp [present]
      · have other : (key == first) = false := beq_false_of_ne (Ne.symm same)
        simp [same, other]

omit [Ord κ] [TransOrd κ] [LawfulEqOrd κ] in
/-- Where no key comes twice, every pair is found by its key. -/
theorem lookup_eq_some_of_mem [BEq κ] [LawfulBEq κ] (distinct : (pairs.map Prod.fst).Nodup)
    {pair : κ × υ} (member : pair ∈ pairs) : pairs.lookup pair.1 = some pair.2 := by
  obtain ⟨front, back, rfl⟩ := List.append_of_mem member
  refine List.lookup_eq_some_iff.mpr ⟨front, back, rfl, fun earlier earlier_member => ?_⟩
  rw [List.map_append, List.map_cons, List.nodup_append] at distinct
  rw [bne_iff_ne]
  exact (distinct.2.2 _ (List.mem_map_of_mem earlier_member) _ List.mem_cons_self).symm

/-- The keys of the pairs are new to the map, and no two are the same. -/
def Fresh (map : ExtTreeMap κ υ) (pairs : List (κ × υ)) : Prop :=
  (pairs.map Prod.fst).Nodup ∧ ∀ pair ∈ pairs, pair.1 ∉ map

theorem fresh_cons_iff {pair : κ × υ} :
    Fresh map (pair :: pairs) ↔
      pair.1 ∉ map ∧ Fresh (map.insertIfNew pair.1 pair.2) pairs := by
  simp only [Fresh, List.map_cons, List.nodup_cons, List.forall_mem_cons,
    ExtTreeMap.mem_insertIfNew, Std.compare_eq_iff_eq, not_or, List.mem_map, not_exists, not_and]
  constructor
  · rintro ⟨⟨other, nodup⟩, new, rest⟩
    exact ⟨new, nodup, fun later member => ⟨fun same => other later member same.symm,
      rest later member⟩⟩
  · rintro ⟨new, nodup, rest⟩
    exact ⟨⟨fun later member same => (rest later member).1 same.symm, nodup⟩, new,
      fun later member => (rest later member).2⟩

/-- Every pair makes an entry precisely if all keys are new. -/
theorem size_insertEach_eq_iff :
    (insertEach map pairs).size = map.size + pairs.length ↔ Fresh map pairs := by
  induction pairs generalizing map with
  | nil => simp [Fresh]
  | cons pair pairs induction =>
      rw [insertEach_cons, fresh_cons_iff, ← induction, ExtTreeMap.size_insertIfNew,
        List.length_cons]
      by_cases used : pair.1 ∈ map
      · have most := size_insertEach_le (map.insertIfNew pair.1 pair.2) pairs
        rw [ExtTreeMap.size_insertIfNew, if_pos used] at most
        simp only [used, if_true, not_true_eq_false, false_and, iff_false]
        omega
      · simp only [used, if_false, not_false_eq_true, true_and]
        omega

/-- If they are, the map has its own entries and the pairs. -/
theorem getElem?_insertEach (fresh : Fresh map pairs) {key : κ} {value : υ} :
    (insertEach map pairs)[key]? = some value ↔ map[key]? = some value ∨ (key, value) ∈ pairs := by
  induction pairs generalizing map with
  | nil => simp
  | cons pair pairs induction =>
      obtain ⟨new, rest⟩ := fresh_cons_iff.mp fresh
      rw [insertEach_cons, induction rest, ExtTreeMap.getElem?_insertIfNew, List.mem_cons,
        ← or_assoc]
      refine or_congr_left ?_
      by_cases same : pair.1 = key
      · subst same
        simp [new, Prod.ext_iff, eq_comm]
      · simp [same, Prod.ext_iff, Ne.symm same]

/-- A map is made again of its entries. -/
theorem insertEach_toList (map : ExtTreeMap κ υ) : insertEach ∅ map.toList = map := by
  have distinct : (map.toList.map Prod.fst).Nodup := by
    rw [ExtTreeMap.map_fst_toList_eq_keys]
    exact ExtTreeMap.nodup_keys
  ext key value
  have fresh : Fresh ∅ map.toList := ⟨distinct, fun pair _ => by simp⟩
  rw [getElem?_insertEach fresh, ExtTreeMap.mem_toList_iff_getElem?_eq_some]
  simp

end StdMap
