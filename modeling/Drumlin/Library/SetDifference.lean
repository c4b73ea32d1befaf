import Mathlib.Data.List.Infix
import Mathlib.Order.Basic
import Mathlib.Tactic.Common

/-!
# `std::set_difference`

The merge loop of `std::set_difference`, on ranges that need not be sorted.  It has nothing to
write precisely if the first range is found in the second one, the elements skipped before a match
all being less than the element sought.
-/

namespace Cxx

variable {α : Type*} [LT α] {lefts rights : List α}

/-- `std::set_difference`, of the ranges as they are. -/
def setDifference [DecidableLT α] : List α → List α → List α
  | [], _ => []
  | left :: lefts, [] => left :: lefts
  | left :: lefts, right :: rights =>
      if left < right then left :: setDifference lefts (right :: rights)
      else if right < left then setDifference (left :: lefts) rights
      else setDifference lefts rights
termination_by lefts rights => lefts.length + rights.length

/-- The first list is found in the second one by skipping lesser elements. -/
inductive FoundIn : List α → List α → Prop
  | nil (rights : List α) : FoundIn [] rights
  | skip {left right : α} {lefts rights : List α} (lesser : right < left)
      (found : FoundIn (left :: lefts) rights) : FoundIn (left :: lefts) (right :: rights)
  | take (element : α) {lefts rights : List α} (found : FoundIn lefts rights) :
      FoundIn (element :: lefts) (element :: rights)

theorem FoundIn.sublist (found : FoundIn lefts rights) : lefts.Sublist rights := by
  induction found with
  | nil rights => exact List.nil_sublist rights
  | skip lesser found induction => exact induction.cons _
  | take element found induction => exact induction.cons_cons element

/-- A list as long as the one in which it is found is that list. -/
theorem FoundIn.eq_of_length (found : FoundIn lefts rights)
    (lengths : lefts.length = rights.length) : lefts = rights :=
  found.sublist.eq_of_length lengths

theorem FoundIn.refl (list : List α) : FoundIn list list := by
  induction list with
  | nil => exact .nil []
  | cons element list induction => exact .take element induction

/-- What is written is what the first range has and is not found in the second. -/
theorem setDifference_eq_nil_iff [DecidableLT α] [Std.Asymm fun left right : α => left < right]
    [Std.Trichotomous fun left right : α => left < right] :
    setDifference lefts rights = [] ↔ FoundIn lefts rights := by
  fun_induction setDifference lefts rights with
  | case1 rights => exact iff_of_true rfl (.nil rights)
  | case2 left lefts => exact iff_of_false (List.cons_ne_nil left lefts) nofun
  | case3 left lefts right rights less induction =>
      refine iff_of_false (List.cons_ne_nil _ _) ?_
      intro found
      cases found with
      | skip lesser found => exact Std.Asymm.asymm _ _ less lesser
      | take element found => exact Std.Asymm.asymm _ _ less less
  | case4 left lefts right rights not_less lesser induction =>
      rw [induction]
      constructor
      · exact .skip lesser
      · intro found
        cases found with
        | skip lesser found => exact found
        | take element found => exact (not_less lesser).elim
  | case5 left lefts right rights not_less not_lesser induction =>
      obtain rfl : left = right := Std.Trichotomous.trichotomous _ _ not_less not_lesser
      rw [induction]
      constructor
      · exact .take left
      · intro found
        cases found with
        | skip lesser found => exact (not_less lesser).elim
        | take element found => exact found

end Cxx
