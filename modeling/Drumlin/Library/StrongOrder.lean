import Mathlib

/-!
# Comparing all components at once

To be less in every component is a strict order on the functions into linear orders.  It is no weak
order: of two different functions neither may be less than the other.
-/

namespace StrongOrder

variable {ι : Type*} {α : ι → Type*} [∀ i, LinearOrder (α i)]

/-- Neither is less than the other. -/
def Incomparable (x y : ∀ i, α i) : Prop := ¬StrongLT x y ∧ ¬StrongLT y x

/-- All components compare in the same way. -/
def Uniform (x y : ∀ i, α i) : Prop := ∃ order, ∀ i, compare (x i) (y i) = order

variable {x y z : ∀ i, α i}

theorem trans (first : StrongLT x y) (second : StrongLT y z) : StrongLT x z :=
  fun i => (first i).trans (second i)

theorem uniform_iff : Uniform x y ↔ StrongLT x y ∨ x = y ∨ StrongLT y x := by
  constructor
  · rintro ⟨order, same⟩
    cases order with
    | lt => exact .inl fun i => compare_lt_iff_lt.mp (same i)
    | eq => exact .inr (.inl (funext fun i => compare_eq_iff_eq.mp (same i)))
    | gt => exact .inr (.inr fun i => compare_gt_iff_gt.mp (same i))
  · rintro (less | rfl | greater)
    · exact ⟨.lt, fun i => compare_lt_iff_lt.mpr (less i)⟩
    · exact ⟨.eq, fun i => compare_eq_iff_eq.mpr rfl⟩
    · exact ⟨.gt, fun i => compare_gt_iff_gt.mpr (greater i)⟩

variable [Nonempty ι]

theorem irrefl (x : ∀ i, α i) : ¬StrongLT x x := fun less => lt_irrefl x less.lt

theorem asymm (first : StrongLT x y) : ¬StrongLT y x :=
  fun second => irrefl x (trans first second)

/-- To be incomparable is to be equal just for functions that compare everywhere in one way. -/
theorem incomparable_iff_eq_iff : (Incomparable x y ↔ x = y) ↔ Uniform x y := by
  rw [uniform_iff]
  constructor
  · intro only_equal
    by_cases less : StrongLT x y
    · exact .inl less
    · by_cases greater : StrongLT y x
      · exact .inr (.inr greater)
      · exact .inr (.inl (only_equal.mp ⟨less, greater⟩))
  · rintro (less | rfl | greater)
    · refine ⟨fun incomparable => absurd less incomparable.1, ?_⟩
      rintro rfl
      exact absurd less (irrefl x)
    · exact ⟨fun _ => rfl, fun _ => ⟨irrefl x, irrefl x⟩⟩
    · refine ⟨fun incomparable => absurd greater incomparable.2, ?_⟩
      rintro rfl
      exact absurd greater (irrefl x)

end StrongOrder
