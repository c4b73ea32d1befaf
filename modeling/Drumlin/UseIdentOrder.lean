import Mathlib
import Drumlin.Library.StrongOrder
import Drumlin.UseIdent

/-!
# The order of identifiers

`UseIdent::operator<` (use_ident.cpp) compares the source, the tick and the length of the
specification, and asks for all three to be less.
-/

namespace Drumlin

open StrongOrder

namespace UseIdent

/-- `UseIdent::operator<`, of identifiers whose source is set. -/
def lessThan (left right : UseIdent) : Option Bool :=
  left.source.bind fun source => right.source.map fun source' =>
    decide (source < source') && decide (left.tick < right.tick) &&
      decide (left.specification.length < right.specification.length)

/-- What is compared. -/
def components (use : UseIdent) : Option (Fin 3 → Nat) :=
  use.source.map fun source => ![source, use.tick.toNat, use.specification.length]

/-- Neither is less than the other. -/
def Incomparable (left right : UseIdent) : Prop :=
  left.lessThan right = some false ∧ right.lessThan left = some false

/-- The two have the same source, the same tick and specifications of the same length. -/
def Agree (left right : UseIdent) : Prop :=
  left.source = right.source ∧ left.tick = right.tick ∧
    left.specification.length = right.specification.length

/-- The laws of a strict weak order that is consistent with equality, of three identifiers. -/
structure WeaklyOrdered (a b c : UseIdent) : Prop where
  defined : ∀ left ∈ [a, b, c], ∀ right ∈ [a, b, c], (left.lessThan right).isSome
  irreflexive : a.lessThan a ≠ some true
  asymmetric : a.lessThan b = some true → b.lessThan a ≠ some true
  transitive : a.lessThan b = some true → b.lessThan c = some true → a.lessThan c = some true
  incomparable_transitive : a.Incomparable b → b.Incomparable c → a.Incomparable c
  incomparable_iff : a.Incomparable b ↔ a.Agree b

/-! ## All components at once -/

variable {a b c : UseIdent} {x y z : Fin 3 → Nat}

/-- The identifier is less if it is in all components. -/
theorem lessThan_eq_iff (a_components : a.components = some x)
    (b_components : b.components = some y) (less : Bool) :
    a.lessThan b = some less ↔ (less ↔ StrongLT x y) := by
  obtain ⟨source, a_source, rfl⟩ := Option.map_eq_some_iff.mp a_components
  obtain ⟨source', b_source, rfl⟩ := Option.map_eq_some_iff.mp b_components
  have all : (decide (source < source') && decide (a.tick < b.tick) &&
      decide (a.specification.length < b.specification.length)) ↔
        StrongLT ![source, a.tick.toNat, a.specification.length]
          ![source', b.tick.toNat, b.specification.length] := by
    simp [StrongLT, Fin.forall_fin_succ, UInt32.lt_iff_toNat_lt, and_assoc]
  rw [lessThan, a_source, b_source, Option.bind_some, Option.map_some, Option.some_inj, ← all,
    ← Bool.coe_iff_coe]
  exact iff_comm

theorem incomparable_iff_strongOrder (a_components : a.components = some x)
    (b_components : b.components = some y) :
    a.Incomparable b ↔ StrongOrder.Incomparable x y := by
  rw [Incomparable, lessThan_eq_iff a_components b_components,
    lessThan_eq_iff b_components a_components]
  simp [StrongOrder.Incomparable]

theorem agree_iff (a_components : a.components = some x) (b_components : b.components = some y) :
    a.Agree b ↔ x = y := by
  obtain ⟨source, a_source, rfl⟩ := Option.map_eq_some_iff.mp a_components
  obtain ⟨source', b_source, rfl⟩ := Option.map_eq_some_iff.mp b_components
  simp [Agree, a_source, b_source, funext_iff, Fin.forall_fin_succ, UInt32.toNat_inj]

/-- All components compare in the same way. -/
def CompareAlike (left right : UseIdent) : Prop :=
  ∃ order, compare left.source right.source = order ∧ compare left.tick right.tick = order ∧
    compare left.specification.length right.specification.length = order

theorem compareAlike_iff (a_components : a.components = some x)
    (b_components : b.components = some y) : a.CompareAlike b ↔ Uniform x y := by
  obtain ⟨source, a_source, rfl⟩ := Option.map_eq_some_iff.mp a_components
  obtain ⟨source', b_source, rfl⟩ := Option.map_eq_some_iff.mp b_components
  have sources : compare a.source b.source = compare source source' := by
    rw [a_source, b_source]
    rfl
  have ticks : compare a.tick b.tick = compare a.tick.toNat b.tick.toNat := by
    simp only [compare, compareOfLessAndEq, UInt32.lt_iff_toNat_lt, ← UInt32.toNat_inj]
  rw [CompareAlike, Uniform, sources, ticks]
  simp [Fin.forall_fin_succ]

theorem lessThan_isSome_iff :
    (a.lessThan b).isSome ↔ a.source.isSome ∧ b.source.isSome := by
  rw [lessThan]
  cases a.source <;> cases b.source <;> simp

/-- Where all sources are set, the comparison is a strict order. -/
theorem lessThan_strict (a_components : a.components = some x)
    (b_components : b.components = some y) (c_components : c.components = some z) :
    a.lessThan a ≠ some true ∧ (a.lessThan b = some true → b.lessThan a ≠ some true) ∧
      (a.lessThan b = some true → b.lessThan c = some true → a.lessThan c = some true) := by
  rw [Ne, Ne, lessThan_eq_iff a_components a_components, lessThan_eq_iff a_components b_components,
    lessThan_eq_iff b_components a_components, lessThan_eq_iff b_components c_components,
    lessThan_eq_iff a_components c_components]
  simp only [true_iff]
  exact ⟨irrefl x, asymm, trans⟩

/-- The laws hold of three identifiers precisely if their sources are set and the components of the
first two all compare in the same way. -/
theorem weaklyOrdered_iff (a b c : UseIdent) :
    WeaklyOrdered a b c ↔ (∀ use ∈ [a, b, c], use.source.isSome) ∧ a.CompareAlike b := by
  have set_iff : (∀ use ∈ [a, b, c], use.source.isSome) ↔
      ∀ left ∈ [a, b, c], ∀ right ∈ [a, b, c], (left.lessThan right).isSome := by
    constructor
    · intro set left left_member right right_member
      exact lessThan_isSome_iff.mpr ⟨set left left_member, set right right_member⟩
    · exact fun defined use member => (lessThan_isSome_iff.mp (defined use member use member)).1
  by_cases set : ∀ use ∈ [a, b, c], use.source.isSome
  · have has_components (use : UseIdent) (member : use ∈ [a, b, c]) :
        ∃ components, use.components = some components := by
      obtain ⟨source, found⟩ := Option.isSome_iff_exists.mp (set use member)
      exact ⟨_, by rw [components, found, Option.map_some]⟩
    obtain ⟨x, a_components⟩ := has_components a (by simp)
    obtain ⟨y, b_components⟩ := has_components b (by simp)
    obtain ⟨z, c_components⟩ := has_components c (by simp)
    obtain ⟨irreflexive, asymmetric, transitive⟩ :=
      lessThan_strict a_components b_components c_components
    rw [compareAlike_iff a_components b_components, ← incomparable_iff_eq_iff,
      ← incomparable_iff_strongOrder a_components b_components,
      ← agree_iff a_components b_components]
    constructor
    · exact fun ordered => ⟨set, ordered.incomparable_iff⟩
    · rintro ⟨-, agree⟩
      refine ⟨set_iff.mp set, irreflexive, asymmetric, transitive, ?_, agree⟩
      intro first second
      obtain rfl : x = y := (agree_iff a_components b_components).mp (agree.mp first)
      rw [incomparable_iff_strongOrder b_components c_components] at second
      exact (incomparable_iff_strongOrder a_components c_components).mpr second
  · constructor
    · exact fun ordered => absurd (set_iff.mpr ordered.defined) set
    · exact fun ordered => absurd ordered.1 set

/-- A lower source with a higher tick: neither identifier is less, and they differ. -/
theorem weaklyOrdered_fails : ¬∀ a b c : UseIdent,
    (∀ use ∈ [a, b, c], use.source.isSome) → WeaklyOrdered a b c := by
  intro always
  have ordered := always ⟨some 1, [], [], 2⟩ ⟨some 2, [], [], 1⟩ ⟨some 2, [], [], 1⟩ (by decide)
  exact absurd (ordered.incomparable_iff.mp ⟨by decide, by decide⟩) fun agree =>
    absurd agree.1 (by decide)

end UseIdent

end Drumlin
