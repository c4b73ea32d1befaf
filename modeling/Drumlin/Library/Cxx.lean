import Mathlib

/-!
# Functions of the C++ standard library

`modifyFirst` is `std::find_if` followed by a write through the iterator it returns, `remove` is
`std::remove` on a vector of scalars (which permutes and never shrinks), `copyIf` is `std::copy_if`,
`setIntersection` is `std::set_intersection`, `align` is `std::align`, and `toSizeT`, `toInt` and
`toDouble` are conversions between arithmetic types.
-/

namespace Cxx

/-- The null pointer; addresses are natural numbers. -/
def nullptr : Nat := 0

/-- Conversion of a signed value to a 64-bit `size_t`. -/
def toSizeT (value : Int) : Nat := (value % 2 ^ 64).toNat

theorem toSizeT_of_bounds {value : Int} (nonnegative : 0 ≤ value) (small : value < 2 ^ 64) :
    toSizeT value = value.toNat := by
  rw [toSizeT, Int.emod_eq_of_lt nonnegative small]

/-- Sums are not affected by a conversion of one summand. -/
theorem toSizeT_add (left right : Int) : toSizeT ((toSizeT left : Int) + right) =
    toSizeT (left + right) := by
  have nonneg : 0 ≤ left % 2 ^ 64 := Int.emod_nonneg left (by decide)
  rw [toSizeT, toSizeT, toSizeT, Int.toNat_of_nonneg nonneg, Int.emod_add_emod]

/-- What is negative is very large. -/
theorem toSizeT_of_neg {value : Int} (negative : value < 0) (lower : -2 ^ 64 ≤ value) :
    toSizeT value = (value + 2 ^ 64).toNat := by
  rw [toSizeT, ← Int.add_emod_right, Int.emod_eq_of_lt (by omega) (by omega)]

/-- Conversion to a 32-bit `int`. -/
def toInt (value : Int) : Int := value.bmod (2 ^ 32)

theorem toInt_of_bounds {value : Int} (lower : -2 ^ 31 ≤ value) (upper : value < 2 ^ 31) :
    toInt value = value := by
  rw [toInt, Int.bmod_def]
  omega

theorem toInt_lt (value : Int) : toInt value < 2 ^ 31 := by
  rw [toInt, Int.bmod_def]
  omega

/-- Conversion of an integer to a `double`: the nearest value of 53 significant bits, the even one
of two that are equally near. -/
def toDouble (value : Int) : Int :=
  let magnitude := value.natAbs
  let unit := 2 ^ (magnitude.log2 - 52)
  let quotient := magnitude / unit
  let rest := magnitude % unit
  let rounded := if unit < 2 * rest ∨ unit = 2 * rest ∧ quotient % 2 = 1 then quotient + 1
    else quotient
  value.sign * (rounded * unit)

private theorem log2_sub_of_lt {magnitude : Nat} (small : magnitude < 2 ^ 53) :
    magnitude.log2 - 52 = 0 := by
  rcases Nat.eq_zero_or_pos magnitude with rfl | positive
  · rfl
  · have upper : magnitude.log2 < 53 := (Nat.log2_lt positive.ne').mpr small
    omega

/-- An integer below `2 ^ 53` is a `double` itself. -/
theorem toDouble_of_lt {value : Int} (small : value.natAbs < 2 ^ 53) : toDouble value = value := by
  simp only [toDouble, log2_sub_of_lt small, pow_zero, Nat.div_one, Nat.mod_one]
  simp [Int.sign_mul_abs]

/-- Rounding a larger one keeps it between two powers of two. -/
theorem toDouble_bounds {value : Int} (large : 2 ^ 53 ≤ value) {exponent : Nat}
    (upper : value < 2 ^ exponent) :
    2 ^ 52 ≤ toDouble value ∧ toDouble value ≤ 2 ^ exponent := by
  obtain ⟨magnitude, rfl⟩ := Int.eq_ofNat_of_zero_le (show 0 ≤ value by omega)
  have lower : 2 ^ 53 ≤ magnitude := by exact_mod_cast large
  have nonzero : magnitude ≠ 0 := by omega
  have log_lower : 53 ≤ magnitude.log2 := (Nat.le_log2 nonzero).mpr lower
  have log_upper : magnitude.log2 < exponent := (Nat.log2_lt nonzero).mpr (by exact_mod_cast upper)
  obtain ⟨excess, log⟩ := Nat.exists_eq_add_of_le (show 52 ≤ magnitude.log2 by omega)
  have unit_pos : 0 < 2 ^ excess := Nat.two_pow_pos excess
  have quotient_lower : 2 ^ 52 ≤ magnitude / 2 ^ excess := by
    rw [Nat.le_div_iff_mul_le unit_pos, ← pow_add, ← log]
    exact Nat.log2_self_le nonzero
  have quotient_upper : magnitude / 2 ^ excess < 2 ^ 53 := by
    rw [Nat.div_lt_iff_lt_mul unit_pos, ← pow_add, show 53 + excess = magnitude.log2 + 1 by omega]
    exact Nat.lt_log2_self
  have sign : (magnitude : Int).sign = 1 := Int.sign_eq_one_of_pos (by omega)
  have bounds (rounded : Nat) (least : 2 ^ 52 ≤ rounded) (greatest : rounded ≤ 2 ^ 53) :
      2 ^ 52 ≤ rounded * 2 ^ excess ∧ rounded * 2 ^ excess ≤ 2 ^ exponent := by
    constructor
    · exact least.trans (Nat.le_mul_of_pos_right _ unit_pos)
    · calc
        rounded * 2 ^ excess ≤ 2 ^ 53 * 2 ^ excess := Nat.mul_le_mul_right _ greatest
        _ = 2 ^ (53 + excess) := (pow_add 2 53 excess).symm
        _ ≤ 2 ^ exponent := Nat.pow_le_pow_right (by omega) (by omega)
  simp only [toDouble, Int.natAbs_natCast, show magnitude.log2 - 52 = excess by omega, sign,
    one_mul]
  split
  · exact_mod_cast bounds _ (by omega) (by omega)
  · exact_mod_cast bounds _ quotient_lower quotient_upper.le

/-! ## `std::find_if` and a write -/

section ModifyFirst

variable {α : Type*}

/-- Change the first element the predicate selects; the element as it was comes with the list. -/
def modifyFirst (select : α → Bool) (change : α → α) : List α → Option (α × List α)
  | [] => none
  | head :: tail =>
      if select head then
        some (head, change head :: tail)
      else
        (modifyFirst select change tail).map fun (found, rest) => (found, head :: rest)

theorem modifyFirst_eq_none_iff {select : α → Bool} {change : α → α} {list : List α} :
    modifyFirst select change list = none ↔ ∀ element ∈ list, select element = false := by
  induction list with
  | nil => simp [modifyFirst]
  | cons head tail induction =>
      by_cases selected : select head <;> simp [modifyFirst, selected, induction]

/-- The element changed is the first one selected, and nothing else moves. -/
theorem modifyFirst_eq_some {select : α → Bool} {change : α → α} {list changed : List α}
    {found : α} (equality : modifyFirst select change list = some (found, changed)) :
    ∃ front back, list = front ++ found :: back ∧ changed = front ++ change found :: back ∧
      select found = true ∧ ∀ element ∈ front, select element = false := by
  induction list generalizing changed with
  | nil => simp [modifyFirst] at equality
  | cons head tail induction =>
      by_cases selected : select head
      · simp only [modifyFirst, selected, if_true, Option.some.injEq, Prod.mk.injEq] at equality
        obtain ⟨rfl, rfl⟩ := equality
        exact ⟨[], tail, rfl, rfl, selected, by simp⟩
      · simp only [modifyFirst, selected, Bool.false_eq_true, if_false, Option.map_eq_some_iff,
          Prod.exists, Prod.mk.injEq] at equality
        obtain ⟨found', rest, tail_eq, rfl, rfl⟩ := equality
        obtain ⟨front, back, rfl, rfl, found_selected, skipped⟩ := induction tail_eq
        refine ⟨head :: front, back, rfl, rfl, found_selected, ?_⟩
        intro element member
        rcases List.mem_cons.mp member with rfl | later
        · simpa using selected
        · exact skipped element later

end ModifyFirst

/-! ## `std::remove` -/

section Remove

variable {α : Type*} [DecidableEq α]

/-- `std::remove`: the elements other than `value` move to the front, in order, and the positions
behind them keep what they held.  The second component is the distance to the iterator returned. -/
def remove (value : α) (vector : List α) : List α × Nat :=
  let kept := vector.filter (· != value)
  (kept ++ vector.drop kept.length, kept.length)

theorem length_filter_bne_add_count (value : α) (vector : List α) :
    (vector.filter (· != value)).length + vector.count value = vector.length := by
  induction vector with
  | nil => rfl
  | cons head tail induction =>
      by_cases equal : head = value
      · simp only [equal, List.filter_cons, bne_self_eq_false, Bool.false_eq_true, if_false,
          List.count_cons_self, List.length_cons]
        omega
      · simp only [List.filter_cons, bne_iff_ne, ne_eq, equal, not_false_eq_true, if_true,
          List.length_cons, List.count_cons_of_ne equal]
        omega

/-- `std::remove` never shortens the vector. -/
theorem length_remove (value : α) (vector : List α) :
    (remove value vector).1.length = vector.length := by
  have lengths := length_filter_bne_add_count value vector
  simp only [remove, List.length_append, List.length_drop]
  omega

/-- The iterator `std::remove` returns is at the end of what it kept. -/
theorem remove_snd_eq_zero_iff (value : α) (vector : List α) :
    (remove value vector).2 = 0 ↔ ∀ element ∈ vector, element = value := by
  simp [remove, List.length_eq_zero_iff]

/-- Every element other than the removed value is still there. -/
theorem mem_remove_of_ne {value element : α} {vector : List α} (member : element ∈ vector)
    (distinct : element ≠ value) : element ∈ (remove value vector).1 := by
  simp [remove, member, distinct]

theorem mem_of_mem_remove {value element : α} {vector : List α}
    (member : element ∈ (remove value vector).1) : element ∈ vector := by
  rcases List.mem_append.mp member with kept | stale
  · exact List.mem_of_mem_filter kept
  · exact List.mem_of_mem_drop stale

/-- The removed value is left in the vector precisely when it is among its last elements, as many
of them as it has copies. -/
theorem self_mem_remove_iff (value : α) (vector : List α) :
    value ∈ (remove value vector).1 ↔
      value ∈ vector.drop (vector.length - vector.count value) := by
  have lengths := length_filter_bne_add_count value vector
  have kept_length : (vector.filter (· != value)).length =
      vector.length - vector.count value := by omega
  rw [remove, kept_length]
  simp

end Remove

/-! ## `std::copy_if` -/

/-- `std::copy_if`, with the elements its predicate is evaluated on. -/
def copyIf {α : Type*} (select : α → Bool) : List α → List α × List α
  | [] => ([], [])
  | head :: tail =>
      let (copied, visited) := copyIf select tail
      (if select head then head :: copied else copied, head :: visited)

@[simp] theorem copyIf_eq {α : Type*} (select : α → Bool) (list : List α) :
    copyIf select list = (list.filter select, list) := by
  induction list with
  | nil => rfl
  | cons head tail induction =>
      by_cases selected : select head <;> simp [copyIf, induction, selected]

/-! ## `std::find_if` -/

/-- Where keys are not repeated, the first element with a key is the only one. -/
theorem find?_eq_some_iff {α Key : Type*} [DecidableEq Key] (key : α → Key) {list : List α}
    (distinct : (list.map key).Nodup) {value : Key} {found : α} :
    list.find? (fun element => key element = value) = some found ↔
      found ∈ list ∧ key found = value := by
  constructor
  · intro finds
    exact ⟨List.mem_of_find?_eq_some finds, by simpa using List.find?_some finds⟩
  · rintro ⟨member, rfl⟩
    cases finds : list.find? fun element => key element = key found with
    | none => simpa using List.find?_eq_none.mp finds found member
    | some other =>
        have same : key other = key found := by simpa using List.find?_some finds
        have inside := List.mem_of_find?_eq_some finds
        rw [List.inj_on_of_nodup_map distinct inside member same]

/-! ## `std::set_intersection` -/

/-- `std::set_intersection`, of ranges that need not be sorted. -/
def setIntersection {α : Type*} [LinearOrder α] : List α → List α → List α
  | [], _ => []
  | _ :: _, [] => []
  | left :: lefts, right :: rights =>
      if left < right then setIntersection lefts (right :: rights)
      else if right < left then setIntersection (left :: lefts) rights
      else left :: setIntersection lefts rights
termination_by lefts rights => lefts.length + rights.length

@[simp] theorem setIntersection_nil {α : Type*} [LinearOrder α] (lefts : List α) :
    setIntersection lefts [] = [] := by
  cases lefts <;> simp [setIntersection]

/-! ## `std::align` -/

/-- `std::align`: the least multiple of `align` from `ptr` on if `size` bytes fit there in the
`space` bytes that start at `ptr`, and null if they do not. -/
def align (align size ptr space : Nat) : Nat :=
  let aligned := (ptr + align - 1) / align * align
  if size + (aligned - ptr) ≤ space then aligned else nullptr

/-- The least multiple of `alignment` from `value` on. -/
def roundUp (alignment value : Nat) : Nat := (value + alignment - 1) / alignment * alignment

theorem align_eq (alignment size ptr space : Nat) :
    align alignment size ptr space =
      if size + (roundUp alignment ptr - ptr) ≤ space then roundUp alignment ptr else nullptr := rfl

/-- Nothing is ever placed at the null address. -/
@[simp] theorem align_nullptr (alignment size space : Nat) :
    align alignment size nullptr space = nullptr := by
  rcases Nat.eq_zero_or_pos alignment with rfl | positive
  · simp [align, nullptr]
  · have quotient : (alignment - 1) / alignment = 0 := Nat.div_eq_of_lt (by omega)
    simp [align, nullptr, quotient]

theorem le_roundUp {alignment : Nat} (positive : 0 < alignment) (value : Nat) :
    value ≤ roundUp alignment value := by
  have division := Nat.div_add_mod' (value + alignment - 1) alignment
  have remainder := Nat.mod_lt (value + alignment - 1) positive
  rw [roundUp]
  omega

/-- Rounding from a multiple on rounds the rest. -/
theorem roundUp_add {alignment multiple : Nat} (positive : 0 < alignment)
    (aligned : alignment ∣ multiple) (value : Nat) :
    roundUp alignment (multiple + value) = multiple + roundUp alignment value := by
  obtain ⟨factor, rfl⟩ := aligned
  have sum : alignment * factor + value + alignment - 1 =
      value + alignment - 1 + alignment * factor := by omega
  rw [roundUp, roundUp, sum, Nat.add_mul_div_left _ _ positive, Nat.add_mul,
    Nat.mul_comm factor, Nat.add_comm]

theorem roundUp_ne_nullptr_iff {alignment value : Nat} (nonnull : value ≠ nullptr) :
    roundUp alignment value ≠ nullptr ↔ 0 < alignment := by
  constructor
  · intro start
    refine Nat.pos_of_ne_zero fun zero => start ?_
    simp [roundUp, zero, nullptr]
  · intro positive
    have later := le_roundUp positive value
    rw [nullptr] at nonnull ⊢
    omega

/-- `std::align` succeeds precisely if there is an aligned address, and room behind it. -/
theorem align_ne_nullptr_iff {alignment size ptr space : Nat} :
    align alignment size ptr space ≠ nullptr ↔
      roundUp alignment ptr ≠ nullptr ∧ size + (roundUp alignment ptr - ptr) ≤ space := by
  rw [align_eq]
  split <;> simp [*]

/-- Where `std::align` succeeds, its result is aligned, not before `ptr`, and fits. -/
theorem align_spec {alignment size ptr space : Nat} (positive : 0 < alignment)
    (succeeds : align alignment size ptr space ≠ nullptr) :
    alignment ∣ align alignment size ptr space ∧ ptr ≤ align alignment size ptr space ∧
      align alignment size ptr space + size ≤ ptr + space := by
  have multiple : alignment ∣ roundUp alignment ptr := Nat.dvd_mul_left _ _
  have least := le_roundUp positive ptr
  obtain ⟨-, fits⟩ := align_ne_nullptr_iff.mp succeeds
  rw [align_eq, if_pos fits]
  exact ⟨multiple, least, by omega⟩

/-- An aligned address is its own least aligned address. -/
theorem align_of_dvd {alignment size ptr space : Nat} (positive : 0 < alignment)
    (aligned : alignment ∣ ptr) (fits : size ≤ space) :
    align alignment size ptr space = ptr := by
  obtain ⟨multiple, rfl⟩ := aligned
  have quotient : (alignment * multiple + alignment - 1) / alignment = multiple := by
    rw [Nat.add_sub_assoc positive, Nat.mul_add_div positive,
      Nat.div_eq_of_lt (by omega), Nat.add_zero]
  simp [align, quotient, Nat.mul_comm, fits]

end Cxx
