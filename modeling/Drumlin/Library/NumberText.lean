import Mathlib

/-!
# Numbers as text

The bytes of a number that is written in digits.
-/

namespace NumberText

private theorem toList_loop (bytes : ByteArray) (i : Nat) (r : List UInt8) :
    ByteArray.toList.loop bytes i r = r.reverse ++ bytes.data.toList.drop i := by
  fun_induction ByteArray.toList.loop bytes i r with
  | case1 i r inside induction =>
      have more : i < bytes.data.toList.length := inside
      rw [induction, List.reverse_cons, List.append_assoc, List.drop_eq_getElem_cons more,
        List.singleton_append]
      have here : bytes.get! i = bytes.data.toList[i] := getElem!_pos bytes.data i inside
      rw [here]
  | case2 i r outside =>
      have all : bytes.data.toList.length ≤ i := not_lt.mp outside
      rw [List.drop_eq_nil_of_le all, List.append_nil]

theorem toList_eq (bytes : ByteArray) : bytes.toList = bytes.data.toList := by
  rw [ByteArray.toList, toList_loop]
  rfl

/-- Texts with the same bytes are the same. -/
theorem toUTF8_toList_injective : Function.Injective fun text : String => text.toUTF8.toList := by
  intro left right same
  simp only [toList_eq] at same
  apply String.toByteArray_inj.mp
  apply ByteArray.ext
  apply Array.toList_inj.mp
  exact same

theorem toUTF8_toList_ofList (text : List Char) :
    (String.ofList text).toUTF8.toList = text.flatMap String.utf8EncodeChar := by
  rw [toList_eq, String.toUTF8_eq_toByteArray, String.toByteArray_ofList, List.utf8Encode,
    List.toList_data_toByteArray]

/-- Numbers with the same digits are the same. -/
theorem repr_injective : Function.Injective fun number => (Nat.repr number).toUTF8.toList :=
  fun _ _ same => Nat.repr_injective (toUTF8_toList_injective same)

/-- The digits of a number in a base are digits of that base. -/
theorem mem_toDigits {base : Nat} (base_gt : 1 < base) {number : Nat} {digit : Char}
    (member : digit ∈ Nat.toDigits base number) : ∃ value < base, digit = value.digitChar := by
  induction number using Nat.strong_induction_on with
  | h number induction =>
      rw [Nat.toDigits_eq_if base_gt] at member
      split at member
      · rename_i small
        exact ⟨number, small, List.mem_singleton.mp member⟩
      · rename_i large
        rcases List.mem_append.mp member with front | last
        · exact induction (number / base) (Nat.div_lt_self (by omega) base_gt) front
        · exact ⟨number % base, Nat.mod_lt number (by omega), List.mem_singleton.mp last⟩

/-- Only digits are written. -/
theorem mem_repr {number : Nat} {byte : UInt8} (member : byte ∈ (Nat.repr number).toUTF8.toList) :
    48 ≤ byte ∧ byte ≤ 57 := by
  have digits : ∀ value < 10, (String.utf8EncodeChar (Nat.digitChar value)).all
      fun byte => 48 ≤ byte && byte ≤ 57 := by decide
  rw [Nat.repr_eq_ofList_toDigits, toUTF8_toList_ofList, List.mem_flatMap] at member
  obtain ⟨digit, digit_member, member⟩ := member
  obtain ⟨value, small, rfl⟩ := mem_toDigits (by decide) digit_member
  simpa using List.all_eq_true.mp (digits value small) byte member

/-! ## Hexadecimal -/

/-- A number in hexadecimal, with letters in lower case. -/
def hex (number : Nat) : List UInt8 := (Nat.toDigits 16 number).map Char.toUInt8

theorem hex_ne_nil (number : Nat) : hex number ≠ [] := by
  simp [hex, Nat.toDigits_ne_nil]

/-- Only digits and the letters from `a` to `f` are written. -/
theorem mem_hex {number : Nat} {byte : UInt8} (member : byte ∈ hex number) :
    (48 ≤ byte ∧ byte ≤ 57) ∨ (97 ≤ byte ∧ byte ≤ 102) := by
  have digits : ∀ value < 16, (48 ≤ (Nat.digitChar value).toUInt8 ∧
      (Nat.digitChar value).toUInt8 ≤ 57) ∨ (97 ≤ (Nat.digitChar value).toUInt8 ∧
        (Nat.digitChar value).toUInt8 ≤ 102) := by decide
  obtain ⟨digit, digit_member, rfl⟩ := List.mem_map.mp member
  obtain ⟨value, small, rfl⟩ := mem_toDigits (by decide) digit_member
  exact digits value small

end NumberText
