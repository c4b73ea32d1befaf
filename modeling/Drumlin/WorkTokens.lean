import Drumlin.Library.NumberText
import Drumlin.Work

/-!
# The text of a token

`Token::toString` (work.cpp) writes the target, which may be any text, the uuid and the part, with
`:` between them.  Read from the right they are found again.
-/

namespace Drumlin

namespace Work

/-- `Token::operator ==`. -/
def Token.equals (token rhs : Token) : Bool :=
  token.target == rhs.target && token.uuid == rhs.uuid && token.part == rhs.part

theorem Token.equals_iff (token rhs : Token) : token.equals rhs ↔ token = rhs := by
  obtain ⟨target, uuid, part⟩ := token
  obtain ⟨target', uuid', part'⟩ := rhs
  simp [Token.equals, and_assoc]

/-! ## The text of a uuid -/

/-- What `toStr` writes for a byte at a position. -/
def Uuid.byteText (place : UInt8 × Nat) : Str :=
  (if place.2 ∈ [4, 6, 8, 10] then [45] else []) ++
    [hexDigit (place.1 / 16), hexDigit (place.1 % 16)]

theorem toNat_hexDigit {value : UInt8} (small : value.toNat < 16) :
    (hexDigit value).toNat = if value.toNat < 10 then 48 + value.toNat else 87 + value.toNat := by
  have least : value < 10 ↔ value.toNat < 10 := UInt8.lt_iff_toNat_lt
  rw [hexDigit]
  simp only [least]
  split
  · rw [UInt8.toNat_add]
    exact Nat.mod_eq_of_lt (show 48 + value.toNat < 256 by omega)
  · rw [UInt8.toNat_add]
    exact Nat.mod_eq_of_lt (show 87 + value.toNat < 256 by omega)

theorem hexDigit_inj {left right : UInt8} (left_small : left.toNat < 16)
    (right_small : right.toNat < 16) (same : hexDigit left = hexDigit right) : left = right := by
  have codes := congrArg UInt8.toNat same
  rw [toNat_hexDigit left_small, toNat_hexDigit right_small] at codes
  apply UInt8.toNat_inj.mp
  split at codes <;> split at codes <;> omega

theorem Uuid.byteText_inj {left right : UInt8} {position : Nat}
    (same : Uuid.byteText (left, position) = Uuid.byteText (right, position)) : left = right := by
  obtain ⟨high, low⟩ : hexDigit (left / 16) = hexDigit (right / 16) ∧
      hexDigit (left % 16) = hexDigit (right % 16) := by
    simpa [Uuid.byteText] using same
  have high_small (byte : UInt8) : (byte / 16).toNat < 16 := by
    have bound := byte.toNat_lt
    rw [UInt8.toNat_div]
    exact Nat.div_lt_of_lt_mul bound
  have low_small (byte : UInt8) : (byte % 16).toNat < 16 := by
    rw [UInt8.toNat_mod]
    exact Nat.mod_lt _ (by decide)
  have quotient := congrArg UInt8.toNat (hexDigit_inj (high_small left) (high_small right) high)
  have remainder := congrArg UInt8.toNat (hexDigit_inj (low_small left) (low_small right) low)
  rw [UInt8.toNat_div, UInt8.toNat_div] at quotient
  rw [UInt8.toNat_mod, UInt8.toNat_mod] at remainder
  apply UInt8.toNat_inj.mp
  rw [← Nat.div_add_mod left.toNat (16 : UInt8).toNat, quotient, remainder, Nat.div_add_mod]

theorem Uuid.length_byteText (left right : UInt8) (position : Nat) :
    (Uuid.byteText (left, position)).length = (Uuid.byteText (right, position)).length := by
  simp [Uuid.byteText]

/-- Texts of as many bytes are as long, and differ if the bytes do. -/
theorem Uuid.flatMap_byteText {left right : List UInt8} (lengths : left.length = right.length)
    (position : Nat) :
    ((left.zipIdx position).flatMap byteText).length =
        ((right.zipIdx position).flatMap byteText).length ∧
      ((left.zipIdx position).flatMap byteText = (right.zipIdx position).flatMap byteText →
        left = right) := by
  induction left generalizing right position with
  | nil =>
      obtain rfl := List.eq_nil_of_length_eq_zero lengths.symm
      exact ⟨rfl, fun _ => rfl⟩
  | cons byte left induction =>
      obtain ⟨byte', right, rfl⟩ := List.exists_cons_of_length_eq_add_one lengths.symm
      obtain ⟨later, later_inj⟩ := induction (Nat.succ.inj lengths) (position + 1)
      have first := length_byteText byte byte' position
      simp only [List.zipIdx_cons, List.flatMap_cons, List.length_append]
      refine ⟨by rw [first, later], fun same => ?_⟩
      obtain ⟨here, rest⟩ := List.append_inj same first
      rw [byteText_inj here, later_inj rest]

theorem Uuid.toStr_eq (uuid : Uuid) : uuid.toStr = uuid.toList.zipIdx.flatMap byteText := rfl

theorem Uuid.length_toStr (uuid : Uuid) : uuid.toStr.length = 36 := by
  have zeros : uuid.toStr.length = ((List.replicate 16 0).zipIdx.flatMap byteText).length :=
    (Uuid.flatMap_byteText (by simp) 0).1
  rw [zeros]
  decide

theorem Uuid.toStr_injective : Function.Injective Uuid.toStr := by
  intro left right same
  exact Vector.toList_inj.mp ((Uuid.flatMap_byteText (by simp) 0).2 same)

/-! ## The text of a token -/

/-- Of two texts that are the same, what is behind the last delimiter is the same. -/
theorem append_cons_inj {delim : UInt8} {front front' back back' : Str} (last : delim ∉ back)
    (last' : delim ∉ back') (same : front ++ delim :: back = front' ++ delim :: back') :
    front = front' ∧ back = back' := by
  rcases List.append_eq_append_iff.mp same with ⟨more, rfl, rest⟩ | ⟨more, rfl, rest⟩
  · cases more with
    | nil => exact ⟨(List.append_nil front).symm, (List.cons.inj rest).2⟩
    | cons first more =>
        obtain ⟨rfl, rfl⟩ := List.cons.inj rest
        simp at last
  · cases more with
    | nil => exact ⟨List.append_nil front', (List.cons.inj rest).2.symm⟩
    | cons first more =>
        obtain ⟨rfl, rfl⟩ := List.cons.inj rest
        simp at last'

theorem colon_notMem_part (part : UInt64) : 58 ∉ (Nat.repr part.toNat).toUTF8.toList := by
  intro member
  exact absurd (NumberText.mem_repr member).2 (by decide)

/-- Tokens are equal precisely if their texts are. -/
theorem toString_eq_iff (t1 t2 : Token) : t1.toString = t2.toString ↔ t1.equals t2 := by
  rw [Token.equals_iff]
  constructor
  · intro same
    obtain ⟨target, uuid, part⟩ := t1
    obtain ⟨target', uuid', part'⟩ := t2
    simp only [Token.toString, List.append_assoc, List.singleton_append] at same
    have parts : (target ++ 58 :: uuid.toStr) ++ 58 :: (Nat.repr part.toNat).toUTF8.toList =
        (target' ++ 58 :: uuid'.toStr) ++ 58 :: (Nat.repr part'.toNat).toUTF8.toList := by
      simpa using same
    obtain ⟨fronts, numbers⟩ :=
      append_cons_inj (colon_notMem_part part) (colon_notMem_part part') parts
    -- the uuids are as long as each other, whatever the targets are
    obtain ⟨targets, uuids⟩ := List.append_inj' fronts (by simp [Uuid.length_toStr])
    obtain rfl := Uuid.toStr_injective (List.cons.inj uuids).2
    obtain rfl := UInt64.toNat_inj.mp (NumberText.repr_injective numbers)
    rw [targets]
  · rintro rfl
    rfl

end Work

end Drumlin
