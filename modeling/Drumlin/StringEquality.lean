import Drumlin.Library.SetDifference
import Drumlin.UseIdent

/-!
# Comparing lists of strings

`string_list::operator==` (string_list.cpp) asks whether `std::set_difference` finds anything in the
left list that is not in the right one.  It takes a reference that is not constant; where a list is
constant, as in `UseIdent::operator==`, the equality of `std::list` is called instead.  `HashOnly`
compares two lists by a hash of their items written one after another.
-/

namespace Drumlin

open Cxx

namespace StringList

/-- `string_list::operator==`. -/
def equals (left right : StringList) : Bool := (setDifference left right).isEmpty

theorem equals_iff (left right : StringList) : left.equals right ↔ FoundIn left right := by
  rw [equals, List.isEmpty_iff, setDifference_eq_nil_iff]

/-- On some lists the operator is an equivalence relation, the equality of the elements in order,
and what constant lists are compared by. -/
structure ComparesBy (lists : Set StringList) : Prop where
  equivalence : Equivalence fun left right : lists => left.1.equals right.1 = true
  elementwise : ∀ left ∈ lists, ∀ right ∈ lists, left.equals right ↔ left = right
  constant : ∀ left ∈ lists, ∀ right ∈ lists, ∀ use : UseIdent,
    left.equals right =
      UseIdent.equals { use with specification := left } { use with specification := right }

/-- The operator is the equality on some lists precisely if none of them is found in a longer one by
skipping strings that are less than the one sought. -/
theorem comparesBy_iff (lists : Set StringList) :
    ComparesBy lists ↔
      ∀ left ∈ lists, ∀ right ∈ lists, FoundIn left right → left.length = right.length := by
  constructor
  · intro compares left left_mem right right_mem found
    have equal := (compares.elementwise left left_mem right right_mem).mp
      ((equals_iff left right).mpr found)
    rw [equal]
  · intro lengths
    have elementwise : ∀ left ∈ lists, ∀ right ∈ lists, left.equals right ↔ left = right := by
      intro left left_mem right right_mem
      rw [equals_iff]
      constructor
      · intro found
        exact found.eq_of_length (lengths left left_mem right right_mem found)
      · rintro rfl
        exact .refl left
    have coincide : (fun left right : lists => left.1.equals right.1 = true) = Eq := by
      funext left right
      rw [elementwise left left.2 right right.2, Subtype.ext_iff]
    refine ⟨coincide ▸ eq_equivalence, elementwise, ?_⟩
    intro left left_mem right right_mem use
    rw [Bool.eq_iff_iff, elementwise left left_mem right right_mem]
    simp [UseIdent.equals]

/-- Nothing is missing from a longer list. -/
theorem comparesBy_fails : ¬ComparesBy Set.univ := by
  intro compares
  have found : StringList.equals [] [[97]] := (equals_iff [] [[97]]).mpr (.nil [[97]])
  have equal := (compares.elementwise [] trivial [[97]] trivial).mp found
  exact absurd equal (by decide)

end StringList

/-! ## The hash of a specification -/

namespace Crypto

/-- What `Crypto::sha256` passes on of a text, whose length goes through a `guint32`. -/
def hashed (data : Str) : Str := data.take (data.length % 2 ^ 32)

/-- The bytes behind. -/
def unhashed (data : Str) : Str := data.drop (data.length % 2 ^ 32)

/-- `Crypto::sha256`, for the hash function of the library it calls. -/
def sha256 (digest : Str → Str) (data : Str) : Str := digest (hashed data)

end Crypto

open Crypto

/-- The hash, and the filter that compares by it, tell two identifiers apart by their
specifications. -/
structure TellsApart (digest : Str → Str) (left right : UseIdent) : Prop where
  hash : left.getHash (sha256 digest) = right.getHash (sha256 digest) ↔
    left.specification = right.specification
  filter : (BaseFilter.hashOnly left).object.equals (sha256 digest) right ↔
    left.specification = right.specification

/-- Where different bytes have different digests, the hash tells two identifiers apart precisely if
specifications that are the same to it have items of the same lengths, and end in the same bytes. -/
theorem tellsApart_iff {digest : Str → Str} {left right : UseIdent}
    (injective : Set.InjOn digest
      {hashed left.specification.toString, hashed right.specification.toString}) :
    TellsApart digest left right ↔
      (hashed left.specification.toString = hashed right.specification.toString →
        left.specification.map List.length = right.specification.map List.length ∧
          unhashed left.specification.toString = unhashed right.specification.toString) := by
  have hash_eq_iff : left.getHash (sha256 digest) = right.getHash (sha256 digest) ↔
      hashed left.specification.toString = hashed right.specification.toString := by
    constructor
    · exact fun same => injective (.inl rfl) (.inr rfl) same
    · exact congrArg digest
  constructor
  · intro apart same
    rw [apart.hash.mp (hash_eq_iff.mpr same)]
    exact ⟨rfl, rfl⟩
  · intro items
    have tells : left.getHash (sha256 digest) = right.getHash (sha256 digest) ↔
        left.specification = right.specification := by
      rw [hash_eq_iff]
      constructor
      · intro same
        obtain ⟨lengths, rest⟩ := items same
        have text : left.specification.toString = right.specification.toString := by
          calc
            left.specification.toString =
                hashed left.specification.toString ++ unhashed left.specification.toString :=
              (List.take_append_drop _ _).symm
            _ = hashed right.specification.toString ++ unhashed right.specification.toString := by
              rw [same, rest]
            _ = right.specification.toString := List.take_append_drop _ _
        exact List.eq_iff_flatten_eq.mpr ⟨text, lengths⟩
      · intro equal
        rw [equal]
    refine ⟨tells, ?_⟩
    rw [← tells, BaseFilter.object, Filter.equals, beq_iff_eq]

/-- The digests of `ab` and of `abc`. -/
private def digestOf (data : Str) : Str :=
  if data = [97, 98] then
    [0xfb, 0x8e, 0x20, 0xfc, 0x2e, 0x4c, 0x3f, 0x24, 0x8c, 0x60, 0xc3, 0x9b, 0xd6, 0x52, 0xf3,
      0xc1, 0x34, 0x72, 0x98, 0xbb, 0x97, 0x7b, 0x8b, 0x4d, 0x59, 0x03, 0xb8, 0x50, 0x55, 0x62,
      0x06, 0x03]
  else
    [0xba, 0x78, 0x16, 0xbf, 0x8f, 0x01, 0xcf, 0xea, 0x41, 0x41, 0x40, 0xde, 0x5d, 0xae, 0x22,
      0x23, 0xb0, 0x03, 0x61, 0xa3, 0x96, 0x17, 0x7a, 0x9c, 0xb4, 0x10, 0xff, 0x61, 0xf2, 0x00,
      0x15, 0xad]

/-- A list of two items, and the same list with one more. -/
theorem tellsApart_two :
    TellsApart digestOf ⟨none, [], [[97], [98]], 0⟩ ⟨none, [], [[97], [98], [99]], 0⟩ :=
  (tellsApart_iff (by simp [Set.InjOn]; decide)).mpr fun same => absurd same (by decide)

/-- One item, and the same text in two. -/
theorem tellsApart_fails :
    ¬∀ (digest : Str → Str) (left right : UseIdent),
      Set.InjOn digest
        {hashed left.specification.toString, hashed right.specification.toString} →
      TellsApart digest left right := by
  intro tells
  have apart := tells id ⟨none, [], [[97, 98]], 0⟩ ⟨none, [], [[97], [98]], 0⟩
    Function.injective_id.injOn
  exact absurd (apart.hash.mp rfl) (by decide)

end Drumlin
