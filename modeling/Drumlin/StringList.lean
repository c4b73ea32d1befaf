import Mathlib
import Drumlin.Library.Split

/-!
# Lists of strings

`string_list` (string_list.h, string_list.cpp) is a `std::list` of `std::string`; a string is the
list of its bytes.
-/

namespace Drumlin

/-- A `std::string`. -/
abbrev Str := List UInt8

namespace Str

/-- `std::string::npos`. -/
def npos : Nat := 2 ^ 64 - 1

/-- `std::string::find` of one character. -/
def find (character : UInt8) (string : Str) : Nat :=
  match string.findIdx? (· == character) with
  | some position => position
  | none => npos

/-- The character `=`. -/
def equalsSign : UInt8 := 61

/-- `std::string::find` of a string. -/
def findString (sought string : Str) : Option Nat :=
  string.tails.findIdx? fun tail => sought.isPrefixOf tail

/-- The constructor from a `char` array of a character and a terminator. -/
def ofChar (character : UInt8) : Str := if character = 0 then [] else [character]

/-- The literal `"¬"`, of two bytes. -/
def notSign : Str := [0xc2, 0xac]

end Str

/-- `string_list`. -/
abbrev StringList := List Str

namespace StringList

/-- `string_list::toString`: the items written one after another. -/
def toString (list : StringList) : Str := list.flatten

/-- One item in `string_list::namesOnly`.  The test is that the iterator `begin() + lpos` is not
the end; its sum is taken modulo `2 ^ 64`. -/
def nameOf (strict : Bool) (item : Str) : Option Str :=
  let lpos := item.find Str.equalsSign
  if lpos % 2 ^ 64 ≠ item.length then
    some (item.take lpos)
  else if !strict then
    some item
  else
    none

/-- `string_list::namesOnly`. -/
def namesOnly (strict : Bool) (list : StringList) : StringList :=
  list.filterMap (nameOf strict)

/-! ## Joining and splitting -/

/-- The body of the loop of `join`: whether a string came before, and what is written so far. -/
def joinOne (separator : Str) (progress : Bool × Str) (str : Str) : Bool × Str :=
  (true, progress.2 ++ (if progress.1 then separator else []) ++ str)

/-- `string_list::join` of a character. -/
def join (c : UInt8) (list : StringList) : Str := (list.foldl (joinOne [c]) (false, [])).2

/-- `string_list::join` of a string, by `boost::algorithm::join`. -/
def joinString (str : Str) (list : StringList) : Str := str.intercalate list

/-- The loop of `fromString` that replaces the delimiter by `"¬"`, as often as the fuel allows; it
has no end where a replacement makes up the delimiter again. -/
def replaceEach (delim : Str) : Nat → Str → Option Str
  | 0, _ => none
  | fuel + 1, s =>
      match Str.findString delim s with
      | some pos =>
          replaceEach delim fuel (s.take pos ++ Str.notSign ++ s.drop (pos + delim.length))
      | none => some s

/-- `string_list::fromString`.  The fuel bounds the loop of the branch `all`. -/
def fromString (fuel : Nat) (toSplit delim : Str) (all : Bool) (flags : Split.TokenCompress) :
    Option StringList :=
  if !all then
    some (Split.split (fun c => delim.contains c) flags toSplit)
  else
    (replaceEach delim fuel toSplit).map (Split.split (fun c => Str.notSign.contains c) flags)

/-- `string_list::fromString` of a character. -/
def fromChar (fuel : Nat) (toSplit : Str) (delim : UInt8) (all : Bool)
    (flags : Split.TokenCompress) : Option StringList :=
  fromString fuel toSplit (Str.ofChar delim) all flags

theorem foldl_joinOne (separator : Str) (list : StringList) (written : Str) :
    (list.foldl (joinOne separator) (true, written)).2 =
      written ++ list.flatMap fun str => separator ++ str := by
  induction list generalizing written with
  | nil => simp
  | cons str list induction => simp [joinOne, induction]

/-- `join` writes the separator between the strings. -/
theorem join_eq_intercalate (c : UInt8) (list : StringList) :
    join c list = [c].intercalate list := by
  cases list with
  | nil => rfl
  | cons first list =>
      have written : join c (first :: list) =
          first ++ list.flatMap fun str => c :: str := by
        simpa [join, joinOne] using foldl_joinOne [c] list first
      rw [written]
      clear written
      induction list generalizing first with
      | nil => simp
      | cons next list induction =>
          rw [List.intercalate_cons_cons, ← induction next]
          simp

/-- A character other than NUL is the only delimiter. -/
theorem fromChar_eq {c : UInt8} (nonzero : c ≠ 0) (fuel : Nat) (toSplit : Str)
    (flags : Split.TokenCompress) :
    fromChar fuel toSplit c false flags = some (Split.split (· == c) flags toSplit) := by
  have delims : (fun x => (Str.ofChar c).contains x) = (· == c) := by
    funext x
    rw [Str.ofChar, if_neg nonzero, List.contains_cons, List.contains_nil, Bool.or_false]
  rw [fromChar, fromString, delims]
  rfl

/-- Splitting at a character and joining is the identity without compression; joining nonempty
strings that do not contain it and splitting is the identity with compression. -/
theorem fromChar_join {c : UInt8} (nonzero : c ≠ 0) (fuel : Nat) :
    (∀ s : Str, ∃ list, fromChar fuel s c false .off = some list ∧ join c list = s) ∧
      ∀ l : StringList, l ≠ [] → (∀ str ∈ l, str ≠ [] ∧ c ∉ str) →
        fromChar fuel (join c l) c false .on = some l := by
  refine ⟨fun s => ⟨_, fromChar_eq nonzero fuel s .off, ?_⟩, fun l some_string fields => ?_⟩
  · rw [join_eq_intercalate, Split.split_off]
    exact List.intercalate_splitOn c
  · rw [fromChar_eq nonzero, join_eq_intercalate]
    refine congrArg some (Split.split_intercalate (by simp) some_string ?_ ?_)
    · intro str member x present
      rw [beq_eq_false_iff_ne]
      rintro rfl
      exact (fields str member).2 present
    · exact fun _ str member => (fields str member).1

/-- A comma; a string with empty fields, and a list of three. -/
theorem fromChar_join_comma :
    (∃ list, fromChar 0 [44, 97, 44, 44, 98, 44] 44 false .off = some list ∧
      join 44 list = [44, 97, 44, 44, 98, 44]) ∧
    fromChar 0 (join 44 [[97], [98, 99], [100]]) 44 false .on =
      some [[97], [98, 99], [100]] := by
  obtain ⟨split_join, join_split⟩ := fromChar_join (c := 44) (by decide) 0
  exact ⟨split_join _, join_split _ (by decide) (by decide)⟩

end StringList

end Drumlin
