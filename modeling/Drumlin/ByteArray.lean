import Mathlib
import Drumlin.Library.CMemory
import Drumlin.Library.Runs
import Drumlin.StringList

/-!
# Byte arrays

`byte_array` (byte_array.h, byte_array.cpp) holds bytes in a block of memory.  Strings are put into
it one behind another, each with its terminator, and read out again as a `string_list`.
-/

namespace Drumlin

/-- `byte_array`.  `data` is null or points to the beginning of a block; `destroy` tells that the
block is the array's own. -/
structure ByteArray where
  data : Option CMemory.Block
  length : Nat
  destroy : Bool
deriving DecidableEq, Repr

namespace ByteArray

/-- The default constructor. -/
def null : ByteArray := ⟨none, 0, false⟩

/-- `byte_array::append` of memory.  The allocations are taken to succeed; for an array that
borrows its block nothing is assigned to `pdest`. -/
def append (array : ByteArray) (next : List UInt8) : Option ByteArray :=
  if next.length = 0 then
    some array
  else
    let pdest :=
      match array.destroy, array.data with
      | true, some block => some (CMemory.realloc block (array.length + next.length))
      | _, none => some (CMemory.malloc (array.length + next.length))
      | false, some _ => none
    pdest.bind fun block =>
      (CMemory.memmove block array.length next).map fun block =>
        { data := some block, length := array.length + next.length, destroy := true }

/-- `std::string::c_str`. -/
def cStr (str : Str) : List UInt8 := str ++ [0]

/-- `byte_array::append` of a string. -/
def appendString (array : ByteArray) (str : Str) : Option ByteArray :=
  array.append (cStr str)

/-- `byte_array::fromData` of a string; `bytes` is constructed in the place of the result. -/
def fromData (str : Str) : Option ByteArray := null.append (cStr str)

/-- The loop of `operator string_list`, with the cursor `pc` counted from the beginning. -/
def readStrings (block : CMemory.Block) (length pc : Nat) (list : StringList) :
    Option StringList :=
  if pc < length then
    (CMemory.readString (block.drop pc)).bind fun s =>
      readStrings block length (pc + (s.length + 1)) (list ++ [s])
  else
    some list
termination_by length - pc

/-- `byte_array::operator string_list`. -/
def toStringList (array : ByteArray) : Option StringList :=
  readStrings (array.data.getD []) array.length 0 []

/-! ## What an array holds -/

/-- The array owns a block with just these bytes. -/
structure Holds (array : ByteArray) (bytes : List UInt8) : Prop where
  data : array.data = some (bytes.map some)
  length : array.length = bytes.length
  destroy : array.destroy = true

/-- The block begins with these bytes, and just these are counted. -/
structure Has (array : ByteArray) (bytes : List UInt8) : Prop where
  data : bytes.map some <+: array.data.getD []
  length : array.length = bytes.length

/-- The array points to a block that is not its own. -/
def Borrows (array : ByteArray) : Prop := array.data.isSome ∧ array.destroy = false

/-- Without a block there is nothing. -/
theorem has_nil (destroy : Bool) : Has ⟨none, 0, destroy⟩ [] := ⟨List.nil_prefix, rfl⟩

theorem Holds.has {array : ByteArray} {bytes : List UInt8} (holds : array.Holds bytes) :
    array.Has bytes := by
  refine ⟨?_, holds.length⟩
  rw [holds.data, Option.getD_some]

@[simp]
theorem append_nil (array : ByteArray) : array.append [] = some array := rfl

/-- An array that borrows nothing is the owner of what it has and what is appended. -/
theorem Has.append {array : ByteArray} {old : List UInt8} (has : array.Has old)
    (own : ¬array.Borrows) {next : List UInt8} (nonempty : next ≠ []) :
    ∃ later, array.append next = some later ∧ later.Holds (old ++ next) := by
  refine ⟨⟨some ((old ++ next).map some), (old ++ next).length, true⟩, ?_, rfl, rfl, rfl⟩
  obtain ⟨data, length, destroy⟩ := array
  obtain ⟨prefix_old, rfl⟩ := has
  rw [ByteArray.append, if_neg (by simpa using nonempty)]
  cases data with
  | none =>
      obtain rfl : old = [] := by simpa using prefix_old
      cases destroy <;> simp [CMemory.memmove_malloc]
  | some block =>
      cases destroy with
      | false => exact (own ⟨rfl, rfl⟩).elim
      | true =>
          rw [Option.getD_some] at prefix_old
          simp [CMemory.memmove_realloc prefix_old]

/-- Appending to the array that was constructed. -/
theorem append_null {next : List UInt8} (nonempty : next ≠ []) :
    ∃ array, null.append next = some array ∧ array.Holds next := by
  exact (has_nil false).append (fun borrows => Bool.noConfusion borrows.1) nonempty

theorem Holds.not_borrows {array : ByteArray} {bytes : List UInt8} (holds : array.Holds bytes) :
    ¬array.Borrows :=
  fun borrows => Bool.noConfusion (holds.destroy.symm.trans borrows.2)

/-- Appending to an array that holds bytes. -/
theorem Holds.append {array : ByteArray} {bytes : List UInt8} (holds : array.Holds bytes)
    (next : List UInt8) :
    ∃ later, array.append next = some later ∧ later.Holds (bytes ++ next) := by
  by_cases nonempty : next = []
  · rw [nonempty, List.append_nil]
    exact ⟨array, append_nil array, holds⟩
  · exact holds.has.append holds.not_borrows nonempty

/-! ## The round trip -/

/-- Strings one behind another with their terminators. -/
def terminated (list : StringList) : List UInt8 := list.flatMap cStr

theorem Holds.appendStrings {array : ByteArray} {earlier : StringList}
    (holds : array.Holds (terminated earlier)) (list : StringList) :
    ∃ final, Runs.exec appendString array list = some final ∧
      final.Holds (terminated (earlier ++ list)) := by
  induction list generalizing array earlier with
  | nil => exact ⟨array, rfl, by simpa using holds⟩
  | cons str list induction =>
      obtain ⟨next, appended, next_holds⟩ := holds.append (cStr str)
      have together : terminated earlier ++ cStr str = terminated (earlier ++ [str]) := by
        simp [terminated]
      rw [together] at next_holds
      obtain ⟨final, later, final_holds⟩ := induction next_holds
      refine ⟨final, Runs.exec_cons_eq_some.mpr ⟨next, appended, later⟩, ?_⟩
      rwa [List.append_assoc] at final_holds

/-- At the end of a string the cursor stands at the beginning of the next. -/
theorem readStrings_terminated (list : StringList) (no_nul : ∀ str ∈ list, 0 ∉ str)
    (earlier : StringList) :
    readStrings ((terminated (earlier ++ list)).map some) (terminated (earlier ++ list)).length
      (terminated earlier).length earlier = some (earlier ++ list) := by
  induction list generalizing earlier with
  | nil =>
      rw [readStrings, if_neg (by simp), List.append_nil]
  | cons str list induction =>
      obtain ⟨str_no_nul, list_no_nul⟩ := List.forall_mem_cons.mp no_nul
      have whole : terminated (earlier ++ str :: list) =
          terminated earlier ++ (str ++ 0 :: terminated list) := by simp [terminated, cStr]
      have behind : ((terminated (earlier ++ str :: list)).map some).drop
          (terminated earlier).length = str.map some ++ some 0 :: (terminated list).map some := by
        rw [whole, List.map_append, List.drop_left' (by simp)]
        simp
      have inside : (terminated earlier).length < (terminated (earlier ++ str :: list)).length := by
        rw [whole]
        simp
      have cursor : (terminated earlier).length + (str.length + 1) =
          (terminated (earlier ++ [str])).length := by simp [terminated, cStr]
      rw [readStrings, if_pos inside, behind, CMemory.readString_append str_no_nul,
        Option.bind_some, cursor]
      simpa using induction list_no_nul (earlier ++ [str])

/-- Any nonempty list of strings without NUL is read back from the array into which it was put. -/
theorem toStringList_appendString (first : Str) (others : StringList)
    (no_nul : ∀ str ∈ first :: others, 0 ∉ str) :
    ∃ array final, fromData first = some array ∧
      Runs.exec appendString array others = some final ∧
      final.toStringList = some (first :: others) := by
  have nonempty : cStr first ≠ [] := by simp [cStr]
  obtain ⟨array, created, array_holds⟩ := append_null nonempty
  have single : cStr first = terminated [first] := by simp [terminated]
  rw [single] at array_holds
  obtain ⟨final, appended, final_holds⟩ := array_holds.appendStrings others
  refine ⟨array, final, created, appended, ?_⟩
  rw [toStringList, final_holds.data, final_holds.length, Option.getD_some]
  exact readStrings_terminated ([first] ++ others) no_nul []

/-- `b`, an empty string, and `de`. -/
theorem toStringList_appendString_three :
    ∃ array final, fromData [98] = some array ∧
      Runs.exec appendString array [[], [100, 101]] = some final ∧
      final.toStringList = some [[98], [], [100, 101]] :=
  toStringList_appendString [98] [[], [100, 101]] (by decide)

end ByteArray

end Drumlin
