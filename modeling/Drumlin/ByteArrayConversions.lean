import Drumlin.ByteArrayStates

/-!
# Bytes put into an array and read out again

A byte array is filled from a stream, from a string or from a range of one, and converted to a
string or to a `string_list` (byte_array.cpp).  The conversions go by the terminators in the block,
and only then by the length.
-/

namespace Drumlin

open Cxx

namespace ByteArray

/-! ## Streams -/

/-- Only what fills the array of 1024 characters is kept. -/
theorem readChunks_eq (available ss : List UInt8) :
    readChunks available ss = ss ++ available.take (available.length / 1024 * 1024) := by
  fun_induction readChunks available ss with
  | case1 available ss full induction =>
      rw [List.length_take] at full
      rw [induction, List.append_assoc, List.length_drop]
      have blocks : available.length / 1024 * 1024 =
          1024 + (available.length - 1024) / 1024 * 1024 := by omega
      rw [blocks, List.take_add]
  | case2 available ss rest =>
      rw [List.length_take] at rest
      have none : available.length / 1024 * 1024 = 0 := by omega
      rw [none, List.take_zero, List.append_nil]

theorem append_of_no_block (destroy : Bool) (next : List UInt8) :
    ∃ array, append ⟨none, 0, destroy⟩ next = some array ∧ array.Has next := by
  exact (has_nil destroy).append_has (fun borrows => Bool.noConfusion borrows.1) next

/-- Both readers yield what there is, into a new array and into an empty one, and an array that has
it is written so that they do. -/
structure ReadsBack (available : List UInt8) : Prop where
  readAll : ∃ array, ByteArray.readAll available = some array ∧ array.Has available
  extract : ∀ array : ByteArray, array.empty →
    ∃ later, array.extract available = some later ∧ later.Has available
  insert : ∀ array : ByteArray, array.Has available → array.insert = some available

theorem extract_of_empty {array : ByteArray} (empty : array.empty) (available : List UInt8) :
    ∃ later, array.extract available = some later ∧ later.Has available := by
  obtain ⟨data, length, destroy⟩ := array
  simp only [ByteArray.empty, Bool.and_eq_true, Option.isNone_iff_eq_none, beq_iff_eq] at empty
  obtain ⟨rfl, rfl⟩ := empty
  exact append_of_no_block destroy available

/-- What is read back is all there is precisely if it comes in full blocks of 1024 bytes. -/
theorem readsBack_iff (available : List UInt8) :
    ReadsBack available ↔ 1024 ∣ available.length := by
  obtain ⟨array, read, has⟩ := append_of_no_block false (readChunks available [])
  rw [readChunks_eq, List.nil_append] at has
  constructor
  · intro reads
    obtain ⟨array', read', has'⟩ := reads.readAll
    obtain rfl := Option.some.inj (read.symm.trans read')
    have blocks := congrArg List.length (has.unique has')
    rw [List.length_take] at blocks
    omega
  · rintro ⟨blocks, length⟩
    refine ⟨⟨array, read, ?_⟩, fun _ empty => extract_of_empty empty available,
      fun _ has => has.read⟩
    rwa [List.take_of_length_le (by omega)] at has

/-- One character is lost. -/
theorem readsBack_fails : ¬∀ available, ReadsBack available := by
  intro always
  obtain ⟨array, read, has⟩ := (always [97]).readAll
  have nothing : readChunks [97] [] = [] := by simp [readChunks_eq]
  rw [readAll, nothing, append_nil] at read
  cases read
  exact absurd has.length (by decide)

/-! ## Ranges -/

/-- The factory for a range and the one for a string make arrays of the same bytes. -/
def SameRange (s : Str) (start length : Nat) : Prop :=
  ∃ range whole bytes, fromRange ((cStr s).map some) start length = some range ∧
    fromData ((s.drop start).take length) = some whole ∧ range.Has bytes ∧ whole.Has bytes

theorem sameRange_iff {s : Str} {start length : Nat} (sized : s.length < Str.npos)
    (within : start + length ≤ s.length) :
    SameRange s start length ↔ start + length = s.length ∨ s[start + length]? = some 0 := by
  obtain ⟨range, range_eq, range_has⟩ :=
    append_of_no_block false (((cStr s).drop start).take (length + 1))
  obtain ⟨whole, whole_eq, whole_has⟩ :=
    append_of_no_block false (cStr ((s.drop start).take length))
  have built : fromRange ((cStr s).map some) start length = some range := by
    have size : toSizeT (length + 1) = length + 1 := by
      rw [toSizeT_of_bounds (by omega) (by unfold Str.npos at sized; omega)]
      rfl
    rw [fromRange, size, CMemory.read_map_some _ (by simp [cStr]; omega)]
    exact range_eq
  have same_iff : SameRange s start length ↔
      ((cStr s).drop start).take (length + 1) = cStr ((s.drop start).take length) := by
    constructor
    · rintro ⟨range', whole', bytes, built', whole_eq', range_has', whole_has'⟩
      obtain rfl := Option.some.inj (built.symm.trans built')
      obtain rfl := Option.some.inj (whole_eq.symm.trans whole_eq')
      rw [range_has.unique range_has', whole_has.unique whole_has']
    · intro same
      exact ⟨range, whole, _, built, whole_eq, range_has, same ▸ whole_has⟩
  have front : ((cStr s).drop start).take length = (s.drop start).take length := by
    rw [cStr, List.drop_append_of_le_length (by omega),
      List.take_append_of_le_length (by rw [List.length_drop]; omega)]
  rw [same_iff, List.take_add_one, front, List.getElem?_drop, cStr, cStr, List.append_right_inj]
  rcases within.eq_or_lt with whole | proper
  · simp [whole]
  · rw [List.getElem?_append_left proper, List.getElem?_eq_getElem proper]
    simp [proper.ne]

/-- A string with a last character. -/
theorem sameRange_whole : SameRange [97, 98] 0 2 :=
  (sameRange_iff (by decide) (by decide)).mpr (.inl rfl)

/-- The first character of a string of two: the range ends with the second. -/
theorem sameRange_fails :
    ¬∀ (s : Str) (start length : Nat), s.length < Str.npos → start + length ≤ s.length →
      SameRange s start length := by
  intro always
  obtain ⟨range, whole, bytes, built, whole_eq, range_has, whole_has⟩ :=
    always [97, 98] 0 1 (by decide) (by decide)
  obtain rfl : ⟨some [some 97, some 98], 2, true⟩ = range := Option.some.inj built
  obtain rfl : ⟨some [some 97, some 0], 2, true⟩ = whole := Option.some.inj whole_eq
  have range_bytes : [97, 98] = bytes := Has.unique ⟨List.prefix_refl _, rfl⟩ range_has
  have whole_bytes : [97, 0] = bytes := Has.unique ⟨List.prefix_refl _, rfl⟩ whole_has
  exact absurd (range_bytes.trans whole_bytes.symm) (by decide)

/-! ## Conversions -/

/-- The array comes out of a factory, and bytes may be added to it. -/
inductive Built : ByteArray → Prop
  | factory {factory : Factory} {array : ByteArray} (built : factory.build = some array) :
      Built array
  | append {array later : ByteArray} {next : List UInt8} (built : Built array)
      (appended : array.append next = some later) : Built later
  | appendString {array later : ByteArray} {str : Str} (built : Built array)
      (appended : array.appendString str = some later) : Built later
  | extract {array later : ByteArray} {available : List UInt8} (built : Built array)
      (extracted : array.extract available = some later) : Built later

/-- Both conversions stay inside of the block, and the string of an array made from `s` is `s`. -/
structure Converts (array : ByteArray) (s : Str) : Prop where
  toStr : array.toStr.isSome
  toStringList : array.toStringList.isSome
  same : (fromData s).bind ByteArray.toStr = some s

/-- The last byte in the block, if there is one, is a terminator. -/
def Terminated (array : ByteArray) : Prop :=
  ∀ cell ∈ (array.data.getD []).getLast?, cell = some 0

theorem append_whole {array later : ByteArray} {next : List UInt8}
    (whole : array = null ∨ ∃ bytes, array.Holds bytes)
    (appended : array.append next = some later) : later = null ∨ ∃ bytes, later.Holds bytes := by
  obtain ⟨bytes, has⟩ : ∃ bytes, array.Has bytes := by
    rcases whole with rfl | ⟨bytes, holds⟩
    · exact ⟨[], has_nil false⟩
    · exact ⟨bytes, holds.has⟩
  rcases has.of_append appended with rfl | later_holds
  · exact whole
  · exact .inr ⟨bytes ++ next, later_holds⟩

/-- An array that was only added to has nothing, or all of its block. -/
theorem Built.whole {array : ByteArray} (built : array.Built) :
    array = null ∨ ∃ bytes, array.Holds bytes := by
  induction built with
  | factory built =>
      obtain ⟨next, appended⟩ := Factory.append_null built
      exact append_whole (.inl rfl) appended
  | append _ appended induction => exact append_whole induction appended
  | appendString _ appended induction => exact append_whole induction appended
  | extract _ extracted induction => exact append_whole induction extracted

/-- The cursor gets to the end precisely if the bytes in front of it are terminated. -/
theorem readStrings_isSome_iff (bytes : List UInt8) (pc : Nat) (list : StringList) :
    (readStrings (bytes.map some) bytes.length pc list).isSome ↔
      ∀ byte ∈ (bytes.drop pc).getLast?, byte = 0 := by
  fun_induction readStrings (bytes.map some) bytes.length pc list with
  | case1 pc list inside induction =>
      by_cases nul : 0 ∈ bytes.drop pc
      · obtain ⟨str, back, rest_eq, no_nul⟩ := List.eq_append_cons_of_mem nul
        have string : CMemory.readString ((bytes.map some).drop pc) = some str := by
          rw [← List.map_drop, rest_eq, List.map_append, List.map_cons,
            CMemory.readString_append no_nul]
        have behind : bytes.drop (pc + (str.length + 1)) = back := by
          rw [← List.drop_drop, rest_eq, ← List.drop_drop, List.drop_left, List.drop_one,
            List.tail_cons]
        rw [string, Option.bind_some, induction, behind, rest_eq, List.getLast?_append,
          List.getLast?_cons]
        cases back.getLast? <;> simp
      · have endless : CMemory.readString ((bytes.map some).drop pc) = none := by
          rw [← List.map_drop, CMemory.readString_map_some, if_neg nul]
        have nonempty : bytes.drop pc ≠ [] := by simpa using inside
        rw [endless, List.getLast?_eq_some_getLast nonempty]
        simp only [Option.bind_none, Option.isSome_none, Bool.false_eq_true, false_iff]
        intro last
        exact nul (last _ rfl ▸ List.getLast_mem nonempty)
  | case2 pc list rest =>
      rw [List.drop_eq_nil_of_le (not_lt.mp rest)]
      simp

theorem Holds.terminated_iff {array : ByteArray} {bytes : List UInt8} (holds : array.Holds bytes) :
    array.Terminated ↔ ∀ byte ∈ bytes.getLast?, byte = 0 := by
  rw [Terminated, holds.data, Option.getD_some, List.getLast?_map]
  cases bytes.getLast? <;> simp

/-- The list of the strings is read precisely if the last one is terminated. -/
theorem Holds.toStringList_isSome_iff {array : ByteArray} {bytes : List UInt8}
    (holds : array.Holds bytes) : array.toStringList.isSome ↔ array.Terminated := by
  rw [holds.terminated_iff, ByteArray.toStringList, holds.data, holds.length, Option.getD_some,
    readStrings_isSome_iff, List.drop_zero]

/-- Of the bytes, only those in front of the first terminator get into the string. -/
theorem Holds.toStr_eq {array : ByteArray} {bytes : List UInt8} (holds : array.Holds bytes)
    (nul : 0 ∈ bytes) : array.toStr = some (bytes.takeWhile (· != 0)) := by
  have nonzero : array.length ≠ 0 := by
    rw [holds.length]
    exact (List.length_pos_of_mem nul).ne'
  have short : (bytes.takeWhile (· != 0)).length ≤ array.length := by
    rw [holds.length]
    exact (List.takeWhile_prefix _).length_le
  rw [ByteArray.toStr, if_pos nonzero, holds.data, Option.getD_some, CMemory.readString_map_some,
    if_pos nul, Option.map_some, List.take_of_length_le short]

/-- A string comes back precisely if there is no NUL in it. -/
theorem fromData_toStr_iff (s : Str) : (fromData s).bind ByteArray.toStr = some s ↔ 0 ∉ s := by
  obtain ⟨array, made, holds⟩ := append_null (show cStr s ≠ [] by simp [cStr])
  rw [fromData, made, Option.bind_some, holds.toStr_eq (by simp [cStr]), Option.some_inj]
  constructor
  · intro same nul
    have kept := List.mem_takeWhile_imp (same.symm ▸ nul : 0 ∈ (cStr s).takeWhile (· != 0))
    exact absurd kept (by decide)
  · intro no_nul
    have kept : ∀ byte ∈ s, (byte != 0) = true := by
      intro byte member
      exact bne_iff_ne.mpr (ne_of_mem_of_not_mem member no_nul)
    rw [cStr, List.takeWhile_append_of_pos kept]
    simp

/-- The conversions are right precisely if the last byte of the array is a terminator and the
string has none. -/
theorem converts_iff {array : ByteArray} (built : array.Built) (s : Str) :
    Converts array s ↔ array.Terminated ∧ 0 ∉ s := by
  have list_iff : array.toStringList.isSome ↔ array.Terminated := by
    rcases built.whole with rfl | ⟨bytes, holds⟩
    · simp [ByteArray.toStringList, Terminated, null, readStrings]
    · exact holds.toStringList_isSome_iff
  constructor
  · intro converts
    exact ⟨list_iff.mp converts.toStringList, (fromData_toStr_iff s).mp converts.same⟩
  · rintro ⟨terminated, no_nul⟩
    refine ⟨?_, list_iff.mpr terminated, (fromData_toStr_iff s).mpr no_nul⟩
    rcases built.whole with rfl | ⟨bytes, holds⟩
    · rfl
    · cases last : bytes.getLast? with
      | none =>
          have nothing : array.length = 0 := by
            rw [holds.length, List.getLast?_eq_none_iff.mp last, List.length_nil]
          rw [ByteArray.toStr, if_neg (not_not.mpr nothing)]
          rfl
      | some byte =>
          have nul := holds.terminated_iff.mp terminated byte last
          rw [holds.toStr_eq (nul ▸ List.mem_of_getLast? last)]
          rfl

/-- A string and its terminator. -/
theorem converts_string : Converts ⟨some [some 97, some 0], 2, true⟩ [98] := by
  have built : Built ⟨some [some 97, some 0], 2, true⟩ := @Built.factory (.string [97]) _ rfl
  exact (converts_iff built [98]).mpr ⟨by simp [Terminated], by decide⟩

/-- A byte of memory, without a terminator behind it. -/
theorem converts_fails : ¬∀ array, Built array → ∀ s, Converts array s := by
  intro always
  have built : Built ⟨some [some 97], 1, true⟩ := @Built.factory (.memory [some 97] 1) _ rfl
  exact absurd (always _ built []).toStr (by decide)

end ByteArray

end Drumlin
