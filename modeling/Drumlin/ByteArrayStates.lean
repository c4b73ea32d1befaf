import Drumlin.ByteArray
import Drumlin.Library.Cxx

/-!
# States of a byte array

What the operations of `byte_array` (byte_array.h, byte_array.cpp) leave of the block, its length
and who owns it, from the factories on.
-/

namespace Drumlin

open Cxx

namespace ByteArray

/-! ## Factories -/

/-- `byte_array::fromData` of a range behind a pointer to `char`. -/
def fromRange (pc : CMemory.Block) (start length : Nat) : Option ByteArray :=
  (CMemory.read pc start (toSizeT (length + 1))).bind null.append

/-- `byte_array::fromData` of memory. -/
def fromMemory (mem : CMemory.Block) (length : Nat) : Option ByteArray :=
  (CMemory.read mem 0 length).bind null.append

/-- The loop of `byte_array::readAll`: `readsome` into an array of 1024 characters, from what is
available. -/
def readChunks (available ss : List UInt8) : List UInt8 :=
  if 1024 = (available.take 1024).length then
    readChunks (available.drop 1024) (ss ++ available.take 1024)
  else
    ss
termination_by available.length
decreasing_by
  simp only [List.length_take, List.length_drop] at *
  omega

/-- `byte_array::readAll`. -/
def readAll (available : List UInt8) : Option ByteArray := null.append (readChunks available [])

/-! ## Operations -/

/-- `byte_array::clear`. -/
def clear (array : ByteArray) : ByteArray :=
  ⟨none, 0, if array.destroy ∧ array.data.isSome then false else array.destroy⟩

/-- `byte_array::empty`. -/
def empty (array : ByteArray) : Bool := array.data.isNone && array.length == 0

/-- `byte_array::release`. -/
def release (array : ByteArray) : ByteArray := { array with destroy := false }

/-- `byte_array::truncate`. -/
def truncate (array : ByteArray) (len : Int) : Option ByteArray :=
  match array.data with
  | none => some array
  | some block =>
      if len ≤ array.length then
        let appended :=
          if !array.destroy then (CMemory.read block 0 (toSizeT len)).bind array.append
          else some array
        appended.bind fun array =>
          (CMemory.write (array.data.getD []) len 0).map fun block =>
            { array with data := some block, length := len.toNat }
      else
        some array

/-- `operator >>`, of all that is in the buffer of the stream. -/
def extract (array : ByteArray) (available : List UInt8) : Option ByteArray :=
  array.append available

/-- `operator <<`, with what it writes. -/
def insert (array : ByteArray) : Option (List UInt8) :=
  CMemory.read (array.data.getD []) 0 array.length

/-- `byte_array::operator std::string`; the string is constructed up to a terminator. -/
def toStr (array : ByteArray) : Option Str :=
  if array.length ≠ 0 then
    (CMemory.readString (array.data.getD [])).map fun str => str.take array.length
  else
    some []

/-- The constructor from a string, which is not copied. -/
def ofOwner (owner : Str) : ByteArray := ⟨some ((cStr owner).map some), owner.length + 1, false⟩

/-- `byte_array::operator +`.  The left array is constant, and what can be constructed from that is
not a copy: it is converted to a string first. -/
def plus (left right : ByteArray) : Option ByteArray :=
  left.toStr.bind fun owner =>
    -- the string is destroyed, and the cells of its block with it, as soon as `tmp` is there
    let tmp := { ofOwner owner with data := some [] }
    (CMemory.read (right.data.getD []) 0 right.length).bind tmp.append

/-- A factory with its arguments. -/
inductive Factory
  | range (pc : CMemory.Block) (start length : Nat)
  | memory (mem : CMemory.Block) (length : Nat)
  | string (str : Str)
  | readAll (available : List UInt8)

/-- The array that a factory returns. -/
def Factory.build : Factory → Option ByteArray
  | range pc start length => fromRange pc start length
  | memory mem length => fromMemory mem length
  | string str => fromData str
  | readAll available => ByteArray.readAll available

/-- A call of an operation that changes the array. -/
inductive Call
  | append (next : List UInt8)
  | appendString (str : Str)
  | extract (available : List UInt8)
  | truncate (len : Int)
  | release
  | clear

/-- Make a call. -/
def call (array : ByteArray) : Call → Option ByteArray
  | .append next => array.append next
  | .appendString str => array.appendString str
  | .extract available => array.extract available
  | .truncate len => array.truncate len
  | .release => some array.release
  | .clear => some array.clear

/-- The array comes out of a factory and calls. -/
def Reached (array : ByteArray) : Prop :=
  ∃ factory calls start, Factory.build factory = some start ∧
    Runs.exec call start calls = some array

/-! ## What an array has -/

/-- An array that has bytes, and owns a block only where there is one. -/
def Sound (array : ByteArray) : Prop :=
  (∃ bytes, array.Has bytes) ∧ (array.destroy → array.data.isSome)

theorem Holds.sound {array : ByteArray} {bytes : List UInt8} (holds : array.Holds bytes) :
    array.Sound :=
  ⟨⟨bytes, holds.has⟩, fun _ => by rw [holds.data]; rfl⟩

theorem Has.unique {array : ByteArray} {bytes bytes' : List UInt8} (has : array.Has bytes)
    (has' : array.Has bytes') : bytes = bytes' := by
  have lengths : (bytes.map some).length = (bytes'.map (some : UInt8 → Option UInt8)).length := by
    rw [List.length_map, List.length_map, ← has.length, has'.length]
  have same := (List.prefix_of_prefix_length_le has.data has'.data lengths.le).eq_of_length lengths
  exact List.map_injective_iff.mpr (Option.some_injective UInt8) same

theorem Has.read {array : ByteArray} {bytes : List UInt8} (has : array.Has bytes) :
    CMemory.read (array.data.getD []) 0 array.length = some bytes := by
  rw [has.length, CMemory.read_of_prefix has.data]

/-- Nothing is appended to a block of someone else. -/
theorem append_of_borrows {array : ByteArray} (borrows : array.Borrows) {next : List UInt8}
    (nonempty : next ≠ []) : array.append next = none := by
  obtain ⟨block, block_eq⟩ := Option.isSome_iff_exists.mp borrows.1
  rw [append, if_neg (by simpa using nonempty), block_eq, borrows.2]
  rfl

theorem eq_of_borrows {array later : ByteArray} {next : List UInt8} (borrows : array.Borrows)
    (appended : array.append next = some later) : next = [] ∧ later = array := by
  by_cases nonempty : next = []
  · rw [nonempty, append_nil] at appended
    exact ⟨nonempty, (Option.some.inj appended).symm⟩
  · rw [append_of_borrows borrows nonempty] at appended
    cases appended

/-- Where something was appended, the array is now the owner of all. -/
theorem Has.of_append {array later : ByteArray} {old next : List UInt8} (has : array.Has old)
    (appended : array.append next = some later) : later = array ∨ later.Holds (old ++ next) := by
  by_cases nonempty : next = []
  · rw [nonempty, append_nil] at appended
    exact .inl (Option.some.inj appended).symm
  · by_cases borrows : array.Borrows
    · exact .inl (eq_of_borrows borrows appended).2
    · obtain ⟨own, appended', holds⟩ := has.append borrows nonempty
      obtain rfl := Option.some.inj (appended.symm.trans appended')
      exact .inr holds

theorem Has.append_has {array : ByteArray} {old : List UInt8} (has : array.Has old)
    (own : ¬array.Borrows) (next : List UInt8) :
    ∃ later, array.append next = some later ∧ later.Has (old ++ next) := by
  by_cases nonempty : next = []
  · exact ⟨array, by rw [nonempty, append_nil], by rwa [nonempty, List.append_nil]⟩
  · obtain ⟨later, appended, holds⟩ := has.append own nonempty
    exact ⟨later, appended, holds.has⟩

/-- A shorter array has what it had up to its new end, behind which a terminator is written. -/
theorem truncate_cases {array later : ByteArray} {len : Int}
    (truncated : array.truncate len = some later) :
    later = array ∧ (array.data = none ∨ array.length < len) ∨
      ∃ block, array.data = some block ∧ 0 ≤ len ∧ len ≤ array.length ∧ len < block.length ∧
        later =
          { array with data := some (block.set len.toNat (some 0)), length := len.toNat } := by
  obtain ⟨data, length, destroy⟩ := array
  cases data with
  | none => exact .inl ⟨(Option.some.inj truncated).symm, .inl rfl⟩
  | some block =>
      simp only [truncate] at truncated
      split at truncated
      · rename_i short
        obtain ⟨own, owned, truncated⟩ := Option.bind_eq_some_iff.mp truncated
        obtain ⟨terminated, written, truncated⟩ := Option.map_eq_some_iff.mp truncated
        have kept : own = ⟨some block, length, destroy⟩ := by
          cases destroy with
          | true => exact (Option.some.inj owned).symm
          | false =>
              obtain ⟨next, -, appended⟩ := Option.bind_eq_some_iff.mp owned
              exact (eq_of_borrows ⟨rfl, rfl⟩ appended).2
        subst kept
        rw [Option.getD_some, CMemory.write] at written
        split at written
        · rename_i inside
          cases written
          exact .inr ⟨block, rfl, inside.1, short, inside.2, truncated.symm⟩
        · cases written
      · exact .inl ⟨(Option.some.inj truncated).symm, .inr (Int.not_le.mp ‹_›)⟩

theorem Has.truncate {array : ByteArray} {bytes : List UInt8} {block : CMemory.Block} {len : Nat}
    (has : array.Has bytes) (block_eq : array.data = some block) (short : len ≤ array.length) :
    Has { array with data := some (block.set len (some 0)), length := len } (bytes.take len) := by
  have lengths := has.length
  have held := has.data
  rw [block_eq, Option.getD_some] at held
  constructor
  · have front : (bytes.take len).map some = (block.set len (some 0)).take len := by
      obtain ⟨rest, rfl⟩ := held
      rw [List.take_set_of_le le_rfl, List.map_take, List.take_append_of_le_length]
      rw [List.length_map]
      omega
    rw [front]
    exact List.take_prefix _ _
  · simp only [List.length_take]
    omega

theorem Sound.append {array later : ByteArray} {next : List UInt8} (sound : array.Sound)
    (appended : array.append next = some later) : later.Sound := by
  obtain ⟨bytes, has⟩ := sound.1
  rcases has.of_append appended with rfl | holds
  · exact sound
  · exact holds.sound

theorem Sound.call {array later : ByteArray} {call : Call} (sound : array.Sound)
    (called : array.call call = some later) : later.Sound := by
  cases call with
  | append next => exact sound.append called
  | appendString str => exact sound.append called
  | extract available => exact sound.append called
  | truncate len =>
      obtain ⟨⟨bytes, has⟩, owner⟩ := sound
      rcases truncate_cases called with ⟨rfl, -⟩ | ⟨block, block_eq, nonneg, short, -, rfl⟩
      · exact ⟨⟨bytes, has⟩, owner⟩
      · exact ⟨⟨_, has.truncate block_eq (by omega)⟩, fun _ => rfl⟩
  | release =>
      cases called
      exact ⟨⟨_, sound.1.choose_spec.data, sound.1.choose_spec.length⟩, by simp [release]⟩
  | clear =>
      cases called
      refine ⟨⟨[], has_nil array.clear.destroy⟩, fun owner => ?_⟩
      have owned : array.destroy ∧ array.data.isSome := by
        by_contra other
        rw [clear, if_neg other] at owner
        exact other ⟨owner, sound.2 owner⟩
      simp [clear, owned] at owner

theorem sound_null : null.Sound := ⟨⟨[], has_nil false⟩, fun owner => Bool.noConfusion owner⟩

/-- A factory appends to the array that was constructed. -/
theorem Factory.append_null {factory : Factory} {start : ByteArray}
    (built : factory.build = some start) : ∃ next, null.append next = some start := by
  cases factory with
  | range pc start length =>
      obtain ⟨next, -, appended⟩ := Option.bind_eq_some_iff.mp built
      exact ⟨next, appended⟩
  | memory mem length =>
      obtain ⟨next, -, appended⟩ := Option.bind_eq_some_iff.mp built
      exact ⟨next, appended⟩
  | string str => exact ⟨_, built⟩
  | readAll available => exact ⟨_, built⟩

theorem Reached.sound {array : ByteArray} (reached : array.Reached) : array.Sound := by
  obtain ⟨factory, calls, start, built, ran⟩ := reached
  obtain ⟨next, appended⟩ := factory.append_null built
  exact Runs.exec_invariant_of_forall (fun array call later sound called => sound.call called)
    (sound_null.append appended) ran

/-! ## Appending -/

/-- What is appended stands behind the bytes the array had. -/
def Appends (array : ByteArray) (next : List UInt8) : Prop :=
  ∃ old later, array.Has old ∧ array.append next = some later ∧ later.Has (old ++ next)

/-- The sum has the bytes of both arrays. -/
def Adds (left right : ByteArray) : Prop :=
  ∃ old next sum, left.Has old ∧ right.Has next ∧ left.plus right = some sum ∧
    sum.Has (old ++ next)

theorem appends_iff_of_sound {array : ByteArray} (sound : array.Sound) (next : List UInt8) :
    Appends array next ↔ ¬array.Borrows ∨ next = [] := by
  obtain ⟨bytes, has⟩ := sound.1
  constructor
  · rintro ⟨old, later, -, appended, -⟩
    by_contra! wrong
    exact wrong.2 (eq_of_borrows wrong.1 appended).1
  · rintro (own | rfl)
    · obtain ⟨later, appended, later_has⟩ := has.append_has own next
      exact ⟨bytes, later, has, appended, later_has⟩
    · exact ⟨bytes, array, has, rfl, by rwa [List.append_nil]⟩

/-- The temporary of the sum refers to a string that is gone. -/
theorem not_adds (left right : ByteArray) : ¬Adds left right := by
  rintro ⟨old, next, sum, -, -, added, has⟩
  obtain ⟨owner, -, added⟩ := Option.bind_eq_some_iff.mp added
  obtain ⟨bytes, -, added⟩ := Option.bind_eq_some_iff.mp added
  obtain ⟨-, rfl⟩ := eq_of_borrows ⟨rfl, rfl⟩ added
  have none_left : old ++ next = [] := by simpa using has.data
  have counted := has.length
  rw [none_left] at counted
  exact Nat.succ_ne_zero _ counted

/-- Whatever was done to an array before, bytes are appended precisely if there are none, or the
array has no block, or one of its own.  No sum has the bytes of two arrays. -/
theorem appends_and_adds_iff {array : ByteArray} (reached : array.Reached) (next : List UInt8) :
    (Appends array next ↔ ¬array.Borrows ∨ next = []) ∧ ∀ left right, ¬Adds left right :=
  ⟨appends_iff_of_sound reached.sound next, not_adds⟩

/-- A string, and a byte behind its terminator. -/
theorem appends_and_adds_string : Appends ⟨some [some 97, some 0], 2, true⟩ [98] :=
  (appends_and_adds_iff ⟨.string [97], [], _, rfl, rfl⟩ [98]).1.mpr (.inl (by simp [Borrows]))

/-- A string whose block was released. -/
theorem appends_and_adds_fails :
    ¬∀ array, Reached array → ∀ next left right, Appends array next ∧ Adds left right := by
  intro always
  have reached : Reached ⟨some [some 97, some 0], 2, false⟩ :=
    ⟨.string [97], [.release], _, rfl, rfl⟩
  obtain ⟨old, later, -, appended, -⟩ := (always _ reached [98] null null).1
  cases appended

/-! ## Truncating -/

/-- Nothing is written outside of the block, and the bytes in front of the new end are what is
left, if that is an end. -/
def Truncates (array : ByteArray) (bytes : List UInt8) (len : Int) : Prop :=
  ∃ later, array.truncate len = some later ∧
    if 0 ≤ len ∧ len ≤ array.length then later.Has (bytes.take len.toNat) else later = array

theorem truncate_of_own {array : ByteArray} {block : CMemory.Block} {len : Int}
    (block_eq : array.data = some block) (own : array.destroy) (nonneg : 0 ≤ len)
    (short : len ≤ array.length) (inside : len < block.length) :
    array.truncate len =
      some { array with data := some (block.set len.toNat (some 0)), length := len.toNat } := by
  simp [truncate, block_eq, own, short, CMemory.write, nonneg, inside]

/-- An array that has all of its block is truncated precisely if the new end is in front of the old
one, or so far behind that nothing is done.  The terminator is written behind the bytes. -/
theorem truncates_iff {array : ByteArray} {bytes : List UInt8} (holds : array.Holds bytes)
    (len : Int) :
    Truncates array bytes len ↔ 0 ≤ len ∧ len < array.length ∨ array.length < len := by
  have size : (bytes.map (some : UInt8 → Option UInt8)).length = array.length := by
    rw [List.length_map, holds.length]
  constructor
  · rintro ⟨later, truncated, -⟩
    rcases truncate_cases truncated with ⟨-, none | far⟩ | ⟨block, block_eq, nonneg, -, inside, -⟩
    · rw [holds.data] at none
      cases none
    · exact .inr far
    · obtain rfl := Option.some.inj (holds.data.symm.trans block_eq)
      exact .inl ⟨nonneg, size ▸ inside⟩
  · rintro (⟨nonneg, short⟩ | far)
    · refine ⟨_, truncate_of_own holds.data holds.destroy nonneg short.le (size.symm ▸ short), ?_⟩
      rw [if_pos ⟨nonneg, short.le⟩]
      exact holds.has.truncate holds.data (by omega)
    · refine ⟨array, by simp [truncate, holds.data, far], ?_⟩
      rw [if_neg fun within => not_le.mpr far within.2]

/-- The terminator of a string is cut off and written again. -/
theorem truncates_string : Truncates ⟨some [some 97, some 0], 2, true⟩ [97, 0] 1 :=
  (truncates_iff ⟨rfl, rfl, rfl⟩ 1).mpr (.inl (by decide))

/-- Truncated to all of it, a string is terminated behind its block. -/
theorem truncates_fails :
    ¬∀ (array : ByteArray) (bytes : List UInt8) (len : Int), array.Holds bytes →
      Truncates array bytes len := by
  intro always
  obtain ⟨later, truncated, -⟩ :=
    always ⟨some [some 97, some 0], 2, true⟩ [97, 0] 2 ⟨rfl, rfl, rfl⟩
  have outside : truncate ⟨some [some 97, some 0], 2, true⟩ 2 = none := by decide
  rw [outside] at truncated
  cases truncated

end ByteArray

end Drumlin
