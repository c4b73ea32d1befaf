import Drumlin.ByteArrayConversions

/-!
# Copies of byte arrays

The constructors of `byte_array` from another array assign, and each `operator =` returns the array
by value, that is, it constructs a copy (byte_array.h, byte_array.cpp).
-/

namespace Drumlin

namespace ByteArray

/-- `return *this` in an `operator =` that has left the array so: the array is copied, and not
moved, since it is not a local one.  The copy is destroyed where nothing is done with it. -/
def returnThis (copyConstruct : ByteArray → Option (Option ByteArray)) :
    Option ByteArray → Option (Option ByteArray)
  | none => some none
  | some this => (copyConstruct this).map fun returned => returned.map fun _ => this

mutual

/-- The constructor from an array, with the array constructed.  The fuel is the depth of the calls;
what is undefined is `some none`. -/
def copyConstruct : Nat → ByteArray → Option (Option ByteArray)
  | 0, _ => none
  -- the members that are not initialised are set by `clear`
  | fuel + 1, rhs => assign fuel null rhs

/-- `operator =` of a constant array, with the array assigned to. -/
def assign : Nat → ByteArray → ByteArray → Option (Option ByteArray)
  | 0, _, _ => none
  | fuel + 1, this, rhs =>
      returnThis (copyConstruct fuel)
        ((CMemory.read (rhs.data.getD []) 0 rhs.length).bind this.clear.append)

end

/-- The constructor from an array that is moved; `rhs`, which has a name, is assigned as a constant
array is. -/
def moveConstruct : Nat → ByteArray → Option (Option ByteArray)
  | 0, _ => none
  | fuel + 1, rhs => assign fuel null rhs

/-- `operator =` of a constant array that is moved. -/
def assignMoved : Nat → ByteArray → ByteArray → Option (Option ByteArray)
  | 0, _, _ => none
  | fuel + 1, _, rhs => returnThis (copyConstruct fuel) (some ⟨rhs.data, rhs.length, rhs.destroy⟩)

/-- `operator =` of a pointer to `char`. -/
def assignChars : Nat → ByteArray → CMemory.Block → Option (Option ByteArray)
  | 0, _, _ => none
  | fuel + 1, this, pc =>
      returnThis (copyConstruct fuel) ((CMemory.readString pc).map fun string =>
        ⟨some pc, string.length + 1, this.clear.destroy⟩)

/-- `operator +=`, which is returned by value too. -/
def addAssign : Nat → ByteArray → ByteArray → Option (Option ByteArray)
  | 0, _, _ => none
  | fuel + 1, this, pc =>
      returnThis (copyConstruct fuel)
        ((CMemory.read (pc.data.getD []) 0 pc.length).bind this.append)

/-- An operation that makes one array a copy of another; an array assigned to itself is cleared
before it is read. -/
inductive Copying
  | construct (rhs : ByteArray)
  | move (rhs : ByteArray)
  | assign (this rhs : ByteArray)
  | assignItself (this : ByteArray)
  | assignMoved (this rhs : ByteArray)
  | assignChars (this : ByteArray) (pc : CMemory.Block)

/-- The array that is to be the copy, after as many nested calls as the fuel allows. -/
def Copying.run (fuel : Nat) : Copying → Option (Option ByteArray)
  | construct rhs => copyConstruct fuel rhs
  | move rhs => moveConstruct fuel rhs
  | assign this rhs => ByteArray.assign fuel this rhs
  | assignItself this => ByteArray.assign fuel this this.clear
  | assignMoved this rhs => ByteArray.assignMoved fuel this rhs
  | assignChars this pc => ByteArray.assignChars fuel this pc

/-- The bytes that are to be copied. -/
def Copying.Source (bytes : List UInt8) : Copying → Prop
  | construct rhs | move rhs | assign _ rhs | assignItself rhs | assignMoved _ rhs => rhs.Has bytes
  | assignChars _ pc => ∃ string, CMemory.readString pc = some string ∧ bytes = cStr string

/-- The operation ends, and the copy has the bytes of the source. -/
def Copies (copying : Copying) : Prop :=
  ∃ fuel target bytes, copying.run fuel = some (some target) ∧ copying.Source bytes ∧
    target.Has bytes

/-! ## No copy is ever made -/

/-- The copy that is returned is itself assigned to, and this returns another. -/
theorem construct_and_assign_endless (fuel : Nat) {rhs : ByteArray} {bytes : List UInt8}
    (has : rhs.Has bytes) :
    copyConstruct fuel rhs = none ∧ ∀ this, assign fuel this rhs = none := by
  induction fuel generalizing rhs bytes with
  | zero => exact ⟨rfl, fun _ => rfl⟩
  | succ fuel induction =>
      refine ⟨(induction has).2 null, fun this => ?_⟩
      obtain ⟨later, appended, later_has⟩ := append_of_no_block this.clear.destroy bytes
      have cleared : this.clear = ⟨none, 0, this.clear.destroy⟩ := rfl
      rw [assign, has.read, Option.bind_some, cleared, appended, returnThis,
        (induction later_has).1, Option.map_none]

theorem returnThis_endless {this : ByteArray} {bytes : List UInt8} (has : this.Has bytes)
    (fuel : Nat) : returnThis (copyConstruct fuel) (some this) = none := by
  rw [returnThis, (construct_and_assign_endless fuel has).1, Option.map_none]

/-- Where there is something to be copied, no depth of calls is enough. -/
theorem run_endless {copying : Copying} {bytes : List UInt8} (source : copying.Source bytes)
    (fuel : Nat) : copying.run fuel = none := by
  cases copying with
  | construct rhs => exact (construct_and_assign_endless fuel source).1
  | move rhs =>
      cases fuel with
      | zero => rfl
      | succ fuel => exact (construct_and_assign_endless fuel source).2 null
  | assign this rhs => exact (construct_and_assign_endless fuel source).2 this
  | assignItself this =>
      exact (construct_and_assign_endless fuel (has_nil this.clear.destroy)).2 this
  | assignMoved this rhs =>
      cases fuel with
      | zero => rfl
      | succ fuel =>
          have taken : Has ⟨rhs.data, rhs.length, rhs.destroy⟩ bytes := source
          exact returnThis_endless taken fuel
  | assignChars this pc =>
      obtain ⟨string, read, rfl⟩ := source
      cases fuel with
      | zero => rfl
      | succ fuel =>
          have taken : Has ⟨some pc, string.length + 1, this.clear.destroy⟩ (cStr string) :=
            ⟨CMemory.prefix_of_readString read, by simp [cStr]⟩
          rw [Copying.run, assignChars, read, Option.map_some]
          exact returnThis_endless taken fuel

/-- `operator +=` does not return either. -/
theorem addAssign_ne {this : ByteArray} (sound : this.Sound) (pc : ByteArray) (fuel : Nat)
    (later : ByteArray) : addAssign fuel this pc ≠ some (some later) := by
  cases fuel with
  | zero => simp [addAssign]
  | succ fuel =>
      rw [addAssign]
      cases added : (CMemory.read (pc.data.getD []) 0 pc.length).bind this.append with
      | none => simp [returnThis]
      | some next =>
          obtain ⟨bytes, -, appended⟩ := Option.bind_eq_some_iff.mp added
          obtain ⟨held, has⟩ := (sound.append appended).1
          simp [returnThis_endless has fuel]

/-- Nothing is ever copied. -/
theorem not_copies (copying : Copying) : ¬Copies copying := by
  rintro ⟨fuel, target, bytes, ends, source, -⟩
  rw [run_endless source fuel] at ends
  cases ends

/-- Not even an array without a block. -/
theorem copies_fails : ¬∀ copying, Copies copying := by
  intro always
  obtain ⟨fuel, target, bytes, ends, source, -⟩ := always (.construct null)
  rw [run_endless source fuel] at ends
  cases ends

end ByteArray

end Drumlin
