import Mathlib

/-!
# Blocks of memory

A block is what `malloc` returns: its cells in order, each with a byte or not set yet.  What is
undefined in C is `none`.
-/

namespace CMemory

/-- The cells of a block. -/
abbrev Block := List (Option UInt8)

/-- `malloc` of that many bytes. -/
def malloc (size : Nat) : Block := List.replicate size none

/-- `realloc`: the cells that fit stay. -/
def realloc (block : Block) (size : Nat) : Block :=
  block.take size ++ malloc (size - block.length)

/-- `memmove` of bytes to an offset in the block, which must have room for them. -/
def memmove (block : Block) (offset : Nat) (bytes : List UInt8) : Option Block :=
  if offset + bytes.length ≤ block.length then
    some (block.take offset ++ bytes.map some ++ block.drop (offset + bytes.length))
  else
    none

/-- The bytes of a part of the block, which must be inside and set. -/
def read (block : Block) (offset size : Nat) : Option (List UInt8) :=
  if offset + size ≤ block.length then ((block.drop offset).take size).mapM id else none

/-- An assignment to the cell at an offset. -/
def write (block : Block) (offset : Int) (byte : UInt8) : Option Block :=
  if 0 ≤ offset ∧ offset < block.length then some (block.set offset.toNat (some byte)) else none

/-- The string that begins the block, up to its terminator. -/
def readString : Block → Option (List UInt8)
  | [] => none
  | none :: _ => none
  | some character :: block =>
      if character = 0 then some [] else (readString block).map (character :: ·)

theorem memmove_malloc (bytes : List UInt8) :
    memmove (malloc bytes.length) 0 bytes = some (bytes.map some) := by
  simp [memmove, malloc]

/-- Making room behind the bytes and filling it appends; what was behind them is lost. -/
theorem memmove_realloc {bytes : List UInt8} {block : Block} (held : bytes.map some <+: block)
    (next : List UInt8) :
    memmove (realloc block (bytes.length + next.length)) bytes.length next =
      some ((bytes ++ next).map some) := by
  obtain ⟨rest, rfl⟩ := held
  have room : (realloc (bytes.map some ++ rest) (bytes.length + next.length)).length =
      bytes.length + next.length := by
    simp only [realloc, malloc, List.length_append, List.length_take, List.length_replicate]
    omega
  have kept : (realloc (bytes.map some ++ rest) (bytes.length + next.length)).take bytes.length =
      bytes.map some := by
    rw [realloc, List.take_append_of_le_length (by simp), List.take_take]
    simp
  rw [memmove, if_pos room.ge, kept, List.drop_eq_nil_of_le room.le]
  simp

theorem mapM_map_some (bytes : List UInt8) : (bytes.map some).mapM id = some bytes := by
  induction bytes with
  | nil => rfl
  | cons byte bytes induction => simp [induction]

/-- Set cells are read. -/
theorem read_map_some (bytes : List UInt8) {offset size : Nat}
    (inside : offset + size ≤ bytes.length) :
    read (bytes.map some) offset size = some ((bytes.drop offset).take size) := by
  rw [read, if_pos (by simpa using inside), ← List.map_drop, ← List.map_take, mapM_map_some]

theorem read_of_prefix {bytes : List UInt8} {block : Block} (held : bytes.map some <+: block) :
    read block 0 bytes.length = some bytes := by
  obtain ⟨rest, rfl⟩ := held
  rw [read, if_pos (by simp), List.drop_zero, List.take_left' (by simp), mapM_map_some]

/-- The string at the beginning of set cells ends before the first NUL. -/
theorem readString_map_some (bytes : List UInt8) :
    readString (bytes.map some) =
      if 0 ∈ bytes then some (bytes.takeWhile (· != 0)) else none := by
  induction bytes with
  | nil => rfl
  | cons byte bytes induction =>
      rw [List.map_cons, readString, induction]
      by_cases nul : byte = 0
      · simp [nul]
      · have other : (0 : UInt8) ≠ byte := Ne.symm nul
        by_cases later : 0 ∈ bytes <;> simp [nul, other, later]

/-- The string that begins terminated bytes ends before their first NUL. -/
theorem readString_terminated (bytes : List UInt8) :
    readString ((bytes ++ [0]).map some) = some (bytes.takeWhile (· != 0)) := by
  induction bytes with
  | nil => rfl
  | cons byte bytes induction =>
      rw [List.cons_append, List.map_cons, readString, induction]
      by_cases nul : byte = 0 <;> simp [nul]

/-- What was read is there, and its terminator. -/
theorem prefix_of_readString {block : Block} {string : List UInt8}
    (read : readString block = some string) : (string ++ [0]).map some <+: block := by
  fun_induction readString block generalizing string with
  | case1 => cases read
  | case2 => cases read
  | case3 block =>
      cases read
      exact (List.prefix_append [some 0] block)
  | case4 character block _ induction =>
      obtain ⟨rest, rest_read, rfl⟩ := Option.map_eq_some_iff.mp read
      exact List.cons_prefix_cons.mpr ⟨rfl, induction rest_read⟩

/-- A terminated string without NUL is read back. -/
theorem readString_append {string : List UInt8} (no_nul : 0 ∉ string) (back : Block) :
    readString (string.map some ++ some 0 :: back) = some string := by
  induction string with
  | nil => rfl
  | cons character string induction =>
      have character_ne : character ≠ 0 := (List.ne_of_not_mem_cons no_nul).symm
      rw [List.map_cons, List.cons_append, readString, if_neg character_ne,
        induction (List.not_mem_of_not_mem_cons no_nul), Option.map_some]

end CMemory
