import Mathlib
import Drumlin.Library.Runs
import Drumlin.Library.Numbering
import Drumlin.StringList

/-!
# The tracer

`Tracer` (cursor.h, cursor.cpp) collects backtraces.  `roll` names each function once; for every
block of lines `chain` gets the positions in `roll` of the functions of its frames.
-/

namespace Drumlin

/-- The character that ends a line. -/
def newline : UInt8 := 10

/-- `Tracer`; of the two arrays the names and the stacks. -/
structure Tracer where
  roll : List Str
  chain : List (List Nat)
deriving DecidableEq, Repr

namespace Tracer

/-- The constructor. -/
def initial : Tracer := ⟨[], []⟩

/-! ## The pattern of a frame

The expression `^0x[0-9a-f]+: \((.*)\+0x[0-9a-f]+\)$` is compared with `icase`. -/

/-- The lower case of a character, by which `icase` compares. -/
def lower (character : UInt8) : UInt8 :=
  if 65 ≤ character ∧ character ≤ 90 then character + 32 else character

/-- `[0-9a-f]`. -/
def isHexDigit (character : UInt8) : Bool :=
  (48 ≤ lower character && lower character ≤ 57) ||
    (97 ≤ lower character && lower character ≤ 102)

/-- `[0-9a-f]+` at the beginning, as far as it goes. -/
def dropHex (line : Str) : Option Str :=
  if line.head?.any isHexDigit then some (line.dropWhile isHexDigit) else none

/-- The characters of `text` at the beginning. -/
def dropText : Str → Str → Option Str
  | [], line => some line
  | _ :: _, [] => none
  | expected :: text, character :: line =>
      if lower character = expected then dropText text line else none

/-- The capture in a line that matches.  What is before it is read from the beginning of the line,
what is behind it from the end. -/
def frameName (line : Str) : Option Str :=
  (dropText [48, 120] line).bind fun address =>
    (dropHex address).bind fun opening =>
      (dropText [58, 32, 40] opening).bind fun inner =>
        (dropText [41] inner.reverse).bind fun offset =>
          (dropHex offset).bind fun closing =>
            (dropText [120, 48, 43] closing).map List.reverse

/-- The expression part by part, with `name` for the capture. -/
def IsFrame (line name : Str) : Prop :=
  ∃ front address opening closing offset last : Str,
    line = front ++ (address ++ (opening ++ (name ++ (closing ++ (offset ++ last))))) ∧
      front.map lower = [48, 120] ∧
      (address ≠ [] ∧ ∀ digit ∈ address, isHexDigit digit) ∧
      opening.map lower = [58, 32, 40] ∧
      closing.map lower = [43, 48, 120] ∧
      (offset ≠ [] ∧ ∀ digit ∈ offset, isHexDigit digit) ∧
      last.map lower = [41]

theorem dropText_eq_some_iff {text line rest : Str} :
    dropText text line = some rest ↔ ∃ front, line = front ++ rest ∧ front.map lower = text := by
  induction text generalizing line with
  | nil => simp [dropText, eq_comm]
  | cons expected text induction =>
      cases line with
      | nil => simp [dropText]
      | cons character line =>
          rw [dropText, Option.ite_none_right_eq_some, induction]
          constructor
          · rintro ⟨same, front, rfl, spelled⟩
            exact ⟨character :: front, rfl, by rw [List.map_cons, same, spelled]⟩
          · rintro ⟨front, whole, spelled⟩
            obtain ⟨first, front, rfl, same, later⟩ := List.map_eq_cons_iff.mp spelled
            obtain ⟨rfl, rfl⟩ := List.cons.inj whole
            exact ⟨same, front, rfl, later⟩

theorem dropHex_eq_some {line rest : Str} (dropped : dropHex line = some rest) :
    ∃ digits, line = digits ++ rest ∧ digits ≠ [] ∧ ∀ digit ∈ digits, isHexDigit digit := by
  rw [dropHex, Option.ite_none_right_eq_some, Option.some_inj] at dropped
  obtain ⟨starts, rfl⟩ := dropped
  refine ⟨line.takeWhile isHexDigit, List.takeWhile_append_dropWhile.symm, ?_, ?_⟩
  · cases line with
    | nil => simp at starts
    | cons digit line =>
        have digit_hex : isHexDigit digit := by simpa using starts
        simp [digit_hex]
  · exact fun digit member => List.mem_takeWhile_imp member

/-- Digits are read up to a text that begins with something else. -/
theorem dropHex_append {digits : Str}
    (digits_hex : digits ≠ [] ∧ ∀ digit ∈ digits, isHexDigit digit)
    {front : Str} {stop : UInt8} {text : Str} (spelled : front.map lower = stop :: text)
    (stops : ¬isHexDigit stop) (fixed : lower stop = stop) (rest : Str) :
    dropHex (digits ++ (front ++ rest)) = some (front ++ rest) := by
  obtain ⟨first, front, rfl, same, -⟩ := List.map_eq_cons_iff.mp spelled
  obtain ⟨digit, digits, rfl⟩ := List.exists_cons_of_ne_nil digits_hex.1
  have starts : isHexDigit digit := digits_hex.2 digit List.mem_cons_self
  have first_stops : ¬isHexDigit first := by rwa [isHexDigit, same, ← fixed, ← isHexDigit]
  rw [dropHex, if_pos (by simpa using starts), List.dropWhile_append_of_pos digits_hex.2,
    List.cons_append, List.dropWhile_cons_of_neg first_stops]

/-- `frameName` is the capture of the expression. -/
theorem frameName_eq_some_iff {line name : Str} :
    frameName line = some name ↔ IsFrame line name := by
  constructor
  · intro matched
    simp only [frameName, Option.bind_eq_some_iff, Option.map_eq_some_iff] at matched
    obtain ⟨_, front_eq, _, address_eq, inner, opening_eq, _, last_eq, _, offset_eq, _, closing_eq,
      rfl⟩ := matched
    obtain ⟨front, rfl, front_text⟩ := dropText_eq_some_iff.mp front_eq
    obtain ⟨address, rfl, address_hex⟩ := dropHex_eq_some address_eq
    obtain ⟨opening, rfl, opening_text⟩ := dropText_eq_some_iff.mp opening_eq
    obtain ⟨last, reversed, last_text⟩ := dropText_eq_some_iff.mp last_eq
    obtain ⟨offset, rfl, offset_hex⟩ := dropHex_eq_some offset_eq
    obtain ⟨closing, rfl, closing_text⟩ := dropText_eq_some_iff.mp closing_eq
    refine ⟨front, address, opening, closing.reverse, offset.reverse, last.reverse, ?_, front_text,
      address_hex, opening_text, ?_, ?_, ?_⟩
    · rw [← List.reverse_reverse inner, reversed]
      simp
    · rw [List.map_reverse, closing_text]
      rfl
    · simpa using offset_hex
    · rw [List.map_reverse, last_text]
      rfl
  · rintro ⟨front, address, opening, closing, offset, last, rfl, front_text, address_hex,
      opening_text, closing_text, offset_hex, last_text⟩
    have inner_reverse : (name ++ (closing ++ (offset ++ last))).reverse =
        last.reverse ++ (offset.reverse ++ (closing.reverse ++ name.reverse)) := by simp
    have closing_reverse : closing.reverse.map lower = [120, 48, 43] := by
      rw [List.map_reverse, closing_text]
      rfl
    have last_reverse : last.reverse.map lower = [41] := by
      rw [List.map_reverse, last_text]
      rfl
    rw [frameName, dropText_eq_some_iff.mpr ⟨front, rfl, front_text⟩, Option.bind_some,
      dropHex_append address_hex opening_text (by decide) (by decide), Option.bind_some,
      dropText_eq_some_iff.mpr ⟨opening, rfl, opening_text⟩, Option.bind_some, inner_reverse,
      dropText_eq_some_iff.mpr ⟨last.reverse, rfl, last_reverse⟩, Option.bind_some,
      dropHex_append (by simpa using offset_hex) closing_reverse (by decide) (by decide),
      Option.bind_some, dropText_eq_some_iff.mpr ⟨closing.reverse, rfl, closing_reverse⟩,
      Option.map_some, List.reverse_reverse]

/-- `0x1A: (f+g+0X0)`: the name reaches to the last plus sign. -/
example :
    frameName [48, 120, 49, 65, 58, 32, 40, 102, 43, 103, 43, 48, 88, 48, 41] =
      some [102, 43, 103] := by decide

/-! ## Adding blocks -/

/-- One line in the loop of `addBlock`, with `roll` and `stack`.  `_roll` is the copy in which the
name is searched. -/
def addLine (progress : List Str × List Nat) (line : Str) : List Str × List Nat :=
  match frameName line with
  | none => progress
  | some name =>
      let _roll := progress.1
      let it := _roll.findIdx fun rollcall => name == rollcall
      if it ≠ _roll.length then
        (progress.1, progress.2 ++ [it])
      else
        (progress.1 ++ [name], progress.2 ++ [_roll.length])

/-- The loop of `addBlock` over `lines`.  There is no `front` of an empty list. -/
def addLines : List Str × List Nat → List Str → Option (List Str × List Nat)
  | _, [] => none
  | progress, line :: lines =>
      if line ≠ [] then addLines (addLine progress line) lines else some progress

/-- `Tracer::addBlock`. -/
def addBlock (tracer : Tracer) (block : Str) : Option Tracer :=
  let lines := Split.split (· == newline) .on block
  (addLines (tracer.roll, []) lines).map fun progress =>
    { roll := progress.1, chain := tracer.chain ++ [progress.2] }

/-! ## What the stacks stand for -/

/-- The names of the frames of a block.  Empty lines between others are skipped; a block that begins
with one counts as empty. -/
def blockNames (block : Str) : List Str :=
  if block.head? = some newline then [] else (block.splitOn newline).filterMap frameName

/-- The names of the frames in front of the first empty line of a block. -/
def namesBeforeGap (block : Str) : List Str :=
  ((block.splitOn newline).takeWhile fun line => !line.isEmpty).filterMap frameName

/-- The tracer stands for the blocks, of which `names` gives the names of the frames. -/
structure Encodes (names : Str → List Str) (tracer : Tracer) (blocks : List Str) : Prop where
  nodup : tracer.roll.Nodup
  bounded : ∀ stack ∈ tracer.chain, ∀ index ∈ stack, index < tracer.roll.length
  decoded : tracer.chain.map (Numbering.decode tracer.roll) =
    blocks.map fun block => (names block).map some

/-- The invariant of the loop of `addBlock`: `roll` has grown and the stack stands for the names
met. -/
structure Progress (before : List Str) (names : List Str) (progress : List Str × List Nat) :
    Prop where
  grows : before <+: progress.1
  nodup : progress.1.Nodup
  decoded : Numbering.decode progress.1 progress.2 = names.map some

/-- A name found in `roll` is numbered by its place, another one is added. -/
theorem addLine_eq (progress : List Str × List Nat) (line : Str) :
    addLine progress line =
      match frameName line with
      | none => progress
      | some name =>
          ((Numbering.number progress.1 name).1,
            progress.2 ++ [(Numbering.number progress.1 name).2]) := by
  rw [addLine]
  cases frameName line with
  | none => rfl
  | some name =>
      have place : (progress.1.findIdx fun rollcall => name == rollcall) =
          progress.1.idxOf name := by
        rw [List.idxOf]
        congr 1
        funext rollcall
        exact Bool.beq_comm
      by_cases present : name ∈ progress.1
      · have found : progress.1.idxOf name ≠ progress.1.length :=
          (List.idxOf_lt_length_of_mem present).ne
        have numbered : Numbering.number progress.1 name =
            (progress.1, progress.1.idxOf name) := if_pos present
        simp [place, found, numbered]
      · have numbered : Numbering.number progress.1 name =
            (progress.1 ++ [name], progress.1.length) := if_neg present
        simp [place, numbered, List.idxOf_eq_length present]

/-- What holds of `roll` and the stack whatever `roll` was before. -/
structure Reads (before : List Str) (names : List Str) (progress : List Str × List Nat) :
    Prop where
  grows : before <+: progress.1
  decoded : Numbering.decode progress.1 progress.2 = names.map some

theorem Reads.line {before names : List Str} {progress : List Str × List Nat}
    (so_far : Reads before names progress) (line : Str) :
    Reads before (names ++ (frameName line).toList) (addLine progress line) := by
  rw [addLine_eq]
  cases frameName line with
  | none => simpa using so_far
  | some name =>
      exact {
        grows := so_far.grows.trans (Numbering.number_grows progress.1 name)
        decoded := Numbering.decode_number so_far.decoded name }

theorem Reads.lines {before names : List Str} {progress : List Str × List Nat}
    (so_far : Reads before names progress) (lines : List Str) :
    Reads before (names ++ lines.filterMap frameName) (lines.foldl addLine progress) := by
  induction lines generalizing names progress with
  | nil => simpa using so_far
  | cons line lines induction =>
      have reached := induction (so_far.line line)
      rw [List.foldl_cons]
      cases named : frameName line <;> simpa [named] using reached

theorem addLine_nodup {progress : List Str × List Nat} (nodup : progress.1.Nodup) (line : Str) :
    (addLine progress line).1.Nodup := by
  rw [addLine_eq]
  cases frameName line with
  | none => exact nodup
  | some name => exact Numbering.number_nodup nodup name

theorem foldl_addLine_nodup {progress : List Str × List Nat} (nodup : progress.1.Nodup)
    (lines : List Str) : (lines.foldl addLine progress).1.Nodup := by
  induction lines generalizing progress with
  | nil => exact nodup
  | cons line lines induction => exact induction (addLine_nodup nodup line)

/-- The loop goes through the lines in front of an empty one. -/
theorem addLines_eq {lines : List Str} (nonempty : ∀ line ∈ lines, line ≠ [])
    (progress : List Str × List Nat) (rest : List Str) :
    addLines progress (lines ++ [] :: rest) = some (lines.foldl addLine progress) := by
  induction lines generalizing progress with
  | nil => simp [addLines]
  | cons line lines induction =>
      obtain ⟨line_ne, lines_ne⟩ := List.forall_mem_cons.mp nonempty
      rw [List.cons_append, addLines, if_pos line_ne, induction lines_ne, List.foldl_cons]

/-- The tokens of a block that ends in a newline: the loop stops at the first one if the block
begins with an empty line, else at the last. -/
theorem split_block {block : Str} (ends : block.getLast? = some newline) :
    ∃ lines rest, Split.split (· == newline) .on block = lines ++ [] :: rest ∧
      (∀ line ∈ lines, line ≠ []) ∧ lines.filterMap frameName = blockNames block := by
  have nonempty : block ≠ [] := by
    rintro rfl
    simp at ends
  have tokens : Split.split (· == newline) .on block =
      (if block.head? = some newline then [[]] else []) ++
        ((block.splitOn newline).filter fun line => !line.isEmpty) ++ [[]] := by
    rw [Split.split_on_eq nonempty, ends]
    cases block.head? <;> simp [List.splitOn]
  rw [tokens, blockNames]
  by_cases leads : block.head? = some newline
  · rw [if_pos leads, if_pos leads]
    exact ⟨[], _, by rw [List.append_assoc, List.singleton_append, List.nil_append], by simp, rfl⟩
  · rw [if_neg leads, if_neg leads, List.nil_append]
    refine ⟨_, [], rfl, by simp, ?_⟩
    rw [List.filterMap_filter]
    apply List.filterMap_congr
    intro line _
    cases line <;> simp [frameName, dropText]

theorem reads_nil (before : List Str) : Reads before [] (before, []) := ⟨List.prefix_refl _, rfl⟩

/-- The stack that a block adds stands for its names, whatever `roll` was. -/
theorem addBlock_reads (tracer : Tracer) {block : Str} (ends : block.getLast? = some newline) :
    ∃ roll stack, addBlock tracer block = some ⟨roll, tracer.chain ++ [stack]⟩ ∧
      Reads tracer.roll (blockNames block) (roll, stack) ∧ (tracer.roll.Nodup → roll.Nodup) := by
  obtain ⟨lines, rest, tokens, lines_ne, names⟩ := split_block ends
  have reached := (reads_nil tracer.roll).lines lines
  rw [List.nil_append, names] at reached
  refine ⟨_, _, ?_, reached, fun nodup => foldl_addLine_nodup nodup lines⟩
  rw [addBlock, tokens, addLines_eq lines_ne, Option.map_some]

/-- One block adds a stack that stands for its names. -/
theorem addBlock_progress {tracer : Tracer} (nodup : tracer.roll.Nodup) {block : Str}
    (ends : block.getLast? = some newline) :
    ∃ roll stack, addBlock tracer block = some ⟨roll, tracer.chain ++ [stack]⟩ ∧
      Progress tracer.roll (blockNames block) (roll, stack) := by
  obtain ⟨roll, stack, result, reads, distinct⟩ := addBlock_reads tracer ends
  exact ⟨roll, stack, result, reads.grows, distinct nodup, reads.decoded⟩

/-- Adding a block keeps what the earlier stacks stand for. -/
theorem Encodes.add_block {tracer : Tracer} {blocks : List Str}
    (encodes : Encodes blockNames tracer blocks) {block : Str}
    (ends : block.getLast? = some newline) :
    ∃ next, addBlock tracer block = some next ∧ tracer.roll <+: next.roll ∧
      tracer.chain <+: next.chain ∧ Encodes blockNames next (blocks ++ [block]) := by
  obtain ⟨roll, stack, result, reached⟩ := addBlock_progress encodes.nodup ends
  refine ⟨_, result, reached.grows, List.prefix_append _ _, reached.nodup, ?_, ?_⟩
  · intro codes member index index_in
    rcases List.mem_append.mp member with earlier | new
    · exact (encodes.bounded codes earlier index index_in).trans_le reached.grows.length_le
    · rw [List.mem_singleton] at new
      subst new
      exact Numbering.decode_lt reached.decoded index_in
  · have earlier : tracer.chain.map (Numbering.decode roll) =
        tracer.chain.map (Numbering.decode tracer.roll) := by
      apply List.map_congr_left
      intro codes member
      have decoding : Numbering.decode tracer.roll codes ∈
          tracer.chain.map (Numbering.decode tracer.roll) := List.mem_map_of_mem member
      rw [encodes.decoded] at decoding
      obtain ⟨older, -, decoded⟩ := List.mem_map.mp decoding
      rw [← decoded]
      exact Numbering.decode_of_prefix reached.grows decoded.symm
    rw [List.map_append, List.map_append, earlier, encodes.decoded, List.map_singleton,
      List.map_singleton, reached.decoded]

/-- Every run. -/
theorem Encodes.run {tracer : Tracer} {earlier : List Str}
    (encodes : Encodes blockNames tracer earlier) {blocks : List Str}
    (ends : ∀ block ∈ blocks, block.getLast? = some newline) :
    ∃ final, Runs.exec addBlock tracer blocks = some final ∧ tracer.roll <+: final.roll ∧
      tracer.chain <+: final.chain ∧ Encodes blockNames final (earlier ++ blocks) := by
  induction blocks generalizing tracer earlier with
  | nil => exact ⟨tracer, rfl, List.prefix_refl _, List.prefix_refl _, by simpa using encodes⟩
  | cons block blocks induction =>
      obtain ⟨block_ends, blocks_end⟩ := List.forall_mem_cons.mp ends
      obtain ⟨next, result, roll_grows, chain_grows, next_encodes⟩ := encodes.add_block block_ends
      obtain ⟨final, later, roll_later, chain_later, final_encodes⟩ :=
        induction next_encodes blocks_end
      refine ⟨final, Runs.exec_cons_eq_some.mpr ⟨next, result, later⟩,
        roll_grows.trans roll_later, chain_grows.trans chain_later, ?_⟩
      rwa [List.append_assoc] at final_encodes

/-- In every sequence of blocks that end in a newline, after each call `roll` has no duplicates and
the stacks stand for the names of the blocks so far; what is in `roll` and `chain` stays there. -/
theorem addBlock_encodes (earlier later : List Str)
    (ends : ∀ block ∈ earlier ++ later, block.getLast? = some newline) :
    ∃ middle final, Runs.exec addBlock initial earlier = some middle ∧
      Runs.exec addBlock middle later = some final ∧ middle.roll <+: final.roll ∧
      middle.chain <+: final.chain ∧ Encodes blockNames middle earlier ∧
      Encodes blockNames final (earlier ++ later) := by
  have start : Encodes blockNames initial [] := ⟨List.nodup_nil, by simp [initial], rfl⟩
  obtain ⟨middle, first, -, -, middle_encodes⟩ :=
    start.run fun block member => ends block (List.mem_append_left later member)
  obtain ⟨final, second, roll_grows, chain_grows, final_encodes⟩ :=
    middle_encodes.run fun block member => ends block (List.mem_append_right earlier member)
  exact ⟨middle, final, first, second, roll_grows, chain_grows, middle_encodes, final_encodes⟩

/-- `0x1: (a+0x1)` and `0x2: (b+0x2)` with an empty line between them. -/
def gapped : Str :=
  [48, 120, 49, 58, 32, 40, 97, 43, 48, 120, 49, 41, 10, 10,
    48, 120, 50, 58, 32, 40, 98, 43, 48, 120, 50, 41, 10]

/-- Two names; the block comes again, and then one that is empty. -/
theorem addBlock_encodes_gapped :
    blockNames gapped = [[97], [98]] ∧
      ∃ middle final, Runs.exec addBlock initial [gapped] = some middle ∧
        Runs.exec addBlock middle [gapped, [newline]] = some final ∧ middle.roll <+: final.roll ∧
        middle.chain <+: final.chain ∧ Encodes blockNames middle [gapped] ∧
        Encodes blockNames final [gapped, gapped, [newline]] :=
  ⟨by decide, addBlock_encodes [gapped] [gapped, [newline]] (by decide)⟩

/-- The names behind an empty line are not left out. -/
theorem addBlock_reads_behind_gap :
    ¬∀ blocks : List Str, (∀ block ∈ blocks, block.getLast? = some newline) →
      ∃ tracer, Runs.exec addBlock initial blocks = some tracer ∧
        Encodes namesBeforeGap tracer blocks := by
  intro stops
  obtain ⟨tracer, result, encodes⟩ := stops [gapped] (by decide)
  have run : Runs.exec addBlock initial [gapped] = some ⟨[[97], [98]], [[0, 1]]⟩ := by decide
  rw [run, Option.some_inj] at result
  subst result
  exact absurd encodes.decoded (by decide)

/-! ## Blocks of any text -/

/-- The loop only ends at an empty line. -/
theorem addLines_isSome_iff (progress : List Str × List Nat) (lines : List Str) :
    (addLines progress lines).isSome ↔ [] ∈ lines := by
  induction lines generalizing progress with
  | nil => simp [addLines]
  | cons line lines induction =>
      rw [addLines]
      by_cases empty : line = []
      · simp [empty]
      · rw [if_pos empty, induction, List.mem_cons, or_iff_right (Ne.symm empty)]

/-- The loop never takes the front of an empty list, and a stack is added, precisely if the block is
empty or a newline stands at its beginning or its end. -/
theorem addBlock_appends_iff (tracer : Tracer) (block : Str) :
    (∃ next stack, addBlock tracer block = some next ∧ next.chain = tracer.chain ++ [stack]) ↔
      block = [] ∨ block.head? = some newline ∨ block.getLast? = some newline := by
  have lines : [] ∈ Split.split (· == newline) .on block ↔
      block = [] ∨ block.head? = some newline ∨ block.getLast? = some newline := by
    rw [Split.nil_mem_split_on_iff]
    cases block.head? <;> cases block.getLast? <;> simp
  rw [← lines, ← addLines_isSome_iff (tracer.roll, []), Option.isSome_iff_exists]
  constructor
  · rintro ⟨next, stack, added, -⟩
    obtain ⟨progress, read, -⟩ := Option.map_eq_some_iff.mp added
    exact ⟨progress, read⟩
  · rintro ⟨progress, read⟩
    exact ⟨⟨progress.1, tracer.chain ++ [progress.2]⟩, progress.2, by rw [addBlock, read]; rfl, rfl⟩

/-- One line that no newline ends. -/
theorem addBlock_appends_fails :
    ¬∀ (tracer : Tracer) (block : Str),
      ∃ next stack, addBlock tracer block = some next ∧ next.chain = tracer.chain ++ [stack] := by
  intro always
  obtain ⟨next, stack, added, -⟩ := always initial [97]
  have undefined : addBlock initial [97] = none := by decide
  rw [undefined] at added
  cases added

end Tracer

end Drumlin
