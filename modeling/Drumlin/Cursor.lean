import Drumlin.Library.NumberText
import Drumlin.ByteArray
import Drumlin.Tracer

/-!
# Backtraces

`Cursor::backtrace` (cursor.cpp) writes a line for each frame of the stack and has the tracer read
them.  What libunwind and the demangler tell of a frame is a parameter.
-/

namespace Drumlin

/-- A C string, without its terminator. -/
abbrev CString := {string : Str // 0 ∉ string}

namespace Cursor

/-- A frame that `unw_step` has come to, with the name and the offset of `unw_get_proc_name` unless
that fails. -/
structure Frame where
  pc : Nat
  procName : Option (CString × Nat)
deriving DecidableEq

/-- The name that is written for a symbol.  `demangle` is `__cxa_demangle`, with a result where its
status is 0. -/
def nameptr (demangle : CString → Option CString) (sym : CString) : CString :=
  (demangle sym).getD sym

/-- The message ` -- error: unable to obtain symbol name for this frame`. -/
def noSymbolName : Str :=
  [32, 45, 45, 32, 101, 114, 114, 111, 114, 58, 32, 117, 110, 97, 98, 108, 101, 32, 116, 111,
    32, 111, 98, 116, 97, 105, 110, 32, 115, 121, 109, 98, 111, 108, 32, 110, 97, 109, 101, 32,
    102, 111, 114, 32, 116, 104, 105, 115, 32, 102, 114, 97, 109, 101]

/-- The body of the loop of `backtrace`. -/
def writeFrame (demangle : CString → Option CString) (frame : Frame) : Str :=
  [48, 120] ++ NumberText.hex frame.pc ++ [58] ++
    match frame.procName with
    | some (sym, offset) =>
        [32, 40] ++ (nameptr demangle sym).1 ++ [43] ++ [48, 120] ++ NumberText.hex offset ++
          [41] ++ [newline]
    | none => noSymbolName ++ [newline]

/-- The loop of `backtrace`, of so many turns at most.  It ends at a frame without an address. -/
def writeFrames (demangle : CString → Option CString) : Nat → List Frame → Str → Str
  | 0, _, cout => cout
  | _ + 1, [], cout => cout
  | n + 1, frame :: frames, cout =>
      if frame.pc = 0 then cout
      else writeFrames demangle n frames (cout ++ writeFrame demangle frame)

/-- `Cursor::backtrace`, with the frames above its own and the global `tracer`, if there is one.
The tracer gets a C string. -/
def backtrace (demangle : CString → Option CString) (tracer : Option Tracer) (frames : List Frame)
    (n : Int) : Option (Option Tracer) :=
  match tracer with
  | none => some none
  | some tracer =>
      let cout := writeFrames demangle n.toNat frames [] ++ [newline]
      (CMemory.readString ((ByteArray.cStr cout).map some)).bind fun block =>
        (tracer.addBlock block).map some

/-! ## One frame -/

/-- The name of a frame that has one. -/
def Frame.name (demangle : CString → Option CString) (frame : Frame) : Option Str :=
  frame.procName.map fun proc => (nameptr demangle proc.1).1

/-- What is written for a frame, without the newline. -/
def frameLine (demangle : CString → Option CString) (frame : Frame) : Str :=
  [48, 120] ++ (NumberText.hex frame.pc ++ ([58] ++
    match frame.procName with
    | some (sym, offset) =>
        [32, 40] ++ ((nameptr demangle sym).1 ++ ([43, 48, 120] ++ (NumberText.hex offset ++ [41])))
    | none => noSymbolName))

variable {demangle : CString → Option CString}

theorem writeFrame_eq (frame : Frame) :
    writeFrame demangle frame = frameLine demangle frame ++ [newline] := by
  rw [writeFrame, frameLine]
  cases frame.procName <;> simp

/-- Hexadecimal is what the expression of a frame takes for it. -/
theorem hex_isHexDigit (number : Nat) :
    NumberText.hex number ≠ [] ∧
      ∀ digit ∈ NumberText.hex number, Tracer.isHexDigit digit := by
  refine ⟨NumberText.hex_ne_nil number, fun digit member => ?_⟩
  have range := NumberText.mem_hex member
  have same : Tracer.lower digit = digit := by
    refine if_neg fun upper => ?_
    simp only [UInt8.le_iff_toNat_le] at range upper
    have bounds : (48 ≤ digit.toNat ∧ digit.toNat ≤ 57) ∨ (97 ≤ digit.toNat ∧ digit.toNat ≤ 102) :=
      range
    have capital : 65 ≤ digit.toNat ∧ digit.toNat ≤ 90 := upper
    omega
  rw [Tracer.isHexDigit, same]
  simpa using range

/-- The expression finds the name of a frame in its line, and nothing if it has none. -/
theorem frameName_frameLine (frame : Frame) :
    Tracer.frameName (frameLine demangle frame) = frame.name demangle := by
  obtain ⟨pc, procName⟩ := frame
  cases procName with
  | none =>
      have colon : List.map Tracer.lower [58] = [58] := rfl
      have beginning : Tracer.dropText [48, 120] ([48, 120] ++
          (NumberText.hex pc ++ ([58] ++ noSymbolName))) = _ :=
        Tracer.dropText_eq_some_iff.mpr ⟨[48, 120], rfl, rfl⟩
      rw [frameLine, Tracer.frameName, beginning, Option.bind_some,
        Tracer.dropHex_append (hex_isHexDigit pc) colon (by decide) (by decide), Option.bind_some]
      rfl
  | some proc =>
      obtain ⟨sym, offset⟩ := proc
      refine Tracer.frameName_eq_some_iff.mpr ⟨[48, 120], NumberText.hex pc, [58, 32, 40],
        [43, 48, 120], NumberText.hex offset, [41], ?_, rfl, hex_isHexDigit pc, rfl, rfl,
        hex_isHexDigit offset, rfl⟩
      simp [frameLine]

theorem notMem_hex {byte : UInt8} (control : byte < 32) (number : Nat) :
    byte ∉ NumberText.hex number := by
  intro member
  rw [UInt8.lt_iff_toNat_lt] at control
  rcases NumberText.mem_hex member with ⟨digit, -⟩ | ⟨letter, -⟩
  · exact absurd (digit.trans_lt control) (by decide)
  · exact absurd (letter.trans_lt control) (by decide)

/-- A control character in a line is one of the name. -/
theorem notMem_frameLine {byte : UInt8} (control : byte < 32) {frame : Frame}
    (clean : ∀ name ∈ frame.name demangle, byte ∉ name) : byte ∉ frameLine demangle frame := by
  have fixed {text : Str} (printable : text.all (32 ≤ ·)) : byte ∉ text := fun member =>
    UInt8.not_lt.mpr (of_decide_eq_true (List.all_eq_true.mp printable byte member)) control
  obtain ⟨pc, procName⟩ := frame
  cases procName with
  | none =>
      simp only [frameLine, List.mem_append, not_or]
      exact ⟨fixed (by decide), notMem_hex control pc, fixed (by decide), fixed (by decide)⟩
  | some proc =>
      obtain ⟨sym, offset⟩ := proc
      simp only [frameLine, List.mem_append, not_or]
      exact ⟨fixed (by decide), notMem_hex control pc, fixed (by decide), fixed (by decide),
        clean _ rfl, fixed (by decide), notMem_hex control offset, fixed (by decide)⟩

/-- No name has a NUL. -/
theorem Frame.name_terminated (frame : Frame) : ∀ name ∈ frame.name demangle, 0 ∉ name := by
  intro name named
  obtain ⟨proc, -, rfl⟩ := Option.map_eq_some_iff.mp named
  exact (nameptr demangle proc.1).2

/-! ## All frames -/

/-- The frames that the loop comes to. -/
def visited (n : Nat) (frames : List Frame) : List Frame :=
  (frames.take n).takeWhile fun frame => frame.pc != 0

theorem writeFrames_eq (n : Nat) (frames : List Frame) (cout : Str) :
    writeFrames demangle n frames cout =
      cout ++ ((visited n frames).map (frameLine demangle)).flatMap fun line =>
        line ++ [newline] := by
  fun_induction writeFrames demangle n frames cout with
  | case1 => simp [visited]
  | case2 => simp [visited]
  | case3 n frame frames cout last => simp [visited, last]
  | case4 n frame frames cout more induction =>
      rw [induction, writeFrame_eq]
      simp [visited, more]

theorem frameLine_ne_nil (frame : Frame) : frameLine demangle frame ≠ [] := by simp [frameLine]

/-- The names in a block of lines. -/
theorem blockNames_lines {lines : List Str} (nonempty : ∀ line ∈ lines, line ≠ [])
    (clean : ∀ line ∈ lines, newline ∉ line) :
    Tracer.blockNames ((lines.flatMap fun line => line ++ [newline]) ++ [newline]) =
      lines.filterMap Tracer.frameName := by
  have nothing : ([newline].splitOn newline).filterMap Tracer.frameName = [] := by decide
  rw [Tracer.blockNames]
  split
  · rename_i leads
    cases lines with
    | nil => rfl
    | cons line lines =>
        obtain ⟨first, line, rfl⟩ :=
          List.exists_cons_of_ne_nil (nonempty _ List.mem_cons_self)
        obtain rfl : first = newline := by simpa using leads
        exact absurd List.mem_cons_self (clean _ List.mem_cons_self)
  · rw [Split.splitOn_terminated clean, List.filterMap_append, nothing, List.append_nil]

/-- Whatever the tracer has and whatever else is in the names, as long as no newline is, the stack
that is added stands for the names of the frames that have one, in their order. -/
theorem backtrace_reads (demangle : CString → Option CString) (tracer : Tracer)
    (frames : List Frame) (n : Int)
    (clean : ∀ frame ∈ visited n.toNat frames, ∀ name ∈ frame.name demangle, newline ∉ name) :
    ∃ next stack, backtrace demangle (some tracer) frames n = some (some next) ∧
      tracer.roll <+: next.roll ∧ next.chain = tracer.chain ++ [stack] ∧
      Numbering.decode next.roll stack =
        ((visited n.toNat frames).filterMap (Frame.name demangle)).map some := by
  let lines := (visited n.toNat frames).map (frameLine demangle)
  let block := (lines.flatMap fun line => line ++ [newline]) ++ [newline]
  have nonempty : ∀ line ∈ lines, line ≠ [] :=
    List.forall_mem_map.mpr fun frame _ => frameLine_ne_nil frame
  have lines_clean : ∀ line ∈ lines, newline ∉ line :=
    List.forall_mem_map.mpr fun frame member => notMem_frameLine (by decide) (clean frame member)
  have lines_terminated : ∀ line ∈ lines, 0 ∉ line :=
    List.forall_mem_map.mpr fun frame _ => notMem_frameLine (by decide) frame.name_terminated
  have no_nul : 0 ∉ block := by
    have within : ∀ line ∈ lines, 0 ∉ line ++ [newline] := by
      intro line member
      simpa [newline] using lines_terminated line member
    simpa [block, List.mem_flatMap, newline] using within
  have names : Tracer.blockNames block =
      (visited n.toNat frames).filterMap (Frame.name demangle) := by
    rw [blockNames_lines nonempty lines_clean, List.filterMap_map]
    exact List.filterMap_congr fun frame _ => frameName_frameLine frame
  obtain ⟨roll, stack, added, reads, -⟩ :=
    tracer.addBlock_reads (List.getLast?_concat : block.getLast? = some newline)
  refine ⟨⟨roll, tracer.chain ++ [stack]⟩, stack, ?_, reads.grows, rfl, names ▸ reads.decoded⟩
  have read : CMemory.readString ((ByteArray.cStr block).map some) = some block := by
    rw [ByteArray.cStr, List.map_append]
    exact CMemory.readString_append no_nul []
  rw [backtrace, writeFrames_eq, List.nil_append, read, Option.bind_some, added, Option.map_some]

/-- `f (g)`, no name, `+0x1)`, and `f (g)` again, in a tracer that has `f (g)` already. -/
theorem backtrace_reads_four :
    ∃ next stack, backtrace (fun _ => none) (some ⟨[[102, 32, 40, 103, 41]], [[0]]⟩)
        [⟨1, some (⟨[102, 32, 40, 103, 41], by decide⟩, 2)⟩, ⟨2, none⟩,
          ⟨31, some (⟨[43, 48, 120, 49, 41], by decide⟩, 16)⟩,
          ⟨4, some (⟨[102, 32, 40, 103, 41], by decide⟩, 0)⟩] 100 = some (some next) ∧
      [[102, 32, 40, 103, 41]] <+: next.roll ∧ next.chain = [[0]] ++ [stack] ∧
      Numbering.decode next.roll stack =
        [some [102, 32, 40, 103, 41], some [43, 48, 120, 49, 41], some [102, 32, 40, 103, 41]] :=
  backtrace_reads (fun _ => none) ⟨[[102, 32, 40, 103, 41]], [[0]]⟩
    [⟨1, some (⟨[102, 32, 40, 103, 41], by decide⟩, 2)⟩, ⟨2, none⟩,
      ⟨31, some (⟨[43, 48, 120, 49, 41], by decide⟩, 16)⟩,
      ⟨4, some (⟨[102, 32, 40, 103, 41], by decide⟩, 0)⟩] 100 (by decide)

end Cursor

end Drumlin
