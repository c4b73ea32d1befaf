import Drumlin.StringList
import Drumlin.Library.Replace

/-!
# Splitting at a string

With `all`, `string_list::fromString` (string_list.cpp) writes `"¬"` for the delimiter wherever it
occurs and splits at the two bytes of `"¬"`.
-/

namespace Drumlin

namespace StringList

/-! ## The delimiter as a whole -/

/-- The bytes of a string, each with its place. -/
def placed (s : Str) : List (UInt8 × Option Nat) :=
  s.zipIdx.map fun byte => (byte.1, some byte.2)

/-- `"¬"`, whose bytes have no place in the string. -/
def placedSign : List (UInt8 × Option Nat) := Str.notSign.map fun byte => (byte, none)

/-- `string_list::fromString` with `all`, for bytes that keep their places. -/
def fromStringPlaced (fuel : Nat) (toSplit delim : Str) (flags : Split.TokenCompress) :
    Option (List (List (UInt8 × Option Nat))) :=
  (Replace.loop Prod.fst delim placedSign fuel (placed toSplit)).map
    (Split.split (fun byte => Str.notSign.contains byte.1) flags)

/-- What `fromString` with `all` is to return: the text split at each maximal run of occurrences of
the delimiter, counted from left to right without overlap, and the bytes of the tokens are those of
the text at the same places. -/
def SplitsAtRuns (toSplit delim : Str) : Prop :=
  ∃ fuel,
    fromString fuel toSplit delim true .on =
      some (Replace.tokens .on (Replace.mark id delim 0 toSplit)) ∧
    fromStringPlaced fuel toSplit delim .on =
      some (Replace.tokens .on (Replace.mark Prod.fst delim 0 (placed toSplit)))

theorem findString_eq_find (delim s : Str) : Str.findString delim s = Replace.find id delim s := by
  simp only [Str.findString, Replace.find, List.map_id]

theorem replaceEach_eq_loop (delim : Str) (fuel : Nat) (s : Str) :
    replaceEach delim fuel s = Replace.loop id delim Str.notSign fuel s := by
  induction fuel generalizing s with
  | zero => rfl
  | succ fuel induction =>
      rw [replaceEach, Replace.loop, findString_eq_find]
      cases Replace.find id delim s with
      | none => rfl
      | some pos => exact induction _

theorem fromString_all (fuel : Nat) (toSplit delim : Str) (flags : Split.TokenCompress) :
    fromString fuel toSplit delim true flags =
      (Replace.loop id delim Str.notSign fuel toSplit).map
        (Split.split (fun byte => Str.notSign.contains byte) flags) := by
  rw [← replaceEach_eq_loop]
  rfl

@[simp]
theorem map_placed (s : Str) : (placed s).map Prod.fst = s := by
  rw [placed, List.map_map]
  exact List.zipIdx_map_fst 0 s

@[simp]
theorem map_placedSign : placedSign.map Prod.fst = Str.notSign := by
  rw [placedSign, List.map_map]
  exact List.map_id _

theorem placedSign_isRun :
    Replace.IsRun (fun byte : UInt8 × Option Nat => Str.notSign.contains byte.1) .on placedSign :=
  ⟨by decide, by decide, by simp⟩

theorem nodup_placed (s : Str) : (placed s).Nodup := by
  refine .of_map Prod.snd ?_
  have places : (placed s).map Prod.snd = (List.range' 0 s.length).map some := by
    rw [placed, List.map_map, ← List.zipIdx_map_snd, List.map_map]
    rfl
  rw [places]
  exact (List.nodup_range' _).map (Option.some_injective _)

/-- The places make no difference to the bytes. -/
theorem map_fromStringPlaced (fuel : Nat) (toSplit delim : Str) (flags : Split.TokenCompress) :
    (fromStringPlaced fuel toSplit delim flags).map (List.map (List.map Prod.fst)) =
      fromString fuel toSplit delim true flags := by
  have loops : Replace.loop id delim Str.notSign fuel toSplit =
      (Replace.loop Prod.fst delim placedSign fuel (placed toSplit)).map (List.map Prod.fst) := by
    rw [← map_placedSign, ← map_placed toSplit, Replace.loop_map, map_placed]
    rfl
  have splits (text : List (UInt8 × Option Nat)) :
      (Split.split (fun byte => Str.notSign.contains byte.1) flags text).map (List.map Prod.fst) =
        Split.split (fun byte => Str.notSign.contains byte) flags (text.map Prod.fst) := by
    rw [Split.split_map]
    rfl
  rw [fromString_all, loops, fromStringPlaced, Option.map_map, Option.map_map]
  exact Option.map_congr fun text _ => splits text

theorem mark_placed (toSplit delim : Str) :
    Replace.mark id delim 0 toSplit =
      (Replace.mark Prod.fst delim 0 (placed toSplit)).map (Option.map Prod.fst) := by
  conv_lhs => rw [← map_placed toSplit]
  exact Replace.mark_map Prod.fst 0 (placed toSplit)

theorem splitsAtRuns_iff_placed (toSplit delim : Str) :
    SplitsAtRuns toSplit delim ↔ ∃ fuel, fromStringPlaced fuel toSplit delim .on =
      some (Replace.tokens .on (Replace.mark Prod.fst delim 0 (placed toSplit))) := by
  refine ⟨fun ⟨fuel, _, tokens⟩ => ⟨fuel, tokens⟩, fun ⟨fuel, tokens⟩ => ⟨fuel, ?_, tokens⟩⟩
  rw [← map_fromStringPlaced, tokens, mark_placed, Replace.tokens_map]
  rfl

theorem ne_nil_of_foreign {delim : Str} (foreign : ¬delim <:+: Str.notSign) : delim ≠ [] := by
  rintro rfl
  exact foreign List.nil_infix

/-- The loop ends if the delimiter does not occur in `"¬"`. -/
theorem loop_ends_of_foreign {delim : Str} (foreign : ¬delim <:+: Str.notSign)
    (text : List (UInt8 × Option Nat)) :
    ∃ fuel final, Replace.loop Prod.fst delim placedSign fuel text = some final := by
  have nonempty := ne_nil_of_foreign foreign
  by_cases short : delim.length < placedSign.length
  · obtain ⟨byte, rfl⟩ : ∃ byte, delim = [byte] := by
      have positive := List.length_pos_of_ne_nil nonempty
      exact List.length_eq_one_iff.mp (Nat.le_antisymm (Nat.le_of_lt_succ short) positive)
    have apart : ∀ sign ∈ placedSign.map Prod.fst, sign ∉ [byte] := by
      intro sign member same
      rw [map_placedSign] at member
      exact foreign ((List.singleton_infix_iff _ _).mpr (List.mem_singleton.mp same ▸ member))
    obtain ⟨fuel, run⟩ := Replace.loop_of_undisturbed nonempty []
      (Replace.undisturbed_of_disjoint nonempty placedSign_isRun.1 apart text)
    exact ⟨fuel, _, run⟩
  · rcases Nat.eq_or_lt_of_le (Nat.le_of_not_lt short) with same | shorter
    · have different : placedSign.map Prod.fst ≠ delim := by
        rintro rfl
        rw [map_placedSign] at foreign
        exact foreign List.infix_rfl
      exact Replace.loop_ends_of_ne nonempty (by decide : 1 < 256) UInt8.toNat_lt
        (fun _ _ => UInt8.toNat_inj.mp) same different text
    · exact Replace.loop_ends_of_longer shorter text

theorem undisturbed_placed (toSplit delim : Str) :
    Replace.Undisturbed id delim Str.notSign (Replace.mark id delim 0 toSplit) ↔
      Replace.Undisturbed Prod.fst delim placedSign
        (Replace.mark Prod.fst delim 0 (placed toSplit)) := by
  rw [mark_placed, ← map_placedSign]
  exact Replace.undisturbed_map Prod.fst _ _

/-- `fromString` returns if the delimiter does not occur in `"¬"`. -/
theorem fromString_ends {delim : Str} (foreign : ¬delim <:+: Str.notSign) (toSplit : Str)
    (all : Bool) (flags : Split.TokenCompress) :
    ∃ fuel list, fromString fuel toSplit delim all flags = some list := by
  cases all with
  | false => exact ⟨0, _, rfl⟩
  | true =>
      obtain ⟨fuel, final, run⟩ := loop_ends_of_foreign foreign (placed toSplit)
      exact ⟨fuel, _, by rw [← map_fromStringPlaced, fromStringPlaced, run]; rfl⟩

/-- `fromString` returns. -/
def Ends (toSplit delim : Str) (all : Bool) (flags : Split.TokenCompress) : Prop :=
  ∃ fuel list, fromString fuel toSplit delim all flags = some list

/-- The loop comes to an end precisely if the delimiter does not occur, or not in `"¬"`: the other
delimiters, and the empty one is of them, are made up again by what is written for them. -/
theorem ends_iff (toSplit delim : Str) (flags : Split.TokenCompress) :
    Ends toSplit delim true flags ↔ ¬delim <:+: Str.notSign ∨ ¬delim <:+: toSplit := by
  constructor
  · rintro ⟨fuel, list, returned⟩
    rw [← not_and_or]
    rintro ⟨contained, occurs⟩
    rw [← List.map_id Str.notSign] at contained
    rw [← List.map_id toSplit] at occurs
    rw [fromString_all, Replace.loop_endless contained fuel occurs] at returned
    cases returned
  · rintro (foreign | absent)
    · exact fromString_ends foreign toSplit true flags
    · have nonempty : delim ≠ [] := by
        rintro rfl
        exact absent List.nil_infix
      rw [← List.map_id toSplit] at absent
      exact ⟨1, _, by rw [fromString_all, Replace.loop_of_none nonempty absent]; rfl⟩

/-- An empty delimiter is found everywhere. -/
theorem ends_fails :
    ¬∀ (toSplit delim : Str) (flags : Split.TokenCompress), Ends toSplit delim true flags := by
  intro always
  obtain ⟨fuel, list, returned⟩ := always [97] [] .on
  rw [fromString_all, Replace.loop_endless List.nil_infix fuel List.nil_infix] at returned
  cases returned

section Placed

variable {toSplit delim : Str}

/-- A delimiter of bytes of `"¬"` is replaced by bytes that separate as it does. -/
theorem fromStringPlaced_of_signs (foreign : ¬delim <:+: Str.notSign)
    (signs : ∀ byte ∈ delim, byte ∈ Str.notSign)
    (clean : ∀ byte, some byte ∈ Replace.mark Prod.fst delim 0 (placed toSplit) →
      Str.notSign.contains byte.1 = false) :
    ∃ fuel, fromStringPlaced fuel toSplit delim .on =
      some (Replace.tokens .on (Replace.mark Prod.fst delim 0 (placed toSplit))) := by
  have nonempty := ne_nil_of_foreign foreign
  have separates : ∀ byte : UInt8 × Option Nat, byte.1 ∈ delim →
      Str.notSign.contains byte.1 := by
    intro byte member
    simpa using signs byte.1 member
  obtain ⟨fuel, final, run⟩ := loop_ends_of_foreign foreign (placed toSplit)
  refine ⟨fuel, ?_⟩
  rw [fromStringPlaced, run, Option.map_some, Replace.split_loop nonempty placedSign_isRun.1
    placedSign_isRun.2.1 separates run]
  refine congrArg some (Replace.Spells.split ?_ clean)
  refine (Replace.spells_mark nonempty (placed toSplit)).mono fun hit hit_eq => ?_
  refine ⟨?_, fun byte member => ?_, by simp⟩
  · rintro rfl
    exact nonempty hit_eq.symm
  · exact separates byte (hit_eq ▸ List.mem_map_of_mem member)

/-- Undisturbed, `"¬"` stands where the delimiter stood. -/
theorem fromStringPlaced_of_undisturbed (nonempty : delim ≠ [])
    (undisturbed : Replace.Undisturbed Prod.fst delim placedSign
      (Replace.mark Prod.fst delim 0 (placed toSplit)))
    (clean : ∀ byte, some byte ∈ Replace.mark Prod.fst delim 0 (placed toSplit) →
      Str.notSign.contains byte.1 = false) :
    ∃ fuel, fromStringPlaced fuel toSplit delim .on =
      some (Replace.tokens .on (Replace.mark Prod.fst delim 0 (placed toSplit))) := by
  obtain ⟨fuel, run⟩ := Replace.loop_of_undisturbed nonempty [] undisturbed
  have run' : Replace.loop Prod.fst delim placedSign fuel (placed toSplit) = _ := run
  refine ⟨fuel, ?_⟩
  rw [fromStringPlaced, run', Option.map_some]
  exact congrArg some (Replace.split_expand placedSign_isRun clean)

end Placed

/-- The text is split at the runs of occurrences of the delimiter precisely if no other byte is one
of `"¬"`, and either all bytes of the delimiter are bytes of `"¬"` or no occurrence arises that
overlaps a `"¬"` already written. -/
theorem splitsAtRuns_iff {toSplit delim : Str} (foreign : ¬delim <:+: Str.notSign) :
    SplitsAtRuns toSplit delim ↔
      (∀ byte, some byte ∈ Replace.mark id delim 0 toSplit → byte ∉ Str.notSign) ∧
        ((∀ byte ∈ delim, byte ∈ Str.notSign) ∨
          Replace.Undisturbed id delim Str.notSign (Replace.mark id delim 0 toSplit)) := by
  have nonempty := ne_nil_of_foreign foreign
  have clean : (∀ byte, some byte ∈ Replace.mark id delim 0 toSplit → byte ∉ Str.notSign) ↔
      ∀ byte, some byte ∈ Replace.mark Prod.fst delim 0 (placed toSplit) →
        Str.notSign.contains byte.1 = false := by
    rw [mark_placed]
    simp
  rw [splitsAtRuns_iff_placed, undisturbed_placed, clean]
  constructor
  · rintro ⟨fuel, tokens⟩
    obtain ⟨final, run, tokens⟩ := Option.map_eq_some_iff.mp tokens
    have kept (byte : UInt8 × Option Nat)
        (member : some byte ∈ Replace.mark Prod.fst delim 0 (placed toSplit)) :=
      Replace.mem_of_split_eq tokens member
    refine ⟨fun byte member => (kept byte member).2, ?_⟩
    by_cases signs : ∀ byte ∈ delim, byte ∈ Str.notSign
    · exact .inl signs
    · obtain ⟨byte, member, ordinary⟩ : ∃ byte ∈ delim, byte ∉ Str.notSign := by
        simpa using signs
      refine .inr (Replace.undisturbed_of_loop nonempty member (by rwa [map_placedSign]) []
        (by simp) ?_ run fun byte member => (kept byte member).1)
      exact (nodup_placed toSplit).filter _
  · rintro ⟨clean, signs | undisturbed⟩
    · exact fromStringPlaced_of_signs foreign signs clean
    · exact fromStringPlaced_of_undisturbed nonempty undisturbed clean

theorem comma_foreign : ¬[44] <:+: Str.notSign :=
  (List.singleton_infix_iff _ _).not.mpr (by decide)

/-- Two commas in a row. -/
theorem splitsAtRuns_commas : SplitsAtRuns [97, 44, 44, 98] [44] :=
  (splitsAtRuns_iff comma_foreign).mpr
    ⟨by simp [Replace.mark, Str.notSign],
      .inr (Replace.undisturbed_of_disjoint (by simp) (by simp [Str.notSign])
        (by simp [Str.notSign]) _)⟩

/-- A pound sign, `0xc2 0xa3`, is cut where there is no comma. -/
theorem splitsAtRuns_fails :
    ¬∀ toSplit delim : Str, ¬delim <:+: Str.notSign → SplitsAtRuns toSplit delim := by
  intro splits
  obtain ⟨fuel, tokens, -⟩ := splits [0xc2, 0xa3] [44] comma_foreign
  cases fuel with
  | zero => cases tokens
  | succ fuel =>
      have cut : fromString (fuel + 1) [0xc2, 0xa3] [44] true .on = some [[], [0xa3]] := rfl
      rw [cut] at tokens
      exact absurd tokens (by decide)

/-! ## The delimiter as a set of characters -/

/-- The two ways of `fromString` to split at a character return the same list. -/
def PathsAgree (toSplit : Str) (c : UInt8) (flags : Split.TokenCompress) : Prop :=
  ∃ fuel list, fromChar fuel toSplit c true flags = some list ∧
    fromChar fuel toSplit c false flags = some list

theorem notSign_ge : ∀ byte ∈ Str.notSign, ¬byte < 128 := by
  simp [Str.notSign]

/-- Each occurrence of a character by itself. -/
theorem mark_char (c : UInt8) (s : Str) :
    Replace.mark id [c] 0 s = s.map fun byte => if byte = c then none else some byte := by
  induction s with
  | nil => rfl
  | cons byte s induction =>
      rw [List.map_cons, ← induction]
      by_cases same : byte = c
      · simp [Replace.mark, same]
      · simp [Replace.mark, same, Ne.symm same]

theorem some_mem_mark_char {c byte : UInt8} {s : Str}
    (member : some byte ∈ Replace.mark id [c] 0 s) : byte ∈ s ∧ byte ≠ c := by
  rw [mark_char] at member
  obtain ⟨other, member, equal⟩ := List.mem_map.mp member
  split at equal
  · cases equal
  · cases equal
    exact ⟨member, ‹_›⟩

theorem split_char (c : UInt8) (flags : Split.TokenCompress) (s : Str) :
    Split.split (· == c) flags s = Replace.tokens flags (Replace.mark id [c] 0 s) := by
  refine Replace.Spells.split ?_ fun byte member => ?_
  · refine (Replace.spells_mark (by simp) s).mono fun hit hit_eq => ?_
    rw [List.map_id] at hit_eq
    subst hit_eq
    exact ⟨by simp, by simp, fun _ => rfl⟩
  · simpa using (some_mem_mark_char member).2

theorem fromChar_all {c : UInt8} (nonzero : c ≠ 0) (fuel : Nat) (toSplit : Str)
    (flags : Split.TokenCompress) :
    fromChar fuel toSplit c true flags =
      (Replace.loop id [c] Str.notSign fuel toSplit).map
        (Split.split (fun byte => Str.notSign.contains byte) flags) := by
  rw [fromChar, fromString_all, Str.ofChar, if_neg nonzero]

/-- Each of the two bytes of `"¬"` separates. -/
theorem countP_expand {word : List (Option UInt8)}
    (clean : ∀ byte, some byte ∈ word → Str.notSign.contains byte = false) :
    (Replace.expand Str.notSign word).countP (fun byte => Str.notSign.contains byte) =
      2 * word.countP Option.isNone := by
  induction word with
  | nil => rfl
  | cons symbol word induction =>
      have later := induction fun byte member => clean byte (List.mem_cons_of_mem _ member)
      cases symbol with
      | none =>
          have both : Str.notSign.countP (fun byte => Str.notSign.contains byte) = 2 := by decide
          rw [Replace.expand_none, List.countP_append, later, both,
            List.countP_cons_of_pos (by rfl), Nat.mul_succ, Nat.add_comm]
      | some byte =>
          have ordinary := clean byte List.mem_cons_self
          rw [List.countP_cons_of_neg (by simp), ← later]
          exact List.countP_cons_of_neg (Bool.not_eq_true _ ▸ ordinary)

section Ascii

variable {toSplit : Str} {c : UInt8}

theorem clean_of_ascii (ascii : ∀ byte ∈ toSplit, byte < 128) :
    ∀ byte, some byte ∈ Replace.mark id [c] 0 toSplit → Str.notSign.contains byte = false := by
  intro byte member
  rw [← Bool.not_eq_true, List.contains_iff_mem]
  exact fun inside => notSign_ge byte inside (ascii byte (some_mem_mark_char member).1)

theorem loop_char (small : c < 128) (toSplit : Str) :
    ∃ fuel, Replace.loop id [c] Str.notSign fuel toSplit =
      some (Replace.expand Str.notSign (Replace.mark id [c] 0 toSplit)) := by
  have apart : ∀ byte ∈ Str.notSign.map id, byte ∉ [c] := by
    intro byte inside same
    rw [List.map_id] at inside
    exact notSign_ge byte inside (List.mem_singleton.mp same ▸ small)
  exact Replace.loop_of_undisturbed (by simp) []
    (Replace.undisturbed_of_disjoint (by simp) (by decide) apart toSplit)

/-- To split at the bytes of `"¬"` is to split at the character, unless there is an empty token
between the two bytes. -/
theorem split_expand_char_iff (ascii : ∀ byte ∈ toSplit, byte < 128)
    (flags : Split.TokenCompress) :
    Split.split (fun byte => Str.notSign.contains byte) flags
        (Replace.expand Str.notSign (Replace.mark id [c] 0 toSplit)) =
      Split.split (· == c) flags toSplit ↔ flags = .on ∨ c ∉ toSplit := by
  have clean := clean_of_ascii (c := c) ascii
  rw [split_char]
  constructor
  · intro same
    cases flags with
    | on => exact .inl rfl
    | off =>
        right
        intro member
        have lengths := congrArg List.length same
        rw [Replace.tokens, List.length_map, Split.length_split_off, Split.length_split_off,
          countP_expand clean] at lengths
        have separates : 0 < (Replace.mark id [c] 0 toSplit).countP Option.isNone := by
          rw [List.countP_pos_iff, mark_char]
          exact ⟨none, List.mem_map.mpr ⟨c, member, if_pos rfl⟩, rfl⟩
        omega
  · rintro (rfl | absent)
    · exact Replace.split_expand ⟨by decide, by simp, by simp⟩ clean
    · have unmarked : Replace.mark id [c] 0 toSplit = toSplit.map some := by
        rw [mark_char]
        refine List.map_congr_left fun byte member => if_neg ?_
        rintro rfl
        exact absent member
      rw [← split_char, unmarked, Replace.expand_map_some, Split.split_of_clean,
        Split.split_of_clean]
      · intro byte member
        rw [beq_eq_false_iff_ne]
        rintro rfl
        exact absent member
      · exact fun byte member => clean byte (unmarked ▸ List.mem_map_of_mem member)

end Ascii

/-- The two ways agree precisely if delimiters in a row count as one or there are none. -/
theorem pathsAgree_iff {toSplit : Str} {c : UInt8} (ascii : ∀ byte ∈ toSplit, byte < 128)
    (nonzero : c ≠ 0) (small : c < 128) (flags : Split.TokenCompress) :
    PathsAgree toSplit c flags ↔ flags = .on ∨ c ∉ toSplit := by
  obtain ⟨fuel, run⟩ := loop_char small toSplit
  rw [← split_expand_char_iff ascii flags]
  constructor
  · rintro ⟨fuel', list, all, any⟩
    rw [fromChar_all nonzero] at all
    obtain ⟨final, run', rfl⟩ := Option.map_eq_some_iff.mp all
    obtain rfl := Replace.loop_unique run' run
    rw [fromChar_eq nonzero] at any
    exact (Option.some.inj any).symm
  · intro agree
    refine ⟨fuel, _, ?_, fromChar_eq nonzero fuel toSplit flags⟩
    rw [fromChar_all nonzero, run, Option.map_some, agree]

/-- A comma between two letters. -/
theorem pathsAgree_comma : PathsAgree [97, 44, 98] 44 .on :=
  (pathsAgree_iff (by simp) (by decide) (by decide) .on).mpr (.inl rfl)

/-- Without compression there is an empty token inside `"¬"`. -/
theorem pathsAgree_fails :
    ¬∀ (toSplit : Str) (c : UInt8) (flags : Split.TokenCompress),
      (∀ byte ∈ toSplit, byte < 128) → c ≠ 0 → c < 128 → PathsAgree toSplit c flags := by
  intro agree
  obtain ⟨fuel, list, all, any⟩ := agree [97, 44, 98] 44 .off (by simp) (by decide) (by decide)
  match fuel with
  | 0 | 1 => cases all
  | fuel + 2 =>
      have cut : fromChar (fuel + 2) [97, 44, 98] 44 true .off = some [[97], [], [98]] := rfl
      have plain : fromChar (fuel + 2) [97, 44, 98] 44 false .off = some [[97], [98]] := rfl
      rw [cut, ← any, plain] at all
      exact absurd all (by decide)

end StringList

end Drumlin
