import Drumlin.ByteArray
import Drumlin.Regexen

/-!
# Replacing what is captured

`iterate_impl::replace` writes the haystack from left to right, with the text of each group where
the group begins (regexen.h).
-/

namespace Drumlin

open Cxx Splice

namespace IterateImpl

/-- `replace` after a match of which Boost reports `cap`, and calls of `substitute`. -/
def replaced (haystack : Str) (cap : List Replacement) (calls : List (Nat × Str)) : Option Str :=
  ((construct haystack).record cap).bind fun (impl, _) =>
    (Runs.exec substitute impl calls).bind replace

/-- The text that a group was given last. -/
def lastText (calls : List (Nat × Str)) (n : Nat) : Option Str := calls.reverse.lookup n

/-- The groups, which are numbered from 1, with the texts they were given. -/
def edits (groups : List Replacement) (calls : List (Nat × Str)) :
    List (Replacement × Option Str) :=
  (groups.zipIdx 1).map fun (group, n) => (group, lastText calls n)

/-- The haystack with these texts in the places of groups. -/
def edited (haystack : Str) (edits : List (Replacement × Option Str)) : Str :=
  spliceAll haystack (edits.map fun edit => (edit.1.span, edit.2))

/-! ## The loop -/

variable {haystack : Str}

/-- What the loop writes from `pos` up to a group: the rest of the haystack if it has passed the
beginning of the group. -/
def between (haystack : Str) (group : Replacement) (pos : Nat) : Str :=
  if pos ≤ group.span.start then (haystack.drop pos).take (group.span.start - pos)
  else haystack.drop pos

/-- What `replace` returns from a turn of the loop on. -/
def replaceFrom (haystack : Str) (captures : List (Replacement × Str)) (pos : Nat) (ss : Str) :
    Option Str :=
  (replaceEach haystack captures pos ss).bind fun (pos, ss) => replaceRest haystack pos ss

/-- Whatever `pos` was, after a group it is at its end: the difference that may have wrapped around
is added to `pos` again. -/
theorem pos_after (sized : haystack.length < Str.npos) {group : Replacement}
    (inside : group.Inside haystack) (pos : Nat) :
    toSizeT ((toSizeT (pos + toSizeT (group.position - pos)) : Int) + group.length) =
      group.span.stop := by
  obtain ⟨position_nonneg, length_nonneg, stop_le⟩ := inside
  rw [Str.npos] at sized
  calc toSizeT ((toSizeT (pos + toSizeT (group.position - pos)) : Int) + group.length)
      = toSizeT ((toSizeT (group.position - pos) : Int) + (pos + group.length)) := by
        rw [toSizeT_add]
        congr 1
        ring
    _ = toSizeT (group.position + group.length) := by
        rw [toSizeT_add]
        congr 1
        ring
    _ = (group.position + group.length).toNat := toSizeT_of_bounds (by omega) (by omega)
    _ = group.span.stop := Int.toNat_add position_nonneg length_nonneg

theorem substr_between (sized : haystack.length < Str.npos) {group : Replacement}
    (inside : group.Inside haystack) {pos : Nat} (pos_le : pos ≤ haystack.length) :
    haystack.substr pos (toSizeT (group.position - pos)) = some (between haystack group pos) := by
  obtain ⟨position_nonneg, length_nonneg, stop_le⟩ := inside
  rw [Str.npos] at sized
  have start : (group.span.start : Int) = group.position := Int.toNat_of_nonneg position_nonneg
  rw [Str.substr, if_pos pos_le, between]
  split
  · have gap : toSizeT (group.position - pos) = group.span.start - pos := by
      rw [toSizeT_of_bounds (by omega) (by omega)]
      omega
    rw [gap]
  · have gap : haystack.length - pos ≤ toSizeT (group.position - pos) := by
      rw [toSizeT_of_neg (by omega) (by omega)]
      omega
    rw [List.take_of_length_le (by rwa [List.length_drop])]

/-- A turn of the loop. -/
theorem replaceFrom_cons (sized : haystack.length < Str.npos) {group : Replacement}
    (inside : group.Inside haystack) (text : Str) (captures : List (Replacement × Str)) {pos : Nat}
    (pos_le : pos ≤ haystack.length) (ss : Str) :
    replaceFrom haystack ((group, text) :: captures) pos ss =
      replaceFrom haystack captures group.span.stop (ss ++ between haystack group pos ++ text) := by
  rw [replaceFrom, replaceEach, substr_between sized inside pos_le, Option.bind_some,
    pos_after sized inside, replaceFrom]

theorem replaceFrom_nil (sized : haystack.length < Str.npos) {pos : Nat}
    (pos_le : pos ≤ haystack.length) (ss : Str) :
    replaceFrom haystack [] pos ss = some (ss ++ haystack.drop pos) := by
  rw [replaceFrom, replaceEach, Option.bind_some]
  dsimp only
  rw [replaceRest]
  split
  · have all : (haystack.drop pos).take Str.npos = haystack.drop pos := by
      rw [List.take_of_length_le]
      rw [List.length_drop]
      omega
    rw [Str.substr, if_pos pos_le, all, Option.map_some]
  · rw [List.drop_eq_nil_of_le (by omega), List.append_nil]

/-! ## Groups that follow one another -/

/-- The captures with the texts they were given. -/
def capturesWith (haystack : Str) (edits : List (Replacement × Option Str)) :
    List (Replacement × Str) :=
  edits.map fun edit => (edit.1, edit.2.getD (edit.1.span.of haystack))

/-- From a position in front of the groups on, what is written is the edited haystack. -/
theorem replaceFrom_ascending (sized : haystack.length < Str.npos)
    {edits : List (Replacement × Option Str)}
    (inside : ∀ edit ∈ edits, edit.1.Inside haystack)
    (ascending : Ascending (edits.map fun edit => edit.1.span)) {pos : Nat}
    (pos_le : pos ≤ haystack.length) (front : ∀ edit ∈ edits, pos ≤ edit.1.span.start) (ss : Str) :
    replaceFrom haystack (capturesWith haystack edits) pos ss =
      some (ss ++ spliceFrom haystack (edits.map fun edit => (edit.1.span, edit.2)) pos) := by
  induction edits generalizing pos ss with
  | nil =>
      rw [List.map_nil, spliceFrom_nil]
      exact replaceFrom_nil sized pos_le ss
  | cons edit edits induction =>
      obtain ⟨group, text⟩ := edit
      obtain ⟨first, later_ascending⟩ := List.pairwise_cons.mp ascending
      obtain ⟨group_inside, later_inside⟩ := List.forall_mem_cons.mp inside
      obtain ⟨group_front, -⟩ := List.forall_mem_cons.mp front
      have later_front : ∀ edit ∈ edits, group.span.stop ≤ edit.1.span.start := by
        intro edit member
        exact first edit.1.span (List.mem_map_of_mem member)
      have stop_le := group_inside.span_stop_le
      have written := induction later_inside later_ascending stop_le later_front
        (ss ++ between haystack group pos ++ text.getD (group.span.of haystack))
      have behind : ∀ edit ∈ edits.map fun edit => (edit.1.span, edit.2),
          group.span.stop ≤ edit.1.start := List.forall_mem_map.mpr later_front
      have all_front : ∀ edit ∈ ((group, text) :: edits).map fun edit => (edit.1.span, edit.2),
          group.span.start ≤ edit.1.start := by
        refine List.forall_mem_cons.mpr ⟨le_rfl, fun edit member => ?_⟩
        exact group.span.start_le_stop.trans (behind edit member)
      rw [capturesWith, List.map_cons, replaceFrom_cons sized group_inside _ _ pos_le]
      refine written.trans ?_
      rw [between, if_pos group_front,
        spliceFrom_front all_front group_front (group.span.start_le_stop.trans stop_le),
        List.map_cons, spliceFrom_cons behind stop_le]
      simp only [List.append_assoc]

/-- An earlier call only matters for a group without a later one. -/
theorem lastText_cons (call : Nat × Str) (calls : List (Nat × Str)) (n : Nat) :
    lastText (call :: calls) n =
      (lastText calls n).or (if n = call.1 then some call.2 else none) := by
  rw [lastText, List.reverse_cons, List.lookup_append, lastText]
  split
  · rename_i same
    rw [same, List.lookup_cons_self]
  · rename_i other
    simp [List.lookup, beq_false_of_ne other]

/-- What is left of the captures after calls of `substitute`. -/
theorem exec_substitute {captures : List (Replacement × Str)} {calls : List (Nat × Str)}
    (named : ∀ call ∈ calls, call.1 < captures.length) :
    Runs.exec substitute ⟨haystack, captures⟩ calls =
      some ⟨haystack, captures.zipIdx.map fun (capture, n) =>
        (capture.1, (lastText calls n).getD capture.2)⟩ := by
  induction calls generalizing captures with
  | nil => simp [lastText]
  | cons call calls induction =>
      obtain ⟨call_named, calls_named⟩ := List.forall_mem_cons.mp named
      let next := captures.modify call.1 fun capture => (capture.1, call.2)
      refine Runs.exec_cons_eq_some.mpr ⟨⟨haystack, next⟩, if_pos call_named, ?_⟩
      have next_named : ∀ call ∈ calls, call.1 < next.length := by simpa [next] using calls_named
      rw [induction next_named]
      congr 2
      refine List.ext_getElem? fun n => ?_
      simp only [List.getElem?_map, List.getElem?_zipIdx, next, List.getElem?_modify, Nat.zero_add,
        lastText_cons]
      cases captures[n]? with
      | none => rfl
      | some capture =>
          by_cases same : n = call.1
          · subst same
            cases lastText calls call.1 <;> simp
          · have other : call.1 ≠ n := Ne.symm same
            cases lastText calls n <;> simp [same, other]

/-- Behind the first capture are those of the groups, which are numbered from 1. -/
theorem drop_captures (whole : Replacement) (groups : List Replacement)
    (calls : List (Nat × Str)) :
    ((capturesOf haystack (whole :: groups)).zipIdx.map fun (capture, n) =>
        (capture.1, (lastText calls n).getD capture.2)).drop 1 =
      capturesWith haystack (edits groups calls) := by
  rw [capturesOf, capturesWith, edits, List.map_cons, List.zipIdx_cons, List.map_cons,
    List.drop_one, List.tail_cons, List.zipIdx_map]
  simp [Function.comp_def]

/-- After a match, calls and the loop, what is left to be done. -/
theorem replaced_eq (sized : haystack.length < Str.npos) {whole : Replacement}
    {groups : List Replacement} (inside : ∀ sub ∈ whole :: groups, sub.Inside haystack)
    {calls : List (Nat × Str)} (named : ∀ call ∈ calls, call.1 ≤ groups.length) :
    replaced haystack (whole :: groups) calls =
      replaceFrom haystack (capturesWith haystack (edits groups calls)) 0 [] := by
  have captured : ∀ call ∈ calls, call.1 < (capturesOf haystack (whole :: groups)).length := by
    intro call member
    simpa [capturesOf, Nat.lt_succ_iff] using named call member
  rw [replaced, record_eq sized inside, Option.bind_some]
  dsimp only
  rw [exec_substitute captured, Option.bind_some, replace, drop_captures, replaceFrom]

theorem edits_map_fst (groups : List Replacement) (calls : List (Nat × Str)) :
    (edits groups calls).map Prod.fst = groups := by
  simp [edits, Function.comp_def, List.zipIdx_map_fst]

theorem edits_map_span (groups : List Replacement) (calls : List (Nat × Str)) :
    (edits groups calls).map (fun edit => edit.1.span) = groups.map Replacement.span := by
  conv_rhs => rw [← edits_map_fst groups calls, List.map_map]
  rfl

theorem edits_inside {groups : List Replacement} (inside : ∀ group ∈ groups, group.Inside haystack)
    (calls : List (Nat × Str)) : ∀ edit ∈ edits groups calls, edit.1.Inside haystack := by
  intro edit member
  have group_member : edit.1 ∈ (edits groups calls).map Prod.fst := List.mem_map_of_mem member
  exact inside edit.1 (edits_map_fst groups calls ▸ group_member)

/-- The loop edits the haystack, where each group follows the one before. -/
theorem replaced_of_ascending (sized : haystack.length < Str.npos) {whole : Replacement}
    {groups : List Replacement} (inside : ∀ sub ∈ whole :: groups, sub.Inside haystack)
    (ascending : Ascending (groups.map Replacement.span)) {calls : List (Nat × Str)}
    (named : ∀ call ∈ calls, call.1 ≤ groups.length) :
    replaced haystack (whole :: groups) calls = some (edited haystack (edits groups calls)) := by
  have groups_inside := (List.forall_mem_cons.mp inside).2
  rw [replaced_eq sized inside named]
  exact replaceFrom_ascending sized (edits_inside groups_inside calls)
    ((edits_map_span groups calls).symm ▸ ascending) (Nat.zero_le _) (fun _ _ => Nat.zero_le _) []

/-! ## Groups in any order -/

/-- How many characters are written twice. -/
def surplus (length : Nat) : List Span → Nat → Nat
  | [], _ => 0
  | span :: spans, pos =>
      (if pos ≤ span.start then 0 else length - span.start) + surplus length spans span.stop

theorem surplus_eq_zero_iff {length : Nat} {spans : List Span}
    (inside : ∀ span ∈ spans, span.stop ≤ length) {pos : Nat} (pos_le : pos ≤ length) :
    surplus length spans pos = 0 ↔ (∀ span ∈ spans, pos ≤ span.start) ∧ Ascending spans := by
  induction spans generalizing pos with
  | nil => simp [surplus, Ascending]
  | cons span spans induction =>
      obtain ⟨span_inside, later_inside⟩ := List.forall_mem_cons.mp inside
      have front : (if pos ≤ span.start then 0 else length - span.start) = 0 ↔
          pos ≤ span.start := by
        split <;> omega
      rw [surplus, Nat.add_eq_zero_iff, front, induction later_inside span_inside, Ascending,
        Ascending, List.pairwise_cons, List.forall_mem_cons]
      constructor
      · rintro ⟨span_front, later, ascending⟩
        have step := span_front.trans span.start_le_stop
        exact ⟨⟨span_front, fun next member => step.trans (later next member)⟩, later, ascending⟩
      · rintro ⟨⟨span_front, -⟩, later, ascending⟩
        exact ⟨span_front, later, ascending⟩

/-- Where the loop goes back, it has written the rest of the haystack, and writes it again. -/
theorem replaceFrom_length (sized : haystack.length < Str.npos)
    {edits : List (Replacement × Option Str)}
    (inside : ∀ edit ∈ edits, edit.1.Inside haystack) {pos : Nat}
    (pos_le : pos ≤ haystack.length) (ss : Str) :
    ∃ result, replaceFrom haystack (capturesWith haystack edits) pos ss = some result ∧
      result.length + pos + removed (edits.map fun edit => (edit.1.span, edit.2)) =
        ss.length + haystack.length + added (edits.map fun edit => (edit.1.span, edit.2)) +
          surplus haystack.length (edits.map fun edit => edit.1.span) pos := by
  induction edits generalizing pos ss with
  | nil =>
      refine ⟨_, replaceFrom_nil sized pos_le ss, ?_⟩
      rw [List.length_append, List.length_drop, List.map_nil, List.map_nil, surplus]
      change _ + 0 = _ + 0 + 0
      omega
  | cons edit edits induction =>
      obtain ⟨group, text⟩ := edit
      obtain ⟨group_inside, later_inside⟩ := List.forall_mem_cons.mp inside
      have stop_le : group.span.stop ≤ haystack.length := group_inside.span_stop_le
      obtain ⟨result, written, length⟩ := induction later_inside stop_le
        (ss ++ between haystack group pos ++ text.getD (group.span.of haystack))
      refine ⟨result, ?_, ?_⟩
      · rw [capturesWith, List.map_cons, replaceFrom_cons sized group_inside _ _ pos_le]
        exact written
      · have matched : (group.span.of haystack).length = group.span.length := by
          rw [Span.of, List.length_take, List.length_drop]
          rw [Span.stop] at stop_le
          omega
        have gap : (between haystack group pos).length + pos = group.span.start +
            if pos ≤ group.span.start then 0 else haystack.length - group.span.start := by
          have start_le := group.span.start_le_stop.trans stop_le
          rw [between]
          split
          · rw [List.length_take, List.length_drop]
            omega
          · rw [List.length_drop]
            omega
        rw [List.length_append, List.length_append] at length
        rw [List.map_cons, List.map_cons, surplus]
        dsimp only at length ⊢
        rw [Span.stop] at stop_le length ⊢
        cases text with
        | none =>
            rw [Option.getD_none, matched] at length
            rw [removed_cons_none, added_cons_none]
            omega
        | some text =>
            rw [Option.getD_some] at length
            rw [removed_cons_some, added_cons_some]
            omega

/-- What comes out is not too long precisely if the loop never goes back. -/
theorem replaced_length_iff (sized : haystack.length < Str.npos) {whole : Replacement}
    {groups : List Replacement} (inside : ∀ sub ∈ whole :: groups, sub.Inside haystack)
    {calls : List (Nat × Str)} (named : ∀ call ∈ calls, call.1 ≤ groups.length) :
    ∃ result, replaced haystack (whole :: groups) calls = some result ∧
      (result.length + removed ((edits groups calls).map fun edit => (edit.1.span, edit.2)) ≤
          haystack.length + added ((edits groups calls).map fun edit => (edit.1.span, edit.2)) ↔
        Ascending (groups.map Replacement.span)) := by
  have groups_inside := (List.forall_mem_cons.mp inside).2
  obtain ⟨result, written, length⟩ :=
    replaceFrom_length sized (edits_inside groups_inside calls) (Nat.zero_le haystack.length) []
  have spans_inside : ∀ span ∈ groups.map Replacement.span, span.stop ≤ haystack.length :=
    List.forall_mem_map.mpr fun group member => (groups_inside group member).span_stop_le
  have once := surplus_eq_zero_iff spans_inside (Nat.zero_le haystack.length)
  refine ⟨result, (replaced_eq sized inside named).trans written, ?_⟩
  rw [edits_map_span, List.length_nil] at length
  constructor
  · intro short
    exact (once.mp (by omega)).2
  · intro ascending
    have nothing := once.mpr ⟨fun _ _ => Nat.zero_le _, ascending⟩
    omega

/-- Of groups that have no character in common, each is replaced by the text it was given last, if
it was given one, and the rest of the haystack is kept, precisely if each group begins where the
one before has ended, or behind. -/
theorem replaced_eq_edited_iff (sized : haystack.length < Str.npos) {whole : Replacement}
    {groups : List Replacement} (inside : ∀ sub ∈ whole :: groups, sub.Inside haystack)
    (apart : Apart (groups.map Replacement.span)) {calls : List (Nat × Str)}
    (named : ∀ call ∈ calls, call.1 ≤ groups.length) :
    replaced haystack (whole :: groups) calls = some (edited haystack (edits groups calls)) ↔
      Ascending (groups.map Replacement.span) := by
  have groups_inside := (List.forall_mem_cons.mp inside).2
  constructor
  · intro same
    obtain ⟨result, written, length_iff⟩ := replaced_length_iff sized inside named
    obtain rfl : result = edited haystack (edits groups calls) :=
      Option.some.inj (written.symm.trans same)
    refine length_iff.mp (length_spliceAll ?_ ?_).le
    · rw [List.map_map]
      exact (edits_map_span groups calls).symm ▸ apart
    · exact List.forall_mem_map.mpr fun edit member =>
        (edits_inside groups_inside calls edit member).span_stop_le
  · intro ascending
    exact replaced_of_ascending sized inside ascending named

/-- `(a)(x*)(b)` in `xaby`, with a text for the empty group and two for the last. -/
theorem replaced_eq_edited_three :
    replaced [120, 97, 98, 121] [⟨1, 2⟩, ⟨1, 1⟩, ⟨2, 0⟩, ⟨2, 1⟩]
      [(3, [48]), (2, [49, 50]), (3, [])] = some [120, 97, 49, 50, 121] :=
  (replaced_eq_edited_iff (by decide) (by decide) (by decide) (by decide)).mpr (by decide)

/-- `(a(x*)b)` in `ab`: behind the empty group, the loop goes on in the middle of the other. -/
theorem replaced_eq_edited_fails :
    ¬∀ (haystack : Str) (whole : Replacement) (groups : List Replacement),
      haystack.length < Str.npos → (∀ sub ∈ whole :: groups, sub.Inside haystack) →
        Apart (groups.map Replacement.span) →
        (groups.map fun group => group.position).Pairwise (· ≤ ·) →
        ∀ calls : List (Nat × Str), (∀ call ∈ calls, 1 ≤ call.1 ∧ call.1 ≤ groups.length) →
          replaced haystack (whole :: groups) calls =
            some (edited haystack (edits groups calls)) := by
  intro always
  have wrong : replaced [97, 98] [⟨0, 2⟩, ⟨0, 2⟩, ⟨1, 0⟩] [(2, [99])] =
      some [97, 98, 99, 98] := by decide
  exact absurd (wrong.symm.trans (always [97, 98] ⟨0, 2⟩ [⟨0, 2⟩, ⟨1, 0⟩] (by decide) (by decide)
    (by decide) (by decide) [(2, [99])] (by decide))) (by decide)

/-- Without a text for any group, the haystack comes out unchanged precisely if each group begins
where the one before has ended, or behind. -/
theorem replaced_eq_self_iff (sized : haystack.length < Str.npos) {whole : Replacement}
    {groups : List Replacement} (inside : ∀ sub ∈ whole :: groups, sub.Inside haystack) :
    replaced haystack (whole :: groups) [] = some haystack ↔
      Ascending (groups.map Replacement.span) := by
  have nothing : ∀ edit ∈ (edits groups []).map fun edit => (edit.1.span, edit.2),
      edit.2 = none :=
    List.forall_mem_map.mpr (List.forall_mem_map.mpr fun _ _ => rfl)
  constructor
  · intro same
    obtain ⟨result, written, length_iff⟩ := replaced_length_iff sized inside (List.forall_mem_nil _)
    obtain rfl : result = haystack := Option.some.inj (written.symm.trans same)
    refine length_iff.mp ?_
    rw [removed_of_none nothing, added_of_none nothing]
  · intro ascending
    rw [replaced_of_ascending sized inside ascending (List.forall_mem_nil _), edited,
      spliceAll_of_none haystack nothing]

/-- `(x)(a)` in `xa`. -/
theorem replaced_eq_self_two :
    replaced [120, 97] [⟨0, 2⟩, ⟨0, 1⟩, ⟨1, 1⟩] [] = some [120, 97] :=
  (replaced_eq_self_iff (by decide) (by decide)).mpr (by decide)

/-- `((a)b)` in `ab`: the haystack comes out twice. -/
theorem replaced_eq_self_fails :
    ¬∀ (haystack : Str) (whole : Replacement) (groups : List Replacement),
      haystack.length < Str.npos → (∀ sub ∈ whole :: groups, sub.Inside haystack) →
        replaced haystack (whole :: groups) [] = some haystack := by
  intro always
  have twice : replaced [97, 98] [⟨0, 2⟩, ⟨0, 2⟩, ⟨0, 1⟩] [] = some [97, 98, 97, 98] := by decide
  exact absurd (twice.symm.trans (always [97, 98] ⟨0, 2⟩ [⟨0, 2⟩, ⟨0, 1⟩] (by decide) (by decide)))
    (by decide)

end IterateImpl

/-! ## One group -/

namespace DrumlinRegex

variable {Regex : Type*}

/-- `drumlin_regex::replace`.  A group there is not is at the position -1.  The last string is made
of a pointer into the haystack, which must not be moved out of it. -/
def replace (regex : DrumlinRegex Regex) (haystack : Str) (n : Nat) (subst : Str) : Option Str :=
  let sub := (regex.cap[n]?).getD .unmatched
  (haystack.substr 0 (toSizeT sub.position)).bind fun front =>
    if 0 ≤ sub.position ∧ 0 ≤ sub.position + sub.length then
      (CMemory.readString
        (((ByteArray.cStr haystack).map some).drop (sub.position + sub.length).toNat)).map
          fun back => StringList.joinString [] [front, subst, back]
    else
      none

/-- `getImpl().substitute(n, subst)` and then `getImpl().replace()`. -/
def substituteReplace (regex : DrumlinRegex Regex) (n : Nat) (subst : Str) : Option Str :=
  regex.impl.bind fun impl => (impl.substitute (n, subst)).bind IterateImpl.replace

/-- What is left of a haystack when it is read as a C string from a position on. -/
theorem readString_drop_cStr {haystack : Str} {position : Nat}
    (within : position ≤ haystack.length) :
    CMemory.readString (((ByteArray.cStr haystack).map some).drop position) =
      some ((haystack.drop position).takeWhile (· != 0)) := by
  have block : (ByteArray.cStr haystack).drop position = haystack.drop position ++ [0] := by
    rw [ByteArray.cStr, List.drop_append_of_le_length within]
  rw [← List.map_drop, block, CMemory.readString_terminated]

/-- The text stands in the place of the group, in front of the next NUL. -/
theorem replace_eq {haystack : Str} (sized : haystack.length < Str.npos)
    {regex : DrumlinRegex Regex} {n : Nat} {group : Replacement}
    (reported : regex.cap[n]? = some group) (inside : group.Inside haystack) (text : Str) :
    regex.replace haystack n text =
      some (haystack.take group.span.start ++ text ++
        (haystack.drop group.span.stop).takeWhile (· != 0)) := by
  have stop : (group.position + group.length).toNat = group.span.stop :=
    Int.toNat_add inside.position_nonneg inside.length_nonneg
  have pointer : 0 ≤ group.position ∧ 0 ≤ group.position + group.length :=
    ⟨inside.position_nonneg, Int.add_nonneg inside.position_nonneg inside.length_nonneg⟩
  rw [replace, reported, Option.getD_some, inside.toSizeT_position sized, Str.substr,
    if_pos (Nat.zero_le _), Option.bind_some, if_pos pointer, stop,
    readString_drop_cStr inside.span_stop_le]
  simp [StringList.joinString]

theorem filter_zipIdx {groups : List Replacement} {n : Nat} {group : Replacement}
    (reported : groups[n]? = some group) (first : Nat) :
    (groups.zipIdx first).filter (fun entry => entry.2 = first + n) = [(group, first + n)] := by
  induction groups generalizing n first with
  | nil => cases reported
  | cons other groups induction =>
      rw [List.zipIdx_cons]
      cases n with
      | zero =>
          obtain rfl : other = group := Option.some.inj reported
          rw [List.filter_cons_of_pos (by simp), List.filter_eq_nil_iff.mpr, Nat.add_zero]
          intro entry member
          have behind := (List.mem_zipIdx member).1
          simp only [decide_eq_true_eq]
          omega
      | succ n =>
          rw [List.filter_cons_of_neg (by simp), Nat.add_comm n 1, ← Nat.add_assoc]
          exact induction reported (first + 1)

/-- Only one group is given a text. -/
theorem edits_of_only {groups : List Replacement} {n : Nat} {group : Replacement}
    (reported : groups[n]? = some group) (text : Str) :
    ((IterateImpl.edits groups [(n + 1, text)]).map fun edit => (edit.1.span, edit.2)).filter
      (fun edit => edit.2.isSome) = [(group.span, some text)] := by
  have last (i : Nat) : IterateImpl.lastText [(n + 1, text)] i =
      if i = n + 1 then some text else none := by
    rw [IterateImpl.lastText_cons]
    rfl
  have only : (groups.zipIdx 1).filter
      (fun entry => (if entry.2 = n + 1 then some text else none).isSome) = [(group, 1 + n)] := by
    rw [← filter_zipIdx reported 1]
    refine List.filter_congr fun entry _ => ?_
    rw [Nat.add_comm 1 n]
    split <;> simp [*]
  simp only [IterateImpl.edits, List.map_map, List.filter_map, Function.comp_def, last]
  rw [only, List.map_singleton, if_pos (Nat.add_comm 1 n)]

/-- After a match, the captures hold the text for the group and what is matched by the others. -/
theorem substituteReplace_eq {haystack : Str} (sized : haystack.length < Str.npos)
    {regex : DrumlinRegex Regex} {whole : Replacement} {groups : List Replacement}
    (inside : ∀ sub ∈ whole :: groups, sub.Inside haystack)
    (recorded : regex.impl =
      some ⟨haystack, IterateImpl.capturesOf haystack (whole :: groups)⟩) (n : Nat) (text : Str) :
    regex.substituteReplace (n + 1) text =
      IterateImpl.replaced haystack (whole :: groups) [(n + 1, text)] := by
  rw [IterateImpl.replaced, IterateImpl.record_eq sized inside, substituteReplace, recorded]
  simp [Runs.exec]

/-- After a match, both ways to replace a group have one result precisely if each group begins
where the one before has ended, or behind, and there is no NUL behind the group. -/
theorem replace_eq_substituteReplace_iff (regex : DrumlinRegex Regex) {haystack : Str}
    (sized : haystack.length < Str.npos) {whole : Replacement} {groups : List Replacement}
    (inside : ∀ sub ∈ whole :: groups, sub.Inside haystack) {n : Nat} {group : Replacement}
    (reported : groups[n]? = some group) (text : Str) :
    ∃ later, regex.find haystack (true, whole :: groups) = some (later, true) ∧
      (later.replace haystack (n + 1) text = later.substituteReplace (n + 1) text ↔
        Ascending (groups.map Replacement.span) ∧ 0 ∉ haystack.drop group.span.stop) := by
  let impl : IterateImpl := ⟨haystack, IterateImpl.capturesOf haystack (whole :: groups)⟩
  let later : DrumlinRegex Regex := { regex with cap := whole :: groups, impl := some impl }
  have found : regex.find haystack (true, whole :: groups) = some (later, true) := by
    rw [find, if_pos rfl]
    dsimp only
    rw [IterateImpl.record_eq sized inside, Option.map_some]
  have group_inside : group.Inside haystack :=
    (List.forall_mem_cons.mp inside).2 group (List.mem_of_getElem? reported)
  have in_cap : later.cap[n + 1]? = some group := reported
  have named : ∀ call ∈ [(n + 1, text)], call.1 ≤ groups.length := by
    simpa using (List.getElem?_eq_some_iff.mp reported).1
  have only := edits_of_only reported text
  have one_result (ascending : Ascending (groups.map Replacement.span)) :
      later.replace haystack (n + 1) text = later.substituteReplace (n + 1) text ↔
        0 ∉ haystack.drop group.span.stop := by
    rw [replace_eq sized in_cap group_inside, substituteReplace_eq sized inside rfl,
      IterateImpl.replaced_of_ascending sized inside ascending named, IterateImpl.edited,
      spliceAll_of_only only group_inside.span_stop_le, splice, Option.some_inj,
      List.append_right_inj, List.takeWhile_eq_self_iff]
    constructor
    · exact fun others nul => absurd (others 0 nul) (by decide)
    · intro no_nul character member
      rw [bne_iff_ne]
      rintro rfl
      exact no_nul member
  refine ⟨later, found, ?_⟩
  constructor
  · intro same
    -- The result of `replace` is at most as long as it should be.
    have ascending : Ascending (groups.map Replacement.span) := by
      obtain ⟨result, written, length_iff⟩ := IterateImpl.replaced_length_iff sized inside named
      rw [replace_eq sized in_cap group_inside, substituteReplace_eq sized inside rfl, written,
        Option.some_inj] at same
      refine length_iff.mp ?_
      rw [removed, added, only, ← same]
      have stop_le := group_inside.span_stop_le
      have kept := ((haystack.drop group.span.stop).takeWhile_sublist (· != 0)).length_le
      rw [List.length_drop] at kept
      simp only [List.length_append, List.length_take, List.map_cons, List.map_nil,
        List.sum_cons, List.sum_nil, Option.getD_some]
      rw [Span.stop] at stop_le kept ⊢
      omega
    exact ⟨ascending, (one_result ascending).mp same⟩
  · rintro ⟨ascending, no_nul⟩
    exact (one_result ascending).mpr no_nul

/-- `(a)(b)` in `xaby`. -/
theorem replace_eq_substituteReplace_second :
    ∃ later : DrumlinRegex Unit,
      DrumlinRegex.find ⟨(), [], none⟩ [120, 97, 98, 121] (true, [⟨1, 2⟩, ⟨1, 1⟩, ⟨2, 1⟩]) =
        some (later, true) ∧
      later.replace [120, 97, 98, 121] 2 [49, 50] = later.substituteReplace 2 [49, 50] := by
  have inside : ∀ sub ∈ (⟨1, 2⟩ : Replacement) :: [⟨1, 1⟩, ⟨2, 1⟩],
      sub.Inside [120, 97, 98, 121] := by decide
  have reported : ([⟨1, 1⟩, ⟨2, 1⟩] : List Replacement)[1]? = some ⟨2, 1⟩ := rfl
  obtain ⟨later, found, same_iff⟩ := replace_eq_substituteReplace_iff
    (⟨(), [], none⟩ : DrumlinRegex Unit) (by decide) inside reported [49, 50]
  exact ⟨later, found, same_iff.mpr (by decide)⟩

/-- `(a)` in a haystack that goes on behind a NUL: one way ends there. -/
theorem replace_eq_substituteReplace_fails :
    ¬∀ (regex : DrumlinRegex Unit) (haystack : Str) (whole : Replacement)
      (groups : List Replacement), haystack.length < Str.npos →
        (∀ sub ∈ whole :: groups, sub.Inside haystack) →
        Apart (groups.map Replacement.span) →
        (groups.map fun group => group.position).Pairwise (· ≤ ·) →
        ∀ (n : Nat) (group : Replacement), groups[n]? = some group → ∀ text : Str,
          ∃ later, regex.find haystack (true, whole :: groups) = some (later, true) ∧
            later.replace haystack (n + 1) text = later.substituteReplace (n + 1) text := by
  intro always
  obtain ⟨later, found, same⟩ := always ⟨(), [], none⟩ [97, 0, 98] ⟨0, 1⟩ [⟨0, 1⟩] (by decide)
    (by decide) (by decide) (by decide) 0 ⟨0, 1⟩ rfl [120]
  have matched : DrumlinRegex.find ⟨(), [], none⟩ [97, 0, 98] (true, [⟨0, 1⟩, ⟨0, 1⟩]) =
      some (⟨(), [⟨0, 1⟩, ⟨0, 1⟩], some ⟨[97, 0, 98], [(⟨0, 1⟩, [97]), (⟨0, 1⟩, [97])]⟩⟩, true) :=
    rfl
  rw [matched] at found
  cases found
  revert same
  decide

end DrumlinRegex

end Drumlin
