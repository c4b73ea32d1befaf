import Mathlib

/-!
# Replacing spans of a list

Some of the spans of a list are replaced; what is in none of these stays.
-/

namespace Splice

variable {α : Type*}

/-- The positions from `start` on, `length` of them. -/
structure Span where
  start : Nat
  length : Nat
deriving DecidableEq, Repr

/-- The position behind a span. -/
def Span.stop (span : Span) : Nat := span.start + span.length

/-- The positions in a span. -/
def Span.positions (span : Span) : Finset Nat := Finset.Ico span.start span.stop

/-- The elements in a span. -/
def Span.of (span : Span) (list : List α) : List α := (list.drop span.start).take span.length

/-- Each span begins where the one before has ended, or behind. -/
def Ascending (spans : List Span) : Prop :=
  spans.Pairwise fun left right => left.stop ≤ right.start

instance (spans : List Span) : Decidable (Ascending spans) :=
  inferInstanceAs (Decidable (spans.Pairwise fun left right => left.stop ≤ right.start))

/-- No position is in two of the spans. -/
def Apart (spans : List Span) : Prop :=
  spans.Pairwise fun left right => Disjoint left.positions right.positions

instance (spans : List Span) : Decidable (Apart spans) :=
  inferInstanceAs
    (Decidable (spans.Pairwise fun left right => Disjoint left.positions right.positions))

/-- The list with a text in the place of a span. -/
def splice (span : Span) (text list : List α) : List α :=
  list.take span.start ++ text ++ list.drop span.stop

/-- The texts of the spans that begin at a position. -/
def textsAt (edits : List (Span × Option (List α))) (position : Nat) : List α :=
  edits.flatMap fun edit => if edit.1.start = position then edit.2.getD [] else []

/-- A position is in a span that has a text. -/
def Replaced (edits : List (Span × Option (List α))) (position : Nat) : Prop :=
  ∃ edit ∈ edits, edit.2.isSome ∧ position ∈ edit.1.positions

instance (edits : List (Span × Option (List α))) (position : Nat) :
    Decidable (Replaced edits position) :=
  inferInstanceAs (Decidable (∃ edit ∈ edits, edit.2.isSome ∧ position ∈ edit.1.positions))

/-- What is at a position, unless it is replaced. -/
def keptAt (list : List α) (edits : List (Span × Option (List α))) (position : Nat) : List α :=
  if Replaced edits position then [] else list[position]?.toList

/-- What there is for a position. -/
def writtenAt (list : List α) (edits : List (Span × Option (List α))) (position : Nat) : List α :=
  textsAt edits position ++ keptAt list edits position

/-- The list with every span that has a text replaced by it, from a position on. -/
def spliceFrom (list : List α) (edits : List (Span × Option (List α))) (position : Nat) :
    List α :=
  (List.range' position (list.length + 1 - position)).flatMap (writtenAt list edits)

/-- The list with every span that has a text replaced by it. -/
def spliceAll (list : List α) (edits : List (Span × Option (List α))) : List α :=
  spliceFrom list edits 0

theorem Span.start_le_stop (span : Span) : span.start ≤ span.stop := Nat.le_add_right _ _

theorem Span.mem_positions {span : Span} {position : Nat} :
    position ∈ span.positions ↔ span.start ≤ position ∧ position < span.stop :=
  Finset.mem_Ico

/-- No position is in two spans if each begins behind the one before. -/
theorem Ascending.apart {spans : List Span} (ascending : Ascending spans) : Apart spans :=
  ascending.imp fun behind => Finset.disjoint_left.mpr fun _ left right =>
    absurd ((Span.mem_positions.mp left).2.trans_le behind)
      (not_lt.mpr (Span.mem_positions.mp right).1)

/-- The elements of a list, one after the other. -/
theorem flatMap_getElem? (list : List α) (position count : Nat) :
    (List.range' position count).flatMap (fun position => list[position]?.toList) =
      (list.drop position).take count := by
  induction count generalizing position with
  | zero => rfl
  | succ count induction =>
      rw [List.range'_succ, List.flatMap_cons, induction]
      cases found : list[position]? with
      | none =>
          have behind := List.getElem?_eq_none_iff.mp found
          rw [List.drop_eq_nil_of_le behind, List.drop_eq_nil_of_le (by omega), List.take_nil,
            List.take_nil]
          rfl
      | some element =>
          obtain ⟨within, rfl⟩ := List.getElem?_eq_some_iff.mp found
          rw [List.drop_eq_getElem_cons within]
          rfl

variable {list : List α} {edits : List (Span × Option (List α))} {position : Nat}

/-! ## One position -/

theorem textsAt_eq_nil (elsewhere : ∀ edit ∈ edits, edit.1.start ≠ position) :
    textsAt edits position = [] :=
  List.flatMap_eq_nil_iff.mpr fun edit member => if_neg (elsewhere edit member)

theorem replaced_cons_none (span : Span) :
    Replaced ((span, none) :: edits) position ↔ Replaced edits position := by
  simp [Replaced]

theorem replaced_cons_some (span : Span) (text : List α) :
    Replaced ((span, some text) :: edits) position ↔
      position ∈ span.positions ∨ Replaced edits position := by
  simp [Replaced]

/-- In front of the spans, nothing is replaced. -/
theorem not_replaced_of_front (front : ∀ edit ∈ edits, position < edit.1.start) :
    ¬Replaced edits position := by
  rintro ⟨edit, member, -, inside⟩
  exact absurd (Span.mem_positions.mp inside).1 (not_le.mpr (front edit member))

theorem writtenAt_front (front : ∀ edit ∈ edits, position < edit.1.start) :
    writtenAt list edits position = list[position]?.toList := by
  rw [writtenAt, textsAt_eq_nil fun edit member => (front edit member).ne', List.nil_append,
    keptAt, if_neg (not_replaced_of_front front)]

theorem textsAt_cons (span : Span) (text : Option (List α)) :
    textsAt ((span, text) :: edits) position =
      (if span.start = position then text.getD [] else []) ++ textsAt edits position :=
  List.flatMap_cons

theorem keptAt_cons_some (span : Span) (text : List α) :
    keptAt list ((span, some text) :: edits) position =
      if position ∈ span.positions then [] else keptAt list edits position := by
  rw [keptAt, if_congr (replaced_cons_some span text) rfl rfl, ite_or, keptAt]

/-- A span without a text does not matter. -/
theorem writtenAt_cons_none (span : Span) :
    writtenAt list ((span, none) :: edits) position = writtenAt list edits position := by
  rw [writtenAt, textsAt_cons, keptAt, if_congr (replaced_cons_none span) rfl rfl,
    Option.getD_none, ite_self, List.nil_append, writtenAt, keptAt]

/-- Where the other spans follow, there is nothing within a span but its text. -/
theorem writtenAt_cons_some {span : Span} (text : List α)
    (behind : ∀ edit ∈ edits, span.stop ≤ edit.1.start) :
    writtenAt list ((span, some text) :: edits) position =
      (if span.start = position then text else []) ++
        if position ∈ span.positions then [] else writtenAt list edits position := by
  rw [writtenAt, textsAt_cons, keptAt_cons_some, Option.getD_some, List.append_assoc]
  congr 1
  split
  · rename_i inside
    have below := (Span.mem_positions.mp inside).2
    rw [textsAt_eq_nil fun edit member => (below.trans_le (behind edit member)).ne',
      List.append_nil]
  · rfl

/-! ## From a position on -/

theorem range'_split {next : Nat} (le : position ≤ next) (next_le : next ≤ list.length) :
    List.range' position (list.length + 1 - position) =
      List.range' position (next - position) ++ List.range' next (list.length + 1 - next) := by
  obtain ⟨gap, rfl⟩ := Nat.exists_eq_add_of_le le
  rw [Nat.add_sub_cancel_left, List.range'_append_1]
  congr 1
  omega

/-- Up to where the spans begin, the list stays. -/
theorem spliceFrom_front {next : Nat} (front : ∀ edit ∈ edits, next ≤ edit.1.start)
    (le : position ≤ next) (next_le : next ≤ list.length) :
    spliceFrom list edits position =
      (list.drop position).take (next - position) ++ spliceFrom list edits next := by
  rw [spliceFrom, range'_split le next_le, List.flatMap_append, spliceFrom, ← flatMap_getElem?]
  congr 1
  refine List.flatMap_congr fun position member => writtenAt_front fun edit edit_member => ?_
  have before := (List.mem_range'_1.mp member).2
  rw [Nat.add_sub_cancel' le] at before
  exact before.trans_le (front edit edit_member)

theorem spliceFrom_nil (position : Nat) : spliceFrom list [] position = list.drop position := by
  have all : writtenAt list [] = fun position => list[position]?.toList :=
    funext fun _ => writtenAt_front (List.forall_mem_nil _)
  rw [spliceFrom, all, flatMap_getElem?, List.take_of_length_le]
  rw [List.length_drop]
  omega

theorem spliceFrom_cons_none (span : Span) :
    spliceFrom list ((span, none) :: edits) position = spliceFrom list edits position :=
  List.flatMap_congr fun _ _ => writtenAt_cons_none span

/-- Where a span begins that the others follow, its text is first, if it has one. -/
theorem spliceFrom_cons {span : Span} {text : Option (List α)}
    (behind : ∀ edit ∈ edits, span.stop ≤ edit.1.start) (inside : span.stop ≤ list.length) :
    spliceFrom list ((span, text) :: edits) span.start =
      text.getD (span.of list) ++ spliceFrom list edits span.stop := by
  cases text with
  | none =>
      rw [spliceFrom_cons_none, spliceFrom_front behind span.start_le_stop inside, Span.stop,
        Nat.add_sub_cancel_left]
      rfl
  | some text =>
      have room : list.length + 1 - span.start = (list.length - span.start) + 1 := by
        have start_le := span.start_le_stop.trans inside
        omega
      let others (position : Nat) : List α :=
        if position ∈ span.positions then [] else writtenAt list edits position
      have once : spliceFrom list ((span, some text) :: edits) span.start =
          text ++ (List.range' span.start (list.length + 1 - span.start)).flatMap others := by
        have later : ∀ position ∈ List.range' (span.start + 1) (list.length - span.start),
            writtenAt list ((span, some text) :: edits) position = others position := by
          intro position member
          have behind_start := (List.mem_range'_1.mp member).1
          rw [writtenAt_cons_some text behind, if_neg (by omega), List.nil_append]
        rw [spliceFrom, room, List.range'_succ, List.flatMap_cons, List.flatMap_cons,
          List.flatMap_congr later, writtenAt_cons_some text behind, if_pos rfl,
          List.append_assoc]
      have inner : (List.range' span.start (span.stop - span.start)).flatMap others = [] := by
        refine List.flatMap_eq_nil_iff.mpr fun position member => if_pos ?_
        obtain ⟨start_le, before⟩ := List.mem_range'_1.mp member
        rw [Nat.add_sub_cancel' span.start_le_stop] at before
        exact Span.mem_positions.mpr ⟨start_le, before⟩
      have outer : (List.range' span.stop (list.length + 1 - span.stop)).flatMap others =
          spliceFrom list edits span.stop := by
        refine List.flatMap_congr fun position member => if_neg fun inside => ?_
        exact absurd (Span.mem_positions.mp inside).2
          (not_lt.mpr (List.mem_range'_1.mp member).1)
      rw [once, range'_split span.start_le_stop inside, List.flatMap_append, inner, outer]
      rfl

/-! ## The whole list -/

/-- Without any texts the list stays. -/
theorem spliceAll_of_none (list : List α) {edits : List (Span × Option (List α))}
    (none : ∀ edit ∈ edits, edit.2 = none) : spliceAll list edits = list := by
  induction edits with
  | nil => rw [spliceAll, spliceFrom_nil, List.drop_zero]
  | cons edit edits induction =>
      obtain ⟨span, text⟩ := edit
      obtain ⟨rfl, later⟩ := List.forall_mem_cons.mp none
      rw [spliceAll, spliceFrom_cons_none]
      exact induction later

theorem textsAt_filter (edits : List (Span × Option (List α))) (position : Nat) :
    textsAt (edits.filter fun edit => edit.2.isSome) position = textsAt edits position := by
  induction edits with
  | nil => rfl
  | cons edit edits induction =>
      obtain ⟨span, text⟩ := edit
      cases text with
      | none =>
          rw [List.filter_cons_of_neg (by simp), induction, textsAt_cons, Option.getD_none,
            ite_self, List.nil_append]
      | some text => rw [List.filter_cons_of_pos rfl, textsAt_cons, induction, textsAt_cons]

/-- Only the spans with texts matter. -/
theorem spliceFrom_filter (list : List α) (edits : List (Span × Option (List α)))
    (position : Nat) :
    spliceFrom list (edits.filter fun edit => edit.2.isSome) position =
      spliceFrom list edits position := by
  refine List.flatMap_congr fun position _ => ?_
  have same : Replaced (edits.filter fun edit => edit.2.isSome) position ↔
      Replaced edits position := by
    simp [Replaced, and_assoc]
  rw [writtenAt, textsAt_filter, keptAt, if_congr same rfl rfl, writtenAt, keptAt]

/-- If only one of the spans has a text, that one is replaced. -/
theorem spliceAll_of_only {span : Span} {text : List α}
    (only : edits.filter (fun edit => edit.2.isSome) = [(span, some text)])
    (inside : span.stop ≤ list.length) : spliceAll list edits = splice span text list := by
  have front : ∀ edit ∈ [(span, some text)], span.start ≤ edit.1.start := by simp
  rw [spliceAll, ← spliceFrom_filter, only,
    spliceFrom_front front (Nat.zero_le _) (span.start_le_stop.trans inside),
    spliceFrom_cons (List.forall_mem_nil _) inside, spliceFrom_nil, List.drop_zero, Nat.sub_zero,
    Option.getD_some, splice, List.append_assoc]

/-! ## How long it is -/

/-- How many elements are in the spans with texts. -/
def removed (edits : List (Span × Option (List α))) : Nat :=
  ((edits.filter fun edit => edit.2.isSome).map fun edit => edit.1.length).sum

/-- How many elements are in the texts. -/
def added (edits : List (Span × Option (List α))) : Nat :=
  ((edits.filter fun edit => edit.2.isSome).map fun edit => (edit.2.getD []).length).sum

theorem removed_of_none (none : ∀ edit ∈ edits, edit.2 = none) : removed edits = 0 := by
  have nothing : edits.filter (fun edit => edit.2.isSome) = [] :=
    List.filter_eq_nil_iff.mpr fun edit member => by simp [none edit member]
  rw [removed, nothing]
  rfl

theorem added_of_none (none : ∀ edit ∈ edits, edit.2 = none) : added edits = 0 := by
  have nothing : edits.filter (fun edit => edit.2.isSome) = [] :=
    List.filter_eq_nil_iff.mpr fun edit member => by simp [none edit member]
  rw [added, nothing]
  rfl

theorem removed_cons_none (span : Span) : removed ((span, none) :: edits) = removed edits := rfl

theorem added_cons_none (span : Span) : added ((span, none) :: edits) = added edits := rfl

theorem removed_cons_some (span : Span) (text : List α) :
    removed ((span, some text) :: edits) = span.length + removed edits := rfl

theorem added_cons_some (span : Span) (text : List α) :
    added ((span, some text) :: edits) = text.length + added edits := rfl

theorem length_spliceAll_eq_sum :
    (spliceAll list edits).length =
      ∑ position ∈ Finset.range (list.length + 1), (writtenAt list edits position).length := by
  rw [spliceAll, spliceFrom, List.length_flatMap, ← List.range_eq_range']
  rfl

/-- A span that is apart from the others is removed, and its text is added. -/
theorem length_writtenAt_cons_some {span : Span} (text : List α)
    (apart : ∀ edit ∈ edits, Disjoint span.positions edit.1.positions)
    (inside : span.stop ≤ list.length) (position : Nat) :
    (writtenAt list ((span, some text) :: edits) position).length +
        (if position ∈ span.positions then 1 else 0) =
      (writtenAt list edits position).length +
        if span.start = position then text.length else 0 := by
  have kept : (keptAt list ((span, some text) :: edits) position).length +
      (if position ∈ span.positions then 1 else 0) = (keptAt list edits position).length := by
    rw [keptAt_cons_some]
    split
    · rename_i member
      have outside : ¬Replaced edits position := by
        rintro ⟨edit, edit_member, -, other⟩
        exact Finset.disjoint_left.mp (apart edit edit_member) member other
      have within := (Span.mem_positions.mp member).2.trans_le inside
      rw [keptAt, if_neg outside, List.getElem?_eq_getElem within]
      rfl
    · rfl
  rw [writtenAt, textsAt_cons, writtenAt, List.length_append, List.length_append,
    List.length_append, ← kept, Option.getD_some, apply_ite List.length]
  simp only [List.length_nil]
  omega

/-- The spans are removed, and the texts are added. -/
theorem length_spliceAll (apart : Apart (edits.map Prod.fst))
    (inside : ∀ edit ∈ edits, edit.1.stop ≤ list.length) :
    (spliceAll list edits).length + removed edits = list.length + added edits := by
  induction edits with
  | nil => rw [spliceAll_of_none list (List.forall_mem_nil _)]; rfl
  | cons edit edits induction =>
      obtain ⟨span, text⟩ := edit
      obtain ⟨span_apart, later_apart⟩ := List.pairwise_cons.mp apart
      obtain ⟨span_inside, later_inside⟩ := List.forall_mem_cons.mp inside
      have later := induction later_apart later_inside
      cases text with
      | none =>
          rw [spliceAll, spliceFrom_cons_none]
          exact later
      | some text =>
          have others : ∀ edit ∈ edits, Disjoint span.positions edit.1.positions :=
            fun edit member => span_apart edit.1 (List.mem_map_of_mem member)
          have removed_here :
              ∑ position ∈ Finset.range (list.length + 1),
                (if position ∈ span.positions then 1 else 0) = span.length := by
            have within : span.positions ⊆ Finset.range (list.length + 1) := fun position member =>
              Finset.mem_range_succ_iff.mpr
                ((Span.mem_positions.mp member).2.le.trans span_inside)
            rw [Finset.sum_boole, Finset.filter_mem_eq_inter, Finset.inter_eq_right.mpr within,
              Span.positions, Nat.card_Ico, Span.stop, Nat.add_sub_cancel_left, Nat.cast_id]
          have added_here :
              ∑ position ∈ Finset.range (list.length + 1),
                (if span.start = position then text.length else 0) = text.length := by
            have start_le := span.start_le_stop.trans span_inside
            rw [Finset.sum_ite_eq, if_pos (Finset.mem_range_succ_iff.mpr start_le)]
          have sums := Finset.sum_congr rfl fun position (_ : position ∈
            Finset.range (list.length + 1)) =>
              length_writtenAt_cons_some text others span_inside position
          rw [Finset.sum_add_distrib, Finset.sum_add_distrib, removed_here, added_here,
            ← length_spliceAll_eq_sum, ← length_spliceAll_eq_sum] at sums
          rw [removed_cons_some, added_cons_some]
          omega

end Splice
