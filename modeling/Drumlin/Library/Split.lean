import Mathlib

/-!
# `boost::split`

`split` cuts a sequence at every delimiter.  With `token_compress_on` delimiters that follow each
other count as one.  An empty sequence yields one empty token, and so does what is before a leading
or behind a trailing delimiter.
-/

namespace Split

variable {α : Type*}

/-- `token_compress_mode_type`. -/
inductive TokenCompress
  | on
  | off
deriving DecidableEq, Repr

/-- `split`, with the predicate that tells the delimiters. -/
def split (isDelim : α → Bool) (mode : TokenCompress) : List α → List (List α)
  | [] => [[]]
  | head :: tail =>
      if isDelim head then
        if mode = .on ∧ tail.head?.any isDelim then split isDelim mode tail
        else [] :: split isDelim mode tail
      else (split isDelim mode tail).modifyHead (head :: ·)

variable {isDelim : α → Bool} {mode : TokenCompress}

/-- Without compression every delimiter separates two tokens. -/
theorem split_off (input : List α) : split isDelim .off input = input.splitOnP isDelim := by
  induction input with
  | nil => rfl
  | cons head tail induction => simp [split, List.splitOnP_cons_eq_if_modifyHead, induction]

/-- Without compression there is one token more than delimiters. -/
theorem length_split_off (isDelim : α → Bool) (input : List α) :
    (split isDelim .off input).length = input.countP isDelim + 1 := by
  induction input with
  | nil => rfl
  | cons head tail induction => cases delim : isDelim head <;> simp [split, delim, induction]

/-- A stretch without delimiters belongs to the first token. -/
theorem split_append {front : List α} (clean : ∀ x ∈ front, isDelim x = false) (back : List α) :
    split isDelim mode (front ++ back) =
      (split isDelim mode back).modifyHead (front ++ ·) := by
  induction front with
  | nil =>
      rw [List.nil_append]
      cases split isDelim mode back <;> rfl
  | cons head front induction =>
      obtain ⟨head_clean, front_clean⟩ := List.forall_mem_cons.mp clean
      rw [List.cons_append, split, if_neg (by simp [head_clean]), induction front_clean,
        List.modifyHead_modifyHead]
      rfl

theorem split_of_clean {token : List α} (clean : ∀ x ∈ token, isDelim x = false) :
    split isDelim mode token = [token] := by
  have whole : split isDelim mode (token ++ []) = _ := split_append clean []
  rwa [List.append_nil, split, List.modifyHead_cons, List.append_nil] at whole

/-- To split does not depend on what the elements are otherwise. -/
theorem split_map {β : Type*} (f : β → α) (input : List β) :
    split isDelim mode (input.map f) = (split (isDelim ∘ f) mode input).map (List.map f) := by
  induction input with
  | nil => rfl
  | cons head tail induction =>
      have follows : (tail.map f).head?.any isDelim = tail.head?.any (isDelim ∘ f) := by
        cases tail <;> rfl
      rw [List.map_cons, split, split, follows, induction]
      simp only [Function.comp_apply]
      split
      · split <;> rfl
      · cases split (isDelim ∘ f) mode tail <;> rfl

theorem split_ne_nil (isDelim : α → Bool) (mode : TokenCompress) (input : List α) :
    split isDelim mode input ≠ [] := by
  induction input with
  | nil => simp [split]
  | cons head tail induction =>
      rw [split]
      split
      · split
        · exact induction
        · exact List.cons_ne_nil _ _
      · simpa using induction

/-- The tokens are made up of the elements that are no delimiters. -/
theorem flatten_split (isDelim : α → Bool) (mode : TokenCompress) (input : List α) :
    (split isDelim mode input).flatten = input.filter fun element => !isDelim element := by
  induction input with
  | nil => rfl
  | cons head tail induction =>
      obtain ⟨token, later, tokens⟩ := List.exists_cons_of_ne_nil (split_ne_nil isDelim mode tail)
      rw [split]
      cases delim : isDelim head with
      | true =>
          rw [if_pos rfl, List.filter_cons_of_neg (by simp [delim]), ← induction]
          split <;> rfl
      | false =>
          rw [List.filter_cons_of_pos (by simp [delim]), ← induction, tokens]
          rfl

/-- A delimiter that is not merged with a following one ends the first token. -/
theorem split_append_cons {token : List α} (clean : ∀ x ∈ token, isDelim x = false) {delim : α}
    (separates : isDelim delim) {back : List α}
    (apart : mode = .on → back.head?.any isDelim = false) :
    split isDelim mode (token ++ delim :: back) = token :: split isDelim mode back := by
  have single : ¬(mode = .on ∧ back.head?.any isDelim) := fun merged =>
    Bool.noConfusion ((apart merged.1).symm.trans merged.2)
  rw [split_append clean, split, if_pos separates, if_neg single, List.modifyHead_cons,
    List.append_nil]

/-- Delimiters in a row count as one, and go with those that follow. -/
theorem split_run {run : List α} (nonempty : run ≠ []) (delims : ∀ x ∈ run, isDelim x)
    (back : List α) :
    split isDelim .on (run ++ back) =
      if back.head?.any isDelim then split isDelim .on back else [] :: split isDelim .on back := by
  induction run with
  | nil => exact (nonempty rfl).elim
  | cons head run induction =>
      obtain ⟨head_delim, run_delims⟩ := List.forall_mem_cons.mp delims
      cases run with
      | nil => simp [split, head_delim]
      | cons next run =>
          have next_delim := run_delims next List.mem_cons_self
          rw [← induction (by simp) run_delims, List.cons_append, split, if_pos head_delim, if_pos]
          simp [next_delim]

/-- It makes no difference which delimiters stand in a row. -/
theorem split_run_congr {run run' : List α} (nonempty : run ≠ []) (nonempty' : run' ≠ [])
    (delims : ∀ x ∈ run, isDelim x) (delims' : ∀ x ∈ run', isDelim x) (front back : List α) :
    split isDelim .on (front ++ (run ++ back)) = split isDelim .on (front ++ (run' ++ back)) := by
  induction front with
  | nil => simp only [List.nil_append, split_run nonempty delims, split_run nonempty' delims']
  | cons head front induction =>
      have follows : (front ++ (run ++ back)).head?.any isDelim =
          (front ++ (run' ++ back)).head?.any isDelim := by
        cases front with
        | nil =>
            obtain ⟨first, rest, rfl⟩ := List.exists_cons_of_ne_nil nonempty
            obtain ⟨first', rest', rfl⟩ := List.exists_cons_of_ne_nil nonempty'
            simp [delims first List.mem_cons_self, delims' first' List.mem_cons_self]
        | cons next front => rfl
      rw [List.cons_append, List.cons_append, split, split, induction, follows]

/-- Tokens joined by a delimiter are found again, unless two delimiters are merged. -/
theorem split_intercalate {delim : α} (separates : isDelim delim) {tokens : List (List α)}
    (some_token : tokens ≠ []) (clean : ∀ token ∈ tokens, ∀ x ∈ token, isDelim x = false)
    (nonempty : mode = .on → ∀ token ∈ tokens, token ≠ []) :
    split isDelim mode ([delim].intercalate tokens) = tokens := by
  induction tokens with
  | nil => exact (some_token rfl).elim
  | cons token tokens induction =>
      obtain ⟨token_clean, tokens_clean⟩ := List.forall_mem_cons.mp clean
      cases tokens with
      | nil => simpa using split_of_clean token_clean
      | cons next tokens =>
          have later := induction (by simp) tokens_clean fun compress other member =>
            nonempty compress other (List.mem_cons_of_mem _ member)
          rw [List.intercalate_cons_cons, List.append_assoc, List.singleton_append,
            split_append_cons token_clean separates, later]
          intro compress
          have next_ne := nonempty compress next (by simp)
          obtain ⟨first, rest, rfl⟩ := List.exists_cons_of_ne_nil next_ne
          simpa [List.intercalate_cons_cons_left] using tokens_clean _ List.mem_cons_self first

/-- Lines that a delimiter ends each are read back one by one. -/
theorem splitOn_terminated [BEq α] [LawfulBEq α] {delim : α} {lines : List (List α)}
    (clean : ∀ line ∈ lines, delim ∉ line) (back : List α) :
    ((lines.flatMap fun line => line ++ [delim]) ++ back).splitOn delim =
      lines ++ back.splitOn delim := by
  induction lines with
  | nil => rfl
  | cons line lines induction =>
      obtain ⟨line_clean, lines_clean⟩ := List.forall_mem_cons.mp clean
      rw [List.flatMap_cons, List.append_assoc, List.append_assoc, List.singleton_append,
        List.splitOn_append_cons_self_of_not_mem line_clean, induction lines_clean,
        List.cons_append]

/-- Compression keeps the nonempty fields, and an empty token at either end where a delimiter
stands. -/
theorem split_on_eq {input : List α} (nonempty : input ≠ []) :
    split isDelim .on input =
      (if input.head?.any isDelim then [[]] else []) ++
        ((input.splitOnP isDelim).filter fun field => !field.isEmpty) ++
          (if input.getLast?.any isDelim then [[]] else []) := by
  induction input with
  | nil => exact (nonempty rfl).elim
  | cons head tail induction =>
      cases tail with
      | nil =>
          cases delim : isDelim head with
          | true => simp [split, List.splitOnP_cons_eq_if_modifyHead, delim]
          | false => simp [split, List.splitOnP_cons_eq_if_modifyHead, delim]
      | cons next tail =>
          have whole := induction (by simp)
          have ends : (head :: next :: tail).getLast? = (next :: tail).getLast? := by simp
          rw [ends, List.splitOnP_cons_eq_if_modifyHead head, split]
          cases delim : isDelim head with
          | true => cases follows : isDelim next <;> simpa [delim, follows] using whole
          | false =>
              rw [if_neg (by simp), if_neg (by simp [delim]), whole,
                List.splitOnP_cons_eq_if_modifyHead next]
              cases follows : isDelim next with
              | true => simp [follows]
              | false =>
                  obtain ⟨field, fields, equal⟩ :=
                    List.exists_cons_of_ne_nil (List.splitOnP_ne_nil isDelim tail)
                  simp [follows, equal]

/-- With compression there is an empty token only at an end where a delimiter stands, or if there is
nothing at all. -/
theorem nil_mem_split_on_iff {input : List α} :
    [] ∈ split isDelim .on input ↔
      input = [] ∨ input.head?.any isDelim ∨ input.getLast?.any isDelim := by
  by_cases nonempty : input = []
  · simp [nonempty, split]
  · have fields : [] ∉ (input.splitOnP isDelim).filter fun field => !field.isEmpty := by simp
    rw [split_on_eq nonempty, List.mem_append, List.mem_append, or_iff_left fields]
    simp [nonempty]

example : split (· == 0) .on [0, 1, 0, 0, 2] = [[], [1], [2]] := by decide

end Split
