import Drumlin.Library.Split

/-!
# Replacing every occurrence

A loop that replaces the first occurrence of a pattern until there is none rescans what it has
written.  It is compared with the occurrences from left to right that do not overlap.  Elements are
compared by a key, so that equal keys in different places can be told apart.
-/

namespace Replace

variable {α β : Type*} [DecidableEq β] (key : α → β) (pattern : List β)

/-- The position of the first occurrence. -/
def find (text : List α) : Option Nat :=
  text.tails.findIdx? fun tail => pattern.isPrefixOf (tail.map key)

/-- Replace the first occurrence until there is none, as often as the fuel allows. -/
def loop (marker : List α) : Nat → List α → Option (List α)
  | 0, _ => none
  | fuel + 1, text =>
      match find key pattern text with
      | some pos => loop marker fuel (text.take pos ++ marker ++ text.drop (pos + pattern.length))
      | none => some text

/-- The occurrences from left to right, none overlapping the one before, each written `none`.  So
many elements are skipped at first. -/
def mark : Nat → List α → List (Option α)
  | _, [] => []
  | 0, element :: text =>
      if pattern.isPrefixOf ((element :: text).map key) then
        none :: mark (pattern.length - 1) text
      else
        some element :: mark 0 text
  | skip + 1, _ :: text => mark skip text

/-- The text with a marker in place of every occurrence. -/
def expand (marker : List α) (word : List (Option α)) : List α :=
  word.flatMap fun symbol => symbol.elim marker fun element => [element]

/-- The tokens between the occurrences. -/
def tokens (mode : Split.TokenCompress) (word : List (Option α)) : List (List α) :=
  (Split.split Option.isNone mode word).map List.reduceOption

variable {key pattern}

/-! ## The first occurrence -/

theorem find_cons (element : α) (text : List α) :
    find key pattern (element :: text) =
      if pattern.isPrefixOf ((element :: text).map key) then some 0
      else (find key pattern text).map (· + 1) := by
  rw [find, List.tails_cons, List.findIdx?_cons]
  rfl

theorem find_nil (nonempty : pattern ≠ []) : find key pattern ([] : List α) = none := by
  cases pattern with
  | nil => exact (nonempty rfl).elim
  | cons head tail => rfl

/-- Nothing is found precisely if there is no occurrence. -/
theorem find_eq_none_iff (nonempty : pattern ≠ []) {text : List α} :
    find key pattern text = none ↔ ¬pattern <:+: text.map key := by
  induction text with
  | nil => simp [find_nil nonempty, nonempty]
  | cons element text induction =>
      rw [find_cons, List.map_cons, List.infix_cons_iff, not_or, ← induction,
        ← List.isPrefixOf_iff_prefix]
      split <;> simp [*]

theorem exists_find {text : List α} (occurs : pattern <:+: text.map key) :
    ∃ pos, find key pattern text = some pos := by
  cases pattern with
  | nil => cases text <;> exact ⟨0, rfl⟩
  | cons head tail =>
      rw [← Option.ne_none_iff_exists', ne_eq, find_eq_none_iff (List.cons_ne_nil head tail)]
      exact not_not_intro occurs

/-- An occurrence before another one ends before its last element. -/
private theorem isPrefixOf_cons_iff (element : α) (front : List α) {hit : List α}
    (hit_eq : hit.map key = pattern) (back : List α) :
    pattern.isPrefixOf ((element :: (front ++ (hit ++ back))).map key) ↔
      pattern <+: key element :: (front.map key ++ pattern.dropLast) := by
  have window : key element :: (front.map key ++ pattern.dropLast) <+:
      (element :: (front ++ (hit ++ back))).map key := by
    rw [List.map_cons, List.prefix_cons_inj, List.map_append, List.prefix_append_right_inj,
      List.map_append, hit_eq]
    exact (List.dropLast_prefix pattern).trans (List.prefix_append _ _)
  rw [List.isPrefixOf_iff_prefix]
  constructor
  · intro here
    refine List.prefix_of_prefix_length_le here window ?_
    simp only [List.length_cons, List.length_append, List.length_dropLast]
    omega
  · exact fun here => here.trans window

/-- The first occurrence is where no other begins before. -/
theorem find_eq_length_iff (nonempty : pattern ≠ []) (front : List α) {hit : List α}
    (hit_eq : hit.map key = pattern) (back : List α) :
    find key pattern (front ++ (hit ++ back)) = some front.length ↔
      ¬pattern <:+: front.map key ++ pattern.dropLast := by
  have positive : 0 < pattern.length := List.length_pos_of_ne_nil nonempty
  induction front with
  | nil =>
      have here : pattern.isPrefixOf ((hit ++ back).map key) := by
        rw [List.isPrefixOf_iff_prefix, List.map_append, hit_eq]
        exact List.prefix_append _ _
      refine iff_of_true ?_ fun inside => ?_
      · cases whole : hit ++ back with
        | nil => simp [← hit_eq, List.append_eq_nil_iff.mp whole] at nonempty
        | cons element text =>
            rw [whole] at here
            rw [List.nil_append, find_cons, if_pos here]
            rfl
      · rw [List.map_nil, List.nil_append] at inside
        have lengths := inside.length_le
        rw [List.length_dropLast] at lengths
        omega
  | cons element front induction =>
      have shifted : (element :: front).map key ++ pattern.dropLast =
          key element :: (front.map key ++ pattern.dropLast) := rfl
      rw [shifted, List.cons_append, find_cons, List.infix_cons_iff, not_or,
        ← isPrefixOf_cons_iff element front hit_eq back]
      by_cases here : pattern.isPrefixOf ((element :: (front ++ (hit ++ back))).map key)
      · rw [if_pos here]
        exact iff_of_false (by simp) fun both => both.1 here
      · rw [if_neg here, and_iff_right here]
        refine Iff.trans ?_ induction
        rw [List.length_cons, Option.map_eq_some_iff]
        simp

theorem le_of_find {front hit back : List α} {pos : Nat} (hit_eq : hit.map key = pattern)
    (found : find key pattern (front ++ (hit ++ back)) = some pos) : pos ≤ front.length := by
  obtain ⟨bound, -, earlier⟩ := List.findIdx?_eq_some_iff_getElem.mp found
  by_contra later
  have absent := earlier front.length (Nat.lt_of_not_le later)
  rw [List.getElem_tails, List.drop_left, List.isPrefixOf_iff_prefix, List.map_append,
    hit_eq] at absent
  exact absent (List.prefix_append _ _)

/-- A text without an occurrence, or cut at the first one. -/
theorem find_cases (nonempty : pattern ≠ []) (text : List α) :
    find key pattern text = none ∧ ¬pattern <:+: text.map key ∨
      ∃ front hit back, text = front ++ (hit ++ back) ∧ hit.map key = pattern ∧
        find key pattern text = some front.length ∧
        ¬pattern <:+: front.map key ++ pattern.dropLast := by
  cases found : find key pattern text with
  | none => exact .inl ⟨rfl, (find_eq_none_iff nonempty).mp found⟩
  | some pos =>
      obtain ⟨bound, here, -⟩ := List.findIdx?_eq_some_iff_getElem.mp found
      rw [List.getElem_tails, List.isPrefixOf_iff_prefix, List.prefix_iff_eq_take] at here
      have whole : text = text.take pos ++ ((text.drop pos).take pattern.length ++
          (text.drop pos).drop pattern.length) := by simp
      have hit_eq : ((text.drop pos).take pattern.length).map key = pattern := by
        rw [List.map_take, ← here]
      have position : (text.take pos).length = pos := by
        rw [List.length_tails] at bound
        exact List.length_take_of_le (by omega)
      refine .inr ⟨_, _, _, whole, hit_eq, by rw [position], ?_⟩
      rw [← find_eq_length_iff nonempty _ hit_eq, ← whole, found, position]

/-- A text without occurrences, or one that is cut at its first occurrence, and so on behind it. -/
theorem text_induction (key : α → β) (nonempty : pattern ≠ []) {motive : List α → Prop}
    (none : ∀ text, ¬pattern <:+: text.map key → motive text)
    (first : ∀ front hit back, hit.map key = pattern →
      ¬pattern <:+: front.map key ++ pattern.dropLast → motive back →
      motive (front ++ (hit ++ back)))
    (text : List α) : motive text := by
  have positive : 0 < pattern.length := List.length_pos_of_ne_nil nonempty
  induction lengths : text.length using Nat.strong_induction_on generalizing text with
  | _ length induction =>
      rcases find_cases nonempty text with ⟨-, absent⟩ | ⟨front, hit, back, rfl, hit_eq, -, free⟩
      · exact none text absent
      · refine first front hit back hit_eq free (induction back.length ?_ back rfl)
        rw [← lengths, List.length_append, List.length_append, ← hit.length_map key, hit_eq]
        omega

/-! ## The occurrences from left to right -/

theorem mark_eq_drop (skip : Nat) (text : List α) :
    mark key pattern skip text = mark key pattern 0 (text.drop skip) := by
  induction skip generalizing text with
  | zero => rfl
  | succ skip induction =>
      cases text with
      | nil => simp [mark]
      | cons element text => rw [mark, induction, List.drop_succ_cons]

theorem mark_of_none {text : List α} (absent : ¬pattern <:+: text.map key) :
    mark key pattern 0 text = text.map some := by
  induction text with
  | nil => rfl
  | cons element text induction =>
      rw [List.map_cons, List.infix_cons_iff, not_or] at absent
      rw [mark, if_neg (by simpa [List.isPrefixOf_iff_prefix] using absent.1), induction absent.2,
        List.map_cons]

theorem mark_of_first (nonempty : pattern ≠ []) {front hit : List α} (back : List α)
    (hit_eq : hit.map key = pattern) (free : ¬pattern <:+: front.map key ++ pattern.dropLast) :
    mark key pattern 0 (front ++ (hit ++ back)) =
      front.map some ++ none :: mark key pattern 0 back := by
  induction front with
  | nil =>
      cases hit with
      | nil => exact (nonempty hit_eq.symm).elim
      | cons element hit =>
          have here : pattern.isPrefixOf ((element :: (hit ++ back)).map key) := by
            rw [List.isPrefixOf_iff_prefix, ← hit_eq, ← List.cons_append, List.map_append]
            exact List.prefix_append _ _
          have width : pattern.length - 1 = hit.length := by
            rw [← hit_eq, List.length_map, List.length_cons, Nat.add_sub_cancel]
          rw [List.nil_append, List.cons_append, mark, if_pos here, mark_eq_drop, width,
            List.drop_left]
          rfl
  | cons element front induction =>
      rw [List.map_cons, List.cons_append, List.infix_cons_iff, not_or,
        ← isPrefixOf_cons_iff element front hit_eq back] at free
      rw [List.cons_append, mark, if_neg free.1, induction free.2]
      rfl

/-- What is written so far goes on up to behind the first occurrence. -/
theorem append_mark_of_first (nonempty : pattern ≠ []) {front hit : List α} (back : List α)
    (hit_eq : hit.map key = pattern) (free : ¬pattern <:+: front.map key ++ pattern.dropLast)
    (written : List (Option α)) :
    written ++ mark key pattern 0 (front ++ (hit ++ back)) =
      (written ++ front.map some ++ [none]) ++ mark key pattern 0 back := by
  rw [mark_of_first nonempty back hit_eq free]
  simp

/-! ## Texts and their symbols -/

/-- A text is spelled out from symbols, with a run of elements for each `none`. -/
inductive Spells (run : List α → Prop) : List α → List (Option α) → Prop
  | nil : Spells run [] []
  | element (element : α) {text : List α} {word : List (Option α)} (spells : Spells run text word) :
      Spells run (element :: text) (some element :: word)
  | separator {separator text : List α} {word : List (Option α)} (isRun : run separator)
      (spells : Spells run text word) : Spells run (separator ++ text) (none :: word)

theorem Spells.mono {run run' : List α → Prop} (weaker : ∀ elements, run elements → run' elements)
    {text : List α} {word : List (Option α)} (spells : Spells run text word) :
    Spells run' text word := by
  induction spells with
  | nil => exact .nil
  | element element spells induction => exact .element element induction
  | separator isRun spells induction => exact .separator (weaker _ isRun) induction

theorem Spells.append {run : List α → Prop} (front : List α) {text : List α}
    {word : List (Option α)} (spells : Spells run text word) :
    Spells run (front ++ text) (front.map some ++ word) := by
  induction front with
  | nil => exact spells
  | cons element front induction => exact .element element induction

theorem spells_expand {run : List α → Prop} {marker : List α} (isRun : run marker)
    (word : List (Option α)) : Spells run (expand marker word) word := by
  induction word with
  | nil => exact .nil
  | cons symbol word induction =>
      cases symbol with
      | none => exact .separator isRun induction
      | some element => exact .element element induction

/-- A text is spelled from its symbols with occurrences for `none`. -/
theorem spells_mark (nonempty : pattern ≠ []) (text : List α) :
    Spells (fun elements => elements.map key = pattern) text (mark key pattern 0 text) := by
  induction text using text_induction key nonempty with
  | none text absent =>
      rw [mark_of_none absent]
      simpa using Spells.append text Spells.nil
  | first front hit back hit_eq free induction =>
      rw [mark_of_first nonempty back hit_eq free]
      exact .append front (.separator hit_eq induction)

/-! ## Tokens -/

section Tokens

variable {isDelim : α → Bool} {mode : Split.TokenCompress} {text : List α}
  {word : List (Option α)}

/-- Delimiters in a row, just one of them if they are not merged. -/
def IsRun (isDelim : α → Bool) (mode : Split.TokenCompress) (run : List α) : Prop :=
  run ≠ [] ∧ (∀ element ∈ run, isDelim element) ∧ (mode = .off → run.length = 1)

omit [DecidableEq β] in
theorem tokens_some (element : α) (word : List (Option α)) :
    tokens mode (some element :: word) = (tokens mode word).modifyHead (element :: ·) := by
  have ordinary : ¬Option.isNone (some element) := Bool.false_ne_true
  rw [tokens, tokens, Split.split, if_neg ordinary]
  cases Split.split Option.isNone mode word with
  | nil => rfl
  | cons token later => rfl

/-- Tokens between separators that are single or merged. -/
theorem tokens_none (word : List (Option α)) :
    tokens mode (none :: word) =
      if mode = .on ∧ word.head?.any Option.isNone then tokens mode word
      else [] :: tokens mode word := by
  rw [tokens, Split.split, if_pos (by rfl)]
  split <;> rfl

/-- Where no element is a delimiter, to split at the delimiters is to split at the separators. -/
theorem Spells.split (spells : Spells (IsRun isDelim mode) text word)
    (clean : ∀ element, some element ∈ word → isDelim element = false) :
    Split.split isDelim mode text = tokens mode word := by
  induction spells with
  | nil => rfl
  | @element element text word spells induction =>
      rw [Split.split, if_neg (by simp [clean element List.mem_cons_self]), tokens_some,
        induction fun element member => clean element (List.mem_cons_of_mem _ member)]
  | @separator separator text word isRun spells induction =>
      have later := induction fun element member => clean element (List.mem_cons_of_mem _ member)
      have follows : text.head?.any isDelim = word.head?.any Option.isNone := by
        cases spells with
        | nil => rfl
        | element element spells => simpa using clean element (by simp)
        | separator isRun spells =>
            obtain ⟨first, rest, rfl⟩ := List.exists_cons_of_ne_nil isRun.1
            simpa using isRun.2.1 first List.mem_cons_self
      rw [tokens_none]
      cases mode with
      | on => simp only [Split.split_run isRun.1 isRun.2.1, follows, later, true_and]
      | off =>
          obtain ⟨delim, rfl⟩ := List.length_eq_one_iff.mp (isRun.2.2 rfl)
          have separates := isRun.2.1 delim List.mem_cons_self
          simp [Split.split, separates, later]

theorem split_expand {marker : List α} (isRun : IsRun isDelim mode marker)
    (clean : ∀ element, some element ∈ word → isDelim element = false) :
    Split.split isDelim mode (expand marker word) = tokens mode word :=
  (spells_expand isRun word).split clean

/-- The tokens are made up of the elements between the separators. -/
theorem flatten_tokens (mode : Split.TokenCompress) (word : List (Option α)) :
    (tokens mode word).flatten = word.reduceOption := by
  rw [tokens, List.reduceOption, ← List.filterMap_flatten, Split.flatten_split]
  induction word with
  | nil => rfl
  | cons symbol word induction => cases symbol <;> simpa using induction

/-- What is left of a text split into tokens. -/
theorem mem_of_split_eq (equal : Split.split isDelim mode text = tokens mode word) {element : α}
    (member : some element ∈ word) : element ∈ text ∧ isDelim element = false := by
  have parts := congrArg List.flatten equal
  rw [Split.flatten_split, flatten_tokens] at parts
  have inside : element ∈ text.filter fun element => !isDelim element :=
    parts ▸ List.reduceOption_mem_iff.mpr member
  simpa using inside

end Tokens

/-! ## The loop -/

section Loop

variable {marker : List α} {fuel : Nat} {text final : List α}

theorem loop_of_none (nonempty : pattern ≠ []) (absent : ¬pattern <:+: text.map key) :
    loop key pattern marker (fuel + 1) text = some text := by
  rw [loop, (find_eq_none_iff nonempty).mpr absent]

theorem loop_of_first (nonempty : pattern ≠ []) {front hit : List α} (back : List α)
    (hit_eq : hit.map key = pattern) (free : ¬pattern <:+: front.map key ++ pattern.dropLast) :
    loop key pattern marker (fuel + 1) (front ++ (hit ++ back)) =
      loop key pattern marker fuel (front ++ (marker ++ back)) := by
  have behind : (front ++ (hit ++ back)).drop (front.length + pattern.length) = back := by
    rw [← hit_eq, List.length_map, ← List.drop_drop, List.drop_left, List.drop_left]
  rw [loop, (find_eq_length_iff nonempty front hit_eq back).mpr free]
  simp only [behind, List.take_left, List.append_assoc]

/-- What one replacement keeps, all of them keep. -/
theorem loop_keeps (nonempty : pattern ≠ []) (kept : List α → Prop)
    (step : ∀ front hit back, hit.map key = pattern → kept (front ++ (hit ++ back)) →
      kept (front ++ (marker ++ back)))
    (start : kept text) (run : loop key pattern marker fuel text = some final) : kept final := by
  induction fuel generalizing text with
  | zero => cases run
  | succ fuel induction =>
      rcases find_cases nonempty text with ⟨-, absent⟩ | ⟨front, hit, back, rfl, hit_eq, -, free⟩
      · rw [loop_of_none nonempty absent] at run
        exact Option.some.inj run ▸ start
      · rw [loop_of_first nonempty back hit_eq free] at run
        exact induction (step front hit back hit_eq start) run

/-- The loop has no end once there is an occurrence, if the marker contains the pattern. -/
theorem loop_endless (contained : pattern <:+: marker.map key) (fuel : Nat) {text : List α}
    (occurs : pattern <:+: text.map key) : loop key pattern marker fuel text = none := by
  induction fuel generalizing text with
  | zero => rfl
  | succ fuel induction =>
      obtain ⟨pos, found⟩ := exists_find occurs
      rw [loop, found]
      refine induction ?_
      rw [List.map_append, List.map_append]
      exact contained.trans (List.infix_append _ _ _)

/-- To write delimiters for delimiters does not change the tokens if these are merged. -/
theorem split_loop (nonempty : pattern ≠ []) {isDelim : α → Bool} (some_marker : marker ≠ [])
    (marker_delims : ∀ element ∈ marker, isDelim element)
    (pattern_delims : ∀ element, key element ∈ pattern → isDelim element)
    (run : loop key pattern marker fuel text = some final) :
    Split.split isDelim .on final = Split.split isDelim .on text := by
  have step : ∀ front hit back, hit.map key = pattern →
      Split.split isDelim .on (front ++ (hit ++ back)) = Split.split isDelim .on text →
      Split.split isDelim .on (front ++ (marker ++ back)) = Split.split isDelim .on text := by
    intro front hit back hit_eq same
    rw [← same]
    refine Split.split_run_congr some_marker ?_ marker_delims ?_ front back
    · rintro rfl
      exact nonempty hit_eq.symm
    · exact fun element member => pattern_delims element (hit_eq ▸ List.mem_map_of_mem member)
  exact loop_keeps nonempty
    (fun kept => Split.split isDelim .on kept = Split.split isDelim .on text) step rfl run

/-- The loop ends where every replacement makes a measure less. -/
theorem loop_ends (nonempty : pattern ≠ []) (measure : List α → Nat)
    (decreases : ∀ front hit back, hit.map key = pattern →
      measure (front ++ (marker ++ back)) < measure (front ++ (hit ++ back)))
    (text : List α) : ∃ fuel final, loop key pattern marker fuel text = some final := by
  induction size : measure text using Nat.strong_induction_on generalizing text with
  | _ size' induction =>
      rcases find_cases nonempty text with ⟨-, absent⟩ | ⟨front, hit, back, rfl, hit_eq, -, free⟩
      · exact ⟨1, text, loop_of_none nonempty absent⟩
      · have less := decreases front hit back hit_eq
        rw [size] at less
        obtain ⟨fuel, final, run⟩ := induction _ less _ rfl
        exact ⟨fuel + 1, final, by rw [loop_of_first nonempty back hit_eq free, run]⟩

/-- The loop ends where the marker is shorter. -/
theorem loop_ends_of_longer (shorter : marker.length < pattern.length) (text : List α) :
    ∃ fuel final, loop key pattern marker fuel text = some final := by
  refine loop_ends (List.ne_nil_of_length_pos (by omega)) List.length ?_ text
  intro front hit back hit_eq
  rw [← hit_eq, List.length_map] at shorter
  simp only [List.length_append]
  omega

/-- The number whose digits, the least significant first, are those of the keys. -/
def value (key : α → β) (digit : β → Nat) (base : Nat) (text : List α) : Nat :=
  Nat.ofDigits base (text.map (digit ∘ key))

omit [DecidableEq β] in
theorem value_append (key : α → β) (digit : β → Nat) (base : Nat) (front back : List α) :
    value key digit base (front ++ back) =
      value key digit base front + base ^ front.length * value key digit base back := by
  rw [value, List.map_append, Nat.ofDigits_append, List.length_map]
  rfl

omit [DecidableEq β] in
/-- To replace a part by another of its length changes the number as it changes the part's. -/
theorem value_lt_iff (key : α → β) (digit : β → Nat) {base : Nat} (positive : 0 < base)
    (front back : List α) {part part' : List α} (lengths : part.length = part'.length) :
    value key digit base (front ++ (part ++ back)) <
        value key digit base (front ++ (part' ++ back)) ↔
      value key digit base part < value key digit base part' := by
  simp only [value_append, lengths]
  rw [Nat.add_lt_add_iff_left, Nat.mul_lt_mul_left (Nat.pow_pos positive), Nat.add_lt_add_iff_right]

omit [DecidableEq β] in
theorem value_lt (key : α → β) {digit : β → Nat} {base : Nat} (some_digits : 1 < base)
    (bounded : ∀ letter, digit letter < base) (text : List α) :
    value key digit base text < base ^ text.length := by
  have below := Nat.ofDigits_lt_base_pow_length (l := text.map (digit ∘ key)) some_digits
    (by simp [bounded])
  rwa [List.length_map] at below

/-- The loop ends where the marker is as long as the pattern but not the pattern itself: the number
of the text changes always in the same direction. -/
theorem loop_ends_of_ne (nonempty : pattern ≠ []) {digit : β → Nat} {base : Nat}
    (some_digits : 1 < base) (bounded : ∀ letter, digit letter < base)
    (injective : Function.Injective digit) (lengths : marker.length = pattern.length)
    (different : marker.map key ≠ pattern) (text : List α) :
    ∃ fuel final, loop key pattern marker fuel text = some final := by
  have positive : 0 < base := Nat.zero_lt_of_lt some_digits
  have same : ∀ {hit : List α}, hit.map key = pattern →
      marker.length = hit.length ∧
        value key digit base hit = Nat.ofDigits base (pattern.map digit) := by
    rintro hit rfl
    rw [List.length_map] at lengths
    exact ⟨lengths, by rw [value, List.map_map]⟩
  rcases Nat.lt_trichotomy (value key digit base marker)
    (Nat.ofDigits base (pattern.map digit)) with less | equal | greater
  · refine loop_ends nonempty (value key digit base) (fun front hit back hit_eq => ?_) text
    obtain ⟨lengths, hit_value⟩ := same hit_eq
    rwa [value_lt_iff key digit positive front back lengths, hit_value]
  · refine (different (injective.list_map ?_)).elim
    rw [List.map_map]
    refine Nat.ofDigits_inj_of_len_eq some_digits ?_ ?_ ?_ equal
    · rw [List.length_map, List.length_map, lengths]
    · simp [bounded]
    · simp [bounded]
  · refine loop_ends nonempty (fun text => base ^ text.length - value key digit base text)
      (fun front hit back hit_eq => ?_) text
    obtain ⟨lengths, hit_value⟩ := same hit_eq
    have grows := (value_lt_iff key digit positive front back lengths.symm).mpr
      (hit_value ▸ greater)
    have below := value_lt key some_digits bounded (front ++ (marker ++ back))
    have size : (front ++ (marker ++ back)).length = (front ++ (hit ++ back)).length := by
      simp only [List.length_append, lengths]
    rw [size] at below ⊢
    omega

/-- More fuel makes no difference to a loop that ends. -/
theorem loop_more (more : Nat) (run : loop key pattern marker fuel text = some final) :
    loop key pattern marker (fuel + more) text = some final := by
  induction fuel generalizing text with
  | zero => cases run
  | succ fuel induction =>
      rw [Nat.succ_add, loop]
      rw [loop] at run
      split at run
      · exact induction run
      · exact run

theorem loop_unique {fuel' : Nat} {final' : List α}
    (run : loop key pattern marker fuel text = some final)
    (run' : loop key pattern marker fuel' text = some final') : final = final' := by
  have both := loop_more fuel run'
  rw [Nat.add_comm, loop_more fuel' run] at both
  exact Option.some.inj both

end Loop

/-! ## Markers that disturb nothing -/

section Undisturbed

variable {marker : List α} {fuel : Nat} {text final : List α}

/-- While the separators are written as markers from left to right, no occurrence begins before the
next one, and none is left at the end. -/
structure Undisturbed (key : α → β) (pattern : List β) (marker : List α) (word : List (Option α)) :
    Prop where
  before : ∀ before after, word = before ++ none :: after →
    ¬pattern <:+: (expand marker before).map key ++ pattern.dropLast
  whole : ¬pattern <:+: (expand marker word).map key

omit [DecidableEq β] in
theorem expand_append (marker : List α) (front back : List (Option α)) :
    expand marker (front ++ back) = expand marker front ++ expand marker back :=
  List.flatMap_append

omit [DecidableEq β] in
@[simp]
theorem expand_map_some (marker front : List α) : expand marker (front.map some) = front := by
  simp [expand, List.flatMap_map]

omit [DecidableEq β] in
@[simp]
theorem expand_nil (marker : List α) : expand marker [] = [] := rfl

omit [DecidableEq β] in
@[simp]
theorem expand_none (marker : List α) (word : List (Option α)) :
    expand marker (none :: word) = marker ++ expand marker word := rfl

/-- Undisturbed, the loop writes a marker for each occurrence from left to right. -/
theorem loop_of_undisturbed (nonempty : pattern ≠ []) (written : List (Option α))
    (undisturbed : Undisturbed key pattern marker (written ++ mark key pattern 0 text)) :
    ∃ fuel, loop key pattern marker fuel (expand marker written ++ text) =
      some (expand marker (written ++ mark key pattern 0 text)) := by
  induction text using text_induction key nonempty generalizing written with
  | none text absent =>
      have last := undisturbed.whole
      rw [mark_of_none absent, expand_append, expand_map_some] at last ⊢
      exact ⟨1, loop_of_none nonempty last⟩
  | first front hit back hit_eq free induction =>
      have later := append_mark_of_first nonempty back hit_eq free written
      rw [later] at undisturbed ⊢
      obtain ⟨fuel, run⟩ := induction _ undisturbed
      have next := undisturbed.before (written ++ front.map some) _ (List.append_cons ..).symm
      rw [expand_append, expand_map_some] at next
      refine ⟨fuel + 1, ?_⟩
      rw [← List.append_assoc, loop_of_first nonempty back hit_eq next, ← run]
      simp [expand_append]

omit [DecidableEq β] in
/-- The separators are in front of the elements that follow. -/
theorem cut_in_front {written : List (Option α)} {before after : List (Option α)}
    (cut : written ++ text.map some = before ++ none :: after) :
    ∃ after, written = before ++ none :: after := by
  have no_separator : none ∉ text.map some := by simp
  rcases List.append_eq_append_iff.mp cut with ⟨rest, -, later⟩ | ⟨rest, earlier, later⟩
  · exact (no_separator (later ▸ List.mem_append_right _ List.mem_cons_self)).elim
  · cases rest with
    | nil =>
        rw [List.nil_append] at later
        exact (no_separator (later ▸ List.mem_cons_self)).elim
    | cons symbol rest =>
        obtain ⟨rfl, -⟩ := List.cons_eq_cons.mp later
        exact ⟨rest, earlier⟩

omit [DecidableEq β] in
/-- A word without a letter occurs in front of the letter or behind it. -/
theorem infix_append_cons {word front back : List β} {letter : β} (apart : letter ∉ word)
    (occurs : word <:+: front ++ letter :: back) : word <:+: front ∨ word <:+: back := by
  obtain ⟨before, after, whole⟩ := occurs
  rw [List.append_assoc] at whole
  rcases List.append_eq_append_iff.mp whole with ⟨rest, rfl, rest_eq⟩ | ⟨rest, rfl, rest_eq⟩
  · rcases List.append_eq_append_iff.mp rest_eq with ⟨beyond, rfl, -⟩ | ⟨beyond, rfl, beyond_eq⟩
    · exact .inl ⟨before, beyond, List.append_assoc ..⟩
    · cases beyond with
      | nil => exact .inl ⟨before, [], by simp⟩
      | cons first beyond =>
          obtain ⟨rfl, -⟩ := List.cons_eq_cons.mp beyond_eq
          exact (apart (by simp)).elim
  · cases rest with
    | nil =>
        cases word with
        | nil => exact .inl List.nil_infix
        | cons first word =>
            obtain ⟨rfl, -⟩ := List.cons_eq_cons.mp rest_eq
            exact (apart List.mem_cons_self).elim
    | cons first rest =>
        obtain ⟨-, rfl⟩ := List.cons_eq_cons.mp rest_eq
        exact .inr ⟨rest, after, List.append_assoc ..⟩

omit [DecidableEq β] in
/-- A word that has no letter of a separator occurs in front of it or behind it. -/
theorem infix_append_separator {word separator : List β} (nonempty : word ≠ [])
    (some_separator : separator ≠ []) (apart : ∀ letter ∈ separator, letter ∉ word)
    {front back : List β} (occurs : word <:+: front ++ (separator ++ back)) :
    word <:+: front ∨ word <:+: back := by
  induction separator generalizing front with
  | nil => exact (some_separator rfl).elim
  | cons letter separator induction =>
      obtain ⟨letter_apart, apart⟩ := List.forall_mem_cons.mp apart
      refine (infix_append_cons letter_apart occurs).imp_right fun behind => ?_
      cases separator with
      | nil => exact behind
      | cons next separator =>
          have later : word <:+: [] ++ (next :: separator ++ back) := behind
          refine (induction (by simp) apart later).resolve_left fun inside => ?_
          exact nonempty (List.infix_nil.mp inside)

omit [DecidableEq β] in
/-- An occurrence is on one side of a marker that shares no letter with the pattern. -/
theorem infix_expand_separator (nonempty : pattern ≠ []) (some_marker : marker ≠ [])
    (apart : ∀ letter ∈ marker.map key, letter ∉ pattern) {front : List α}
    {word : List (Option α)} {rest : List β}
    (occurs : pattern <:+: (expand marker (front.map some ++ none :: word)).map key ++ rest) :
    pattern <:+: front.map key ∨ pattern <:+: (expand marker word).map key ++ rest := by
  rw [expand_append, expand_map_some, expand_none, List.map_append, List.map_append,
    List.append_assoc, List.append_assoc] at occurs
  exact infix_append_separator nonempty (by simpa using some_marker) apart occurs

/-- A marker that shares no letter with the pattern disturbs nothing. -/
theorem undisturbed_of_disjoint (nonempty : pattern ≠ []) (some_marker : marker ≠ [])
    (apart : ∀ letter ∈ marker.map key, letter ∉ pattern) (text : List α) :
    Undisturbed key pattern marker (mark key pattern 0 text) := by
  induction text using text_induction key nonempty with
  | none text absent =>
      rw [mark_of_none absent]
      refine ⟨fun before after cut => ?_, by rwa [expand_map_some]⟩
      rw [← List.nil_append (text.map some)] at cut
      obtain ⟨_, cut⟩ := cut_in_front cut
      simp at cut
  | first front hit back hit_eq free induction =>
      have front_free : ¬pattern <:+: front.map key := fun occurs =>
        free (occurs.trans (List.prefix_append _ _).isInfix)
      rw [mark_of_first nonempty back hit_eq free]
      constructor
      · intro before after cut
        rcases List.append_eq_append_iff.mp cut with ⟨rest, rfl, later⟩ | ⟨rest, earlier, later⟩
        · cases rest with
          | nil => simpa using free
          | cons symbol rest =>
              obtain ⟨rfl, back_eq⟩ := List.cons_eq_cons.mp later
              intro occurs
              have sides := infix_expand_separator nonempty some_marker apart occurs
              exact induction.before rest after back_eq (sides.resolve_left front_free)
        · cases rest with
          | nil =>
              rw [List.append_nil] at earlier
              rwa [← earlier, expand_map_some]
          | cons symbol rest =>
              obtain ⟨rfl, -⟩ := List.cons_eq_cons.mp later
              have inside : none ∈ front.map some := by simp [earlier]
              simp at inside
      · intro occurs
        rw [← List.append_nil (List.map key _)] at occurs
        have sides := infix_expand_separator nonempty some_marker apart occurs
        rw [List.append_nil] at sides
        exact induction.whole (sides.resolve_left front_free)

/-- The elements whose key is none of the marker's. -/
def ordinary (key : α → β) (marker text : List α) : List α :=
  text.filter fun element => key element ∉ marker.map key

theorem ordinary_append (key : α → β) (marker front back : List α) :
    ordinary key marker (front ++ back) =
      ordinary key marker front ++ ordinary key marker back :=
  List.filter_append ..

theorem ordinary_marker (key : α → β) (marker : List α) : ordinary key marker marker = [] :=
  List.filter_eq_nil_iff.mpr fun _ member absent =>
    of_decide_eq_true absent (List.mem_map_of_mem member)

/-- An element that is replaced and different from the others does not come back. -/
theorem lost (nonempty : pattern ≠ []) {front hit back : List α} (hit_eq : hit.map key = pattern)
    (free : ¬pattern <:+: front.map key ++ pattern.dropLast)
    (distinct : (ordinary key marker (front ++ (hit ++ back))).Nodup)
    (run : loop key pattern marker fuel (front ++ (hit ++ back)) = some final) {element : α}
    (member : element ∈ hit) (not_marker : key element ∉ marker.map key) : element ∉ final := by
  have apart : element ∉ marker := fun inside => not_marker (List.mem_map_of_mem inside)
  have here : ∀ {part : List α}, element ∈ part → element ∈ ordinary key marker part :=
    fun inside => List.mem_filter.mpr ⟨inside, decide_eq_true not_marker⟩
  cases fuel with
  | zero => cases run
  | succ fuel =>
      rw [loop_of_first nonempty back hit_eq free] at run
      refine loop_keeps nonempty (element ∉ ·) (fun front hit back _ absent => ?_) ?_ run
      · simp only [List.mem_append, not_or] at absent ⊢
        exact ⟨absent.1, apart, absent.2.2⟩
      · simp only [ordinary_append] at distinct
        obtain ⟨-, rest, front_apart⟩ := List.nodup_append'.mp distinct
        obtain ⟨-, -, back_apart⟩ := List.nodup_append'.mp rest
        simp only [List.mem_append, not_or]
        exact ⟨fun inside => front_apart (here inside) (List.mem_append_left _ (here member)),
          apart, fun inside => back_apart (here member) (here inside)⟩

omit [DecidableEq β] in
/-- A word that begins again behind a front consists of the letters of the front. -/
theorem forall_mem_of_prefix_append {property : β → Prop} {front word : List β}
    (some_front : front ≠ []) (again : word <+: front ++ word)
    (holds : ∀ letter ∈ front, property letter) : ∀ letter ∈ word, property letter := by
  refine List.forall_mem_iff_getElem.mpr fun index => ?_
  induction index using Nat.strong_induction_on with
  | _ index induction =>
      intro bound
      rw [again.getElem bound, List.getElem_append]
      split
      · exact holds _ (List.getElem_mem _)
      · have shift := List.length_pos_of_ne_nil some_front
        exact induction _ (by omega) _

omit [DecidableEq β] in
/-- An occurrence that begins before another one contains, before that, an element whose key is none
of the marker's, if the pattern has any. -/
theorem exists_ordinary_of_overlap {letter : β} (letter_mem : letter ∈ pattern)
    (letter_ordinary : letter ∉ marker.map key) {written front hit hit' back back' : List α}
    (whole : front ++ (hit ++ back) = written ++ (hit' ++ back')) (hit_eq : hit.map key = pattern)
    (hit_eq' : hit'.map key = pattern) (earlier : front.length < written.length) :
    ∃ element ∈ hit, element ∈ written ∧ key element ∉ marker.map key := by
  by_contra! markers
  obtain ⟨ahead, rfl, rest⟩ : ∃ ahead, written = front ++ ahead ∧
      hit ++ back = ahead ++ (hit' ++ back') := by
    rcases List.append_eq_append_iff.mp whole with ⟨ahead, cut, rest⟩ | ⟨ahead, cut, rest⟩
    · exact ⟨ahead, cut, rest⟩
    · have lengths := congrArg List.length cut
      rw [List.length_append] at lengths
      omega
  have ahead_ne : ahead ≠ [] := by
    rintro rfl
    simp at earlier
  have hit_prefix : hit <+: ahead ++ (hit' ++ back') := rest ▸ List.prefix_append hit back
  -- All keys of the pattern are then the marker's.
  refine letter_ordinary (?_ : letter ∈ marker.map key)
  rcases List.prefix_or_prefix_of_prefix hit_prefix (List.prefix_append _ _) with inside | inside
  · obtain ⟨element, member, rfl⟩ := List.mem_map.mp (hit_eq.symm ▸ letter_mem)
    exact markers element member (List.mem_append_right _ (inside.subset member))
  · have again : pattern <+: ahead.map key ++ pattern := by
      have reach : hit <+: ahead ++ hit' := by
        refine List.prefix_of_prefix_length_le hit_prefix ?_ ?_
        · rw [← List.append_assoc]
          exact List.prefix_append _ _
        · rw [List.length_append, ← hit.length_map key, ← hit'.length_map key, hit_eq, hit_eq']
          exact Nat.le_add_left _ _
      simpa only [List.map_append, hit_eq, hit_eq'] using reach.map key
    refine forall_mem_of_prefix_append (by simpa using ahead_ne) again ?_ letter letter_mem
    intro letter member
    obtain ⟨element, member', rfl⟩ := List.mem_map.mp member
    exact markers element (inside.subset member') (List.mem_append_right _ member')

omit [DecidableEq β] in
theorem mem_expand {element : α} {word : List (Option α)} (member : element ∈ expand marker word) :
    some element ∈ word ∨ element ∈ marker := by
  obtain ⟨symbol, inside, member⟩ := List.mem_flatMap.mp member
  cases symbol with
  | none => exact .inr member
  | some other => exact .inl (List.mem_singleton.mp member ▸ inside)

/-- What is replaced was no element that is kept. -/
theorem marker_of_replaced (nonempty : pattern ≠ []) {front hit back : List α}
    (hit_eq : hit.map key = pattern) (free : ¬pattern <:+: front.map key ++ pattern.dropLast)
    (distinct : (ordinary key marker (front ++ (hit ++ back))).Nodup)
    (run : loop key pattern marker fuel (front ++ (hit ++ back)) = some final)
    {word : List (Option α)} (kept : ∀ element, some element ∈ word → element ∈ final)
    {element : α} (member : element ∈ hit) (inside : element ∈ expand marker word) :
    key element ∈ marker.map key := by
  by_contra not_marker
  refine lost nonempty hit_eq free distinct run member not_marker (kept element ?_)
  exact (mem_expand inside).resolve_right fun inside => not_marker (List.mem_map_of_mem inside)

/-- Nothing is replaced in a text whose elements are all kept. -/
theorem not_infix_of_kept (nonempty : pattern ≠ []) {letter : β} (letter_mem : letter ∈ pattern)
    (letter_ordinary : letter ∉ marker.map key) {word : List (Option α)}
    (distinct : (ordinary key marker (expand marker word)).Nodup)
    (run : loop key pattern marker fuel (expand marker word) = some final)
    (kept : ∀ element, some element ∈ word → element ∈ final) :
    ¬pattern <:+: (expand marker word).map key := by
  rcases find_cases nonempty (expand marker word) with
    ⟨-, absent⟩ | ⟨front, hit, back, whole, hit_eq, -, free⟩
  · exact absent
  · obtain ⟨element, member, rfl⟩ := List.mem_map.mp (hit_eq.symm ▸ letter_mem)
    have inside : element ∈ expand marker word := by simp [whole, member]
    rw [whole] at distinct run
    exact (letter_ordinary
      (marker_of_replaced nonempty hit_eq free distinct run kept member inside)).elim

/-- Nothing is replaced that begins in a part whose elements are all kept, if the pattern occurs
behind it. -/
theorem not_infix_dropLast_of_kept (nonempty : pattern ≠ []) {letter : β}
    (letter_mem : letter ∈ pattern) (letter_ordinary : letter ∉ marker.map key)
    {word : List (Option α)} {hit back : List α} (hit_eq : hit.map key = pattern)
    (distinct : (ordinary key marker (expand marker word ++ (hit ++ back))).Nodup)
    (run : loop key pattern marker fuel (expand marker word ++ (hit ++ back)) = some final)
    (kept : ∀ element, some element ∈ word → element ∈ final) :
    ¬pattern <:+: (expand marker word).map key ++ pattern.dropLast := by
  rw [← find_eq_length_iff nonempty _ hit_eq back]
  rcases find_cases nonempty (expand marker word ++ (hit ++ back)) with
    ⟨-, absent⟩ | ⟨front, hit', back', whole, hit_eq', found, free⟩
  · refine (absent ?_).elim
    rw [List.map_append, List.map_append, hit_eq]
    exact List.infix_append' ..
  · rw [found, Option.some_inj]
    by_contra other
    have earlier := Nat.lt_of_le_of_ne (le_of_find hit_eq found) other
    obtain ⟨element, member, inside, not_marker⟩ := exists_ordinary_of_overlap letter_mem
      letter_ordinary whole.symm hit_eq' hit_eq earlier
    rw [whole] at distinct run
    exact not_marker (marker_of_replaced nonempty hit_eq' free distinct run kept member inside)

/-- If the loop keeps every element outside the occurrences from left to right, and the elements
are different and the pattern has a letter that the marker has not, then it was undisturbed. -/
theorem undisturbed_of_loop (nonempty : pattern ≠ []) {letter : β} (letter_mem : letter ∈ pattern)
    (letter_ordinary : letter ∉ marker.map key) (written : List (Option α))
    (so_far : ∀ before after, written = before ++ none :: after →
      ¬pattern <:+: (expand marker before).map key ++ pattern.dropLast)
    (distinct : (ordinary key marker (expand marker written ++ text)).Nodup)
    (run : loop key pattern marker fuel (expand marker written ++ text) = some final)
    (kept : ∀ element, some element ∈ written ++ mark key pattern 0 text → element ∈ final) :
    Undisturbed key pattern marker (written ++ mark key pattern 0 text) := by
  induction text using text_induction key nonempty generalizing written fuel with
  | none text absent =>
      have all_written :
          expand marker written ++ text = expand marker (written ++ text.map some) := by
        rw [expand_append, expand_map_some]
      rw [mark_of_none absent] at kept ⊢
      rw [all_written] at distinct run
      refine ⟨fun before after cut => ?_,
        not_infix_of_kept nonempty letter_mem letter_ordinary distinct run kept⟩
      obtain ⟨after, cut⟩ := cut_in_front cut
      exact so_far before after cut
  | first front hit back hit_eq free induction =>
      have later := append_mark_of_first nonempty back hit_eq free written
      have in_front : expand marker written ++ (front ++ (hit ++ back)) =
          expand marker (written ++ front.map some) ++ (hit ++ back) := by
        rw [expand_append, expand_map_some, List.append_assoc]
      rw [later] at kept ⊢
      rw [in_front] at distinct run
      have next := not_infix_dropLast_of_kept nonempty letter_mem letter_ordinary hit_eq distinct
        run fun element member =>
          kept element (List.mem_append_left _ (List.mem_append_left _ member))
      cases fuel with
      | zero => cases run
      | succ fuel =>
          rw [loop_of_first nonempty back hit_eq next] at run
          refine induction _ ?_ ?_ (by simpa [expand_append] using run) kept
          · intro before after cut
            rcases List.eq_nil_or_concat after with rfl | ⟨after, symbol, rfl⟩
            · obtain ⟨rfl, -⟩ := List.append_inj' cut rfl
              exact next
            · rw [List.concat_eq_append, ← List.cons_append, ← List.append_assoc] at cut
              obtain ⟨after, cut⟩ := cut_in_front (List.append_inj' cut rfl).1
              exact so_far before after cut
          · refine distinct.sublist ?_
            rw [expand_append, expand_none, expand_nil, List.append_nil, List.append_assoc]
            simp only [ordinary_append, ordinary_marker, List.nil_append]
            exact (List.Sublist.refl _).append (List.sublist_append_right _ _)

end Undisturbed

/-! ## Texts with other elements -/

section Map

variable {γ : Type*} (f : γ → α) {mode : Split.TokenCompress}

theorem find_map (text : List γ) :
    find key pattern (text.map f) = find (key ∘ f) pattern text := by
  induction text with
  | nil => rfl
  | cons element text induction =>
      rw [List.map_cons, find_cons, find_cons, induction, List.map_cons, List.map_map]
      rfl

theorem loop_map (marker : List γ) (fuel : Nat) (text : List γ) :
    loop key pattern (marker.map f) fuel (text.map f) =
      (loop (key ∘ f) pattern marker fuel text).map (List.map f) := by
  induction fuel generalizing text with
  | zero => rfl
  | succ fuel induction =>
      rw [loop, loop, find_map]
      cases find (key ∘ f) pattern text with
      | none => rfl
      | some pos =>
          simp only [← List.map_take, ← List.map_drop, ← List.map_append]
          exact induction _

theorem mark_map (skip : Nat) (text : List γ) :
    mark key pattern skip (text.map f) = (mark (key ∘ f) pattern skip text).map (Option.map f) := by
  induction text generalizing skip with
  | nil => cases skip <;> rfl
  | cons element text induction =>
      cases skip with
      | succ skip => exact induction skip
      | zero =>
          rw [List.map_cons, mark, mark, ← List.map_cons, List.map_map]
          split
          · rw [induction, List.map_cons, Option.map_none]
          · rw [induction, List.map_cons, Option.map_some]

theorem expand_map (marker : List γ) (word : List (Option γ)) :
    expand (marker.map f) (word.map (Option.map f)) = (expand marker word).map f := by
  induction word with
  | nil => rfl
  | cons symbol word induction =>
      cases symbol with
      | none => simp [induction]
      | some element => simpa [expand] using induction

omit [DecidableEq β] in
theorem undisturbed_map (marker : List γ) (word : List (Option γ)) :
    Undisturbed key pattern (marker.map f) (word.map (Option.map f)) ↔
      Undisturbed (key ∘ f) pattern marker word := by
  constructor
  · intro undisturbed
    refine ⟨?_, ?_⟩
    · rintro before after rfl
      have next := undisturbed.before (before.map (Option.map f)) (after.map (Option.map f))
        (by simp)
      rwa [expand_map, List.map_map] at next
    · have last := undisturbed.whole
      rwa [expand_map, List.map_map] at last
  · intro undisturbed
    refine ⟨?_, ?_⟩
    · intro before after cut
      obtain ⟨before', rest, rfl, rfl, rest_eq⟩ := List.map_eq_append_iff.mp cut
      obtain ⟨symbol, after', rfl, none_eq, -⟩ := List.map_eq_cons_iff.mp rest_eq
      have next := undisturbed.before before' after' (by simpa using none_eq)
      rwa [expand_map, List.map_map]
    · rw [expand_map, List.map_map]
      exact undisturbed.whole

theorem tokens_map (word : List (Option γ)) :
    tokens mode (word.map (Option.map f)) = (tokens mode word).map (List.map f) := by
  have same : Option.isNone ∘ Option.map f = Option.isNone := by
    funext symbol
    cases symbol <;> rfl
  rw [tokens, tokens, Split.split_map, same, List.map_map, List.map_map]
  exact List.map_congr_left fun token _ => List.reduceOption_map

end Map

end Replace
