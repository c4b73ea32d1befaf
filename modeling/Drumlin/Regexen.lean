import Drumlin.Library.Runs
import Drumlin.Library.Cxx
import Drumlin.Library.Splice
import Drumlin.StringList

/-!
# Matches of regular expressions

`drumlin_regex` has Boost match an expression and records in an `iterate_impl` what is captured
(regexen.h).  What Boost reports is a parameter.
-/

namespace Drumlin

open Cxx Splice

/-- `std::string::substr`, which throws if `pos` is behind the end. -/
def Str.substr (string : Str) (pos n : Nat) : Option Str :=
  if pos ≤ string.length then some ((string.drop pos).take n) else none

/-- `iterate_impl::replacement`, and what Boost reports of the expression and of each group. -/
structure Replacement where
  position : Int
  length : Int
deriving DecidableEq, Repr

/-- `iterate_impl`. -/
structure IterateImpl where
  haystack : Str
  captures : List (Replacement × Str)
deriving DecidableEq, Repr

namespace IterateImpl

/-- The constructor. -/
def construct (haystack : Str) : IterateImpl := ⟨haystack, []⟩

/-- The body of the loop of `operator ()`. -/
def pushBack (impl : IterateImpl) (sub : Replacement) : Option IterateImpl :=
  (impl.haystack.substr (toSizeT sub.position) (toSizeT sub.length)).map fun text =>
    { impl with captures := impl.captures ++ [(sub, text)] }

/-- `iterate_impl::operator ()`. -/
def record (impl : IterateImpl) (cap : List Replacement) : Option (IterateImpl × Int) :=
  (Runs.exec pushBack impl cap).map fun impl => (impl, toInt cap.length)

/-- `iterate_impl::substitute`, of a group there must be. -/
def substitute (impl : IterateImpl) (call : Nat × Str) : Option IterateImpl :=
  if call.1 < impl.captures.length then
    some { impl with captures := impl.captures.modify call.1 fun capture => (capture.1, call.2) }
  else
    none

/-- The loop of `iterate_impl::replace`.  The difference of a position and `pos` is of the type of
`pos`, which is not signed. -/
def replaceEach (haystack : Str) : List (Replacement × Str) → Nat → Str → Option (Nat × Str)
  | [], pos, ss => some (pos, ss)
  | (replacement, text) :: captures, pos, ss =>
      let gap := toSizeT (replacement.position - pos)
      (haystack.substr pos gap).bind fun between =>
        replaceEach haystack captures (toSizeT ((toSizeT (pos + gap) : Int) + replacement.length))
          (ss ++ between ++ text)

/-- What `iterate_impl::replace` does behind the loop. -/
def replaceRest (haystack : Str) (pos : Nat) (ss : Str) : Option Str :=
  if pos < haystack.length then (haystack.substr pos Str.npos).map fun rest => ss ++ rest
  else some ss

/-- `iterate_impl::replace`. -/
def replace (impl : IterateImpl) : Option Str :=
  (replaceEach impl.haystack (impl.captures.drop 1) 0 []).bind fun (pos, ss) =>
    replaceRest impl.haystack pos ss

end IterateImpl

/-- `drumlin_regex`. -/
structure DrumlinRegex (Regex : Type*) where
  rx : Regex
  cap : List Replacement
  impl : Option IterateImpl

/-- Boost: `regex_match` and `regex_search`, with what they leave in the match results, and the
number of groups in an expression. -/
structure Boost (Regex Flags : Type*) where
  regexMatch : Regex → Flags → Str → Bool × List Replacement
  regexSearch : Regex → Flags → Str → Bool × List Replacement
  markCount : Regex → Nat

namespace DrumlinRegex

variable {Regex Flags : Type*}

/-- The body of `match` and of `search`, with what Boost has found. -/
def find (regex : DrumlinRegex Regex) (haystack : Str) (found : Bool × List Replacement) :
    Option (DrumlinRegex Regex × Bool) :=
  let regex := { regex with cap := found.2 }
  if found.1 then
    ((IterateImpl.construct haystack).record regex.cap).map fun (impl, _) =>
      ({ regex with impl := some impl }, true)
  else
    some (regex, false)

/-- `drumlin_regex::match`. -/
def matchHaystack (regex : DrumlinRegex Regex) (boost : Boost Regex Flags) (haystack : Str)
    (flags : Flags) : Option (DrumlinRegex Regex × Bool) :=
  regex.find haystack (boost.regexMatch regex.rx flags haystack)

/-- `drumlin_regex::search`. -/
def search (regex : DrumlinRegex Regex) (boost : Boost Regex Flags) (haystack : Str)
    (flags : Flags) : Option (DrumlinRegex Regex × Bool) :=
  regex.find haystack (boost.regexSearch regex.rx flags haystack)

end DrumlinRegex

/-! ## What is reported -/

/-- Boost's report of a group that took no part in the match. -/
def Replacement.unmatched : Replacement := ⟨-1, 0⟩

/-- The characters reported are in the haystack. -/
structure Replacement.Inside (sub : Replacement) (haystack : Str) : Prop where
  position_nonneg : 0 ≤ sub.position
  length_nonneg : 0 ≤ sub.length
  stop_le : sub.position + sub.length ≤ haystack.length

instance (sub : Replacement) (haystack : Str) : Decidable (sub.Inside haystack) :=
  decidable_of_iff
    (0 ≤ sub.position ∧ 0 ≤ sub.length ∧ sub.position + sub.length ≤ haystack.length)
    ⟨fun ⟨position, length, stop⟩ => ⟨position, length, stop⟩,
      fun ⟨position, length, stop⟩ => ⟨position, length, stop⟩⟩

/-- The positions in the haystack. -/
def Replacement.span (sub : Replacement) : Span := ⟨sub.position.toNat, sub.length.toNat⟩

/-- Of what is found, the expression and each group is reported, where it is in the haystack or as
not matched. -/
def Reports {Regex Flags : Type*} (markCount : Regex → Nat)
    (finds : Regex → Flags → Str → Bool × List Replacement) : Prop :=
  ∀ rx flags haystack, (finds rx flags haystack).1 →
    (finds rx flags haystack).2.length = markCount rx + 1 ∧
      ∀ sub ∈ (finds rx flags haystack).2, sub = .unmatched ∨ sub.Inside haystack

/-- What is known of Boost. -/
structure Boost.Documented {Regex Flags : Type*} (boost : Boost Regex Flags) : Prop where
  regexMatch : Reports boost.markCount boost.regexMatch
  regexSearch : Reports boost.markCount boost.regexSearch

/-! ## Recording -/

namespace Replacement.Inside

variable {sub : Replacement} {haystack : Str}

theorem span_stop_le (inside : sub.Inside haystack) : sub.span.stop ≤ haystack.length := by
  obtain ⟨position_nonneg, length_nonneg, stop_le⟩ := inside
  rw [Span.stop, span]
  dsimp only
  omega

theorem toSizeT_position (inside : sub.Inside haystack) (sized : haystack.length < Str.npos) :
    toSizeT sub.position = sub.span.start := by
  obtain ⟨position_nonneg, length_nonneg, stop_le⟩ := inside
  rw [Str.npos] at sized
  exact toSizeT_of_bounds position_nonneg (by omega)

theorem toSizeT_length (inside : sub.Inside haystack) (sized : haystack.length < Str.npos) :
    toSizeT sub.length = sub.span.length := by
  obtain ⟨position_nonneg, length_nonneg, stop_le⟩ := inside
  rw [Str.npos] at sized
  exact toSizeT_of_bounds length_nonneg (by omega)

/-- What is in the haystack is copied from it. -/
theorem substr_eq (inside : sub.Inside haystack) (sized : haystack.length < Str.npos) :
    haystack.substr (toSizeT sub.position) (toSizeT sub.length) = some (sub.span.of haystack) := by
  have start_le := sub.span.start_le_stop.trans inside.span_stop_le
  rw [inside.toSizeT_position sized, inside.toSizeT_length sized, Str.substr, if_pos start_le,
    Span.of]

end Replacement.Inside

/-- A group that is not matched would begin far behind the end. -/
theorem substr_unmatched {haystack : Str} (sized : haystack.length < Str.npos) :
    haystack.substr (toSizeT Replacement.unmatched.position)
      (toSizeT Replacement.unmatched.length) = none := by
  have position : toSizeT Replacement.unmatched.position = Str.npos := by decide
  rw [position, Str.substr, if_neg (not_le.mpr sized)]

namespace IterateImpl

/-- The captures of the groups. -/
def capturesOf (haystack : Str) (cap : List Replacement) : List (Replacement × Str) :=
  cap.map fun sub => (sub, sub.span.of haystack)

theorem exec_pushBack {haystack : Str} (sized : haystack.length < Str.npos)
    {cap : List Replacement} (inside : ∀ sub ∈ cap, sub.Inside haystack)
    (captures : List (Replacement × Str)) :
    Runs.exec pushBack ⟨haystack, captures⟩ cap =
      some ⟨haystack, captures ++ capturesOf haystack cap⟩ := by
  induction cap generalizing captures with
  | nil => simp [capturesOf]
  | cons sub cap induction =>
      obtain ⟨sub_inside, cap_inside⟩ := List.forall_mem_cons.mp inside
      refine Runs.exec_cons_eq_some.mpr
        ⟨⟨haystack, captures ++ [(sub, sub.span.of haystack)]⟩, ?_, ?_⟩
      · rw [pushBack, sub_inside.substr_eq sized, Option.map_some]
      · rw [induction cap_inside, capturesOf, capturesOf, List.map_cons, List.append_assoc,
          List.singleton_append]

/-- All that is in the haystack is recorded. -/
theorem record_eq {haystack : Str} (sized : haystack.length < Str.npos) {cap : List Replacement}
    (inside : ∀ sub ∈ cap, sub.Inside haystack) :
    (construct haystack).record cap =
      some (⟨haystack, capturesOf haystack cap⟩, toInt cap.length) := by
  rw [record, construct, exec_pushBack sized inside, List.nil_append, Option.map_some]

/-- Nothing is recorded once a group is not matched. -/
theorem exec_pushBack_unmatched {haystack : Str} (sized : haystack.length < Str.npos)
    {cap : List Replacement} (member : .unmatched ∈ cap) (captures : List (Replacement × Str)) :
    Runs.exec pushBack ⟨haystack, captures⟩ cap = none := by
  induction cap generalizing captures with
  | nil => cases member
  | cons sub cap induction =>
      rw [Runs.exec]
      rcases List.mem_cons.mp member with rfl | later
      · rw [pushBack, substr_unmatched sized]
        rfl
      · cases pushed : pushBack ⟨haystack, captures⟩ sub with
        | none => rfl
        | some next =>
            obtain ⟨text, -, rfl⟩ := Option.map_eq_some_iff.mp pushed
            exact induction later _

end IterateImpl

/-! ## Expressions that are found -/

/-- The call returns `true`, and the expression and each group is recorded. -/
def Records {Regex : Type*} (groups : Nat) (call : Option (DrumlinRegex Regex × Bool)) : Prop :=
  ∃ regex impl, call = some (regex, true) ∧ regex.impl = some impl ∧
    impl.captures.length = groups + 1

theorem DrumlinRegex.find_records_iff {Regex : Type*} (regex : DrumlinRegex Regex) {haystack : Str}
    (sized : haystack.length < Str.npos) {found : Bool × List Replacement} {groups : Nat}
    (accepted : found.1) (all : found.2.length = groups + 1)
    (reported : ∀ sub ∈ found.2, sub = .unmatched ∨ sub.Inside haystack) :
    Records groups (regex.find haystack found) ↔ ∀ sub ∈ found.2, sub ≠ .unmatched := by
  constructor
  · rintro ⟨later, impl, called, -⟩ sub member rfl
    rw [find, if_pos accepted] at called
    dsimp only at called
    rw [IterateImpl.record, IterateImpl.construct,
      IterateImpl.exec_pushBack_unmatched sized member] at called
    cases called
  · intro matched
    have inside : ∀ sub ∈ found.2, sub.Inside haystack := by
      intro sub member
      exact (reported sub member).resolve_left (matched sub member)
    let impl : IterateImpl := ⟨haystack, IterateImpl.capturesOf haystack found.2⟩
    refine ⟨{ regex with cap := found.2, impl := some impl }, impl, ?_, rfl, ?_⟩
    · rw [find, if_pos accepted]
      dsimp only
      rw [IterateImpl.record_eq sized inside, Option.map_some]
    · exact (List.length_map _).trans all

/-- A haystack that is accepted is recorded precisely if all groups take part in the match. -/
theorem records_iff {Regex Flags : Type*} {boost : Boost Regex Flags}
    (documented : boost.Documented) (regex : DrumlinRegex Regex) (flags : Flags) {haystack : Str}
    (sized : haystack.length < Str.npos) :
    ((boost.regexMatch regex.rx flags haystack).1 →
      (Records (boost.markCount regex.rx) (regex.matchHaystack boost haystack flags) ↔
        ∀ sub ∈ (boost.regexMatch regex.rx flags haystack).2, sub ≠ .unmatched)) ∧
    ((boost.regexSearch regex.rx flags haystack).1 →
      (Records (boost.markCount regex.rx) (regex.search boost haystack flags) ↔
        ∀ sub ∈ (boost.regexSearch regex.rx flags haystack).2, sub ≠ .unmatched)) := by
  constructor
  · intro accepted
    obtain ⟨all, reported⟩ := documented.regexMatch regex.rx flags haystack accepted
    exact regex.find_records_iff sized accepted all reported
  · intro accepted
    obtain ⟨all, reported⟩ := documented.regexSearch regex.rx flags haystack accepted
    exact regex.find_records_iff sized accepted all reported

/-- Boost, of the expression `(a)|b`. -/
def Boost.alternative : Boost Unit Unit where
  regexMatch _ _ haystack :=
    if haystack = [97] then (true, [⟨0, 1⟩, ⟨0, 1⟩])
    else if haystack = [98] then (true, [⟨0, 1⟩, .unmatched])
    else (false, [])
  regexSearch _ _ haystack :=
    match haystack.findIdx? fun character => character == 97 || character == 98 with
    | none => (false, [])
    | some position =>
        (true, [⟨position, 1⟩,
          if haystack[position]? = some 97 then ⟨position, 1⟩ else .unmatched])
  markCount _ := 1

theorem Boost.alternative_documented : Boost.alternative.Documented := by
  have first (position : Nat) (haystack : Str) (within : position < haystack.length) :
      Replacement.Inside ⟨position, 1⟩ haystack :=
    ⟨Int.natCast_nonneg position, Int.one_nonneg, Int.add_one_le_of_lt (Int.ofNat_lt.mpr within)⟩
  constructor
  · intro rx flags haystack accepted
    simp only [Boost.alternative] at accepted ⊢
    split_ifs at accepted ⊢ with a b
    · subst a
      exact ⟨rfl, by simpa using .inr (first 0 [97] Nat.one_pos)⟩
    · subst b
      exact ⟨rfl, by simpa using .inr (first 0 [98] Nat.one_pos)⟩
  · intro rx flags haystack accepted
    simp only [Boost.alternative] at accepted ⊢
    split at accepted
    · cases accepted
    · rename_i position found
      have inside := first position haystack (List.findIdx?_eq_some_iff_getElem.mp found).1
      refine ⟨rfl, ?_⟩
      dsimp only
      split_ifs <;> simp [inside]

/-- The group is matched, within the haystack `xa`. -/
theorem records_of_matched :
    Records 1 (DrumlinRegex.search ⟨(), [], none⟩ Boost.alternative [120, 97] ()) :=
  ((records_iff Boost.alternative_documented ⟨(), [], none⟩ () (by decide)).2 (by decide)).mpr
    (by decide)

/-- The group is not matched. -/
theorem records_fails :
    ¬∀ (boost : Boost Unit Unit), boost.Documented →
      ∀ (regex : DrumlinRegex Unit) (flags : Unit) (haystack : Str), haystack.length < Str.npos →
        (boost.regexMatch regex.rx flags haystack).1 →
          Records (boost.markCount regex.rx) (regex.matchHaystack boost haystack flags) := by
  intro always
  obtain ⟨later, impl, called, -⟩ :=
    always .alternative Boost.alternative_documented ⟨(), [], none⟩ () [98] (by decide) (by decide)
  have thrown : DrumlinRegex.matchHaystack ⟨(), [], none⟩ Boost.alternative [98] () = none := by
    decide
  rw [thrown] at called
  cases called

end Drumlin
