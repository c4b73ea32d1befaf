import Drumlin.Library.Runs
import Drumlin.ThreadSelection

/-!
# Clearing an accessor

`clear` resets an accessor except for the threads it found by name and by type.  A cleared accessor
is compared here with a new one, call by call.
-/

namespace Drumlin

namespace ThreadAccessor

/-- A call made on an accessor. -/
inductive Call
  | select (selection : Selection)
  | allNames (b : Bool)
  | allTypes (b : Bool)
  | getNamed
  | getTyped
  | selectBoth
deriving DecidableEq, Repr

variable (attributes : ThreadAttributes) (app : Application)

/-- The accessor after one call, if what the call does is defined. -/
def call (access : ThreadAccessor) : Call → Option ThreadAccessor
  | .select selection => some (access.select attributes app selection).1
  | .allNames b => some (access.allNames b)
  | .allTypes b => some (access.allTypes b)
  | .getNamed => some (access.getNamed app)
  | .getTyped => some (access.getTyped app)
  | .selectBoth => access.selectBoth app

/-- The selection after one call. -/
def selected (access : ThreadAccessor) (request : Call) : List (Option (List Nat)) :=
  [(access.call attributes app request).map selection]

/-- The selections after each call of a run, up to a call whose effect is not defined. -/
def selections (access : ThreadAccessor) (calls : List Call) : List (Option (List Nat)) :=
  Runs.observed (call attributes app) (selected attributes app) access calls

/-! ## What the calls since `clear` settle -/

/-- What the calls made so far settle. -/
structure Since where
  /-- `named` was called. -/
  named : Bool
  /-- `typed` was called. -/
  typed : Bool
  /-- All names are selected. -/
  allNames : Bool
  /-- All types are selected. -/
  allTypes : Bool
deriving DecidableEq, Repr

namespace Since

/-- No call was made. -/
def start : Since := ⟨false, false, false, false⟩

/-- What is settled after one more call.  With one flag, `selectBoth` is not defined. -/
def call (since : Since) : Call → Option Since
  | .select (.named _) => some { since with named := true, allNames := false }
  | .select (.typed _) => some { since with typed := true, allTypes := false }
  | .allNames b => some { since with allNames := b }
  | .allTypes b => some { since with allTypes := b }
  | .select (.getWorkered _) | .getNamed | .getTyped => some since
  | .selectBoth => if since.allNames = since.allTypes then some since else none

/-- The call does not select threads that were found before `clear`. -/
def Settles (access : ThreadAccessor) (since : Since) (request : Call) : Prop :=
  (request = .getNamed →
    since.allNames = true ∨ since.named = true ∨ access.namedThreads = []) ∧
  (request = .getTyped → since.allTypes = true ∨ since.typed = true ∨ access.typedThreads = [])

end Since

/-- The threads found before `clear`, those a cleared accessor holds and those a new one holds, and
whether they were looked for since. -/
structure Mirrored (stale cleared fresh : List Nat) (since : Bool) : Prop where
  renewed : since = true → cleared = fresh
  kept : since = false → cleared = stale ∧ fresh = []

/-- A selection of these threads, or of all, is the same precisely if it is settled. -/
theorem Mirrored.select_eq_iff {stale cleared fresh : List Nat} {since : Bool}
    (mirrored : Mirrored stale cleared fresh since) (all : Bool) (threads : List Nat) :
    (if all then threads else cleared) = (if all then threads else fresh) ↔
      all = true ∨ since = true ∨ stale = [] := by
  cases all with
  | true => simp
  | false =>
      cases since with
      | true => simp [mirrored.renewed rfl]
      | false =>
          obtain ⟨stays, none⟩ := mirrored.kept rfl
          simp [stays, none]

theorem mirrored_of_found (stale found : List Nat) : Mirrored stale found found true :=
  ⟨fun _ => rfl, nofun⟩

/-- An accessor that was cleared, a new one, and what the calls made on both settle. -/
structure Mirrors (access cleared fresh : ThreadAccessor) (since : Since) : Prop where
  cleared_flagAllName : cleared.flagAllName = since.allNames
  fresh_flagAllName : fresh.flagAllName = since.allNames
  cleared_flagAllType : cleared.flagAllType = since.allTypes
  fresh_flagAllType : fresh.flagAllType = since.allTypes
  selection_eq : cleared.selection = fresh.selection
  named : Mirrored access.namedThreads cleared.namedThreads fresh.namedThreads since.named
  typed : Mirrored access.typedThreads cleared.typedThreads fresh.typedThreads since.typed

theorem mirrors_start (access : ThreadAccessor) :
    Mirrors access access.clear construct .start where
  cleared_flagAllName := rfl
  fresh_flagAllName := rfl
  cleared_flagAllType := rfl
  fresh_flagAllType := rfl
  selection_eq := rfl
  named := ⟨nofun, fun _ => ⟨rfl, rfl⟩⟩
  typed := ⟨nofun, fun _ => ⟨rfl, rfl⟩⟩

variable {attributes app} {access cleared fresh : ThreadAccessor} {since : Since}

/-- The two accessors select the same by name precisely if the name is settled. -/
theorem Mirrors.getNamed_eq_iff (mirrors : Mirrors access cleared fresh since) :
    (cleared.getNamed app).selection = (fresh.getNamed app).selection ↔
      since.allNames = true ∨ since.named = true ∨ access.namedThreads = [] := by
  simp only [getNamed, mirrors.cleared_flagAllName, mirrors.fresh_flagAllName]
  exact mirrors.named.select_eq_iff since.allNames app.threads

/-- The two accessors select the same by type precisely if the type is settled. -/
theorem Mirrors.getTyped_eq_iff (mirrors : Mirrors access cleared fresh since) :
    (cleared.getTyped app).selection = (fresh.getTyped app).selection ↔
      since.allTypes = true ∨ since.typed = true ∨ access.typedThreads = [] := by
  simp only [getTyped, mirrors.cleared_flagAllType, mirrors.fresh_flagAllType]
  exact mirrors.typed.select_eq_iff since.allTypes app.threads

/-- `selectBoth` is not defined on either, or selects the same threads. -/
theorem Mirrors.selectBoth (app : Application) (mirrors : Mirrors access cleared fresh since) :
    cleared.selectBoth app = none ∧ fresh.selectBoth app = none ∧
        since.call .selectBoth = none ∨
      ∃ selection, cleared.selectBoth app = some { cleared with selection } ∧
        fresh.selectBoth app = some { fresh with selection } ∧
        since.call .selectBoth = some since := by
  simp only [selectBoth_eq, Since.call, mirrors.cleared_flagAllName, mirrors.cleared_flagAllType,
    mirrors.fresh_flagAllName, mirrors.fresh_flagAllType]
  cases since.allNames <;> cases since.allTypes
  · exact .inr ⟨[], rfl, rfl, rfl⟩
  · exact .inl ⟨rfl, rfl, rfl⟩
  · exact .inl ⟨rfl, rfl, rfl⟩
  · exact .inr ⟨app.threads, rfl, rfl, rfl⟩

/-- A call shows the same on both precisely if what it selects is settled. -/
theorem Mirrors.selected_eq_iff (mirrors : Mirrors access cleared fresh since) (request : Call) :
    cleared.selected attributes app request = fresh.selected attributes app request ↔
      since.Settles access request := by
  cases request with
  | select selection =>
      cases selection <;>
        simp [selected, call, select, ThreadAccessor.named, ThreadAccessor.typed, getWorkered,
          Since.Settles, mirrors.selection_eq]
  | allNames b => simp [selected, call, allNames, Since.Settles, mirrors.selection_eq]
  | allTypes b => simp [selected, call, allTypes, Since.Settles, mirrors.selection_eq]
  | getNamed => simp [selected, call, Since.Settles, mirrors.getNamed_eq_iff]
  | getTyped => simp [selected, call, Since.Settles, mirrors.getTyped_eq_iff]
  | selectBoth =>
      refine iff_of_true ?_ ⟨by simp, by simp⟩
      rcases mirrors.selectBoth app with ⟨cleared, fresh, -⟩ | ⟨selection, cleared, fresh, -⟩
      · simp [selected, call, cleared, fresh]
      · simp [selected, call, cleared, fresh]

/-- A call after which both show the same leaves the accessors alike, or is not defined on
either. -/
theorem Mirrors.call (mirrors : Mirrors access cleared fresh since) (request : Call)
    (settles : since.Settles access request) :
    cleared.call attributes app request = none ∧ fresh.call attributes app request = none ∧
        since.call request = none ∨
      ∃ cleared' fresh' since', cleared.call attributes app request = some cleared' ∧
        fresh.call attributes app request = some fresh' ∧ since.call request = some since' ∧
        Mirrors access cleared' fresh' since' := by
  cases request with
  | select selection =>
      refine .inr ?_
      cases selection with
      | named name =>
          exact ⟨_, _, _, rfl, rfl, rfl,
            { mirrors with
              cleared_flagAllName := rfl
              fresh_flagAllName := rfl
              named := mirrored_of_found _ _ }⟩
      | typed type =>
          exact ⟨_, _, _, rfl, rfl, rfl,
            { mirrors with
              cleared_flagAllType := rfl
              fresh_flagAllType := rfl
              typed := mirrored_of_found _ _ }⟩
      | getWorkered worker =>
          exact ⟨_, _, _, rfl, rfl, rfl, { mirrors with selection_eq := rfl }⟩
  | allNames b =>
      exact .inr ⟨_, _, _, rfl, rfl, rfl,
        { mirrors with cleared_flagAllName := rfl, fresh_flagAllName := rfl }⟩
  | allTypes b =>
      exact .inr ⟨_, _, _, rfl, rfl, rfl,
        { mirrors with cleared_flagAllType := rfl, fresh_flagAllType := rfl }⟩
  | getNamed =>
      exact .inr ⟨_, _, _, rfl, rfl, rfl,
        { mirrors with selection_eq := mirrors.getNamed_eq_iff.mpr (settles.1 rfl) }⟩
  | getTyped =>
      exact .inr ⟨_, _, _, rfl, rfl, rfl,
        { mirrors with selection_eq := mirrors.getTyped_eq_iff.mpr (settles.2 rfl) }⟩
  | selectBoth =>
      rcases mirrors.selectBoth app with undefined | ⟨selection, cleared, fresh, since⟩
      · exact .inl undefined
      · exact .inr ⟨_, _, _, cleared, fresh, since, { mirrors with selection_eq := rfl }⟩

/-- Whatever was done with an accessor, once cleared it selects what a new one does precisely if all
names are selected, or `named` was called, before a selection by name; or nothing had been found by
name before.  The same goes for types. -/
theorem selections_clear_iff (attributes : ThreadAttributes) (app : Application)
    (access : ThreadAccessor) (calls : List Call) :
    access.clear.selections attributes app calls = construct.selections attributes app calls ↔
      Runs.Along Since.call (Since.Settles access) .start calls := by
  have aligned : ∀ (one other : ThreadAccessor) request,
      (one.selected attributes app request).length =
        (other.selected attributes app request).length := fun _ _ _ => rfl
  apply Runs.observed_eq_iff_along (Mirrors access) aligned
  · intro cleared fresh since request mirrors
    exact mirrors.selected_eq_iff request
  · intro cleared fresh since request mirrors settles
    exact mirrors.call request settles
  · exact mirrors_start access

/-- What was found by name before is selected after. -/
theorem selections_clear_fails :
    ¬∀ (attributes : ThreadAttributes) (app : Application) (history calls : List Call)
        (access : ThreadAccessor),
      Runs.exec (call attributes app) construct history = some access →
      access.clear.selections attributes app calls = construct.selections attributes app calls := by
  intro same
  let attributes : ThreadAttributes := ⟨fun _ => "worker", id, fun worker => (worker, "type")⟩
  have stale := same attributes ⟨[1], [], [], [], []⟩ [.select (.named "worker")] [.getNamed] _ rfl
  revert stale
  decide

end ThreadAccessor

end Drumlin
