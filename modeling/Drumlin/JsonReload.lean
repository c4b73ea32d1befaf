import Drumlin.JsonConfig
import Drumlin.Library.Runs

/-!
# What `reload` leaves behind

`reload` is one loop over the visible paths outside of its list and then over the list, from an
empty map.  It fills in a null pointer for a path of the list that has no file, and when it throws,
what it has deleted and filled in so far stays.
-/

namespace Drumlin.Config.Registry

variable {Error Json : Type*} {fromString : Str → Except Error Json} {files : Files}
  {list : Std.ExtTreeSet Str} {registry : Registry Json} {path : Str}

/-! ## One loop over the paths -/

/-- The registry in front of the second loop. -/
def cleared (files : Files) (registry : Registry Json) : Registry Json :=
  { (registry.forgetAll files).1 with jsons := ∅ }

/-- The visible paths that are not listed. -/
def unlisted (files : Files) (list : Std.ExtTreeSet Str) (registry : Registry Json) : List Str :=
  (registry.forgetAll files).2.toList.filter fun li => !list.contains li

theorem reload_eq_fillAll (fromString : Str → Except Error Json) (files : Files)
    (list : Std.ExtTreeSet Str) (registry : Registry Json) :
    registry.reload fromString files list =
      fillAll fromString files (registry.unlisted files list ++ list.toList)
        (registry.cleared files) := by
  rw [fillAll_append]
  rfl

theorem mem_foldl_forget {entries : List (Str × Option Nat)}
    {seen : Registry Json × Std.ExtTreeSet Str} :
    path ∈ (entries.foldl (forget files) seen).2 ↔
      path ∈ seen.2 ∨ path ∈ entries.map Prod.fst ∧ (files path).isSome := by
  induction entries generalizing seen with
  | nil => simp
  | cons entry entries induction =>
      have first : path ∈ (forget files seen entry).2 ↔
          path ∈ seen.2 ∨ path = entry.1 ∧ (files path).isSome := by
        rw [forget]
        split
        · rename_i there
          rw [Std.ExtTreeSet.mem_insert, Std.compare_eq_iff_eq]
          constructor
          · rintro (rfl | before)
            · exact .inr ⟨rfl, there⟩
            · exact .inl before
          · rintro (before | ⟨rfl, -⟩)
            · exact .inr before
            · exact .inl rfl
        · rename_i missing
          constructor
          · exact .inl
          · rintro (before | ⟨rfl, there⟩)
            · exact before
            · exact (missing there).elim
      rw [List.foldl_cons, induction, first, List.map_cons, List.mem_cons]
      tauto

theorem length_configs_foldl_forget (files : Files) (entries : List (Str × Option Nat))
    (seen : Registry Json × Std.ExtTreeSet Str) :
    (entries.foldl (forget files) seen).1.configs.length = seen.1.configs.length := by
  induction entries generalizing seen with
  | nil => rfl
  | cons entry entries induction =>
      rw [List.foldl_cons, induction]
      obtain ⟨path, pointer⟩ := entry
      cases pointer <;> simp [forget]

theorem length_configs_cleared (files : Files) (registry : Registry Json) :
    (registry.cleared files).configs.length = registry.configs.length :=
  length_configs_foldl_forget files _ _

theorem live_cleared (files : Files) (registry : Registry Json) :
    (registry.cleared files).Live := by
  intro path config found
  simp [cleared] at found

theorem notMem_cleared : path ∉ (registry.cleared files).jsons := by
  simp [cleared]

theorem entry_cleared (files : Files) (registry : Registry Json) (path : Str) :
    (registry.cleared files).entry path = none := by
  simp [cleared, entry]

theorem mem_unlisted : path ∈ registry.unlisted files list ↔
    path ∈ registry.jsons ∧ (files path).isSome ∧ path ∉ list := by
  have outside : (!list.contains path) = true ↔ path ∉ list := by
    rw [Bool.not_eq_true', Std.ExtTreeSet.mem_iff_contains, Bool.not_eq_true]
  rw [unlisted, List.mem_filter, Std.ExtTreeSet.mem_toList, outside, forgetAll, mem_foldl_forget]
  simp [and_assoc]

/-- The paths that `reload` visits. -/
theorem mem_visited : path ∈ registry.unlisted files list ++ list.toList ↔
    path ∈ list ∨ path ∈ registry.jsons ∧ (files path).isSome := by
  rw [List.mem_append, mem_unlisted, Std.ExtTreeSet.mem_toList]
  tauto

/-- If all files parse, `reload` gives each path that it visits what is in its file. -/
theorem reload_of_readable
    (readable : ∀ path, path ∈ list ∨ path ∈ registry.jsons → Readable fromString files path) :
    ∃ filled, registry.reload fromString files list = (filled, .ok ()) ∧ filled.Live ∧
      ∀ path, filled.entry path =
        if path ∈ list ∨ path ∈ registry.jsons ∧ (files path).isSome then
          some (contents fromString files path)
        else none := by
  have visited : ∀ path ∈ registry.unlisted files list ++ list.toList,
      Readable fromString files path := fun path member =>
    readable path ((mem_visited.mp member).imp_right And.left)
  obtain ⟨filled, run, extended⟩ := (live_cleared files registry).fillAll visited
  refine ⟨filled, by rw [reload_eq_fillAll, run], extended.live, fun path => ?_⟩
  rw [extended.entry, entry_cleared, Option.none_or]
  simp only [mem_visited]

/-! ## Missing files -/

/-- A later call of `fromFile`, with the files as they are then. -/
def lookUp (fromString : Str → Except Error Json) (registry : Registry Json)
    (request : Files × Str) : Registry Json :=
  (registry.fromFile fromString request.1 request.2).1

/-- What `reload` is for: the registry has the paths with a file that it had or that are listed,
each with what is in the file, and later calls of `fromFile` return null only where no file is. -/
structure Restored (fromString : Str → Except Error Json) (files : Files)
    (list : Std.ExtTreeSet Str) (before after : Registry Json) : Prop where
  paths : ∀ path, path ∈ after.jsons ↔
    (files path).isSome ∧ (path ∈ before.jsons ∨ path ∈ list)
  configs : ∀ (path : Str) pointer, after.jsons[path]? = some pointer →
    ∃ config text value, pointer = some config ∧
      after.configs[config]? = some (some value) ∧
      files path = some text ∧ fromString text = .ok value
  later : ∀ (requests : List (Files × Str)) now path,
    ((requests.foldl (lookUp fromString) after).fromFile fromString now path).2 = .ok none →
      now path = none

/-- No entry is null. -/
def Whole (registry : Registry Json) : Prop := ∀ path : Str, registry.jsons[path]? ≠ some none

theorem Whole.lookUp (whole : registry.Whole) (request : Files × Str) :
    (registry.lookUp fromString request).Whole := by
  obtain ⟨files, path⟩ := request
  rw [Registry.lookUp]
  by_cases present : path ∈ registry.jsons
  · obtain ⟨pointer, -, read⟩ :=
      fromFile_of_mem fromString files present
    rwa [read]
  · rw [fromFile_of_notMem present]
    split
    · exact whole
    · split
      · exact whole
      · intro other
        rw [StdMap.getElem?_insertIfNew_of_notMem present]
        split
        · simp
        · exact whole other

/-- Without null entries, null stands for a missing file. -/
theorem Whole.fromFile_eq_none (whole : registry.Whole)
    (returned : (registry.fromFile fromString files path).2 = .ok none) : files path = none := by
  by_cases present : path ∈ registry.jsons
  · obtain ⟨pointer, found, read⟩ :=
      fromFile_of_mem fromString files present
    rw [read] at returned
    obtain rfl := Except.ok.inj returned
    exact (whole path found).elim
  · rw [fromFile_of_notMem present] at returned
    split at returned
    · assumption
    · split at returned
      · simp at returned
      · simp at returned

/-- An entry with what is in a file that parses is a configuration with that value. -/
theorem config_of_entry (readable : Readable fromString files path)
    (there : (files path).isSome)
    (entry : registry.entry path = some (contents fromString files path)) {pointer : Option Nat}
    (found : registry.jsons[path]? = some pointer) :
    ∃ config text value, pointer = some config ∧
      registry.configs[config]? = some (some value) ∧
      files path = some text ∧ fromString text = .ok value := by
  obtain ⟨text, file⟩ := Option.isSome_iff_exists.mp there
  obtain ⟨value, parsed⟩ := readable text file
  rw [contents, file, Option.bind_some, parsed, Registry.entry, found, Option.map_some] at entry
  obtain ⟨config, rfl, lives⟩ := Option.bind_eq_some_iff.mp (Option.some.inj entry)
  exact ⟨config, text, value, rfl, Option.join_eq_some_iff.mp lives, file, parsed⟩

/-- When all files parse, `reload` does what it is for precisely if every listed path has a file. -/
theorem reload_restores_iff (fromString : Str → Except Error Json) (files : Files)
    (parses : ∀ path, Readable fromString files path) (list : Std.ExtTreeSet Str)
    (registry : Registry Json) :
    Restored fromString files list registry (registry.reload fromString files list).1 ↔
      ∀ path ∈ list, (files path).isSome := by
  have readable : ∀ path, path ∈ list ∨ path ∈ registry.jsons →
      Readable fromString files path := fun path _ => parses path
  obtain ⟨filled, run, live, entries⟩ := reload_of_readable readable
  rw [run]
  have known : ∀ path, path ∈ filled.jsons ↔
      path ∈ list ∨ path ∈ registry.jsons ∧ (files path).isSome := fun path => by
    rw [mem_iff_entry, entries]
    split <;> simp_all
  constructor
  · intro restored path listed
    exact ((restored.paths path).mp ((known path).mpr (.inl listed))).1
  · intro exist
    have exists_of_mem : ∀ path ∈ filled.jsons, (files path).isSome := fun path member =>
      ((known path).mp member).elim (exist path) And.right
    have read : ∀ (path : Str) pointer, filled.jsons[path]? = some pointer →
        ∃ config text value, pointer = some config ∧
          filled.configs[config]? = some (some value) ∧
          files path = some text ∧ fromString text = .ok value := by
      intro path pointer found
      have member : path ∈ filled.jsons :=
        Std.ExtTreeMap.mem_iff_isSome_getElem?.mpr (by simp [found])
      have entry := entries path
      rw [if_pos ((known path).mp member)] at entry
      exact config_of_entry (parses path) (exists_of_mem path member) entry found
    refine ⟨fun path => ?_, read, fun requests now path returned => ?_⟩
    · rw [known]
      have := exist path
      tauto
    · have whole : filled.Whole := fun path found => by
        obtain ⟨config, -, -, null, -⟩ := read path none found
        simp at null
      have preserved : ∀ registry request, Whole registry →
          Whole (lookUp fromString registry request) :=
        fun _ request whole => whole.lookUp request
      exact (Runs.foldl_invariant preserved whole requests).fromFile_eq_none returned

/-- A registry that is restored from a file that exists. -/
theorem reload_restores_one :
    Restored (fun _ => (.ok () : Except Unit Unit)) (fun _ => some []) {[97]} start
      (start.reload (fun _ => (.ok () : Except Unit Unit)) (fun _ => some []) {[97]}).1 :=
  (reload_restores_iff _ _ (fun _ _ _ => ⟨(), rfl⟩) _ _).mpr fun _ _ => rfl

/-- A listed path without a file gets a null entry, which hides the file when there is one. -/
theorem reload_restores_fails :
    ¬Restored (fun _ => (.ok () : Except Unit Unit)) (fun _ => none) {[97]} start
      (start.reload (fun _ => (.ok () : Except Unit Unit)) (fun _ => none) {[97]}).1 := by
  intro restored
  have hidden := restored.later [] (fun _ => some []) [97] (by rfl)
  simp at hidden

/-! ## Malformed files -/

/-- The registry is as it was, and so are the configurations it refers to. -/
structure Unchanged (before after : Registry Json) : Prop where
  jsons : after.jsons = before.jsons
  configs : ∀ (path : Str) (config : Nat), before.jsons[path]? = some (some config) →
    after.configs[config]? = before.configs[config]?

/-- A call of `reload` or `fromFile` that throws changes nothing. -/
structure Atomic (fromString : Str → Except Error Json) (files : Files)
    (list : Std.ExtTreeSet Str) (registry : Registry Json) : Prop where
  reload : ∀ error, (registry.reload fromString files list).2 = .error error →
    Unchanged registry (registry.reload fromString files list).1
  fromFile : ∀ path error, (registry.fromFile fromString files path).2 = .error error →
    Unchanged registry (registry.fromFile fromString files path).1

/-- The registry has no entries but the null ones that `reload` fills in before it fails, which is
at the first listed path with a file. -/
def RefilledInVain (fromString : Str → Except Error Json) (files : Files)
    (list : Std.ExtTreeSet Str) (registry : Registry Json) : Prop :=
  (∃ path, list.toList.find? (fun li => (files li).isSome) = some path ∧
    ¬Readable fromString files path) ∧
  ∀ path : Str, registry.jsons[path]? =
    if path ∈ list.toList.takeWhile (fun li => (files li).isNone) then some none else none

theorem fromFile_atomic {error : Error}
    (threw : (registry.fromFile fromString files path).2 = .error error) :
    Unchanged registry (registry.fromFile fromString files path).1 := by
  by_cases present : path ∈ registry.jsons
  · obtain ⟨pointer, -, read⟩ :=
      fromFile_of_mem fromString files present
    rw [read]
    exact ⟨rfl, fun _ _ _ => rfl⟩
  · rw [fromFile_of_notMem present] at threw ⊢
    split
    · exact ⟨rfl, fun _ _ _ => rfl⟩
    · rename_i text file
      cases parsed : fromString text with
      | error => exact ⟨rfl, fun _ _ _ => rfl⟩
      | ok value => simp [file, parsed] at threw

theorem exists_of_not_readable (malformed : ¬Readable fromString files path) :
    ∃ text error, files path = some text ∧ fromString text = .error error := by
  simp only [Readable, not_forall] at malformed
  obtain ⟨text, file, fails⟩ := malformed
  cases parsed : fromString text with
  | error error => exact ⟨text, error, file, parsed⟩
  | ok value => exact (fails ⟨value, parsed⟩).elim

/-- A list has no path that does not parse, or a first one. -/
theorem readable_or_first (fromString : Str → Except Error Json) (files : Files)
    (paths : List Str) :
    (∀ path ∈ paths, Readable fromString files path) ∨
      ∃ front path back, paths = front ++ path :: back ∧
        (∀ other ∈ front, Readable fromString files other) ∧
        ¬Readable fromString files path := by
  classical
  cases first : paths.find? fun path => ¬Readable fromString files path with
  | none => exact .inl fun path member => by simpa using List.find?_eq_none.mp first path member
  | some path =>
      obtain ⟨malformed, front, back, split, before⟩ := List.find?_eq_some_iff_append.mp first
      exact .inr ⟨front, path, back, split, fun other member => by simpa using before other member,
        by simpa using malformed⟩

/-- What is left when the loop ends at a path. -/
theorem reload_of_split {front back : List Str}
    (split : registry.unlisted files list ++ list.toList = front ++ path :: back)
    (readable : ∀ other ∈ front, Readable fromString files other)
    (malformed : ¬Readable fromString files path) :
    ∃ filled error, registry.reload fromString files list = (filled, .error error) ∧
      Extends fromString files front (registry.cleared files) filled := by
  obtain ⟨text, error, file, fails⟩ := exists_of_not_readable malformed
  obtain ⟨filled, run, extended⟩ :=
    (live_cleared files registry).fillAll_error back readable notMem_cleared file fails
  exact ⟨filled, error, by rw [reload_eq_fillAll, split, run], extended⟩

/-- If the entries are as they were, all of them are null. -/
theorem Unchanged.null {front : List Str} {filled : Registry Json}
    (unchanged : Unchanged registry filled)
    (extended : Extends fromString files front (registry.cleared files) filled) (path : Str)
    (config : Nat) : registry.jsons[path]? ≠ some (some config) := by
  intro found
  have kept : filled.jsons[path]? = some (some config) := by rw [unchanged.jsons, found]
  obtain ⟨value, lives⟩ := extended.live path config kept
  rw [unchanged.configs path config found] at lives
  have old := (List.getElem?_eq_some_iff.mp lives).1
  rcases extended.fresh path config kept with before | new
  · simp [cleared] at before
  · rw [length_configs_cleared] at new
    omega

/-- The entries that the loop filled in, if they are the ones that were there. -/
theorem Unchanged.entries {front : List Str} {filled : Registry Json}
    (unchanged : Unchanged registry filled)
    (readable : ∀ path ∈ front, Readable fromString files path)
    (extended : Extends fromString files front (registry.cleared files) filled) (path : Str) :
    registry.jsons[path]? = (if path ∈ front then some none else none) ∧
      (path ∈ front → files path = none) := by
  have entry := extended.entry path
  rw [entry_cleared, Option.none_or] at entry
  rw [← unchanged.jsons]
  by_cases visited : path ∈ front
  · rw [if_pos visited] at entry ⊢
    obtain ⟨pointer, found, read⟩ := Option.map_eq_some_iff.mp entry
    cases pointer with
    | some config => exact (unchanged.null extended path config (unchanged.jsons ▸ found)).elim
    | none =>
        refine ⟨found, fun _ => ?_⟩
        cases file : files path with
        | none => rfl
        | some text =>
            obtain ⟨value, parses⟩ := readable path visited text file
            simp [contents, file, parses, Except.toOption] at read
  · rw [if_neg visited] at entry ⊢
    exact ⟨entry_eq_none_iff.mp entry, fun member => (visited member).elim⟩

theorem unlisted_eq_nil (gone : ∀ path ∈ registry.jsons, files path = none) :
    registry.unlisted files list = [] := by
  rw [List.eq_nil_iff_forall_not_mem]
  intro path member
  obtain ⟨known, there, -⟩ := mem_unlisted.mp member
  simp [gone path known] at there

/-- No path of the map has a file, if all its entries are for paths without one. -/
theorem missing_of_mem {front : List Str}
    (entries : ∀ path : Str, registry.jsons[path]? = if path ∈ front then some none else none)
    (missing : ∀ path ∈ front, files path = none) :
    ∀ path ∈ registry.jsons, files path = none := by
  intro path known
  rw [Std.ExtTreeMap.mem_iff_isSome_getElem?, entries] at known
  by_cases visited : path ∈ front
  · exact missing path visited
  · simp [visited] at known

/-- The paths in front of the first one with a file. -/
theorem takeWhile_of_split {front back : List Str} (split : list.toList = front ++ path :: back)
    (missing : ∀ other ∈ front, files other = none) (there : (files path).isSome) :
    list.toList.takeWhile (fun li => (files li).isNone) = front := by
  rw [split, List.takeWhile_append_of_pos (by simpa using missing), List.takeWhile_cons_of_neg,
    List.append_nil]
  simpa using Option.isSome_iff_ne_none.mp there

theorem Unchanged.refilledInVain {front back : List Str} {filled : Registry Json}
    (unchanged : Unchanged registry filled)
    (split : registry.unlisted files list ++ list.toList = front ++ path :: back)
    (readable : ∀ other ∈ front, Readable fromString files other)
    (malformed : ¬Readable fromString files path)
    (extended : Extends fromString files front (registry.cleared files) filled) :
    RefilledInVain fromString files list registry := by
  have entries := unchanged.entries readable extended
  have missing : ∀ other ∈ front, files other = none := fun other => (entries other).2
  have gone := missing_of_mem (fun other => (entries other).1) missing
  rw [unlisted_eq_nil gone, List.nil_append] at split
  obtain ⟨text, error, file, -⟩ := exists_of_not_readable malformed
  have there : (files path).isSome := by rw [file]; rfl
  refine ⟨⟨path, ?_, malformed⟩, fun other => ?_⟩
  · rw [List.find?_eq_some_iff_append]
    exact ⟨there, front, back, split, by simpa using missing⟩
  · rw [takeWhile_of_split split missing there]
    exact (entries other).1

/-- Nothing that is left by the failing loop differs from what was there. -/
theorem RefilledInVain.unchanged (vain : RefilledInVain fromString files list registry) :
    Unchanged registry (registry.reload fromString files list).1 := by
  obtain ⟨⟨path, first, malformed⟩, entries⟩ := vain
  obtain ⟨there, front, back, split, before⟩ := List.find?_eq_some_iff_append.mp first
  have missing : ∀ other ∈ front, files other = none := by simpa using before
  rw [takeWhile_of_split split missing there] at entries
  have gone := missing_of_mem entries missing
  have visited : registry.unlisted files list ++ list.toList = front ++ path :: back := by
    rw [unlisted_eq_nil gone, List.nil_append, split]
  have readable : ∀ other ∈ front, Readable fromString files other :=
    fun other member text file => by simp [missing other member] at file
  obtain ⟨filled, error, run, extended⟩ := reload_of_split visited readable malformed
  rw [run]
  refine ⟨Std.ExtTreeMap.ext_getElem? fun other => ?_, fun other config found => ?_⟩
  · have entry := extended.entry other
    rw [entry_cleared, Option.none_or] at entry
    rw [entries]
    by_cases visited : other ∈ front
    · rw [if_pos visited, contents, missing other visited] at entry
      rw [if_pos visited]
      exact extended.live.null entry
    · rw [if_neg visited] at entry ⊢
      exact entry_eq_none_iff.mp entry
  · rw [entries] at found
    split at found <;> simp at found

/-- Calls that throw change nothing precisely if `reload` cannot throw, or fails when it has done no
more than put back the null entries that were there. -/
theorem reload_atomic_iff (fromString : Str → Except Error Json) (files : Files)
    (list : Std.ExtTreeSet Str) (registry : Registry Json) :
    Atomic fromString files list registry ↔
      (∀ path, path ∈ list ∨ path ∈ registry.jsons → Readable fromString files path) ∨
        RefilledInVain fromString files list registry := by
  constructor
  · intro atomic
    rcases readable_or_first fromString files
      (registry.unlisted files list ++ list.toList) with readable | first
    · refine .inl fun path known text file => ?_
      have there : (files path).isSome := by rw [file]; rfl
      have visited := mem_visited.mpr (known.imp_right fun member => ⟨member, there⟩)
      exact readable path visited text file
    · obtain ⟨front, path, back, split, readable, malformed⟩ := first
      obtain ⟨filled, error, run, extended⟩ := reload_of_split split readable malformed
      have unchanged := atomic.reload error (by rw [run])
      rw [run] at unchanged
      exact .inr (unchanged.refilledInVain split readable malformed extended)
  · rintro (readable | vain)
    · obtain ⟨filled, run, -⟩ := reload_of_readable readable
      refine ⟨fun error threw => ?_, fun path error => fromFile_atomic⟩
      simp [run] at threw
    · exact ⟨fun _ _ => vain.unchanged, fun path error => fromFile_atomic⟩

/-- A file that was read no longer parses: `reload` has dropped its configuration when it throws. -/
theorem reload_atomic_fails :
    ¬Atomic (fun text => if text = [123, 125] then (.ok () : Except Unit Unit) else .error ())
      (fun _ => some [123]) ∅
      (start.fromFile
        (fun text => if text = [123, 125] then (.ok () : Except Unit Unit) else .error ())
        (fun _ => some [123, 125]) [97]).1 := by
  intro atomic
  have unchanged := atomic.reload () (by rfl)
  have dropped := congrArg (fun jsons : Std.ExtTreeMap Str (Option Nat) => jsons.size)
    unchanged.jsons
  exact absurd dropped (by decide)

end Drumlin.Config.Registry
