import Mathlib
import Drumlin.Library.StdMap
import Drumlin.StringList

/-!
# Configurations read from files

`JsonConfig` (jsonconfig.h, jsonconfig.cpp) keeps the configurations read so far in a map from paths
to pointers.  `fromFile` returns what the map has for a path, or reads and parses the file; `reload`
deletes all that the map refers to and fills it again.  The parser is a parameter.
-/

namespace Drumlin.Config

/-! ## The code -/

/-- The files there are, with the text of each. -/
abbrev Files := Str → Option Str

/-- The map, and the configurations it can refer to. -/
structure Registry (Json : Type*) where
  /-- `s_jsons`; the pointers are numbers of configurations, or null. -/
  jsons : Std.ExtTreeMap Str (Option Nat)
  /-- The value of every `JsonConfig` made, by number; none if it was deleted. -/
  configs : List (Option Json)

variable {Error Json : Type*}

namespace Registry

/-- Nothing was read. -/
def start : Registry Json := ⟨∅, []⟩

/-- `JsonConfig::fromFile`. -/
def fromFile (fromString : Str → Except Error Json) (files : Files) (path : Str)
    (registry : Registry Json) : Registry Json × Except Error (Option Nat) :=
  match registry.jsons[path]? with
  | some found => (registry, .ok found)
  | none =>
      match files path with
      | none => (registry, .ok none)
      | some text =>
          match fromString text with
          | .error error => (registry, .error error)
          | .ok value =>
              let ret := registry.configs.length
              ({ jsons := registry.jsons.insertIfNew path (some ret)
                 configs := registry.configs ++ [some value] }, .ok (some ret))

/-- The body of the first loop of `reload`: the entry becomes null, its configuration is deleted,
and the path is visible if there is a file. -/
def forget (files : Files) (seen : Registry Json × Std.ExtTreeSet Str)
    (config : Str × Option Nat) : Registry Json × Std.ExtTreeSet Str :=
  ({ jsons := seen.1.jsons.insert config.1 none
     configs := config.2.elim seen.1.configs fun pointer => seen.1.configs.set pointer none },
    if (files config.1).isSome then seen.2.insert config.1 else seen.2)

/-- `getJsons().insert(make_pair(li, fromFile(li)))`, which leaves an entry alone that is there. -/
def fill (fromString : Str → Except Error Json) (files : Files) (li : Str)
    (registry : Registry Json) : Registry Json × Except Error Unit :=
  match registry.fromFile fromString files li with
  | (read, .ok pointer) => ({ read with jsons := read.jsons.insertIfNew li pointer }, .ok ())
  | (read, .error error) => (read, .error error)

/-- A loop over paths, which an exception leaves. -/
def fillAll (fromString : Str → Except Error Json) (files : Files) :
    List Str → Registry Json → Registry Json × Except Error Unit
  | [], registry => (registry, .ok ())
  | li :: paths, registry =>
      match registry.fill fromString files li with
      | (filled, .ok ()) => fillAll fromString files paths filled
      | (filled, .error error) => (filled, .error error)

/-- The first loop of `reload`, with the visible paths. -/
def forgetAll (files : Files) (registry : Registry Json) :
    Registry Json × Std.ExtTreeSet Str :=
  registry.jsons.toList.foldl (forget files) (registry, ∅)

/-- `JsonConfig::reload`. -/
def reload (fromString : Str → Except Error Json) (files : Files) (list : Std.ExtTreeSet Str)
    (registry : Registry Json) : Registry Json × Except Error Unit :=
  let (forgotten, visible) := registry.forgetAll files
  let cleared := { forgotten with jsons := ∅ }
  let unlisted := visible.toList.filter fun li => !list.contains li
  match fillAll fromString files unlisted cleared with
  | (filled, .ok ()) => fillAll fromString files list.toList filled
  | (filled, .error error) => (filled, .error error)

/-! ## What a registry stands for -/

/-- What the registry has for a path: the value of the configuration, or none for null. -/
def entry (registry : Registry Json) (path : Str) : Option (Option Json) :=
  registry.jsons[path]?.map fun pointer => pointer.bind fun config => registry.configs[config]?.join

/-- No entry refers to a configuration that was deleted. -/
def Live (registry : Registry Json) : Prop :=
  ∀ (path : Str) (config : Nat), registry.jsons[path]? = some (some config) →
    ∃ value, registry.configs[config]? = some (some value)

/-- What the file of a path parses to. -/
def contents (fromString : Str → Except Error Json) (files : Files) (path : Str) : Option Json :=
  (files path).bind fun text => (fromString text).toOption

/-- There is no file, or it parses. -/
def Readable (fromString : Str → Except Error Json) (files : Files) (path : Str) : Prop :=
  ∀ text, files path = some text → ∃ value, fromString text = .ok value

variable {fromString : Str → Except Error Json} {files : Files} {registry : Registry Json}
  {path : Str}

theorem mem_iff_entry : path ∈ registry.jsons ↔ (registry.entry path).isSome := by
  rw [entry, Option.isSome_map, Std.ExtTreeMap.mem_iff_isSome_getElem?]

theorem entry_eq_none_iff : registry.entry path = none ↔ registry.jsons[path]? = none := by
  rw [entry, Option.map_eq_none_iff]

/-- In a live registry an entry without a value is null. -/
theorem Live.null (live : registry.Live) (valueless : registry.entry path = some none) :
    registry.jsons[path]? = some none := by
  obtain ⟨pointer, found, read⟩ := Option.map_eq_some_iff.mp valueless
  cases pointer with
  | none => exact found
  | some config =>
      obtain ⟨value, lives⟩ := live path config found
      simp [lives] at read

/-! ## One path -/

theorem fromFile_of_mem (fromString : Str → Except Error Json) (files : Files)
    (present : path ∈ registry.jsons) :
    ∃ pointer, registry.jsons[path]? = some pointer ∧
      registry.fromFile fromString files path = (registry, .ok pointer) := by
  obtain ⟨pointer, found⟩ := Option.isSome_iff_exists.mp
    (Std.ExtTreeMap.mem_iff_isSome_getElem?.mp present)
  exact ⟨pointer, found, by simp [fromFile, found]⟩

theorem fromFile_of_notMem (absent : path ∉ registry.jsons) :
    registry.fromFile fromString files path =
      match files path with
      | none => (registry, .ok none)
      | some text =>
          match fromString text with
          | .error error => (registry, .error error)
          | .ok value =>
              ({ jsons := registry.jsons.insertIfNew path (some registry.configs.length)
                 configs := registry.configs ++ [some value] },
                .ok (some registry.configs.length)) := by
  have missing : registry.jsons[path]? = none := by
    rw [← Option.not_isSome_iff_eq_none, ← Std.ExtTreeMap.mem_iff_isSome_getElem?]
    exact absent
  rw [fromFile, missing]

theorem fill_of_mem (present : path ∈ registry.jsons) :
    registry.fill fromString files path = (registry, .ok ()) := by
  obtain ⟨pointer, -, read⟩ := fromFile_of_mem fromString files present
  rw [fill, read]
  simp only [StdMap.insertIfNew_of_mem present]

theorem fill_of_missing (absent : path ∉ registry.jsons) (missing : files path = none) :
    registry.fill fromString files path =
      ({ registry with jsons := registry.jsons.insertIfNew path none }, .ok ()) := by
  rw [fill, fromFile_of_notMem absent, missing]

theorem fill_of_parses (absent : path ∉ registry.jsons) {text : Str} {value : Json}
    (file : files path = some text) (parses : fromString text = .ok value) :
    registry.fill fromString files path =
      ({ jsons := registry.jsons.insertIfNew path (some registry.configs.length)
         configs := registry.configs ++ [some value] }, .ok ()) := by
  rw [fill, fromFile_of_notMem absent, file]
  simp only [parses]
  rw [StdMap.insertIfNew_of_mem (by simp)]

theorem fill_of_malformed (absent : path ∉ registry.jsons) {text : Str} {error : Error}
    (file : files path = some text) (malformed : fromString text = .error error) :
    registry.fill fromString files path = (registry, .error error) := by
  rw [fill, fromFile_of_notMem absent, file]
  simp only [malformed]

/-! ## Loops over paths -/

theorem fillAll_append (fromString : Str → Except Error Json) (files : Files)
    (front back : List Str) (registry : Registry Json) :
    fillAll fromString files (front ++ back) registry =
      match fillAll fromString files front registry with
      | (filled, .ok ()) => fillAll fromString files back filled
      | (filled, .error error) => (filled, .error error) := by
  induction front generalizing registry with
  | nil => rfl
  | cons li front induction =>
      rw [List.cons_append, fillAll, fillAll]
      split
      · exact induction _
      · rfl

/-- What filling the registry from readable paths does: what it had stays, and the paths that are
new get what is in their files. -/
structure Extends (fromString : Str → Except Error Json) (files : Files) (paths : List Str)
    (before after : Registry Json) : Prop where
  live : after.Live
  entry : ∀ path, after.entry path = (before.entry path).or
    (if path ∈ paths then some (contents fromString files path) else none)
  /-- The pointers that are new are none of those that were handed out before. -/
  fresh : ∀ (path : Str) (config : Nat), after.jsons[path]? = some (some config) →
    before.jsons[path]? = some (some config) ∨ before.configs.length ≤ config
  grows : before.configs.length ≤ after.configs.length

theorem Extends.nil (live : registry.Live) : Extends fromString files [] registry registry :=
  ⟨live, by simp, fun _ _ found => .inl found, Nat.le_refl _⟩

theorem Extends.trans {front back : List Str} {middle last : Registry Json}
    (first : Extends fromString files front registry middle)
    (second : Extends fromString files back middle last) :
    Extends fromString files (front ++ back) registry last := by
  refine ⟨second.live, fun path => ?_, fun path config found => ?_,
    first.grows.trans second.grows⟩
  · rw [second.entry, first.entry, Option.or_assoc]
    by_cases listed : path ∈ front <;> simp [listed]
  · rcases second.fresh path config found with before | new
    · exact first.fresh path config before
    · exact .inr (first.grows.trans new)

theorem Live.extends_of_mem (live : registry.Live) (present : path ∈ registry.jsons) :
    Extends fromString files [path] registry registry := by
  refine ⟨live, fun other => ?_, fun _ _ found => .inl found, Nat.le_refl _⟩
  cases known : registry.entry other with
  | some value => rfl
  | none =>
      have distinct : other ≠ path := by
        rintro rfl
        rw [mem_iff_entry, known] at present
        simp at present
      simp [distinct]

/-- A new path gets a pointer that is null or to a new configuration. -/
theorem Live.extends_insert (live : registry.Live) (absent : path ∉ registry.jsons)
    (pointer : Option Nat) (added : List (Option Json))
    (fresh : ∀ config, pointer = some config → registry.configs.length ≤ config ∧
      ∃ value, (registry.configs ++ added)[config]? = some (some value))
    (reads : (pointer.bind fun config => (registry.configs ++ added)[config]?.join) =
      contents fromString files path) :
    Extends fromString files [path] registry
      { jsons := registry.jsons.insertIfNew path pointer
        configs := registry.configs ++ added } := by
  have unknown : registry.entry path = none := by
    rwa [← Option.not_isSome_iff_eq_none, ← mem_iff_entry]
  -- The configurations that entries refer to keep their numbers.
  have kept : ∀ (other : Str) (config : Nat), registry.jsons[other]? = some (some config) →
      (registry.configs ++ added)[config]? = registry.configs[config]? := by
    intro other config found
    obtain ⟨_, lives⟩ := live other config found
    exact List.getElem?_append_left (List.getElem?_eq_some_iff.mp lives).1
  refine ⟨fun other config found => ?_, fun other => ?_, fun other config found => ?_, by simp⟩
  · rw [StdMap.getElem?_insertIfNew_of_notMem absent] at found
    split at found
    · exact (fresh config (Option.some.inj found)).2
    · obtain ⟨old, lives⟩ := live other config found
      exact ⟨old, (kept other config found).trans lives⟩
  · rw [Registry.entry, StdMap.getElem?_insertIfNew_of_notMem absent]
    by_cases same : path = other
    · subst same
      simp [unknown, reads]
    · simp only [if_neg same, List.mem_singleton, if_neg (Ne.symm same), Option.or_none]
      cases found : registry.jsons[other]? with
      | none => simp [Registry.entry, found]
      | some pointer =>
          cases pointer with
          | none => simp [Registry.entry, found]
          | some config => simp [Registry.entry, found, kept other config found]
  · rw [StdMap.getElem?_insertIfNew_of_notMem absent] at found
    split at found
    · exact .inr (fresh config (Option.some.inj found)).1
    · exact .inl found

theorem Live.extends_of_missing (live : registry.Live) (absent : path ∉ registry.jsons)
    (missing : files path = none) :
    Extends fromString files [path] registry
      { registry with jsons := registry.jsons.insertIfNew path none } := by
  have inserted : Extends fromString files [path] registry
      { jsons := registry.jsons.insertIfNew path none, configs := registry.configs ++ [] } :=
    live.extends_insert absent none [] (by simp) (by simp [contents, missing])
  rwa [List.append_nil] at inserted

theorem Live.extends_of_parses (live : registry.Live) (absent : path ∉ registry.jsons)
    {text : Str} {value : Json} (file : files path = some text)
    (parses : fromString text = .ok value) :
    Extends fromString files [path] registry
      { jsons := registry.jsons.insertIfNew path (some registry.configs.length)
        configs := registry.configs ++ [some value] } := by
  apply live.extends_insert absent
  · rintro config ⟨⟩
    exact ⟨Nat.le_refl _, value, by simp⟩
  · simp [contents, file, parses, Except.toOption]

theorem Live.fill (live : registry.Live) (readable : Readable fromString files path) :
    ∃ filled, registry.fill fromString files path = (filled, .ok ()) ∧
      Extends fromString files [path] registry filled := by
  by_cases present : path ∈ registry.jsons
  · exact ⟨_, fill_of_mem present, live.extends_of_mem present⟩
  · cases file : files path with
    | none => exact ⟨_, fill_of_missing present file, live.extends_of_missing present file⟩
    | some text =>
        obtain ⟨value, parses⟩ := readable text file
        exact ⟨_, fill_of_parses present file parses,
          live.extends_of_parses present file parses⟩

/-- A loop over readable paths comes to its end. -/
theorem Live.fillAll (live : registry.Live) {paths : List Str}
    (readable : ∀ path ∈ paths, Readable fromString files path) :
    ∃ filled, Registry.fillAll fromString files paths registry = (filled, .ok ()) ∧
      Extends fromString files paths registry filled := by
  induction paths generalizing registry with
  | nil => exact ⟨registry, rfl, .nil live⟩
  | cons path paths induction =>
      obtain ⟨now, readable_rest⟩ := List.forall_mem_cons.mp readable
      obtain ⟨filled, first, extended⟩ := live.fill now
      obtain ⟨last, rest, further⟩ := induction extended.live readable_rest
      exact ⟨last, by rw [Registry.fillAll, first, ← rest], extended.trans further⟩

/-- A loop ends at the first path that is new and does not parse. -/
theorem Live.fillAll_error (live : registry.Live) {front : List Str} (back : List Str)
    {text : Str} {error : Error} (readable : ∀ path ∈ front, Readable fromString files path)
    (absent : path ∉ registry.jsons) (file : files path = some text)
    (malformed : fromString text = .error error) :
    ∃ filled, Registry.fillAll fromString files (front ++ path :: back) registry =
        (filled, .error error) ∧
      Extends fromString files front registry filled := by
  obtain ⟨filled, first, extended⟩ := live.fillAll readable
  have unlisted : path ∉ front := by
    intro listed
    obtain ⟨value, parses⟩ := readable path listed text file
    simp [malformed] at parses
  have still : path ∉ filled.jsons := by
    rw [mem_iff_entry, extended.entry, if_neg unlisted, Option.or_none, ← mem_iff_entry]
    exact absent
  refine ⟨filled, ?_, extended⟩
  rw [fillAll_append, first]
  simp only [Registry.fillAll, fill_of_malformed still file malformed]

end Registry

end Drumlin.Config
