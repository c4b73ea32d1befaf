import Mathlib.Data.List.Enum
import Drumlin.Library.Cxx

/-!
# Enumerations and their names

The macros of metatypes.h declare an enumeration from a tuple of its elements, and `toString` and
`toEnum`, which go through them one by one.  Elements of one name or of one value do not compile.
-/

namespace Drumlin

/-! ## The code -/

/-- The elements of an enumeration that compiles, in the order of their declaration. -/
structure MetaEnum where
  /-- The names and values. -/
  elements : List (String × Int)
  names : (elements.map Prod.fst).Nodup
  values : (elements.map Prod.snd).Nodup
  named : "" ∉ elements.map Prod.fst

namespace MetaEnum

/-- `toString`. -/
def toString (table : MetaEnum) (e : Int) : String :=
  match table.elements.find? fun element => element.2 = e with
  | some (name, _) => name
  | none => ""

/-- `toEnum`, with what it writes to `ok`. -/
def toEnum (table : MetaEnum) (s : String) : Int × Bool :=
  match table.elements.find? fun element => element.1 = s with
  | some (_, value) => (value, true)
  | none => (0, false)

/-- `ENUM`, whose values count from 0. -/
def enum (names : List String) (distinct : names.Nodup) (named : "" ∉ names) : MetaEnum where
  elements := names.zipIdx.map fun element => (element.1, (element.2 : Int))
  names := by simpa [Function.comp_def, List.zipIdx_map_fst] using distinct
  values := by
    have numbers : (names.zipIdx.map fun element => (element.2 : Int)) =
        (List.range' 0 names.length).map Nat.cast := by
      rw [← List.zipIdx_map_snd, List.map_map]
      rfl
    simp only [List.map_map, Function.comp_def, numbers]
    exact List.Nodup.map (fun _ _ same => Int.ofNat.inj same) List.nodup_range'
  named := by simpa [Function.comp_def, List.zipIdx_map_fst] using named

/-- `ENUMN`, whose values are given. -/
def enumn (elements : List (String × Int)) (names : (elements.map Prod.fst).Nodup)
    (values : (elements.map Prod.snd).Nodup) (named : "" ∉ elements.map Prod.fst) : MetaEnum :=
  ⟨elements, names, values, named⟩

/-- `verbs_type` (socket.h). -/
def verbsType : MetaEnum :=
  enum ["NONE", "HEAD", "GET", "POST", "PATCH", "CATCH", "OPTIONS", "PUT"] (by decide) (by decide)

/-- `socketTask` (socket.h). -/
def socketTask : MetaEnum := enum ["socketRead", "socketWrite"] (by decide) (by decide)

/-- `DrumlinEventType` (event.h). -/
def drumlinEventType : MetaEnum :=
  enum ["DrumlinEventNone", "DrumlinEventEvent_first", "DrumlinEventThread_first",
    "DrumlinEventThreadWork", "DrumlinEventThreadNotify", "DrumlinEventThreadWarning",
    "DrumlinEventThreadShutdown", "DrumlinEventThreadRemove", "DrumlinEventThread_last",
    "DrumlinEventApplicationClose", "DrumlinEventApplicationThreadsGone",
    "DrumlinEventApplicationShutdown", "DrumlinEventApplicationRestart",
    "DrumlinEventEvent_last"] (by decide) (by decide)

/-- `ReportType` (work.h). -/
def reportType : MetaEnum :=
  enumn [("WorkReport_first", 0), ("WorkReport_Elapsed", 1), ("WorkReport_Jobs", 2),
    ("WorkReport_Heap", 4), ("WorkReport_All", 7)] (by decide) (by decide) (by decide)

/-- `SignalType` (signalhandler.h). -/
def signalType : MetaEnum :=
  enumn [("SignalType_first", -1), ("SignalType_unhandled", 0), ("SignalType_noop", 1),
    ("SignalType_int", 2), ("SignalType_term", 4), ("SignalType_close", 8),
    ("SignalType_reload", 16), ("SignalType_segv", 32), ("SignalType_all", 63),
    ("SignalType_last", 33)] (by decide) (by decide) (by decide)

/-! ## Names and values -/

variable {table : MetaEnum} {e : Int} {s : String}

theorem name_eq_iff (some_name : s ≠ "") :
    table.toString e = s ↔ (s, e) ∈ table.elements := by
  constructor
  · intro same
    cases finds : table.elements.find? fun element => element.2 = e with
    | none => exact (some_name (by simpa [toString, finds] using same.symm)).elim
    | some element =>
        obtain ⟨member, rfl⟩ := (Cxx.find?_eq_some_iff Prod.snd table.values).mp finds
        obtain rfl : element.1 = s := by simpa [toString, finds] using same
        exact member
  · intro member
    have finds := (Cxx.find?_eq_some_iff Prod.snd table.values).mpr ⟨member, rfl⟩
    simp [toString, finds]

theorem toEnum_eq_iff : table.toEnum s = (e, true) ↔ (s, e) ∈ table.elements := by
  constructor
  · intro same
    cases finds : table.elements.find? fun element => element.1 = s with
    | none => simp [toEnum, finds] at same
    | some element =>
        obtain ⟨member, rfl⟩ := (Cxx.find?_eq_some_iff Prod.fst table.names).mp finds
        obtain rfl : element.2 = e := by simpa [toEnum, finds] using same
        exact member
  · intro member
    have finds := (Cxx.find?_eq_some_iff Prod.fst table.names).mpr ⟨member, rfl⟩
    simp [toEnum, finds]

/-- `toEnum` accepts exactly the names that `toString` gives, and each for its own value. -/
theorem toEnum_eq_iff_toString (table : MetaEnum) (e : Int) (s : String) :
    table.toEnum s = (e, true) ↔ s ≠ "" ∧ table.toString e = s := by
  rw [toEnum_eq_iff]
  constructor
  · intro member
    have some_name : s ≠ "" := by
      rintro rfl
      exact table.named (List.mem_map_of_mem (f := Prod.fst) member)
    exact ⟨some_name, (name_eq_iff some_name).mpr member⟩
  · exact fun ⟨some_name, same⟩ => (name_eq_iff some_name).mp same

end MetaEnum

end Drumlin
