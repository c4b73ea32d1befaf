import Drumlin.Allocator

/-!
# Reports of the heap of a use

`CPS_call` (mutexcall.h) makes a structure of a continuation, a member function and its argument;
the member function is called, and then the continuation, when the structure is called with an
object.  `UsesAllocator::report` (uses_allocator.cpp) makes such a structure and leaves it at that.
-/

namespace Drumlin

open Cxx

/-- `CPS`.  What the continuation captures by reference is an argument and a result of it. -/
structure Cps (Class Return Param Captured : Type*) where
  /-- `m_continuer`; it may be empty. -/
  continuer : Option (Return → Captured → Captured)
  /-- `m_func`. -/
  func : Class → Param → Class × Return
  /-- `m_param`. -/
  param : Param

namespace Cps

variable {Class Return Param Captured : Type*}

/-- `CPS::operator ()`. -/
def call (cps : Cps Class Return Param Captured) (klass : Class) (captured : Captured) :
    (Class × Captured) × Return :=
  let (klass, ret) := cps.func klass cps.param
  ((klass, cps.continuer.elim captured fun continuer => continuer ret captured), ret)

/-- A statement that is a structure only: it is destroyed, and has no destructor that calls. -/
def discard (_ : Cps Class Return Param Captured) (captured : Captured) : Captured := captured

end Cps

/-- `CPS_call`. -/
def cpsCall {Class Return Param Captured : Type*} (continuer : Return → Captured → Captured)
    (func : Class → Param → Class × Return) (param : Param) : Cps Class Return Param Captured :=
  ⟨some continuer, func, param⟩

/-- The object of a report, with the integers and what else it has. -/
abbrev Report (Json : Type*) := Std.ExtTreeMap String Json

namespace UsesAllocator

/-- `WorkReport_Heap`. -/
def workReportHeap : Nat := 4

variable {Json : Type*} (number : Int → Json)

/-- The continuation in `report`. -/
def reportHeap (heap : Option Heap) (obj : Report Json) : Report Json :=
  match heap with
  | none => obj
  | some heap =>
      (obj.insertIfNew "allocated" (number (toSizeT (heap.allocated * heap.size)))).insertIfNew
        "reserved" (number heap.max)

/-- `Buffers::getHeap`, with the heap the pointer refers to. -/
def getHeap (shared : SharedHeaps) (uses : Nat) : SharedHeaps × Option Heap :=
  (shared, (shared.getHeap uses).map shared.cache.heapAt)

/-- The structure that `report` makes. -/
def reportCall (uses : Nat) : Cps SharedHeaps (Option Heap) Nat (Report Json) :=
  cpsCall (reportHeap number) getHeap uses

/-- `UsesAllocator::report`, of the allocator at an address. -/
def report (uses : Nat) (source : UsesAllocator) (type : Nat) (obj : Report Json) : Report Json :=
  let reported := obj.insertIfNew "process" (number source.process)
  if type &&& workReportHeap ≠ 0 then
    (reportCall number uses).discard reported
  else
    reported

/-- The report has the live bytes and the size of the heap of the use, if there is one, and nothing
new about a heap if there is none. -/
structure ReportsHeap (uses : Nat) (source : UsesAllocator) (shared : SharedHeaps)
    (obj after : Report Json) : Prop where
  registered : ∀ heap, shared.getHeap uses = some heap →
    after["allocated"]? =
        some (number ((shared.cache.heapAt heap).liveCount * (shared.cache.heapAt heap).size)) ∧
      after["reserved"]? = some (number (shared.cache.heapAt heap).max)
  unregistered : shared.getHeap uses = none →
    after = obj.insertIfNew "process" (number source.process)

/-- The heap is reported precisely if there is none, or the object has its numbers already. -/
theorem reportsHeap_iff {uses : Nat} {source : UsesAllocator} {type : Nat}
    (shared : SharedHeaps) (obj : Report Json) (heapBit : type &&& workReportHeap ≠ 0) :
    ReportsHeap number uses source shared obj (report number uses source type obj) ↔
      ∀ heap, shared.getHeap uses = some heap →
        obj["allocated"]? =
            some (number ((shared.cache.heapAt heap).liveCount *
              (shared.cache.heapAt heap).size)) ∧
          obj["reserved"]? = some (number (shared.cache.heapAt heap).max) := by
  have reported : report number uses source type obj =
      obj.insertIfNew "process" (number source.process) := by
    rw [report, if_pos heapBit]
    rfl
  have other {key : String} (distinct : key ≠ "process") :
      (report number uses source type obj)[key]? = obj[key]? := by
    rw [reported, Std.ExtTreeMap.getElem?_insertIfNew, if_neg]
    rw [Std.compare_eq_iff_eq]
    exact fun same => distinct same.1.symm
  constructor
  · intro reports heap found
    have entries := reports.registered heap found
    rwa [other (by decide), other (by decide)] at entries
  · intro entries
    refine ⟨fun heap found => ?_, fun _ => reported⟩
    rw [other (by decide), other (by decide)]
    exact entries heap found

/-- No heap, and an empty object. -/
theorem reportsHeap_start :
    ReportsHeap id 1 ⟨64, 4, 1, 1⟩ .start ∅ (report id 1 ⟨64, 4, 1, 1⟩ 4 ∅) := by
  refine (reportsHeap_iff id .start ∅ (by decide)).mpr fun heap found => ?_
  cases found

/-- A registered heap, and an empty object. -/
theorem reportsHeap_fails :
    ¬∀ (uses : Nat) (source : UsesAllocator) (type : Nat) (shared : SharedHeaps)
        (obj : Report Int), type &&& workReportHeap ≠ 0 →
      ReportsHeap id uses source shared obj (report id uses source type obj) := by
  intro always
  have reports := always 1 ⟨64, 4, 1, 1⟩ 4
    (SharedHeaps.start.registerUse 1 ⟨64, 4, 1, 1⟩ 16 4096).1 ∅ (by decide)
  have reserved := (reports.registered 0 (by decide)).2
  simp [report, workReportHeap, Cps.discard] at reserved

/-- Called with the allocator, the structure reports the heap to an object that has no entries of
that name, where the counter of the heap counts. -/
theorem reportCall_call {uses heap : Nat} {shared : SharedHeaps} {obj : Report Json}
    (found : shared.getHeap uses = some heap) (allocated : "allocated" ∉ obj)
    (reserved : "reserved" ∉ obj)
    (counted : (shared.cache.heapAt heap).allocated = (shared.cache.heapAt heap).liveCount)
    (fits : (shared.cache.heapAt heap).liveCount * (shared.cache.heapAt heap).size < 2 ^ 64) :
    let after := ((reportCall number uses).call shared obj).1.2
    after["allocated"]? =
        some (number ((shared.cache.heapAt heap).liveCount * (shared.cache.heapAt heap).size)) ∧
      after["reserved"]? = some (number (shared.cache.heapAt heap).max) := by
  have bytes : (toSizeT ((shared.cache.heapAt heap).allocated * (shared.cache.heapAt heap).size) :
      Int) = (shared.cache.heapAt heap).liveCount * (shared.cache.heapAt heap).size := by
    rw [counted, toSizeT_of_bounds (by positivity) (by exact_mod_cast fits)]
    exact Int.toNat_of_nonneg (by positivity)
  simp only [reportCall, cpsCall, Cps.call, Option.elim_some, getHeap, found, Option.map_some,
    reportHeap, bytes]
  constructor
  · rw [Std.ExtTreeMap.getElem?_insertIfNew, if_neg fun same => absurd same.1 (by decide),
      Std.ExtTreeMap.getElem?_insertIfNew, if_pos ⟨by decide, allocated⟩]
  · have absent {bytes : Json} : "reserved" ∉ obj.insertIfNew "allocated" bytes := by
      rw [Std.ExtTreeMap.mem_insertIfNew, not_or]
      exact ⟨by decide, reserved⟩
    rw [Std.ExtTreeMap.getElem?_insertIfNew, if_pos ⟨by decide, absent⟩]

end UsesAllocator

end Drumlin
