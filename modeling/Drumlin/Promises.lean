import Drumlin.Library.Runs
import Drumlin.Work

/-!
# Promises

`Work::Promises` (work.h, work.cpp) stores promises under names and throws for a name that it has.
`Application` (application.h, application.cpp) derives from it and overrides `queuePromise`, with a
map of its own.
-/

namespace Drumlin

namespace Work

/-- `promise_map_type`, an unordered map; a promise is known by number. -/
abbrev PromiseMap := List (Str × Nat)

/-- `Work::Promises`. -/
structure Promises where
  /-- `m_promises`. -/
  promises : PromiseMap
deriving DecidableEq

/-- The text of the exception of `Promises::queuePromise`. -/
def Promises.alreadyPromised (name : Str) : Str :=
  "Already promised ".toUTF8.toList ++ name ++ [46]

/-- `Promises::queuePromise`; when it throws, the promise is still the caller's. -/
def Promises.queuePromise (name : Str) (promise : Nat) (base : Promises) : Except Str Promises :=
  if (base.promises.lookup name).isSome then
    .error (alreadyPromised name)
  else
    .ok { base with promises := base.promises ++ [(name, promise)] }

end Work

/-- The part of `Application` that keeps promises. -/
structure PromisingApplication where
  /-- The `Work::Promises` it derives from. -/
  base : Work.Promises
  /-- `m_promises`, the member of `Application`. -/
  promises : Work.PromiseMap
  /-- The promises destroyed without an answer. -/
  broken : List Nat
deriving DecidableEq

namespace PromisingApplication

/-- An application without promises. -/
def start : PromisingApplication := ⟨⟨[]⟩, [], []⟩

/-- `Application::queuePromise`.  `insert` leaves a key alone that is there; the promise was moved
into the entry, which is destroyed at the end. -/
def queuePromise (name : Str) (promise : Nat) (iapp : PromisingApplication) :
    Except Str PromisingApplication :=
  if (iapp.promises.lookup name).isSome then
    .ok { iapp with broken := iapp.broken ++ [promise] }
  else
    .ok { iapp with promises := iapp.promises ++ [(name, promise)] }

end PromisingApplication

/-- `Access::queuePromise`. -/
def Work.Access.queuePromise (access : Work.Access) (name : Str) (promise : Nat)
    (iapp : PromisingApplication) : Except Str (PromisingApplication × Work.Access) := do
  let next ← iapp.queuePromise name promise
  return (next, access)

namespace PromisingApplication

/-- A call of `queuePromise`. -/
inductive Call
  | direct (name : Str) (promise : Nat)
  | throughAccess (access : Work.Access) (name : Str) (promise : Nat)
deriving DecidableEq

/-- The name promised. -/
def Call.name : Call → Str
  | .direct name _ | .throughAccess _ name _ => name

/-- The promise passed. -/
def Call.promise : Call → Nat
  | .direct _ promise | .throughAccess _ _ promise => promise

/-- What a call comes to. -/
def call (iapp : PromisingApplication) : Call → Except Str PromisingApplication
  | .direct name promise => iapp.queuePromise name promise
  | .throughAccess access name promise =>
      (access.queuePromise name promise iapp).map Prod.fst

/-- The application after a call; a call that throws leaves it as it was. -/
def after (iapp : PromisingApplication) (request : Call) : PromisingApplication :=
  match iapp.call request with
  | .ok next => next
  | .error _ => iapp

/-- A call does with the map of the application what `Promises::queuePromise` does with its own, and
either throws or stores the promise and drops none. -/
structure Refines (iapp : PromisingApplication) (request : Call) : Prop where
  agrees : (iapp.call request).map (fun next => (⟨next.promises⟩ : Work.Promises)) =
    Work.Promises.queuePromise request.name request.promise ⟨iapp.promises⟩
  stored : ∀ next, iapp.call request = .ok next →
    next.promises.lookup request.name = some request.promise
  kept : ∀ next, iapp.call request = .ok next → next.broken = iapp.broken

variable {iapp : PromisingApplication} {request : Call}

theorem call_eq_queuePromise (iapp : PromisingApplication) (request : Call) :
    iapp.call request = iapp.queuePromise request.name request.promise := by
  cases request with
  | direct name promise => rfl
  | throughAccess access name promise =>
      rw [call, Work.Access.queuePromise, Call.name, Call.promise]
      cases iapp.queuePromise name promise <;> rfl

theorem call_of_fresh (fresh : iapp.promises.lookup request.name = none) :
    iapp.call request =
      .ok { iapp with promises := iapp.promises ++ [(request.name, request.promise)] } := by
  rw [call_eq_queuePromise, queuePromise, if_neg (by simp [fresh])]

theorem call_of_present (present : (iapp.promises.lookup request.name).isSome) :
    iapp.call request = .ok { iapp with broken := iapp.broken ++ [request.promise] } := by
  rw [call_eq_queuePromise, queuePromise, if_pos present]

/-- A call refines the base class exactly when the name is new. -/
theorem refines_iff : iapp.Refines request ↔ iapp.promises.lookup request.name = none := by
  constructor
  · intro refines
    by_contra known
    have present := Option.isSome_iff_ne_none.mpr known
    have dropped := refines.kept _ (call_of_present present)
    simp at dropped
  · intro fresh
    have taken := call_of_fresh fresh
    refine ⟨?_, ?_, ?_⟩
    · rw [taken, Work.Promises.queuePromise, if_neg (by simp [fresh])]
      rfl
    · rw [taken]
      rintro _ ⟨⟩
      simp [List.lookup_append, fresh]
    · rw [taken]
      rintro _ ⟨⟩
      rfl

theorem lookup_eq_none_iff {promises : Work.PromiseMap} {name : Str} :
    promises.lookup name = none ↔ name ∉ promises.map Prod.fst := by
  rw [List.lookup_eq_none_iff, List.mem_map]
  constructor
  · rintro other ⟨⟨_, promise⟩, member, rfl⟩
    simpa using other _ member
  · intro missing entry member
    rw [bne_iff_ne]
    rintro rfl
    exact missing ⟨entry, member, rfl⟩

/-- Every name of a run is new when it comes. -/
theorem along_fresh_iff (iapp : PromisingApplication) (calls : List Call) :
    Runs.Along (Runs.total after)
        (fun iapp request => iapp.promises.lookup request.name = none) iapp calls ↔
      (calls.map Call.name).Nodup ∧
        ∀ name ∈ calls.map Call.name, name ∉ iapp.promises.map Prod.fst := by
  induction calls generalizing iapp with
  | nil => simp
  | cons request calls induction =>
      rw [Runs.along_total_cons, induction, List.map_cons, List.nodup_cons, List.forall_mem_cons,
        lookup_eq_none_iff]
      constructor
      · rintro ⟨fresh, distinct, apart⟩
        have next := call_of_fresh (lookup_eq_none_iff.mpr fresh)
        simp only [after, next, List.map_append, List.mem_append, not_or] at apart
        refine ⟨⟨fun member => ?_, distinct⟩, fresh, fun name member => (apart name member).1⟩
        exact (apart request.name member).2 (by simp)
      · rintro ⟨⟨apart, distinct⟩, fresh, others⟩
        have next := call_of_fresh (lookup_eq_none_iff.mpr fresh)
        refine ⟨fresh, distinct, fun name member => ?_⟩
        simp only [after, next, List.map_append, List.mem_append, not_or]
        refine ⟨others name member, fun same => apart ?_⟩
        obtain rfl : name = request.name := by simpa using same
        exact member

/-- The override refines the base class along a run precisely when no name is promised twice. -/
theorem queuePromise_refines_iff (calls : List Call) :
    Runs.Along (Runs.total after) Refines start calls ↔ (calls.map Call.name).Nodup := by
  have same : (Refines : PromisingApplication → Call → Prop) =
      fun iapp request => iapp.promises.lookup request.name = none := by
    funext iapp request
    exact propext refines_iff
  rw [same, along_fresh_iff]
  simp [start]

/-- A name promised twice, directly both times: the second promise is dropped. -/
theorem queuePromise_refines_fails :
    ¬Runs.Along (Runs.total after) Refines start [.direct [97] 0, .direct [97] 1] := by
  intro refines
  have second := (refines.2 _ rfl).1.kept _ rfl
  exact absurd second (by decide)

end PromisingApplication

end Drumlin
