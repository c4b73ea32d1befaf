import Drumlin.ThreadAccessor

/-!
# Selecting by name and type

`selectBoth` intersects two ranges, whose ends it chooses by the flags one by one.  Without flags
the second range is empty, and with one flag its ends lie in different vectors.
-/

namespace Drumlin

namespace ThreadAccessor

/-- A vector of threads that `selectBoth` takes iterators of. -/
inductive ThreadVector
  | threads
  | namedThreads
  | typedThreads
deriving DecidableEq, Repr

/-- `threads_type::iterator`. -/
structure Iterator where
  /-- The vector it points into. -/
  vector : ThreadVector
  /-- How far it is behind the first element. -/
  position : Nat
deriving DecidableEq, Repr

section Ranges

variable (app : Application) (access : ThreadAccessor)

/-- The elements of a vector. -/
def elements : ThreadVector → List Nat
  | .threads => app.threads
  | .namedThreads => access.namedThreads
  | .typedThreads => access.typedThreads

/-- `begin`. -/
def first (vector : ThreadVector) : Iterator := ⟨vector, 0⟩

/-- `end`. -/
def last (vector : ThreadVector) : Iterator := ⟨vector, (access.elements app vector).length⟩

/-- The elements from one iterator to another.  The second must be reachable from the first;
otherwise what a loop between them does is undefined. -/
def range (first last : Iterator) : Option (List Nat) :=
  if first.vector = last.vector ∧ first.position ≤ last.position then
    some (((access.elements app first.vector).take last.position).drop first.position)
  else
    none

/-- `ThreadAccessor::selectBoth`, if what it does is defined. -/
def selectBoth : Option ThreadAccessor :=
  if access.flagAllName && access.flagAllType then
    some { access with selection := app.threads }
  else do
    let beginNames := if access.flagAllName then first .namedThreads else first .threads
    let endNames :=
      if access.flagAllName then access.last app .namedThreads else access.last app .threads
    let beginTypes := if access.flagAllType then first .typedThreads else first .threads
    let endTypes := if access.flagAllName then first .namedThreads else first .threads
    let names ← access.range app beginNames endNames
    let types ← access.range app beginTypes endTypes
    some { access with selection := Cxx.setIntersection names types }

/-- What `selectBoth` does for each choice of the flags. -/
theorem selectBoth_eq :
    access.selectBoth app =
      match access.flagAllName, access.flagAllType with
      | true, true => some { access with selection := app.threads }
      | false, false => some { access with selection := [] }
      | _, _ => none := by
  cases names : access.flagAllName <;> cases types : access.flagAllType <;>
    simp [selectBoth, names, types, range, first, last, elements]

end Ranges

/-! ## What is selected -/

section Both

variable (attributes : ThreadAttributes) (app : Application) (name : String)
  (type : Nat × String)

/-- The accessor after `named` and `typed`, with its flags set. -/
def prepare (access : ThreadAccessor) (names types : Bool) : ThreadAccessor :=
  (((access.named attributes app name).1.typed attributes app type).1.allNames names).allTypes types

/-- The thread has the name and the type, as far as the flags leave it to them. -/
def Satisfies (access : ThreadAccessor) (thread : Nat) : Prop :=
  (access.flagAllName = true ∨ attributes.task thread = name) ∧
    (access.flagAllType = true ∨ attributes.type (attributes.worker thread) = type)

/-- Exactly the threads that satisfy both conditions are selected, each once, and a selection by one
condition agrees where the other holds of all threads. -/
structure SelectsBoth (access result : ThreadAccessor) : Prop where
  nodup : result.selection.Nodup
  mem_iff : ∀ thread, thread ∈ result.selection ↔
    thread ∈ app.threads ∧ Satisfies attributes name type access thread
  named : access.flagAllType = true → (access.getNamed app).selection.Perm result.selection
  typed : access.flagAllName = true → (access.getTyped app).selection.Perm result.selection

/-- `selectBoth` selects what it should precisely if both flags are set, or none is and no thread
satisfies both conditions. -/
theorem selectsBoth_iff (distinct : app.threads.Nodup) (access : ThreadAccessor)
    (names types : Bool) :
    let prepared := access.prepare attributes app name type names types
    (∃ result, prepared.selectBoth app = some result ∧
        SelectsBoth attributes app name type prepared result) ↔
      names = true ∧ types = true ∨
        names = false ∧ types = false ∧
          ∀ thread ∈ app.threads, ¬Satisfies attributes name type prepared thread := by
  intro prepared
  have flagAllName : prepared.flagAllName = names := rfl
  have flagAllType : prepared.flagAllType = types := rfl
  rw [selectBoth_eq, flagAllName, flagAllType]
  cases names <;> cases types
  · simp only [Option.some.injEq, exists_eq_left', Bool.false_eq_true, false_and, true_and,
      false_or]
    constructor
    · intro selects thread member satisfies
      exact List.not_mem_nil ((selects.mem_iff thread).mpr ⟨member, satisfies⟩)
    · intro none
      refine ⟨List.nodup_nil, fun thread => ?_, by simp [flagAllType], by simp [flagAllName]⟩
      exact iff_of_false List.not_mem_nil fun selected => none thread selected.1 selected.2
  · -- with one flag the second range ends in another vector than it begins in
    simp
  · simp
  · refine iff_of_true ⟨_, rfl, distinct, fun thread => ?_, fun _ => ?_, fun _ => ?_⟩ (by simp)
    · simp [Satisfies, flagAllName, flagAllType]
    · simp [getNamed, flagAllName]
    · simp [getTyped, flagAllType]

/-- With both flags, both of two threads are selected. -/
theorem selectsBoth_two :
    ∃ result,
      (construct.prepare ⟨fun _ => "worker", id, fun worker => (worker, "type")⟩
        ⟨[2, 1], [], [], [], []⟩ "worker" (1, "type") true true).selectBoth
          ⟨[2, 1], [], [], [], []⟩ = some result ∧
      SelectsBoth ⟨fun _ => "worker", id, fun worker => (worker, "type")⟩
        ⟨[2, 1], [], [], [], []⟩ "worker" (1, "type")
        (construct.prepare ⟨fun _ => "worker", id, fun worker => (worker, "type")⟩
          ⟨[2, 1], [], [], [], []⟩ "worker" (1, "type") true true) result :=
  (selectsBoth_iff _ _ _ _ (by decide) construct true true).mpr (.inl ⟨rfl, rfl⟩)

/-- The only thread has the name and the type, and is not selected. -/
theorem selectsBoth_fails :
    ¬∀ (attributes : ThreadAttributes) (app : Application) (name : String) (type : Nat × String)
        (access : ThreadAccessor) (names types : Bool), app.threads.Nodup →
      ∃ result, (access.prepare attributes app name type names types).selectBoth app = some result ∧
        SelectsBoth attributes app name type
          (access.prepare attributes app name type names types) result := by
  intro selects
  let attributes : ThreadAttributes := ⟨fun _ => "worker", id, fun worker => (worker, "type")⟩
  obtain ⟨result, selected, right⟩ := selects attributes ⟨[1], [], [], [], []⟩ "worker" (1, "type")
    construct false false (by decide)
  have member := (right.mem_iff 1).mpr ⟨by decide, .inr rfl, .inr rfl⟩
  rw [selectBoth_eq] at selected
  cases selected
  cases member

end Both

end ThreadAccessor

end Drumlin
