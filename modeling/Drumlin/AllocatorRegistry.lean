import Drumlin.AllocatorRelease

/-!
# What `getHeap` finds

`registerUse` returns the heap it made, and leaves it to `insert` whether `m_heaps` takes it.  The
registry is compared here with what the callers were told: the heap that the last `registerUse` of a
key returned, unless the key was unregistered since.
-/

namespace Drumlin

open Cxx

namespace SharedHeaps

/-! ## Registering and unregistering -/

/-- `malloc` and `std::align` both succeed for the use. -/
def Obtains (source : UsesAllocator) (align : UInt32) (base : Nat) : Prop :=
  base ≠ nullptr ∧
    Cxx.align align.toNat source.dataLength.toNat base
      (regionSize source.dataLength.toNat source.getQueueSize) ≠ nullptr

/-- The two outcomes of `registerUse`: a new heap is returned, and kept if the key is new; or an
exception is thrown and nothing changes. -/
theorem registerUse_cases (uses : Nat) (source : UsesAllocator) (align : UInt32) (base : Nat)
    (shared : SharedHeaps) :
    (Obtains source align base ∧
      (shared.registerUse uses source align base).2 = .ok shared.heapCount ∧
      (shared.registerUse uses source align base).1.heapCount = shared.heapCount + 1 ∧
      (shared.registerUse uses source align base).1.heaps =
        if (shared.getHeap uses).isSome then shared.heaps
        else shared.heaps ++ [(uses, shared.heapCount)]) ∨
    ¬Obtains source align base ∧
      (∃ exception, (shared.registerUse uses source align base).2 = .error exception) ∧
      (shared.registerUse uses source align base).1 = shared := by
  by_cases memory : base = nullptr
  · exact .inr ⟨fun obtains => obtains.1 memory, ⟨"ENOMEM", by simp [registerUse, memory]⟩,
      by simp [registerUse, memory]⟩
  · by_cases aligned : Cxx.align align.toNat source.dataLength.toNat base
        (regionSize source.dataLength.toNat source.getQueueSize) = nullptr
    · exact .inr ⟨fun obtains => obtains.2 aligned,
        ⟨"ENOALIGN", by simp [registerUse, memory, aligned]⟩,
        by simp [registerUse, memory, aligned]⟩
    · refine .inl ⟨⟨memory, aligned⟩, ?_⟩
      simp [registerUse, memory, aligned]

/-- An insertion under a new key is found, and no other search is changed. -/
theorem getHeap_registerUse_of_none {uses : Nat} {source : UsesAllocator} {align : UInt32}
    {base : Nat} {shared : SharedHeaps} (obtains : Obtains source align base)
    (absent : shared.getHeap uses = none) (other : Nat) :
    (shared.registerUse uses source align base).1.getHeap other =
      Function.update shared.getHeap uses (some shared.heapCount) other := by
  rcases registerUse_cases uses source align base shared with
    ⟨-, -, -, heaps⟩ | ⟨refused, -, -⟩
  · simp only [getHeap] at absent ⊢
    rw [heaps]
    by_cases same : other = uses
    · subst same
      simp [getHeap, absent, List.lookup_append]
    · simp [getHeap, absent, List.lookup_append, List.lookup_cons, same,
        beq_eq_false_iff_ne.mpr same]
  · exact (refused obtains).elim

/-- An insertion under a key that is there changes no search. -/
theorem getHeap_registerUse_of_some {uses heap : Nat} {source : UsesAllocator} {align : UInt32}
    {base : Nat} {shared : SharedHeaps} (present : shared.getHeap uses = some heap) (other : Nat) :
    (shared.registerUse uses source align base).1.getHeap other = shared.getHeap other := by
  rcases registerUse_cases uses source align base shared with
    ⟨-, -, -, heaps⟩ | ⟨-, -, unchanged⟩
  · simp [getHeap, heaps] at present ⊢
    simp [present]
  · rw [unchanged]

theorem getHeap_unregisterUse_eq (tokenAt : Nat → Str) (uses other : Nat)
    (shared : SharedHeaps) :
    (shared.unregisterUse tokenAt uses).1.getHeap other =
      if other = uses then none else shared.getHeap other := by
  refine Option.ext fun heap => ?_
  rw [getHeap_unregisterUse]
  by_cases same : other = uses <;> simp [same]

/-- Unregistering registers nothing. -/
theorem heaps_unregisterUse (tokenAt : Nat → Str) (uses : Nat) (shared : SharedHeaps) :
    (shared.unregisterUse tokenAt uses).1.heaps ⊆ shared.heaps ∧
      (shared.unregisterUse tokenAt uses).1.heapCount = shared.heapCount := by
  rcases unregisterUse_cases tokenAt uses shared with ⟨heap, -, result⟩ | ⟨-, result⟩
  · rw [result, release_eq]
    exact ⟨List.filter_subset_self _, rfl⟩
  · simp [result]

/-! ## What the callers were told -/

/-- The heaps, and for each key the heap returned by its last registration. -/
structure Registry where
  /-- The heaps as they are. -/
  shared : SharedHeaps
  /-- What a caller may expect of `getHeap`. -/
  latest : Nat → Option Nat

namespace Registry

/-- Nothing is registered. -/
def start : Registry := ⟨.start, fun _ => none⟩

variable (tokenAt : Nat → Str) (identAt : Nat → UseIdent)

/-- What a caller may expect after one more call. -/
def expect (registry : Registry) : Call → Nat → Option Nat
  | .registerUse uses source align base =>
      match (registry.shared.registerUse uses source align base).2 with
      | .ok heap => Function.update registry.latest uses (some heap)
      | .error _ => registry.latest
  | .unregisterUse uses => Function.update registry.latest uses none
  | .unregisterAll => fun _ => none
  | .getHeap _ | .heap .. | .addAllocated .. | .clearAllocated _ | .drop _ => registry.latest

/-- The heaps and the expectations after one call, if it is defined. -/
def call (registry : Registry) (request : Call) : Option Registry :=
  (registry.shared.call tokenAt identAt request).map fun shared =>
    ⟨shared, registry.expect request⟩

/-- `getHeap` finds what the callers expect. -/
def Faithful (registry : Registry) : Prop :=
  ∀ uses, registry.shared.getHeap uses = registry.latest uses

/-- No key is registered while it is there, and `unregisterAll` is called where none is. -/
def Replaces (registry : Registry) : Call → Prop
  | .registerUse uses source align base =>
      Obtains source align base → registry.shared.getHeap uses = none
  | .unregisterAll => registry.shared.heaps = []
  | .getHeap _ | .unregisterUse _ | .heap .. | .addAllocated .. | .clearAllocated _ | .drop _ =>
      True

/-- The numbers of the registered heaps were given out. -/
def Numbered (registry : Registry) : Prop :=
  ∀ entry ∈ registry.shared.heaps, entry.2 < registry.shared.heapCount

variable {registry : Registry}

/-- A call registers, or unregisters, or leaves what is registered and expected as it is. -/
theorem call_cases (registry : Registry) (request : Call) :
    (∃ uses source align base, request = .registerUse uses source align base) ∨
      (∃ uses, request = .unregisterUse uses) ∨ request = .unregisterAll ∨
      (registry.Replaces request ∧ ∃ next, registry.call tokenAt identAt request = some next ∧
        next.shared.heaps = registry.shared.heaps ∧
        next.shared.heapCount = registry.shared.heapCount ∧ next.latest = registry.latest) := by
  cases request with
  | registerUse uses source align base => exact .inl ⟨uses, source, align, base, rfl⟩
  | unregisterUse uses => exact .inr (.inl ⟨uses, rfl⟩)
  | unregisterAll => exact .inr (.inr (.inl rfl))
  | getHeap uses => exact .inr (.inr (.inr ⟨trivial, _, rfl, rfl, rfl, rfl⟩))
  | clearAllocated filter =>
      simp [Registry.call, SharedHeaps.call, expect, Replaces]
  | heap heap request =>
      by_cases held : heap ∈ registry.shared.handles <;>
        simp [Registry.call, SharedHeaps.call, expect, Replaces, held]
  | addAllocated ident heap =>
      by_cases held : heap ∈ registry.shared.handles <;>
        simp [Registry.call, SharedHeaps.call, expect, Replaces, held]
  | drop heap =>
      by_cases held : heap ∈ registry.shared.handles <;>
        simp [Registry.call, SharedHeaps.call, expect, Replaces, held, release_eq]

theorem call_registerUse (uses : Nat) (source : UsesAllocator) (align : UInt32) (base : Nat) :
    registry.call tokenAt identAt (.registerUse uses source align base) =
      some ⟨(registry.shared.registerUse uses source align base).1,
        registry.expect (.registerUse uses source align base)⟩ := rfl

theorem call_unregisterUse (uses : Nat) :
    registry.call tokenAt identAt (.unregisterUse uses) =
      some ⟨(registry.shared.unregisterUse tokenAt uses).1,
        Function.update registry.latest uses none⟩ := rfl

theorem call_unregisterAll :
    registry.call tokenAt identAt .unregisterAll =
      if registry.shared.heaps = [] then some ⟨registry.shared, fun _ => none⟩ else none := by
  rw [call, SharedHeaps.call_unregisterAll]
  split <;> rfl

theorem Numbered.call {next : Registry} (numbered : registry.Numbered) {request : Call}
    (taken : registry.call tokenAt identAt request = some next) : next.Numbered := by
  rcases registry.call_cases tokenAt identAt request with
    ⟨uses, source, align, base, rfl⟩ | ⟨uses, rfl⟩ | rfl | ⟨-, after, answered, heaps, count, -⟩
  · rw [call_registerUse] at taken
    obtain rfl := Option.some.inj taken
    rcases registerUse_cases uses source align base registry.shared with
      ⟨-, -, count, heaps⟩ | ⟨-, -, unchanged⟩
    · intro entry member
      dsimp only at member ⊢
      rw [count]
      rw [heaps] at member
      split at member
      · exact (numbered entry member).trans (Nat.lt_succ_self _)
      · rcases List.mem_append.mp member with before | new
        · exact (numbered entry before).trans (Nat.lt_succ_self _)
        · obtain rfl := List.mem_singleton.mp new
          exact Nat.lt_succ_self _
    · rw [Numbered, unchanged]
      exact numbered
  · rw [call_unregisterUse] at taken
    obtain rfl := Option.some.inj taken
    obtain ⟨subset, same⟩ := heaps_unregisterUse tokenAt uses registry.shared
    intro entry member
    dsimp only at member ⊢
    rw [same]
    exact numbered entry (subset member)
  · rw [call_unregisterAll, Option.ite_none_right_eq_some] at taken
    obtain rfl := Option.some.inj taken.2
    exact numbered
  · obtain rfl := Option.some.inj (answered.symm.trans taken)
    rwa [Numbered, heaps, count]

/-- A registration keeps the registry faithful precisely when its key is new. -/
theorem Faithful.registerUse_iff (faithful : registry.Faithful) (numbered : registry.Numbered)
    (uses : Nat) (source : UsesAllocator) (align : UInt32) (base : Nat) :
    Faithful ⟨(registry.shared.registerUse uses source align base).1,
        registry.expect (.registerUse uses source align base)⟩ ↔
      (Obtains source align base → registry.shared.getHeap uses = none) := by
  have expected := registerUse_cases uses source align base registry.shared
  simp only [Faithful, expect]
  rcases expected with ⟨obtains, returned, -, -⟩ | ⟨refused, ⟨exception, thrown⟩, unchanged⟩
  · simp only [returned, obtains, forall_true_left]
    constructor
    · intro found
      by_contra present
      obtain ⟨heap, present⟩ := Option.ne_none_iff_exists'.mp present
      have kept := found uses
      rw [getHeap_registerUse_of_some present, present, Function.update_self] at kept
      exact Nat.lt_irrefl _ (Option.some.inj kept ▸ numbered _ (mem_of_getHeap present))
    · intro absent other
      rw [getHeap_registerUse_of_none obtains absent]
      simp only [Function.update_apply, faithful other]
  · simp only [thrown, unchanged, refused, false_imp_iff, iff_true]
    exact faithful

theorem Faithful.call_iff (faithful : registry.Faithful) (numbered : registry.Numbered)
    (request : Call) :
    (∃ next, registry.call tokenAt identAt request = some next ∧ next.Faithful) ↔
      registry.Replaces request := by
  rcases registry.call_cases tokenAt identAt request with
    ⟨uses, source, align, base, rfl⟩ | ⟨uses, rfl⟩ | rfl | ⟨replaces, after, answered, same⟩
  · simp only [call_registerUse, Option.some.injEq, exists_eq_left']
    exact faithful.registerUse_iff numbered uses source align base
  · refine iff_of_true ⟨_, call_unregisterUse tokenAt identAt uses, fun other => ?_⟩ trivial
    dsimp only
    rw [getHeap_unregisterUse_eq, Function.update_apply, faithful other]
  · rw [call_unregisterAll, Replaces]
    split
    · rename_i none
      refine iff_of_true ⟨_, rfl, fun other => ?_⟩ none
      rw [getHeap, none]
      rfl
    · rename_i some
      exact iff_of_false (by simp) some
  · obtain ⟨heaps, -, latest⟩ := same
    refine iff_of_true ⟨after, answered, fun other => ?_⟩ replaces
    rw [latest, getHeap, heaps]
    exact faithful other

/-- Every call of a run is defined, and `getHeap` finds what the callers expect after it, exactly as
long as no key is registered while it is there, and `unregisterAll` is called where none is. -/
theorem getHeap_faithful_iff (calls : List Call) :
    Runs.Along (call tokenAt identAt)
        (fun registry request => ∃ next,
          registry.call tokenAt identAt request = some next ∧ next.Faithful) start calls ↔
      Runs.Along (call tokenAt identAt) Replaces start calls := by
  refine Runs.along_answered_iff_along Numbered ?_ ?_ ?_ ?_ calls
  · exact fun registry request next taken numbered => numbered.call tokenAt identAt taken
  · exact fun registry request numbered faithful =>
      faithful.call_iff tokenAt identAt numbered request
  · simp [Numbered, start, SharedHeaps.start]
  · simp [Faithful, start, SharedHeaps.start, getHeap]

/-- A key registered twice: the second caller is given a heap that `getHeap` does not find. -/
theorem getHeap_not_faithful :
    ¬∀ (tokenAt : Nat → Str) (identAt : Nat → UseIdent) (calls : List Call) (final : Registry),
      Runs.exec (call tokenAt identAt) start calls = some final → final.Faithful := by
  intro always
  let source : UsesAllocator := ⟨64, 4, 1, 1⟩
  have found := always (fun _ => []) (fun _ => .empty)
    [.registerUse 1 source 16 4096, .registerUse 1 source 16 8192] _ rfl 1
  revert found
  decide

end Registry

end SharedHeaps

end Drumlin
