import Drumlin.Allocator
import Drumlin.Library.Runs

/-!
# Release of heap regions

The region of a heap is passed to `::free` when the heap is unregistered, and again by the
destructor of the heap when the last shared pointer to it is gone.  An entry of the cache holds such
a pointer, and nothing takes it from there: `clearAllocated` compares with a filter that was copied.
-/

namespace Drumlin

namespace SharedHeaps

/-! ## What one call does -/

@[simp] theorem clearAllocated_eq (use : UseIdentFilter) (shared : SharedHeaps) :
    shared.clearAllocated use = shared := by
  have unchanged : shared.cache.clearAllocated UseIdentFilter.equals use = (shared.cache, []) :=
    BufferCache.clearAllocated_of_forall_not _ fun _ _ => rfl
  have none : shared.cache.buffers.filter (fun pair => use.equals pair.1) = [] :=
    List.filter_eq_nil_iff.mpr fun _ _ => Bool.false_ne_true
  simp [clearAllocated, unchanged, none]

/-- `release` only ever frees. -/
theorem release_eq (heap : Nat) (shared : SharedHeaps) :
    shared.release heap =
      { shared with freed := shared.freed ++ if shared.useCount heap = 0 then [heap] else [] } := by
  by_cases last : shared.useCount heap = 0 <;> simp [release, passToFree, last]

/-- Someone other than `m_heaps` owns the heap. -/
def OwnedElsewhere (shared : SharedHeaps) (heap : Nat) : Prop :=
  heap ∈ shared.handles ∨ ∃ entry ∈ shared.cache.buffers, entry.2 = heap

theorem useCount_eq_zero_iff {shared : SharedHeaps} {heap : Nat} :
    shared.useCount heap = 0 ↔
      (∀ entry ∈ shared.heaps, entry.2 ≠ heap) ∧ ¬shared.OwnedElsewhere heap := by
  simp only [useCount, Nat.add_eq_zero_iff, List.count_eq_zero, List.countP_eq_zero, beq_iff_eq,
    OwnedElsewhere, not_or, not_exists, not_and]
  tauto

/-- Registering a use frees nothing and adds no entry to the cache. -/
theorem registerUse_frame (uses : Nat) (source : UsesAllocator) (align : UInt32) (base : Nat)
    (shared : SharedHeaps) :
    (shared.registerUse uses source align base).1.cache.buffers = shared.cache.buffers ∧
      (shared.registerUse uses source align base).1.freed = shared.freed := by
  simp only [registerUse]
  split
  · exact ⟨rfl, rfl⟩
  · split <;> exact ⟨rfl, rfl⟩

/-- Neither does a call on a heap. -/
theorem call_heap_frame (tokenAt : Nat → Str) (identAt : Nat → UseIdent) (shared : SharedHeaps)
    (heap : Nat) (request : Heap.Call) :
    ∃ next, shared.call tokenAt identAt (.heap heap request) = some next ∧
      next.cache.buffers = shared.cache.buffers ∧ next.freed = shared.freed := by
  simp only [call]
  split <;> exact ⟨_, rfl, rfl, rfl⟩

/-- The two outcomes of `unregisterUse`: the heap is freed and leaves `m_heaps`, and is freed again
if that was its last owner; or there was none. -/
theorem unregisterUse_cases (tokenAt : Nat → Str) (uses : Nat) (shared : SharedHeaps) :
    (∃ heap, shared.getHeap uses = some heap ∧
      (shared.unregisterUse tokenAt uses).1 =
        { shared with
          freed := shared.freed ++ [heap]
          heaps := shared.heaps.filter fun entry => entry.1 != uses }.release heap) ∨
    shared.getHeap uses = none ∧ (shared.unregisterUse tokenAt uses).1 = shared := by
  cases found : shared.getHeap uses with
  | some heap =>
      exact .inl ⟨heap, rfl, by simp [unregisterUse, found, doUnregisterHeap, passToFree]⟩
  | none => exact .inr ⟨rfl, by simp [unregisterUse, found]⟩

/-- The heap that is unregistered leaves `m_heaps`. -/
theorem notMem_doUnregisterHeap (tokenAt : Nat → Str) (pair : Nat × Nat) (shared : SharedHeaps) :
    pair ∉ (shared.doUnregisterHeap tokenAt pair.1 pair.2).1.heaps := by
  simp [doUnregisterHeap, release_eq]

/-- The first element that `unregisterAll` comes to is erased, and the iterator at it advanced. -/
theorem unregisterFrom_cons {tokenAt : Nat → Str} {pair : Nat × Nat} {rest : List (Nat × Nat)}
    {shared : SharedHeaps} (member : pair ∈ shared.heaps) :
    unregisterFrom tokenAt (pair :: rest) shared = none := by
  rw [unregisterFrom, if_neg (not_not_intro member)]
  exact if_pos (notMem_doUnregisterHeap tokenAt pair shared)

/-- `unregisterAll` is defined where there is nothing to unregister. -/
theorem call_unregisterAll (tokenAt : Nat → Str) (identAt : Nat → UseIdent)
    (shared : SharedHeaps) :
    shared.call tokenAt identAt .unregisterAll =
      if shared.heaps = [] then some shared else none := by
  cases elements : shared.heaps with
  | nil => simp [call, unregisterAll, elements, unregisterFrom]
  | cons pair rest =>
      have member : pair ∈ shared.heaps := elements ▸ List.mem_cons_self
      have undefined : unregisterFrom tokenAt (pair :: rest) shared = none :=
        unregisterFrom_cons member
      simp [call, unregisterAll, elements, undefined]

theorem mem_of_getHeap {shared : SharedHeaps} {uses heap : Nat}
    (found : shared.getHeap uses = some heap) : (uses, heap) ∈ shared.heaps := by
  obtain ⟨front, back, heaps, -⟩ := List.lookup_eq_some_iff.mp found
  simp [heaps]

private theorem lookup_filter_ne (uses other : Nat) (heaps : List (Nat × Nat)) :
    (heaps.filter fun entry => entry.1 != uses).lookup other =
      if other = uses then none else heaps.lookup other := by
  induction heaps with
  | nil => simp
  | cons entry heaps induction =>
      obtain ⟨key, heap⟩ := entry
      by_cases removed : key = uses
      · by_cases same : other = uses
        · simpa [removed, same] using induction
        · simpa [removed, same, List.lookup_cons, beq_eq_false_iff_ne.mpr same] using induction
      · by_cases here : other = key
        · simp [removed, here]
        · simpa [removed, List.lookup_cons, beq_eq_false_iff_ne.mpr here] using induction

/-- Unregistering takes one key away. -/
theorem getHeap_unregisterUse (tokenAt : Nat → Str) (uses other heap : Nat)
    (shared : SharedHeaps) :
    (shared.unregisterUse tokenAt uses).1.getHeap other = some heap ↔
      other ≠ uses ∧ shared.getHeap other = some heap := by
  rcases unregisterUse_cases tokenAt uses shared with ⟨found, _, result⟩ | ⟨missing, result⟩
  · rw [result, release_eq, getHeap, lookup_filter_ne]
    split <;> simp [*, getHeap]
  · rw [result, iff_and_self]
    rintro found rfl
    simp [missing] at found

/-- Unregistering leaves the other owners alone. -/
theorem unregisterUse_owners (tokenAt : Nat → Str) (uses : Nat) (shared : SharedHeaps) :
    (shared.unregisterUse tokenAt uses).1.cache = shared.cache ∧
      (shared.unregisterUse tokenAt uses).1.handles = shared.handles := by
  rcases unregisterUse_cases tokenAt uses shared with ⟨heap, _, result⟩ | ⟨_, result⟩
  · rw [result, release_eq]
    exact ⟨rfl, rfl⟩
  · rw [result]
    exact ⟨rfl, rfl⟩

/-- What is freed by unregistering is what was registered for the key. -/
theorem mem_freed_unregisterUse (tokenAt : Nat → Str) (uses : Nat) (shared : SharedHeaps)
    (heap : Nat) :
    heap ∈ (shared.unregisterUse tokenAt uses).1.freed ↔
      heap ∈ shared.freed ∨ shared.getHeap uses = some heap := by
  rcases unregisterUse_cases tokenAt uses shared with ⟨_, found, result⟩ | ⟨missing, result⟩
  · rw [result, release_eq, found]
    split <;> simp [eq_comm]
  · simp [result, missing]

/-! ## Entries of the cache -/

/-- No entry of the cache refers to a heap whose region was freed. -/
def CacheIsLive (shared : SharedHeaps) : Prop :=
  ∀ entry ∈ shared.cache.buffers, entry.2 ∉ shared.freed

/-- No entry of the cache refers to the heap registered for the key. -/
def Uncached (shared : SharedHeaps) (uses : Nat) : Prop :=
  ∀ heap, shared.getHeap uses = some heap → ∀ entry ∈ shared.cache.buffers, entry.2 ≠ heap

/-- The call unregisters no heap the cache refers to, and adds no freed heap to it; `unregisterAll`
is defined. -/
def KeepsCacheLive (shared : SharedHeaps) : Call → Prop
  | .unregisterUse uses => shared.Uncached uses
  | .unregisterAll => shared.heaps = []
  | .addAllocated _ heap => heap ∈ shared.handles → heap ∉ shared.freed
  | .registerUse .. | .getHeap _ | .heap .. | .clearAllocated _ | .drop _ => True

variable (tokenAt : Nat → Str) (identAt : Nat → UseIdent)

theorem freed_prefix_unregisterUse (uses : Nat) (shared : SharedHeaps) :
    shared.freed <+: (shared.unregisterUse tokenAt uses).1.freed := by
  rcases unregisterUse_cases tokenAt uses shared with ⟨heap, _, result⟩ | ⟨_, result⟩
  · rw [result, release_eq]
    exact (List.prefix_append _ _).trans (List.prefix_append _ _)
  · simp [result]

/-- Nothing that was freed is forgotten, and no entry leaves the cache. -/
theorem call_grows {shared next : SharedHeaps} {request : Call}
    (taken : shared.call tokenAt identAt request = some next) :
    shared.cache.buffers ⊆ next.cache.buffers ∧ shared.freed <+: next.freed := by
  cases request with
  | registerUse uses source align base =>
      obtain ⟨buffers, freed⟩ := registerUse_frame uses source align base shared
      obtain rfl := Option.some.inj taken
      rw [buffers, freed]
      exact ⟨List.Subset.refl _, List.prefix_rfl⟩
  | getHeap uses =>
      obtain rfl := Option.some.inj taken
      exact ⟨List.Subset.refl _, List.prefix_rfl⟩
  | unregisterUse uses =>
      obtain rfl := Option.some.inj taken
      rw [(unregisterUse_owners tokenAt uses shared).1]
      exact ⟨List.Subset.refl _, freed_prefix_unregisterUse tokenAt uses shared⟩
  | unregisterAll =>
      rw [call_unregisterAll, Option.ite_none_right_eq_some] at taken
      obtain rfl := Option.some.inj taken.2
      exact ⟨List.Subset.refl _, List.prefix_rfl⟩
  | heap heap request =>
      obtain ⟨after, answered, buffers, freed⟩ :=
        call_heap_frame tokenAt identAt shared heap request
      obtain rfl := Option.some.inj (answered.symm.trans taken)
      rw [buffers, freed]
      exact ⟨List.Subset.refl _, List.prefix_rfl⟩
  | addAllocated ident heap =>
      simp only [call] at taken
      split at taken
      · obtain rfl := Option.some.inj taken
        simp [BufferCache.addAllocated]
      · obtain rfl := Option.some.inj taken
        exact ⟨List.Subset.refl _, List.prefix_rfl⟩
  | clearAllocated filter =>
      obtain rfl := Option.some.inj taken
      simp
  | drop heap =>
      simp only [call, release_eq] at taken
      split at taken
      · obtain rfl := Option.some.inj taken
        exact ⟨List.Subset.refl _, List.prefix_append _ _⟩
      · obtain rfl := Option.some.inj taken
        exact ⟨List.Subset.refl _, List.prefix_rfl⟩

/-- In a state in which the cache refers to no freed heap, a call is defined and keeps it so
precisely when it unregisters no heap the cache refers to and adds no freed heap. -/
theorem cacheIsLive_call_iff {shared : SharedHeaps} (live : shared.CacheIsLive) (request : Call) :
    (∃ next, shared.call tokenAt identAt request = some next ∧ next.CacheIsLive) ↔
      shared.KeepsCacheLive request := by
  cases request with
  | registerUse uses source align base =>
      obtain ⟨buffers, freed⟩ := registerUse_frame uses source align base shared
      simpa [call, KeepsCacheLive, CacheIsLive, buffers, freed] using live
  | getHeap uses => simpa [call, KeepsCacheLive, CacheIsLive] using live
  | unregisterUse uses =>
      simp only [call, Option.some.injEq, exists_eq_left', KeepsCacheLive, CacheIsLive,
        (unregisterUse_owners tokenAt uses shared).1, mem_freed_unregisterUse, not_or]
      constructor
      · rintro kept _ found entry cached rfl
        exact (kept entry cached).2 found
      · intro uncached entry cached
        exact ⟨live entry cached, fun found => uncached _ found entry cached rfl⟩
  | unregisterAll =>
      rw [call_unregisterAll, KeepsCacheLive]
      split
      · rename_i none
        exact iff_of_true ⟨shared, rfl, live⟩ none
      · rename_i some
        exact iff_of_false (by simp) some
  | heap heap request =>
      obtain ⟨next, answered, buffers, freed⟩ :=
        call_heap_frame tokenAt identAt shared heap request
      rw [answered]
      simpa [KeepsCacheLive, CacheIsLive, buffers, freed] using live
  | addAllocated ident heap =>
      by_cases held : heap ∈ shared.handles
      · simp only [call, held, if_true, KeepsCacheLive, forall_true_left, CacheIsLive,
          BufferCache.addAllocated, List.forall_mem_append, List.forall_mem_singleton,
          Option.some.injEq, exists_eq_left']
        exact and_iff_right live
      · simp [call, held, KeepsCacheLive, live]
  | clearAllocated filter => simpa [call, KeepsCacheLive] using live
  | drop heap =>
      simp only [call, KeepsCacheLive, iff_true]
      split
      · refine ⟨_, rfl, ?_⟩
        rw [release_eq]
        intro entry cached freed
        rcases List.mem_append.mp freed with before | last
        · exact live entry cached before
        · split at last
          · rename_i unowned
            obtain rfl := List.mem_singleton.mp last
            exact (useCount_eq_zero_iff.mp unowned).2 (.inr ⟨entry, cached, rfl⟩)
          · simp at last
      · exact ⟨shared, rfl, live⟩

/-- A run is defined, and no entry of the cache refers to a freed heap at its end, precisely if no
heap is unregistered while the cache refers to it, none is added to the cache once it was freed, and
`unregisterAll` is only called where no heap is registered. -/
theorem cacheIsLive_iff (calls : List Call) :
    (∃ final, Runs.exec (call tokenAt identAt) start calls = some final ∧ final.CacheIsLive) ↔
      Runs.Along (call tokenAt identAt) KeepsCacheLive start calls := by
  have begins : start.CacheIsLive := by simp [CacheIsLive, start]
  rw [Runs.answered_exec_iff_along (fun _ => True) (fun _ _ _ _ _ => trivial)
    (fun shared request _ live => cacheIsLive_call_iff tokenAt identAt live request) ?_ trivial
    calls]
  · exact and_iff_right begins
  · intro shared request next taken _ stale live
    obtain ⟨buffers, freed⟩ := call_grows tokenAt identAt taken
    exact stale fun entry cached before => live entry (buffers cached) (freed.subset before)

/-- A buffer allocated for a use and added to the cache is there when the use is unregistered. -/
theorem cacheIsLive_fails :
    ¬∀ (tokenAt : Nat → Str) (identAt : Nat → UseIdent) (calls : List Call) (final : SharedHeaps),
      Runs.exec (call tokenAt identAt) start calls = some final → final.CacheIsLive := by
  intro live
  let calls : List Call := [.registerUse 1 ⟨64, 4, 1, 1⟩ 16 4096, .heap 0 (.alloc 0),
    .addAllocated (.ofUses 1 []) 0, .unregisterUse 1]
  have stale : (Runs.exec (call (fun _ => []) fun _ => .empty) start calls).any (fun final =>
      (UseIdent.ofUses 1 [], 0) ∈ final.cache.buffers ∧ 0 ∈ final.freed) = true := by decide
  obtain ⟨final, run, found⟩ := (Option.any_eq_true _ _).mp stale
  obtain ⟨cached, freed⟩ := of_decide_eq_true found
  exact live (fun _ => []) (fun _ => .empty) calls final run _ cached freed

/-! ## Freeing twice -/

/-- What the calls keep: a key or a heap is registered once, a registered heap was not freed, and
every number in use was given out. -/
structure Consistent (shared : SharedHeaps) : Prop where
  keys : (shared.heaps.map Prod.fst).Nodup
  values : (shared.heaps.map Prod.snd).Nodup
  registered : ∀ entry ∈ shared.heaps, entry.2 < shared.heapCount ∧ entry.2 ∉ shared.freed
  owned : ∀ heap, shared.OwnedElsewhere heap → heap < shared.heapCount
  known : ∀ heap ∈ shared.freed, heap < shared.heapCount

/-- The call frees no heap a second time: a heap unregistered is owned by someone else, and the
last shared pointer dropped is not one to a freed heap; `unregisterAll` is defined. -/
def FreesOnce (shared : SharedHeaps) : Call → Prop
  | .unregisterUse uses => ∀ heap, shared.getHeap uses = some heap → shared.OwnedElsewhere heap
  | .unregisterAll => shared.heaps = []
  | .drop heap => heap ∈ shared.handles → shared.useCount heap = 1 → heap ∉ shared.freed
  | .registerUse .. | .getHeap _ | .heap .. | .addAllocated .. | .clearAllocated _ => True

/-- A heap that loses its last owner is not registered. -/
private theorem Consistent.release {shared : SharedHeaps} (consistent : shared.Consistent)
    {heap : Nat} (known : heap < shared.heapCount) : (shared.release heap).Consistent := by
  rw [release_eq]
  split
  · rename_i unowned
    refine ⟨consistent.keys, consistent.values, fun entry member => ?_, consistent.owned, ?_⟩
    · refine ⟨(consistent.registered entry member).1, fun freed => ?_⟩
      rcases List.mem_append.mp freed with before | last
      · exact (consistent.registered entry member).2 before
      · exact (useCount_eq_zero_iff.mp unowned).1 entry member (List.mem_singleton.mp last)
    · intro other freed
      rcases List.mem_append.mp freed with before | last
      · exact consistent.known other before
      · exact List.mem_singleton.mp last ▸ known
  · simpa using consistent

/-- Unregistering a heap takes it out of `m_heaps`. -/
private theorem Consistent.unregistered {shared : SharedHeaps} (consistent : shared.Consistent)
    {uses heap : Nat} (found : shared.getHeap uses = some heap) :
    ∀ entry ∈ shared.heaps.filter (fun entry => entry.1 != uses), entry.2 ≠ heap := by
  intro entry member same
  obtain ⟨kept, other⟩ := List.mem_filter.mp member
  have equal := List.inj_on_of_nodup_map consistent.values kept (mem_of_getHeap found) same
  simp [equal] at other

theorem Consistent.unregisterUse (tokenAt : Nat → Str) {shared : SharedHeaps}
    (consistent : shared.Consistent) (uses : Nat) :
    (shared.unregisterUse tokenAt uses).1.Consistent := by
  rcases unregisterUse_cases tokenAt uses shared with ⟨heap, found, result⟩ | ⟨_, result⟩
  · rw [result]
    have known := (consistent.registered _ (mem_of_getHeap found)).1
    have left := consistent.unregistered found
    have erased : Consistent
        { shared with
          freed := shared.freed ++ [heap]
          heaps := shared.heaps.filter fun entry => entry.1 != uses } := by
      refine ⟨?_, ?_, ?_, consistent.owned, ?_⟩
      · exact consistent.keys.sublist (List.filter_sublist.map _)
      · exact consistent.values.sublist (List.filter_sublist.map _)
      · intro entry member
        obtain ⟨before, unfreed⟩ := consistent.registered entry (List.mem_of_mem_filter member)
        refine ⟨before, fun freed => ?_⟩
        rcases List.mem_append.mp freed with earlier | last
        · exact unfreed earlier
        · exact left entry member (List.mem_singleton.mp last)
      · intro other freed
        rcases List.mem_append.mp freed with earlier | last
        · exact consistent.known other earlier
        · exact List.mem_singleton.mp last ▸ known
    exact erased.release known
  · rw [result]
    exact consistent

theorem Consistent.registerUse {shared : SharedHeaps} (consistent : shared.Consistent)
    (uses : Nat) (source : UsesAllocator) (align : UInt32) (base : Nat) :
    (shared.registerUse uses source align base).1.Consistent := by
  have fresh : shared.heapCount ∉ shared.freed := fun freed =>
    absurd (consistent.known _ freed) (Nat.lt_irrefl _)
  simp only [SharedHeaps.registerUse]
  split
  · exact consistent
  · split
    · exact consistent
    · have owned : ∀ heap, heap ∈ shared.handles ++ [shared.heapCount] ∨
          (∃ entry ∈ shared.cache.buffers, entry.2 = heap) → heap < shared.heapCount + 1 := by
        rintro heap (held | cached)
        · rcases List.mem_append.mp held with before | new
          · exact Nat.lt_succ_of_lt (consistent.owned heap (.inl before))
          · simp [List.mem_singleton.mp new]
        · exact Nat.lt_succ_of_lt (consistent.owned heap (.inr cached))
      have known : ∀ heap ∈ shared.freed, heap < shared.heapCount + 1 :=
        fun heap freed => Nat.lt_succ_of_lt (consistent.known heap freed)
      have registered : ∀ entry ∈ shared.heaps,
          entry.2 < shared.heapCount + 1 ∧ entry.2 ∉ shared.freed := fun entry member =>
        ⟨Nat.lt_succ_of_lt (consistent.registered entry member).1,
          (consistent.registered entry member).2⟩
      split
      · exact ⟨consistent.keys, consistent.values, registered, owned, known⟩
      · rename_i missing
        have new_key : ∀ entry ∈ shared.heaps, entry.1 ≠ uses := by
          intro entry member same
          exact missing (List.lookup_isSome_iff.mpr ⟨entry, member, by simp [same]⟩)
        have new_value : ∀ entry ∈ shared.heaps, entry.2 ≠ shared.heapCount := fun entry member =>
          Nat.ne_of_lt (consistent.registered entry member).1
        refine ⟨?_, ?_, ?_, owned, known⟩
        · simpa [List.nodup_append] using ⟨consistent.keys, fun _ key member =>
            new_key (_, key) member⟩
        · simpa [List.nodup_append] using ⟨consistent.values, fun _ key member =>
            new_value (key, _) member⟩
        · simp only [List.forall_mem_append, List.forall_mem_singleton]
          exact ⟨registered, Nat.lt_succ_self _, fresh⟩

theorem Consistent.call {shared next : SharedHeaps} (consistent : shared.Consistent)
    {request : Call} (taken : shared.call tokenAt identAt request = some next) :
    next.Consistent := by
  cases request with
  | registerUse uses source align base =>
      obtain rfl := Option.some.inj taken
      exact consistent.registerUse uses source align base
  | getHeap uses =>
      obtain rfl := Option.some.inj taken
      refine ⟨consistent.keys, consistent.values, consistent.registered, ?_, consistent.known⟩
      rintro heap (held | cached)
      · rcases List.mem_append.mp held with before | found
        · exact consistent.owned heap (.inl before)
        · rw [Option.mem_toList] at found
          exact (consistent.registered _ (mem_of_getHeap found)).1
      · exact consistent.owned heap (.inr cached)
  | unregisterUse uses =>
      obtain rfl := Option.some.inj taken
      exact consistent.unregisterUse tokenAt uses
  | unregisterAll =>
      rw [call_unregisterAll, Option.ite_none_right_eq_some] at taken
      obtain rfl := Option.some.inj taken.2
      exact consistent
  | heap heap request =>
      simp only [SharedHeaps.call] at taken
      split at taken
      · obtain rfl := Option.some.inj taken
        exact ⟨consistent.keys, consistent.values, consistent.registered, consistent.owned,
          consistent.known⟩
      · obtain rfl := Option.some.inj taken
        exact consistent
  | addAllocated ident heap =>
      simp only [SharedHeaps.call] at taken
      split at taken
      · rename_i held
        obtain rfl := Option.some.inj taken
        refine ⟨consistent.keys, consistent.values, consistent.registered, ?_, consistent.known⟩
        rintro other (before | ⟨entry, cached, rfl⟩)
        · exact consistent.owned other (.inl before)
        · rcases List.mem_append.mp cached with before | added
          · exact consistent.owned entry.2 (.inr ⟨entry, before, rfl⟩)
          · rw [List.mem_singleton.mp added]
            exact consistent.owned heap (.inl held)
      · obtain rfl := Option.some.inj taken
        exact consistent
  | clearAllocated filter =>
      obtain rfl := Option.some.inj taken
      rwa [clearAllocated_eq]
  | drop heap =>
      simp only [SharedHeaps.call] at taken
      split at taken
      · rename_i held
        obtain rfl := Option.some.inj taken
        have dropped : Consistent { shared with handles := shared.handles.erase heap } := by
          refine ⟨consistent.keys, consistent.values, consistent.registered, ?_, consistent.known⟩
          rintro other (before | cached)
          · exact consistent.owned other (.inl (List.mem_of_mem_erase before))
          · exact consistent.owned other (.inr cached)
        exact dropped.release (consistent.owned heap (.inl held))
      · obtain rfl := Option.some.inj taken
        exact consistent

/-- Unregistering frees a heap once precisely when someone else owns it. -/
theorem nodup_freed_unregisterUse_iff {shared : SharedHeaps} (consistent : shared.Consistent)
    (once : shared.freed.Nodup) (uses : Nat) :
    (shared.unregisterUse tokenAt uses).1.freed.Nodup ↔
      ∀ heap, shared.getHeap uses = some heap → shared.OwnedElsewhere heap := by
  rcases unregisterUse_cases tokenAt uses shared with ⟨heap, found, result⟩ | ⟨missing, result⟩
  · have unfreed := (consistent.registered _ (mem_of_getHeap found)).2
    have left := consistent.unregistered found
    rw [result, release_eq]
    simp only [found, Option.some.injEq, forall_eq']
    split
    · rename_i unowned
      refine iff_of_false ?_ (useCount_eq_zero_iff.mp unowned).2
      simp [List.nodup_append]
    · rename_i owned
      refine iff_of_true ?_ ?_
      · simpa [List.nodup_append, once] using fun _ member => ne_of_mem_of_not_mem member unfreed
      · by_contra unowned
        exact owned (useCount_eq_zero_iff.mpr ⟨left, unowned⟩)
  · simp [result, missing, once]

/-- In a state in which no region was freed twice, a call is defined and keeps it so precisely when
it frees no heap a second time. -/
theorem nodup_freed_call_iff {shared : SharedHeaps} (consistent : shared.Consistent)
    (once : shared.freed.Nodup) (request : Call) :
    (∃ next, shared.call tokenAt identAt request = some next ∧ next.freed.Nodup) ↔
      shared.FreesOnce request := by
  cases request with
  | registerUse uses source align base =>
      simpa [call, FreesOnce, (registerUse_frame uses source align base shared).2] using once
  | getHeap uses => simpa [call, FreesOnce] using once
  | unregisterUse uses =>
      simp only [call, Option.some.injEq, exists_eq_left', FreesOnce]
      exact nodup_freed_unregisterUse_iff tokenAt consistent once uses
  | unregisterAll =>
      rw [call_unregisterAll, FreesOnce]
      split
      · rename_i none
        exact iff_of_true ⟨shared, rfl, once⟩ none
      · rename_i some
        exact iff_of_false (by simp) some
  | heap heap request =>
      obtain ⟨next, answered, -, freed⟩ := call_heap_frame tokenAt identAt shared heap request
      rw [answered]
      simpa [FreesOnce, freed] using once
  | addAllocated ident heap =>
      simp only [call, FreesOnce, iff_true]
      split
      · exact ⟨_, rfl, once⟩
      · exact ⟨_, rfl, once⟩
  | clearAllocated filter => simpa [call, FreesOnce] using once
  | drop heap =>
      by_cases held : heap ∈ shared.handles
      · have counted : shared.useCount heap =
            { shared with handles := shared.handles.erase heap }.useCount heap + 1 := by
          have positive := List.count_pos_iff.mpr held
          simp only [useCount, List.count_erase_self]
          omega
        simp only [call, held, if_true, FreesOnce, forall_true_left, counted, Nat.add_eq_right,
          release_eq, Option.some.injEq, exists_eq_left']
        split
        · rename_i last
          simpa [last, once, List.nodup_append] using List.forall_mem_ne'
        · rename_i more
          simp [more, once]
      · simp [call, held, FreesOnce, once]

/-- A run is defined, and passes every region to `::free` at most once, precisely if a heap that is
unregistered is owned by someone else, the last shared pointer to it is never dropped, and
`unregisterAll` is only called where no heap is registered. -/
theorem nodup_freed_iff (calls : List Call) :
    (∃ final, Runs.exec (call tokenAt identAt) start calls = some final ∧ final.freed.Nodup) ↔
      Runs.Along (call tokenAt identAt) FreesOnce start calls := by
  have begins : start.Consistent := by
    refine ⟨?_, ?_, ?_, ?_, ?_⟩ <;> simp [start, OwnedElsewhere]
  rw [Runs.answered_exec_iff_along Consistent
    (fun shared request next taken consistent => consistent.call tokenAt identAt taken)
    (fun shared request consistent once =>
      nodup_freed_call_iff tokenAt identAt consistent once request) ?_ begins calls]
  · simp [start]
  · intro shared request next taken _ twice once
    exact twice (once.sublist (call_grows tokenAt identAt taken).2.sublist)

/-- A heap is registered, its caller lets go of it, and it is unregistered. -/
theorem nodup_freed_fails :
    ¬∀ (tokenAt : Nat → Str) (identAt : Nat → UseIdent) (calls : List Call) (final : SharedHeaps),
      Runs.exec (call tokenAt identAt) start calls = some final → final.freed.Nodup := by
  intro once
  let calls : List Call := [.registerUse 1 ⟨64, 4, 1, 1⟩ 16 4096, .drop 0, .unregisterUse 1]
  have twice : (Runs.exec (call (fun _ => []) fun _ => .empty) start calls).any (fun final =>
      ¬final.freed.Nodup) = true := by decide
  obtain ⟨final, run, freed⟩ := (Option.any_eq_true _ _).mp twice
  exact of_decide_eq_true freed (once (fun _ => []) (fun _ => .empty) calls final run)

end SharedHeaps

end Drumlin
