import Drumlin.HeapPlacement

/-!
# The counter of a heap

`allocated` is kept beside the marks: `alloc` raises it before `std::align` has found any room, and
`freeAll` leaves it as it is.  The limit `total` is compared with it only where control never comes.
-/

namespace Drumlin

open Cxx

namespace Heap

/-! ## When `alloc` returns a chunk -/

/-- A chunk can be reused, or a new one fits in the space passed to `std::align`. -/
def HasRoom (stray : Nat) (heap : Heap) : Prop :=
  (∃ pair ∈ heap.blocks, isReusable pair) ∨
    roundUp heap.align (heap.startPtr stray) ≠ nullptr ∧
      heap.size + (roundUp heap.align (heap.startPtr stray) - heap.startPtr stray) ≤ heap.remaining

instance (stray : Nat) : DecidablePred (HasRoom stray) :=
  fun _ => inferInstanceAs (Decidable (_ ∨ _))

theorem nullptr_notMem_construct (total : Int) (size memory freePtr align : Nat) (max : Int) :
    nullptr ∉ (construct total size memory freePtr align max).chunks := by
  simp [construct, chunks]

/-- No chunk lies at the null address. -/
theorem nullptr_notMem_call {heap : Heap} (request : Call) (nonnull : nullptr ∉ heap.chunks) :
    nullptr ∉ (heap.call request).chunks := by
  rcases heap.chunks_call_cases request with same | ⟨stray, -, room, grown, -⟩
  · rwa [same]
  · simpa [grown, nonnull] using room.symm

/-- What is the same of heaps without a chunk at the null address is the same along a run. -/
theorem along_congr_of_nonnull {left right : Heap → Call → Prop}
    (same : ∀ heap request, nullptr ∉ heap.chunks → (left heap request ↔ right heap request))
    {heap : Heap} (nonnull : nullptr ∉ heap.chunks) (calls : List Call) :
    Runs.Along (Runs.total call) left heap calls ↔
      Runs.Along (Runs.total call) right heap calls := by
  apply Runs.along_congr fun heap => nullptr ∉ heap.chunks
  · rintro heap request _ ⟨⟩ nonnull
    exact nullptr_notMem_call request nonnull
  · exact same
  · exact nonnull

/-- `alloc` returns a chunk precisely if there is room for one. -/
theorem alloc_ne_nullptr_iff {heap : Heap} (nonnull : nullptr ∉ heap.chunks) (stray : Nat) :
    (heap.alloc stray).2 ≠ nullptr ↔ heap.HasRoom stray := by
  rcases alloc_cases stray heap with
    ⟨front, pair, back, split, reusable, result⟩ | ⟨_, room, result⟩ | ⟨unusable, full, result⟩
  · have member : pair ∈ heap.blocks := by simp [split]
    have valid : pair.second ≠ nullptr :=
      ne_of_mem_of_not_mem (List.mem_map_of_mem member) nonnull
    rw [result]
    exact iff_of_true valid (.inl ⟨pair, member, reusable⟩)
  · rw [result]
    exact iff_of_true room (.inr (align_ne_nullptr_iff.mp room))
  · rw [result]
    refine iff_of_false (fun returned => returned rfl) ?_
    rintro (⟨pair, member, reusable⟩ | room)
    · simp [unusable pair member] at reusable
    · exact align_ne_nullptr_iff.mpr room full

/-- A chunk that fills its region leaves no room for another. -/
example : ¬((construct 1 16 4096 4096 16 16).call (.alloc 0)).HasRoom 0 := by decide

/-- The number of live chunks after `alloc`. -/
theorem liveCount_alloc {heap : Heap} (nonnull : nullptr ∉ heap.chunks) (stray : Nat) :
    (heap.alloc stray).1.liveCount =
      heap.liveCount + if (heap.alloc stray).2 = nullptr then 0 else 1 := by
  rcases alloc_cases stray heap with
    ⟨front, pair, back, split, reusable, result⟩ | ⟨_, room, result⟩ | ⟨_, _, result⟩
  · have valid : pair.second ≠ nullptr :=
      ne_of_mem_of_not_mem (List.mem_map_of_mem (by simp [split])) nonnull
    rw [result, liveCount_reused split reusable, if_neg valid]
  · rw [result, liveCount_carved room, if_neg room]
  · simp [result, liveCount]

/-! ## The counter and the live chunks -/

/-- A call, where an `alloc` that would return null is not made. -/
def serve (heap : Heap) : Call → Option Heap
  | .alloc stray => if (heap.alloc stray).2 = nullptr then none else some (heap.alloc stray).1
  | .free block => some (heap.free block)
  | .freeAll => some heap.freeAll.1

theorem serve_eq_some {heap next : Heap} {request : Call}
    (taken : heap.serve request = some next) :
    next = heap.call request ∧
      ∀ stray, request = .alloc stray → (heap.alloc stray).2 ≠ nullptr := by
  cases request with
  | alloc stray =>
      rw [serve] at taken
      split at taken
      · cases taken
      · rename_i returned
        cases taken
        refine ⟨rfl, ?_⟩
        rintro _ ⟨⟩
        exact returned
  | free block =>
      cases taken
      simp [call]
  | freeAll =>
      cases taken
      simp [call]

/-- After a call the counter is the number of live chunks.  Freeing what is not live changes
nothing, and after `freeAll` the counter is zero. -/
structure Counts (heap : Heap) (request : Call) (next : Heap) : Prop where
  counted : next.allocated = next.liveCount
  unchanged : ∀ block, request = .free block →
    (∀ pair ∈ heap.blocks, pair.second = block → pair.isLive = false) → next = heap
  cleared : request = .freeAll → next.allocated = 0

/-- A call promises no more than that the counter is right. -/
theorem counts_call_iff (heap : Heap) (request : Call) :
    Counts heap request (heap.call request) ↔
      (heap.call request).allocated = (heap.call request).liveCount := by
  refine ⟨Counts.counted, fun counted => ⟨counted, ?_, ?_⟩⟩
  · rintro block rfl unlive
    rcases free_cases block heap with ⟨front, pair, back, split, second, live, _⟩ | ⟨_, same⟩
    · have dead := unlive pair (by simp [split]) second
      simp [live] at dead
    · exact same
  · rintro rfl
    simpa [call] using counted

/-- A right counter stays right, except when `freeAll` finds a live chunk. -/
theorem counted_call_iff {heap : Heap} {request : Call} (nonnull : nullptr ∉ heap.chunks)
    (returned : ∀ stray, request = .alloc stray → (heap.alloc stray).2 ≠ nullptr)
    (counted : heap.allocated = heap.liveCount) :
    (heap.call request).allocated = (heap.call request).liveCount ↔
      (request = .freeAll → heap.liveCount = 0) := by
  cases request with
  | alloc stray =>
      have one_more := liveCount_alloc nonnull stray
      rw [if_neg (returned stray rfl)] at one_more
      simp [call, one_more, counted]
  | free block =>
      have counts := free_counts block heap
      simp only [call, reduceCtorEq, false_implies, iff_true]
      omega
  | freeAll => simp [call, counted]

/-- The counter is right after every call of a run precisely if `freeAll` is only called when no
chunk is live. -/
theorem counts_iff (total : Int) (size memory freePtr align : Nat) (max : Int)
    (calls : List Call) :
    Runs.Along serve
        (fun heap request => ∀ next, heap.serve request = some next → Counts heap request next)
        (construct total size memory freePtr align max) calls ↔
      Runs.Along serve (fun heap request => request = .freeAll → heap.liveCount = 0)
        (construct total size memory freePtr align max) calls := by
  have nonnull := nullptr_notMem_construct total size memory freePtr align max
  have counted : (construct total size memory freePtr align max).allocated =
      (construct total size memory freePtr align max).liveCount := by
    simp [construct, liveCount]
  have preserved : ∀ (heap : Heap) request next, heap.serve request = some next →
      nullptr ∉ heap.chunks → nullptr ∉ next.chunks := by
    intro heap request next taken nonnull
    rw [(serve_eq_some taken).1]
    exact nullptr_notMem_call request nonnull
  have promised : ∀ (heap : Heap) request, nullptr ∉ heap.chunks →
      ((∀ next, heap.serve request = some next → Counts heap request next) ↔
        ∀ next, heap.serve request = some next → next.allocated = next.liveCount) := by
    intro heap request _
    refine forall₂_congr fun next taken => ?_
    rw [(serve_eq_some taken).1]
    exact counts_call_iff heap request
  have exactly : ∀ (heap : Heap) request, nullptr ∉ heap.chunks →
      heap.allocated = heap.liveCount →
      ((∀ next, heap.serve request = some next → next.allocated = next.liveCount) ↔
        (request = .freeAll → heap.liveCount = 0)) := by
    intro heap request nonnull counted
    constructor
    · rintro right rfl
      exact (counted_call_iff nonnull (by simp) counted).mp (right _ rfl) rfl
    · intro met next taken
      obtain ⟨rfl, returned⟩ := serve_eq_some taken
      exact (counted_call_iff nonnull returned counted).mpr met
  exact (Runs.along_congr _ preserved promised nonnull calls).trans
    (Runs.along_good_iff_along _ preserved exactly nonnull counted calls)

/-- After `freeAll` the chunk that was live still counts. -/
theorem counts_fails :
    ¬∀ (total : Int) (size memory freePtr align : Nat) (max : Int) (calls : List Call),
      Runs.Along serve
        (fun heap request => ∀ next, heap.serve request = some next → Counts heap request next)
        (construct total size memory freePtr align max) calls := by
  intro right
  obtain ⟨-, later⟩ := right 4 16 4096 4096 16 64 [.alloc 0, .freeAll]
  have cleared := ((later _ rfl).1 _ rfl).cleared rfl
  revert cleared
  decide

/-! ## A failed `alloc` -/

/-- An `alloc` that returns null leaves the heap as it was. -/
def FailsCleanly (heap : Heap) (request : Call) : Prop :=
  ∀ stray, request = .alloc stray →
    (heap.alloc stray).2 = nullptr → (heap.alloc stray).1 = heap

/-- An `alloc` is only asked of a heap that has room. -/
def Affords (heap : Heap) (request : Call) : Prop :=
  ∀ stray, request = .alloc stray → heap.HasRoom stray

theorem failsCleanly_iff {heap : Heap} (nonnull : nullptr ∉ heap.chunks) (request : Call) :
    heap.FailsCleanly request ↔ heap.Affords request := by
  refine forall₂_congr fun stray _ => ?_
  rw [← alloc_ne_nullptr_iff nonnull stray]
  refine ⟨fun clean fails => ?_, fun returned fails => (returned fails).elim⟩
  -- the counter was raised before `std::align` failed
  have raised := alloc_allocated stray heap
  rw [clean fails] at raised
  omega

/-- No failed `alloc` of a run changes the heap precisely if no `alloc` of the run fails. -/
theorem failsCleanly_run_iff (total : Int) (size memory freePtr align : Nat) (max : Int)
    (calls : List Call) :
    Runs.Along (Runs.total call) FailsCleanly
        (construct total size memory freePtr align max) calls ↔
      Runs.Along (Runs.total call) Affords
        (construct total size memory freePtr align max) calls := by
  apply along_congr_of_nonnull
  · intro heap request nonnull
    exact failsCleanly_iff nonnull request
  · exact nullptr_notMem_construct total size memory freePtr align max

/-- The second of two chunks does not fit, but it counts. -/
theorem failsCleanly_fails :
    ¬∀ (total : Int) (size memory freePtr align : Nat) (max : Int) (calls : List Call),
      Runs.Along (Runs.total call) FailsCleanly
        (construct total size memory freePtr align max) calls := by
  intro clean
  have second := clean 1 16 4096 4096 16 16 [.alloc 0, .alloc 0]
  rw [Runs.along_total_cons, Runs.along_total_cons] at second
  have same := second.2.1 0 rfl (by decide)
  revert same
  decide

/-! ## The limit -/

/-- A call makes no more chunks live than were agreed upon, and `alloc` returns null when so many
are live. -/
def KeepsTotal (heap : Heap) (request : Call) : Prop :=
  (heap.call request).liveCount ≤ heap.total ∧
    ∀ stray, request = .alloc stray → heap.liveCount = heap.total → (heap.alloc stray).2 = nullptr

/-- An `alloc` is only asked of a heap that has fewer live chunks than were agreed upon, or no
room. -/
def WithinTotal (heap : Heap) (request : Call) : Prop :=
  ∀ stray, request = .alloc stray → heap.liveCount < heap.total ∨ ¬heap.HasRoom stray

/-- A call keeps the limit precisely if it leaves the heap within it. -/
theorem keepsTotal_iff {heap : Heap} (nonnull : nullptr ∉ heap.chunks) (request : Call) :
    heap.KeepsTotal request ↔ (heap.call request).liveCount ≤ (heap.call request).total := by
  obtain ⟨-, -, -, -, same, -⟩ := heap.call_frame request
  rw [same, KeepsTotal]
  refine and_iff_left_of_imp fun kept => ?_
  rintro stray rfl full
  by_contra returned
  have one_more := liveCount_alloc nonnull stray
  rw [if_neg returned] at one_more
  rw [call, one_more] at kept
  omega

/-- What keeps a heap within the limit. -/
theorem withinTotal_iff {heap : Heap} (nonnull : nullptr ∉ heap.chunks)
    (within : heap.liveCount ≤ heap.total) (request : Call) :
    (heap.call request).liveCount ≤ (heap.call request).total ↔ heap.WithinTotal request := by
  obtain ⟨-, -, -, -, same, -⟩ := heap.call_frame request
  rw [same]
  cases request with
  | alloc stray =>
      have counts := liveCount_alloc nonnull stray
      simp only [WithinTotal, Call.alloc.injEq, forall_eq', ← alloc_ne_nullptr_iff nonnull, call]
      split at counts
      · rename_i fails
        rw [counts]
        exact iff_of_true (by simpa using within) (.inr (not_not_intro fails))
      · rename_i returned
        rw [counts, or_iff_left (not_not_intro returned)]
        omega
  | free block =>
      refine iff_of_true ?_ (by simp [WithinTotal])
      rcases free_cases block heap with ⟨front, pair, back, split, _, live, result⟩ | ⟨_, result⟩
      · have one_less := liveCount_freed split live (heap.allocated - 1)
        rw [← result] at one_less
        rw [call]
        omega
      · rwa [call, result]
  | freeAll =>
      refine iff_of_true ?_ (by simp [WithinTotal])
      rw [call, freeAll_liveCount]
      omega

/-- The limit is kept in a run precisely if every `alloc` finds fewer live chunks than were agreed
upon, or no room. -/
theorem keepsTotal_run_iff (total size memory freePtr align : Nat) (max : Int)
    (calls : List Call) :
    Runs.Along (Runs.total call) KeepsTotal
        (construct total size memory freePtr align max) calls ↔
      Runs.Along (Runs.total call) WithinTotal
        (construct total size memory freePtr align max) calls := by
  have nonnull := nullptr_notMem_construct total size memory freePtr align max
  have within : ((construct total size memory freePtr align max).liveCount : Int) ≤
      (construct total size memory freePtr align max).total := by
    simp [construct, liveCount]
  calc
    Runs.Along (Runs.total call) KeepsTotal
        (construct total size memory freePtr align max) calls ↔
        Runs.Along (Runs.total call)
          (fun heap request => (heap.call request).liveCount ≤ (heap.call request).total)
          (construct total size memory freePtr align max) calls := by
      apply along_congr_of_nonnull
      · intro heap request nonnull
        exact keepsTotal_iff nonnull request
      · exact nonnull
    _ ↔ Runs.Along (Runs.total call) WithinTotal
        (construct total size memory freePtr align max) calls := by
      refine Runs.along_good_total_iff (fun heap : Heap => nullptr ∉ heap.chunks) ?_
        (fun heap request nonnull within => withinTotal_iff nonnull within request) nonnull within
        calls
      intro heap request nonnull
      exact nullptr_notMem_call request nonnull

/-- Two chunks of a page that one was agreed upon for. -/
theorem keepsTotal_fails :
    ¬∀ (total size memory freePtr align : Nat) (max : Int) (calls : List Call),
      Runs.Along (Runs.total call) KeepsTotal
        (construct total size memory freePtr align max) calls := by
  intro kept
  have second := kept 1 16 4096 4096 16 64 [.alloc 0, .alloc 0]
  rw [Runs.along_total_cons, Runs.along_total_cons] at second
  have within := second.2.1.1
  revert within
  decide

/-! ## What `alloc` reads -/

/-- Where `alloc` carves, it reads the last of the chunks only if there is one, and it searches from
an address inside the region up to its end. -/
def ReadsInside (heap : Heap) (request : Call) : Prop :=
  ∀ stray, request = .alloc stray → (∀ pair ∈ heap.blocks, isReusable pair = false) →
    heap.blocks ≠ [] ∧ heap.memory ≤ heap.startPtr stray ∧
      heap.startPtr stray ≤ heap.memory + heap.max ∧
      heap.startPtr stray + heap.remaining = heap.memory + heap.max

/-- Calls other than `alloc` make no chunk. -/
theorem blocks_call_eq_nil {heap : Heap} {request : Call} (other : request.isAlloc = false)
    (empty : heap.blocks = []) : (heap.call request).blocks = [] := by
  cases request with
  | alloc => cases other
  | free block => simp [call, free, empty, modifyFirst]
  | freeAll => simp [call, freeAll, empty]

/-- The first `alloc` of a heap reads the last chunk of an empty list. -/
theorem not_isAlloc_of_readsInside {heap : Heap} {request : Call}
    (inside : heap.ReadsInside request) (empty : heap.blocks = []) : request.isAlloc = false := by
  cases request with
  | alloc stray => exact ((inside stray rfl (by simp [empty])).1 empty).elim
  | free => rfl
  | freeAll => rfl

end Heap

/-- An `alloc` reads what it may in a region, unless there is no chunk. -/
theorem Region.Placed.readsInside {region : Region} {heap : Heap} (placed : region.Placed heap)
    (nonempty : heap.blocks ≠ []) (request : Heap.Call) : heap.ReadsInside request := by
  rintro stray - unusable
  obtain ⟨start_ge, window, -⟩ := placed.search_window stray unusable
  rw [placed.memory_eq, placed.max_eq]
  exact ⟨nonempty, start_ge, by omega, by omega⟩

/-- A run reads only what it may precisely if it never calls `alloc`.  In a region, the calls of
`alloc` on an empty list are the only ones that do not, as long as the counter stays in its
range. -/
theorem heap_readsInside_iff (total : Int) (size memory freePtr align : Nat) (max : Int)
    (calls : List Heap.Call) :
    (Runs.Along (Runs.total Heap.call) Heap.ReadsInside
        (.construct total size memory freePtr align max) calls ↔
      ∀ request ∈ calls, request.isAlloc = false) ∧
    ∀ region : Region,
      Runs.Along Heap.perform (fun heap request => heap.blocks ≠ [] → heap.ReadsInside request)
        (region.heap total freePtr) calls := by
  refine ⟨⟨fun inside => ?_, fun others => ?_⟩, fun region => ?_⟩
  · -- the list is still empty at the first `alloc`
    refine Runs.along_total_const_iff.mp (Runs.Along.of_invariant (fun heap => heap.blocks = [])
      ?_ (fun _ _ => Heap.not_isAlloc_of_readsInside) rfl inside inside)
    rintro heap request _ inside - empty ⟨⟩
    exact Heap.blocks_call_eq_nil (Heap.not_isAlloc_of_readsInside inside empty) empty
  · have allowed : Runs.Along (Runs.total Heap.call) (fun _ request => request.isAlloc = false)
        (.construct total size memory freePtr align max) calls :=
      Runs.along_total_const_iff.mpr others
    apply Runs.Along.of_invariant (fun _ => True) _ _ trivial allowed allowed
    · intro heap request next _ _ _ _
      trivial
    · rintro heap request other - stray rfl
      cases other
  · have allowed : Runs.Along Heap.perform (fun _ _ => True)
        (region.heap total freePtr) calls := Runs.along_of_forall (fun _ _ => trivial) _ _
    apply Runs.Along.of_invariant region.Placed _ _ (region.placed_construct total freePtr)
      allowed allowed
    · intro heap request next _ _ placed taken
      obtain ⟨rfl, -⟩ := Heap.perform_eq_some.mp taken
      exact placed.call request
    · intro heap request _ placed nonempty
      exact placed.readsInside nonempty request

/-- The first `alloc` of a page. -/
theorem heap_readsInside_fails :
    ¬∀ (total : Int) (size memory freePtr align : Nat) (max : Int) (calls : List Heap.Call),
      Runs.Along (Runs.total Heap.call) Heap.ReadsInside
        (.construct total size memory freePtr align max) calls := by
  intro inside
  have first := (inside 1 16 4096 4096 16 64 [.alloc 0]).1 0 rfl (by simp [Heap.construct])
  exact first.1 rfl

end Drumlin
