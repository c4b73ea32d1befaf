import Drumlin.CacheDelivery

/-!
# Clearing the cache

`clearAllocated` frees the chunks of the heaps of all matching entries and then takes the entries
out.  The loops are given here with their counters, and shown to do what the operation of
`BufferCache` says.  A heap may be shared by several entries: the first of them frees it.
-/

namespace Drumlin

open Cxx

/-! ## The loops -/

/-- Progress of the loop of `freeAll`. -/
structure Heap.Freeing where
  /-- The counter `n`. -/
  n : Int
  /-- The pairs visited, as they are now. -/
  visited : List PairBytes
  /-- The buffers destroyed. -/
  destroyed : List Nat

namespace Heap

/-- The body of the loop of `freeAll`. -/
def freeOne (progress : Freeing) (pair : PairBytes) : Freeing :=
  if pair.first ≠ nullptr then
    { n := progress.n + 1
      visited := progress.visited ++ [{ pair with first := nullptr }]
      destroyed := progress.destroyed ++ [pair.second] }
  else { progress with visited := progress.visited ++ [pair] }

/-- `heap_t::freeAll`, with what it returns and the buffers it destroys. -/
def freeAllLoop (heap : Heap) : Heap × Int × List Nat :=
  let progress := heap.blocks.foldl freeOne ⟨0, [], []⟩
  ({ heap with blocks := progress.visited }, progress.n, progress.destroyed)

theorem foldl_freeOne (blocks : List PairBytes) (progress : Freeing) :
    blocks.foldl freeOne progress =
      { n := progress.n + (blocks.countP PairBytes.isLive : Nat)
        visited := progress.visited ++ blocks.map fun pair =>
          if pair.isLive then { pair with first := nullptr } else pair
        destroyed := progress.destroyed ++
          (blocks.filter PairBytes.isLive).map PairBytes.second } := by
  induction blocks generalizing progress with
  | nil => simp
  | cons pair blocks induction =>
      by_cases live : pair.isLive
      · have marked : pair.first ≠ nullptr := bne_iff_ne.mp live
        simp [freeOne, live, marked, induction, add_assoc, add_comm (1 : Int)]
      · have free : pair.first = nullptr := by simpa [PairBytes.isLive] using live
        simp [freeOne, live, free, induction]

/-- The loop counts the buffers it destroys. -/
theorem freeAllLoop_eq (heap : Heap) :
    heap.freeAllLoop = (heap.freeAll.1, ↑heap.freeAll.2.length, heap.freeAll.2) := by
  simp [freeAllLoop, foldl_freeOne, freeAll, List.countP_eq_length_filter]

/-- What is freed once has nothing left to free. -/
@[simp]
theorem freeAll_freeAll (heap : Heap) : heap.freeAll.1.freeAll = (heap.freeAll.1, []) := by
  have freed : ∀ pair ∈ heap.freeAll.1.blocks, pair.isLive = false := by
    intro pair member
    obtain ⟨before, -, rfl⟩ := List.mem_map.mp member
    split
    · rfl
    · exact Bool.eq_false_iff.mpr ‹_›
  have unchanged : heap.freeAll.1.blocks.map (fun pair =>
      if pair.isLive then { pair with first := nullptr } else pair) = heap.freeAll.1.blocks := by
    conv_rhs => rw [← List.map_id heap.freeAll.1.blocks]
    exact List.map_congr_left fun pair member => by simp [freed pair member]
  have none : heap.freeAll.1.blocks.filter PairBytes.isLive = [] :=
    List.filter_eq_nil_iff.mpr fun pair member => by simp [freed pair member]
  rw [freeAll, unchanged, none]
  rfl

end Heap

namespace BufferCache

variable {Selector : Type} (accepts : Selector → UseIdent → Bool)

/-- Progress of the first loop of `clearAllocated`. -/
structure Clearing where
  /-- The counter `n`. -/
  n : Int
  /-- The pairs collected. -/
  pairs : List CacheEntry
  /-- The heaps as they are now. -/
  heapAt : Nat → Heap
  /-- The buffers destroyed. -/
  destroyed : List Nat

/-- The body of the first loop of `clearAllocated`. -/
def clearOne (use : Selector) (progress : Clearing) (pair : CacheEntry) : Clearing :=
  if accepts use pair.1 then
    let (heap, freed, destroyed) := (progress.heapAt pair.2).freeAllLoop
    { n := progress.n + freed
      pairs := progress.pairs ++ [pair]
      heapAt := Function.update progress.heapAt pair.2 heap
      destroyed := progress.destroyed ++ destroyed }
  else progress

/-- The body of the second loop of `clearAllocated`: `std::remove` moves what it keeps to the front,
and `erase` drops what comes after the iterator it returns. -/
def eraseEqual (buffers : List CacheEntry) (pair : CacheEntry) : List CacheEntry :=
  let kept := buffers.filter fun entry => !entry.equals pair
  (kept ++ buffers.drop kept.length).take kept.length

/-- `BufferCache::clearAllocated`, with what it returns and the buffers it destroys. -/
def clearAllocatedLoop (use : Selector) (cache : BufferCache Selector) :
    BufferCache Selector × UInt32 × List Nat :=
  let progress := cache.buffers.foldl (clearOne accepts use) ⟨0, [], cache.heapAt, []⟩
  ({ cache with
      heapAt := progress.heapAt
      buffers := progress.pairs.foldl eraseEqual cache.buffers },
    UInt32.ofNat progress.n.toNat, progress.destroyed)

theorem foldl_clearOne (use : Selector) (buffers : List CacheEntry) (progress : Clearing) :
    buffers.foldl (clearOne accepts use) progress =
      let pairs := buffers.filter fun pair => accepts use pair.1
      let (heapAt, destroyed) := freeHeaps pairs progress.heapAt
      { n := progress.n + destroyed.length
        pairs := progress.pairs ++ pairs
        heapAt
        destroyed := progress.destroyed ++ destroyed } := by
  induction buffers generalizing progress with
  | nil => simp [freeHeaps]
  | cons pair buffers induction =>
      cases accepted : accepts use pair.1 with
      | true => simp [clearOne, accepted, induction, freeHeaps, Heap.freeAllLoop_eq, add_assoc]
      | false => simp [clearOne, accepted, induction]

/-- The loops do what the operation on lists does, and count the buffers destroyed. -/
theorem clearAllocatedLoop_eq (use : Selector) (cache : BufferCache Selector) :
    cache.clearAllocatedLoop accepts use =
      ((cache.clearAllocated accepts use).1,
        UInt32.ofNat (cache.clearAllocated accepts use).2.length,
        (cache.clearAllocated accepts use).2) := by
  have erased :
      eraseEqual = fun buffers pair => buffers.filter fun entry => !entry.equals pair := by
    funext buffers pair
    simp [eraseEqual]
  simp [clearAllocatedLoop, foldl_clearOne, clearAllocated, eraseEntries, erased]

/-! ## What is cleared -/

/-- The heaps of the matching entries. -/
def relevantHeaps (use : Selector) (cache : BufferCache Selector) : List Nat :=
  (cache.buffers.filter fun pair => accepts use pair.1).map Prod.snd

/-- Every heap of the entries is freed once, in whatever order and however often it occurs. -/
theorem freeHeaps_spec (entries : List CacheEntry) (heapAt : Nat → Heap) :
    (∀ heap, (freeHeaps entries heapAt).1 heap =
      if heap ∈ entries.map Prod.snd then (heapAt heap).freeAll.1 else heapAt heap) ∧
    (freeHeaps entries heapAt).2.Perm
      ((entries.map Prod.snd).dedup.flatMap fun heap => (heapAt heap).liveChunks) := by
  induction entries generalizing heapAt with
  | nil => simp [freeHeaps]
  | cons entry entries induction =>
      obtain ⟨heaps, destroyed⟩ :=
        induction (Function.update heapAt entry.2 (heapAt entry.2).freeAll.1)
      constructor
      · intro heap
        rw [freeHeaps]
        simp only [heaps, List.map_cons, List.mem_cons]
        by_cases here : heap = entry.2
        · rw [here]
          by_cases again : entry.2 ∈ entries.map Prod.snd <;> simp [again]
        · by_cases later : heap ∈ entries.map Prod.snd <;> simp [here, later]
      · have others : ∀ heap ∈ (entries.map Prod.snd).dedup.erase entry.2,
            (Function.update heapAt entry.2 (heapAt entry.2).freeAll.1 heap).liveChunks =
              (heapAt heap).liveChunks := by
          intro heap member
          have other : heap ≠ entry.2 := ((List.nodup_dedup _).mem_erase_iff.mp member).1
          rw [Function.update_of_ne other]
        have freed : (heapAt entry.2).freeAll.1.liveChunks = [] := by
          have again := congrArg Prod.snd (Heap.freeAll_freeAll (heapAt entry.2))
          exact again
        rw [freeHeaps, List.map_cons]
        refine (destroyed.append_left _).trans ?_
        change ((heapAt entry.2).liveChunks ++ _).Perm _
        by_cases again : entry.2 ∈ entries.map Prod.snd
        · rw [List.dedup_cons_of_mem again]
          have first := List.perm_cons_erase (List.mem_dedup.mpr again)
          refine ((first.flatMap_right _).append_left _).trans
            (List.Perm.trans ?_ (first.flatMap_right _).symm)
          rw [List.flatMap_cons, List.flatMap_cons, Function.update_self, freed, List.nil_append,
            List.flatMap_congr others]
        · rw [List.dedup_cons_of_notMem again, List.flatMap_cons]
          have absent : entry.2 ∉ (entries.map Prod.snd).dedup :=
            fun member => again (List.mem_dedup.mp member)
          rw [List.erase_of_not_mem absent] at others
          rw [List.flatMap_congr others]

/-- The second loop takes out the entries equal to one of the pairs. -/
theorem eraseEntries_eq (pairs buffers : List CacheEntry) :
    eraseEntries pairs buffers =
      buffers.filter fun entry => pairs.all fun pair => !entry.equals pair := by
  induction pairs generalizing buffers with
  | nil => simp [eraseEntries]
  | cons pair pairs induction =>
      have later := induction (buffers.filter fun entry => !entry.equals pair)
      rw [eraseEntries] at later ⊢
      rw [List.foldl_cons, later, List.filter_filter]
      exact List.filter_congr fun entry _ => by rw [List.all_cons, Bool.and_comm]

/-- The match relation does not distinguish identifiers that compare equal. -/
def Respects : Prop :=
  ∀ use (left right : UseIdent), left.equals right → accepts use left = accepts use right

variable {accepts}

/-- The entries equal to a matching entry are the matching entries. -/
theorem eraseEntries_filter (respects : Respects accepts) (use : Selector)
    (buffers : List CacheEntry) :
    eraseEntries (buffers.filter fun pair => accepts use pair.1) buffers =
      buffers.filter fun entry => !accepts use entry.1 := by
  rw [eraseEntries_eq]
  apply List.filter_congr
  intro entry member
  rw [Bool.eq_iff_iff, List.all_eq_true, Bool.not_eq_true']
  constructor
  · intro unequal
    by_contra accepted
    rw [Bool.not_eq_false] at accepted
    have differs := unequal entry (List.mem_filter.mpr ⟨member, accepted⟩)
    simp [CacheEntry.equals, UseIdent.equals] at differs
  · intro refused pair selected
    have accepted := (List.mem_filter.mp selected).2
    rw [Bool.not_eq_true', Bool.eq_false_iff]
    intro equal
    rw [CacheEntry.equals, Bool.and_eq_true] at equal
    rw [respects use entry.1 pair.1 equal.1, accepted] at refused
    exact Bool.noConfusion refused

/-- `clearAllocated` takes out exactly the matching entries and leaves the others in order, destroys
every live block of every heap of a matching entry once, and returns their number; called again, it
returns zero and changes nothing. -/
theorem clearAllocated_spec (respects : Respects accepts) (use : Selector)
    (cache : BufferCache Selector) :
    ∃ cleared destroyed,
      cache.clearAllocatedLoop accepts use =
        (cleared, UInt32.ofNat destroyed.length, destroyed) ∧
      cleared.buffers = cache.buffers.filter (fun entry => !accepts use entry.1) ∧
      cleared.subscriptions = cache.subscriptions ∧
      (∀ heap, cleared.heapAt heap =
        if heap ∈ cache.relevantHeaps accepts use then (cache.heapAt heap).freeAll.1
        else cache.heapAt heap) ∧
      destroyed.Perm ((cache.relevantHeaps accepts use).dedup.flatMap fun heap =>
        (cache.heapAt heap).liveChunks) ∧
      cleared.clearAllocatedLoop accepts use = (cleared, 0, []) := by
  obtain ⟨heaps, destroyed⟩ :=
    freeHeaps_spec (cache.buffers.filter fun pair => accepts use pair.1) cache.heapAt
  refine ⟨_, _, clearAllocatedLoop_eq accepts use cache, ?_, rfl, heaps, destroyed, ?_⟩
  · exact eraseEntries_filter respects use cache.buffers
  · rw [clearAllocatedLoop_eq, clearAllocated_of_forall_not]
    · rfl
    · intro entry member
      have kept : entry ∈ cache.buffers.filter fun entry => !accepts use entry.1 :=
        eraseEntries_filter respects use cache.buffers ▸ member
      simpa using (List.mem_filter.mp kept).2

/-- A filter of one tick. -/
def ofTick (tick : UInt32) (ident : UseIdent) : Bool := tick == ident.tick

theorem respects_ofTick : Respects ofTick := by
  intro tick left right equal
  simp only [UseIdent.equals, Bool.and_eq_true, beq_iff_eq] at equal
  rw [ofTick, ofTick, equal.1.2]

/-- A heap with one live block, shared by two entries of tick one and an entry of tick zero. -/
def sharedCache : BufferCache UInt32 where
  heapAt _ := (Heap.construct 3 64 4096 4096 16 4096).call (.alloc 0)
  buffers := [(⟨none, [], [], 1⟩, 0), (⟨none, [], [], 0⟩, 0), (⟨none, [0], [], 1⟩, 0)]
  subscriptions := []

/-- The shared block is destroyed once. -/
theorem clearAllocated_spec_sharedCache :
    ∃ cleared destroyed,
      sharedCache.clearAllocatedLoop ofTick 1 =
        (cleared, UInt32.ofNat destroyed.length, destroyed) ∧
      cleared.buffers = [(⟨none, [], [], 0⟩, 0)] ∧ destroyed = [4096] ∧
      cleared.clearAllocatedLoop ofTick 1 = (cleared, 0, []) := by
  obtain ⟨cleared, destroyed, once, kept, -, -, freed, again⟩ :=
    clearAllocated_spec respects_ofTick 1 sharedCache
  exact ⟨cleared, destroyed, once, kept, List.perm_singleton.mp freed, again⟩

end BufferCache

end Drumlin
