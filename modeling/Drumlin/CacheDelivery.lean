import Drumlin.BufferCache
import Drumlin.HeapPlacement

/-!
# What the cache hands out

A buffer reaches a subscriber in two ways: `addAllocated` publishes the chunks of a heap that
arrives, by the identifier each buffer holds, and `subscribe` returns the chunks of the heaps that
are there, by the key of their entries.  Neither looks at the marks of the chunks.
-/

namespace Drumlin

open Cxx

/-! ## Lists without repetition -/

private theorem count_eq_ite_iff {member : Nat → Prop} [DecidablePred member] {list : List Nat} :
    (∀ element, list.count element = if member element then 1 else 0) ↔
      list.Nodup ∧ ∀ element, element ∈ list ↔ member element := by
  rw [List.nodup_iff_count_eq_one]
  constructor
  · intro counts
    have positive : ∀ element, element ∈ list ↔ member element := fun element => by
      rw [← List.count_pos_iff, counts]
      split <;> simp [*]
    refine ⟨fun element present => ?_, positive⟩
    rw [counts, if_pos ((positive element).mp present)]
  · rintro ⟨once, same⟩ element
    split
    · exact once element ((same element).mpr ‹_›)
    · exact List.count_eq_zero.mpr fun present => absurd ((same element).mp present) ‹_›

/-- What the elements of a list yield under a key of their own is what one of them yields. -/
private theorem filter_flatMap_of_nodup {Yield : Type} {list : List Nat} (nodup : list.Nodup)
    {yields : Nat → List Yield} {key : Yield → Nat}
    (own : ∀ element, ∀ yield ∈ yields element, key yield = element) (wanted : Nat) :
    ((list.flatMap yields).filter fun yield => key yield == wanted) =
      if wanted ∈ list then yields wanted else [] := by
  induction list with
  | nil => rfl
  | cons head tail induction =>
      obtain ⟨fresh, rest⟩ := List.nodup_cons.mp nodup
      rw [List.flatMap_cons, List.filter_append, induction rest]
      by_cases first : head = wanted
      · subst first
        have all : ((yields head).filter fun yield => key yield == head) = yields head :=
          List.filter_eq_self.mpr fun yield member => by simp [own head yield member]
        simp [all, fresh]
      · have none : ((yields head).filter fun yield => key yield == wanted) = [] :=
          List.filter_eq_nil_iff.mpr fun yield member => by simp [own head yield member, first]
        simp [none, Ne.symm first]

/-! ## Live chunks -/

/-- The chunks handed out by the heap and not given back. -/
def Heap.liveChunks (heap : Heap) : List Nat :=
  (heap.blocks.filter PairBytes.isLive).map PairBytes.second

namespace Heap

theorem mem_liveChunks {heap : Heap} {address : Nat} :
    address ∈ heap.liveChunks ↔ ∃ pair ∈ heap.blocks, pair.isLive ∧ pair.second = address := by
  simp [liveChunks, and_assoc]

theorem liveChunks_subset (heap : Heap) : heap.liveChunks ⊆ heap.chunks := by
  intro address live
  obtain ⟨pair, member, -, rfl⟩ := mem_liveChunks.mp live
  exact List.mem_map_of_mem member

end Heap

namespace BufferCache

variable {Selector : Type} (accepts : Selector → UseIdent → Bool)

/-! ## The two orders of `subscribe` and `addAllocated` -/

/-- The buffers of the heap that arrive through `accept` when `subscribe` runs first. -/
def handedByAccept (identAt : Nat → UseIdent) (sub : Selector × Nat) (pair : CacheEntry)
    (cache : BufferCache Selector) : Set Nat :=
  {block | block ∈ (cache.heapAt pair.2).chunks ∧
    (sub.2, block) ∈ ((cache.subscribe accepts sub).1.addAllocated accepts identAt pair).2.1}

/-- The buffers of the heap in the list `subscribe` returns when `addAllocated` runs first. -/
def handedByList (identAt : Nat → UseIdent) (sub : Selector × Nat) (pair : CacheEntry)
    (cache : BufferCache Selector) : Set Nat :=
  {block | block ∈ (cache.heapAt pair.2).chunks ∧
    block ∈ ((cache.addAllocated accepts identAt pair).1.subscribe accepts sub).2}

/-- The acceptor has a subscription that accepts the identifier held by the buffer. -/
def IsHeard (identAt : Nat → UseIdent) (acceptor block : Nat) (cache : BufferCache Selector) :
    Prop :=
  ∃ sub ∈ cache.subscriptions, sub.2 = acceptor ∧ accepts sub.1 (identAt block)

/-- The heap of an accepted entry holds the buffer. -/
def IsListed (use : Selector) (block : Nat) (cache : BufferCache Selector) : Prop :=
  ∃ entry ∈ cache.buffers, accepts use entry.1 ∧ block ∈ (cache.heapAt entry.2).chunks

theorem mem_publish {buffer : HeapBuffer} {acceptor address : Nat}
    {cache : BufferCache Selector} :
    (acceptor, address) ∈ cache.publish accepts buffer ↔
      address = buffer.address ∧
        ∃ sub ∈ cache.subscriptions, sub.2 = acceptor ∧ accepts sub.1 buffer.ident := by
  simp only [publish, List.mem_map, List.mem_filter, Prod.mk.injEq]
  constructor
  · rintro ⟨sub, ⟨member, accepted⟩, rfl, rfl⟩
    exact ⟨rfl, sub, member, rfl, accepted⟩
  · rintro ⟨rfl, sub, member, rfl, accepted⟩
    exact ⟨sub, ⟨member, accepted⟩, rfl, rfl⟩

theorem mem_findRelevant {use : Selector} {block : Nat} {cache : BufferCache Selector} :
    block ∈ cache.findRelevant accepts use ↔ cache.IsListed accepts use block := by
  simp [findRelevant, IsListed, and_assoc]

theorem mem_handedByAccept {identAt : Nat → UseIdent} {sub : Selector × Nat} {pair : CacheEntry}
    {block : Nat} {cache : BufferCache Selector} :
    block ∈ cache.handedByAccept accepts identAt sub pair ↔
      block ∈ (cache.heapAt pair.2).chunks ∧
        (accepts sub.1 (identAt block) ∨ cache.IsHeard accepts identAt sub.2 block) := by
  simp only [handedByAccept, addAllocated, subscribe, Set.mem_ofPred_eq, List.mem_flatMap,
    mem_publish, IsHeard, List.mem_append, List.mem_singleton]
  refine and_congr_right fun member => ?_
  constructor
  · rintro ⟨_, _, rfl, other, earlier | rfl, same, accepted⟩
    · exact .inr ⟨other, earlier, same, accepted⟩
    · exact .inl accepted
  · rintro (accepted | ⟨other, earlier, same, accepted⟩)
    · exact ⟨block, member, rfl, sub, .inr rfl, rfl, accepted⟩
    · exact ⟨block, member, rfl, other, .inl earlier, same, accepted⟩

theorem mem_handedByList {identAt : Nat → UseIdent} {sub : Selector × Nat} {pair : CacheEntry}
    {block : Nat} {cache : BufferCache Selector} :
    block ∈ cache.handedByList accepts identAt sub pair ↔
      block ∈ (cache.heapAt pair.2).chunks ∧
        (accepts sub.1 pair.1 ∨ cache.IsListed accepts sub.1 block) := by
  refine and_congr_right fun member => ?_
  change block ∈ findRelevant accepts sub.1 _ ↔ _
  rw [mem_findRelevant]
  simp only [addAllocated, IsListed, List.mem_append, List.mem_singleton]
  constructor
  · rintro ⟨entry, earlier | rfl, accepted, held⟩
    · exact .inr ⟨entry, earlier, accepted, held⟩
    · exact .inl accepted
  · rintro (accepted | ⟨entry, earlier, accepted, held⟩)
    · exact ⟨pair, .inr rfl, accepted, member⟩
    · exact ⟨entry, .inl earlier, accepted, held⟩

/-- The order of `subscribe` and `addAllocated` makes no difference exactly when each buffer of the
heap is accepted by the identifier it holds or heard already, just when it is accepted by the key of
the entry or listed already. -/
theorem delivery_agrees_iff (identAt : Nat → UseIdent) (sub : Selector × Nat) (pair : CacheEntry)
    (cache : BufferCache Selector) :
    cache.handedByAccept accepts identAt sub pair = cache.handedByList accepts identAt sub pair ↔
      ∀ block ∈ (cache.heapAt pair.2).chunks,
        (accepts sub.1 (identAt block) ∨ cache.IsHeard accepts identAt sub.2 block ↔
          accepts sub.1 pair.1 ∨ cache.IsListed accepts sub.1 block) := by
  simp only [Set.ext_iff, mem_handedByAccept, mem_handedByList]
  exact forall_congr' fun block => and_congr_right_iff

/-- An acceptor that hears and lists none of the buffers by other means gets the same buffers
exactly when its filter judges each of them as it judges the entry. -/
theorem delivery_agrees_iff_of_fresh (identAt : Nat → UseIdent) {sub : Selector × Nat}
    {pair : CacheEntry} {cache : BufferCache Selector}
    (unheard : ∀ block ∈ (cache.heapAt pair.2).chunks, ¬cache.IsHeard accepts identAt sub.2 block)
    (unlisted : ∀ block ∈ (cache.heapAt pair.2).chunks, ¬cache.IsListed accepts sub.1 block) :
    cache.handedByAccept accepts identAt sub pair = cache.handedByList accepts identAt sub pair ↔
      ∀ block ∈ (cache.heapAt pair.2).chunks,
        accepts sub.1 (identAt block) = accepts sub.1 pair.1 := by
  rw [delivery_agrees_iff]
  refine forall₂_congr fun block member => ?_
  simp [unheard block member, unlisted block member, Bool.coe_iff_coe]

/-- One buffer that holds another identifier than the key of its heap: a filter that accepts the key
finds it in the list and is never called for it. -/
theorem delivery_differs :
    ¬∀ (Selector : Type) (accepts : Selector → UseIdent → Bool) (identAt : Nat → UseIdent)
      (sub : Selector × Nat) (pair : CacheEntry) (cache : BufferCache Selector),
      cache.handedByAccept accepts identAt sub pair =
        cache.handedByList accepts identAt sub pair := by
  intro agree
  let cache : BufferCache UInt32 :=
    { heapAt := fun _ => (Heap.construct 3 64 4096 4096 16 4096).call (.alloc 0)
      buffers := []
      subscriptions := [] }
  have same := agree UInt32 (fun tick ident => tick == ident.tick) (fun _ => .empty) (1, 0)
    (⟨none, [], [], 1⟩, 0) cache
  have listed : 4096 ∈ cache.handedByList (fun tick ident => tick == ident.tick)
      (fun _ => .empty) (1, 0) (⟨none, [], [], 1⟩, 0) :=
    (mem_handedByList _).mpr ⟨by decide, .inl rfl⟩
  rw [← same, mem_handedByAccept] at listed
  simp [cache, IsHeard, UseIdent.empty] at listed

end BufferCache

/-! ## Heaps in regions of their own -/

/-- Regions that `malloc` keeps apart, with a heap over each. -/
structure Arena where
  /-- Number of heaps. -/
  heaps : Nat
  /-- Where each of them is. -/
  region : Fin heaps → Region
  /-- Number of chunks agreed upon. -/
  total : Fin heaps → Int
  apart : Pairwise fun left right =>
    Disjoint (Set.Ico (region left).memory ((region left).memory + (region left).max))
      (Set.Ico (region right).memory ((region right).memory + (region right).max))

namespace Arena

variable {Selector : Type} (arena : Arena) (accepts : Selector → UseIdent → Bool)

/-- The heaps as constructed; a shared pointer that was never set leads to no chunk. -/
def heapAt (heap : Nat) : Heap :=
  if bound : heap < arena.heaps then
    (arena.region ⟨heap, bound⟩).heap (arena.total ⟨heap, bound⟩)
      (arena.region ⟨heap, bound⟩).memory
  else Heap.construct 0 0 nullptr nullptr 0 0

/-- A cache to which nothing was added yet. -/
def start (subscriptions : List (Selector × Nat)) : BufferCache Selector :=
  { heapAt := arena.heapAt, buffers := [], subscriptions }

/-- A call on one of the heaps, an entry that arrives with what its buffers hold, or a question. -/
inductive Request (Selector : Type)
  | heap (heap : Fin arena.heaps) (request : Heap.Call)
  | addAllocated (identAt : Nat → UseIdent) (ident : UseIdent) (heap : Fin arena.heaps)
  | findRelevant (use : Selector)

/-- The cache after one request, if the counter of the heap stays in the range of an `int`. -/
def request (cache : BufferCache Selector) : arena.Request Selector → Option (BufferCache Selector)
  | .heap heap request => ((cache.heapAt heap).perform request).map fun _ =>
      cache.call accepts (fun _ => .empty) (.heap heap request)
  | .addAllocated identAt ident heap => some (cache.addAllocated accepts identAt (ident, heap)).1
  | .findRelevant _ => some cache

/-- Each live block is handed out exactly once, and nothing else is. -/
def HandsOutLive (cache : BufferCache Selector) : arena.Request Selector → Prop
  | .heap .. => True
  | .addAllocated identAt ident heap => ∀ address,
      ((cache.addAllocated accepts identAt (ident, heap)).2.1.filter fun called =>
        called.2 == address) =
      if address ∈ (cache.heapAt heap).liveChunks then
        cache.publish accepts ⟨address, identAt address⟩
      else []
  | .findRelevant use => ∀ address, (cache.findRelevant accepts use).count address =
      if ∃ entry ∈ cache.buffers,
          accepts use entry.1 ∧ address ∈ (cache.heapAt entry.2).liveChunks then 1
      else 0

/-- Nobody accepts what a freed block of the heap that arrives holds; no heap of an accepted entry
has a freed block, and no two accepted entries share a heap that has blocks. -/
def MeetsLive (cache : BufferCache Selector) : arena.Request Selector → Prop
  | .heap .. => True
  | .addAllocated identAt _ heap => ∀ pair ∈ (cache.heapAt heap).blocks, pair.isLive = false →
      ∀ sub ∈ cache.subscriptions, accepts sub.1 (identAt pair.second) = false
  | .findRelevant use =>
      (∀ entry ∈ cache.buffers, accepts use entry.1 →
        ∀ pair ∈ (cache.heapAt entry.2).blocks, pair.isLive) ∧
      (cache.buffers.filter fun entry => accepts use entry.1).Pairwise fun left right =>
        left.2 = right.2 → (cache.heapAt left.2).blocks = []

/-- The heaps are placed in their regions, and the entries refer to them. -/
structure Housed (cache : BufferCache Selector) : Prop where
  placed : ∀ heap : Fin arena.heaps, (arena.region heap).Placed (cache.heapAt heap)
  known : ∀ entry ∈ cache.buffers, entry.2 < arena.heaps

variable {arena} {cache : BufferCache Selector}

theorem housed_start (subscriptions : List (Selector × Nat)) :
    arena.Housed (arena.start subscriptions) := by
  refine ⟨fun heap => ?_, by simp [start]⟩
  simpa [start, heapAt] using
    (arena.region heap).placed_construct (arena.total heap) (arena.region heap).memory

theorem Housed.request (housed : arena.Housed cache) {asked : arena.Request Selector}
    {next : BufferCache Selector} (taken : arena.request accepts cache asked = some next) :
    arena.Housed next := by
  cases asked with
  | heap heap request =>
      obtain ⟨-, -, rfl⟩ := Option.map_eq_some_iff.mp taken
      refine ⟨fun other => ?_, housed.known⟩
      by_cases same : other = heap
      · subst same
        simpa [BufferCache.call] using (housed.placed other).call request
      · have distinct : (other : Nat) ≠ heap := fun equal => same (Fin.ext equal)
        simpa [BufferCache.call, distinct] using housed.placed other
  | addAllocated identAt ident heap =>
      obtain rfl := Option.some.inj taken
      refine ⟨housed.placed, fun entry member => ?_⟩
      rcases List.mem_append.mp member with earlier | new
      · exact housed.known entry earlier
      · obtain rfl := List.mem_singleton.mp new
        exact heap.isLt
  | findRelevant use =>
      obtain rfl := Option.some.inj taken
      exact housed

/-! ## Addresses tell the blocks apart -/

theorem Housed.nodup (housed : arena.Housed cache) (heap : Fin arena.heaps) :
    (cache.heapAt heap).chunks.Nodup := by
  have positive := (arena.region heap).size_pos
  refine (housed.placed heap).ordered.imp fun before equal => ?_
  omega

/-- A block lies in one heap. -/
theorem Housed.heap_eq (housed : arena.Housed cache) (left right : Fin arena.heaps)
    {address : Nat} (here : address ∈ (cache.heapAt left).chunks)
    (there : address ∈ (cache.heapAt right).chunks) : left = right := by
  by_contra distinct
  have left_in := (housed.placed left).inside address here
  have right_in := (housed.placed right).inside address there
  have left_pos := (arena.region left).size_pos
  have right_pos := (arena.region right).size_pos
  have inside_left : address ∈ Set.Ico (arena.region left).memory
      ((arena.region left).memory + (arena.region left).max) := ⟨left_in.1, by omega⟩
  have inside_right : address ∈ Set.Ico (arena.region right).memory
      ((arena.region right).memory + (arena.region right).max) := ⟨right_in.1, by omega⟩
  exact Set.disjoint_left.mp (arena.apart distinct) inside_left inside_right

/-- No freed block has the address of a live one. -/
theorem Housed.isLive_iff (housed : arena.Housed cache) {heap : Fin arena.heaps}
    {pair : PairBytes} (member : pair ∈ (cache.heapAt heap).blocks) :
    pair.second ∈ (cache.heapAt heap).liveChunks ↔ pair.isLive := by
  rw [Heap.mem_liveChunks]
  constructor
  · rintro ⟨other, other_mem, live, same⟩
    obtain rfl := List.inj_on_of_nodup_map (housed.nodup heap) other_mem member same
    exact live
  · intro live
    exact ⟨pair, member, live, rfl⟩

/-- All blocks of the heap are live if the addresses of live blocks are all its addresses. -/
theorem Housed.forall_isLive_iff (housed : arena.Housed cache) (heap : Fin arena.heaps) :
    (∀ pair ∈ (cache.heapAt heap).blocks, pair.isLive) ↔
      ∀ address ∈ (cache.heapAt heap).chunks, address ∈ (cache.heapAt heap).liveChunks := by
  rw [Heap.chunks, List.forall_mem_map]
  exact forall₂_congr fun pair member => (housed.isLive_iff member).symm

/-! ## When freed blocks are kept back -/

/-- No block is found twice exactly when no two accepted entries share a heap with blocks. -/
theorem Housed.nodup_findRelevant_iff (housed : arena.Housed cache) (use : Selector) :
    (cache.findRelevant accepts use).Nodup ↔
      (cache.buffers.filter fun entry => accepts use entry.1).Pairwise fun left right =>
        left.2 = right.2 → (cache.heapAt left.2).blocks = [] := by
  have bound : ∀ entry ∈ cache.buffers.filter fun entry => accepts use entry.1,
      entry.2 < arena.heaps := fun entry member =>
    housed.known entry (List.mem_of_mem_filter member)
  rw [BufferCache.findRelevant, List.nodup_flatMap, and_iff_right]
  · refine List.Pairwise.iff_of_mem fun {left right} left_mem right_mem => ?_
    constructor
    · intro disjoint same
      refine List.eq_nil_iff_forall_not_mem.mpr fun pair member => ?_
      have here : pair.second ∈ (cache.heapAt left.2).chunks := List.mem_map_of_mem member
      have there : pair.second ∈ (cache.heapAt right.2).chunks := same ▸ here
      exact disjoint here there
    · intro empty address here there
      have same := housed.heap_eq ⟨left.2, bound left left_mem⟩ ⟨right.2, bound right right_mem⟩
        here there
      simp [Heap.chunks, empty (Fin.mk.inj same)] at here
  · exact fun entry member => housed.nodup ⟨entry.2, bound entry member⟩

theorem Housed.findRelevant_iff (housed : arena.Housed cache) (use : Selector) :
    arena.HandsOutLive accepts cache (.findRelevant use) ↔
      arena.MeetsLive accepts cache (.findRelevant use) := by
  rw [HandsOutLive, MeetsLive, count_eq_ite_iff, housed.nodup_findRelevant_iff, and_comm]
  refine and_congr_left' ?_
  simp only [BufferCache.mem_findRelevant, BufferCache.IsListed]
  constructor
  · intro same entry member accepted
    have bound := housed.known entry member
    refine (housed.forall_isLive_iff ⟨entry.2, bound⟩).mpr fun address present => ?_
    obtain ⟨other, other_mem, _, live⟩ := (same address).mp ⟨entry, member, accepted, present⟩
    have equal := housed.heap_eq ⟨entry.2, bound⟩ ⟨other.2, housed.known other other_mem⟩ present
      (Heap.liveChunks_subset _ live)
    rw [equal]
    exact live
  · intro live address
    refine exists_congr fun entry => and_congr_right fun member =>
      and_congr_right fun accepted => ?_
    have all := (housed.forall_isLive_iff ⟨entry.2, housed.known entry member⟩).mp
      (live entry member accepted)
    exact ⟨all address, fun held => Heap.liveChunks_subset _ held⟩

theorem Housed.addAllocated_iff (housed : arena.Housed cache) (identAt : Nat → UseIdent)
    (ident : UseIdent) (heap : Fin arena.heaps) :
    arena.HandsOutLive accepts cache (.addAllocated identAt ident heap) ↔
      arena.MeetsLive accepts cache (.addAllocated identAt ident heap) := by
  have published : ∀ address,
      ((cache.addAllocated accepts identAt (ident, heap)).2.1.filter fun called =>
        called.2 == address) =
      if address ∈ (cache.heapAt heap).chunks then
        cache.publish accepts ⟨address, identAt address⟩
      else [] := by
    refine filter_flatMap_of_nodup (housed.nodup heap) fun block called member => ?_
    exact ((BufferCache.mem_publish accepts).mp member).1
  have silent : ∀ address, cache.publish accepts ⟨address, identAt address⟩ = [] ↔
      ∀ sub ∈ cache.subscriptions, accepts sub.1 (identAt address) = false := fun address => by
    simp [BufferCache.publish]
  simp only [HandsOutLive, MeetsLive, published, ← silent]
  constructor
  · intro agree pair member freed
    have absent : pair.second ∉ (cache.heapAt heap).liveChunks := by
      simp [housed.isLive_iff member, freed]
    simpa [absent, Heap.chunks, List.mem_map_of_mem member] using agree pair.second
  · intro quiet address
    by_cases live : address ∈ (cache.heapAt heap).liveChunks
    · rw [if_pos live, if_pos (Heap.liveChunks_subset _ live)]
    · rw [if_neg live]
      split
      · rename_i present
        obtain ⟨pair, member, rfl⟩ := List.mem_map.mp present
        exact quiet pair member (by simpa [housed.isLive_iff member] using live)
      · rfl

/-- Over a run, live blocks and no others are handed out, each once, exactly as long as the blocks
that would be handed out are live and no two accepted entries share them. -/
theorem hands_out_live_iff (arena : Arena) (subscriptions : List (Selector × Nat))
    (requests : List (arena.Request Selector)) :
    Runs.Along (arena.request accepts) (arena.HandsOutLive accepts)
        (arena.start subscriptions) requests ↔
      Runs.Along (arena.request accepts) (arena.MeetsLive accepts)
        (arena.start subscriptions) requests := by
  refine Runs.along_congr arena.Housed ?_ ?_ (housed_start subscriptions) requests
  · exact fun cache asked next taken housed => housed.request accepts taken
  · intro cache asked housed
    cases asked with
    | heap heap request => exact Iff.rfl
    | addAllocated identAt ident heap => exact housed.addAllocated_iff accepts identAt ident heap
    | findRelevant use => exact housed.findRelevant_iff accepts use

/-- One heap of four blocks. -/
def single : Arena where
  heaps := 1
  region _ := .four
  total _ := 3
  apart left right distinct := (distinct (Subsingleton.elim left right)).elim

/-- The only block of an entry is freed, and found nevertheless. -/
theorem hands_out_freed :
    ¬∀ (Selector : Type) (accepts : Selector → UseIdent → Bool) (arena : Arena)
      (subscriptions : List (Selector × Nat)) (requests : List (arena.Request Selector)),
      Runs.Along (arena.request accepts) (arena.HandsOutLive accepts)
        (arena.start subscriptions) requests := by
  intro always
  have run := always Unit (fun _ _ => true) single []
    [.heap ⟨0, Nat.one_pos⟩ (.alloc 0),
      .addAllocated (fun _ => .empty) .empty ⟨0, Nat.one_pos⟩,
      .heap ⟨0, Nat.one_pos⟩ (.free 4096), .findRelevant ()]
  have found := (((run.2 _ rfl).2 _ rfl).2 _ rfl).1 4096
  revert found
  decide

end Arena

end Drumlin
