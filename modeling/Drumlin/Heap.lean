import Drumlin.Library.Cxx
import Drumlin.Library.Runs

/-!
# The fixed-size heap

`heap_t` (allocator.h, allocator.cpp) serves chunks of one size from a region of memory.  It keeps
a list of marked pairs: `second` is the chunk, `first` its mark.  `alloc` takes the first chunk
marked free, and carves a new one behind the last when there is none.
-/

namespace Drumlin

open Cxx

/-- `pairBytes`: a chunk and its mark, null when the chunk is free, `1` when it was reused and the
unaligned start when it was carved. -/
structure PairBytes where
  /-- The mark. -/
  first : Nat
  /-- The aligned chunk. -/
  second : Nat
deriving DecidableEq, Repr

/-- The chunk is handed out. -/
def PairBytes.isLive (pair : PairBytes) : Bool := pair.first != nullptr

/-- `heap_t`. -/
structure Heap where
  /-- Allocations asked for and not given back, as the code counts them in an `int`.  The language
  leaves its overflow undefined, as `Heap.perform` does. -/
  allocated : Int
  /-- Number of chunks agreed upon. -/
  total : Int
  /-- Size of a chunk. -/
  size : Nat
  /-- Start of the region. -/
  memory : Nat
  /-- What the destructor passes to `::free`, the field `_free`. -/
  freePtr : Nat
  /-- Alignment of a chunk. -/
  align : Nat
  /-- Size of the region. -/
  max : Int
  /-- The chunks, in the order in which they were carved. -/
  blocks : List PairBytes
deriving DecidableEq, Repr

namespace Heap

/-- `heap_t::heap_t`, where `drumlin::debug` is false: with it, `CPLATE` locks the mutex of the
logger twice. -/
def construct (total : Int) (size memory freePtr align : Nat) (max : Int) : Heap :=
  { allocated := 0, total, size, memory, freePtr, align, max, blocks := [] }

/-- The address `(byte*)-1`, which the reuse scan passes over. -/
def invalid : Nat := 2 ^ 64 - 1

/-- The pair is the one `alloc` reuses. -/
def isReusable (pair : PairBytes) : Bool := pair.second != invalid && pair.first == nullptr

/-- `blocks.back().second + size`.  The member `back` of an empty list is undefined; `stray` stands
for what is read there. -/
def backEnd (stray : Nat) (heap : Heap) : Nat :=
  (heap.blocks.getLast?.elim stray PairBytes.second) + heap.size

/-- Where `alloc` starts to look for room. -/
def startPtr (stray : Nat) (heap : Heap) : Nat :=
  if heap.allocated = 0 then heap.memory else heap.backEnd stray

/-- The space `alloc` passes to `std::align`.  The distance is measured to the end of the last
chunk; for the very first chunk, where there is no last one, it is taken to be the whole region. -/
def remaining (heap : Heap) : Nat :=
  match heap.blocks.getLast? with
  | none => toSizeT heap.max
  | some last => toSizeT (heap.max - ((last.second + heap.size : Nat) - (heap.memory : Int)))

/-- The chunk `alloc` carves, or null. -/
def carve (stray : Nat) (heap : Heap) : Nat :=
  Cxx.align heap.align heap.size (heap.startPtr stray) heap.remaining

/-- `heap_t::alloc`, with the chunk it returns.  The body of its `do`-`while` returns on either
path, so that the comparison of the counter with `total` is never made. -/
def alloc (stray : Nat) (heap : Heap) : Heap × Nat :=
  match modifyFirst isReusable (fun pair => { pair with first := 1 }) heap.blocks with
  | some (pair, blocks) => ({ heap with allocated := heap.allocated + 1, blocks }, pair.second)
  | none =>
      let alptr := heap.carve stray
      if alptr = nullptr then
        ({ heap with allocated := heap.allocated + 1 }, nullptr)
      else
        ({ heap with
            allocated := heap.allocated + 1
            blocks := heap.blocks ++ [⟨heap.startPtr stray, alptr⟩] }, alptr)

/-- `heap_t::free`.  A block that is not live is reported as a double free and nothing changes. -/
def free (block : Nat) (heap : Heap) : Heap :=
  match modifyFirst (fun pair => pair.second == block && pair.isLive)
      (fun pair => { pair with first := nullptr }) heap.blocks with
  | some (_, blocks) => { heap with allocated := heap.allocated - 1, blocks }
  | none => heap

/-- `heap_t::freeAll`, with the buffers whose destructor it runs; their number is what it
returns.  The counter is left as it is. -/
def freeAll (heap : Heap) : Heap × List Nat :=
  ({ heap with
      blocks := heap.blocks.map fun pair =>
        if pair.isLive then { pair with first := nullptr } else pair },
    (heap.blocks.filter PairBytes.isLive).map PairBytes.second)

/-- A call made on a heap. -/
inductive Call
  | alloc (stray : Nat)
  | free (block : Nat)
  | freeAll
deriving DecidableEq, Repr

/-- The heap after one call. -/
def call (heap : Heap) : Call → Heap
  | .alloc stray => (heap.alloc stray).1
  | .free block => heap.free block
  | .freeAll => heap.freeAll.1

/-- The heap after one call, if the counter stays in the range of an `int`. -/
def perform (heap : Heap) (request : Call) : Option Heap :=
  let next := heap.call request
  if -2 ^ 31 ≤ next.allocated ∧ next.allocated < 2 ^ 31 then some next else none

/-- The chunks, whether free or live. -/
def chunks (heap : Heap) : List Nat := heap.blocks.map PairBytes.second

/-- Number of live chunks. -/
def liveCount (heap : Heap) : Nat := heap.blocks.countP PairBytes.isLive

theorem liveCount_of_split {heap : Heap} {front back : List PairBytes} {pair : PairBytes}
    (split : heap.blocks = front ++ pair :: back) :
    heap.liveCount = front.countP PairBytes.isLive + back.countP PairBytes.isLive +
      if pair.isLive then 1 else 0 := by
  rw [liveCount, split, List.countP_append, List.countP_cons]
  omega

theorem first_of_isReusable {pair : PairBytes} (reusable : isReusable pair) :
    pair.first = nullptr := by
  simp only [isReusable, Bool.and_eq_true, beq_iff_eq] at reusable
  exact reusable.2

/-- A chunk that is not reusable is live, unless it lies at the address passed over. -/
theorem isLive_of_not_reusable {heap : Heap} (valid : invalid ∉ heap.chunks) {pair : PairBytes}
    (member : pair ∈ heap.blocks) (unusable : isReusable pair = false) : pair.isLive := by
  have elsewhere : pair.second ≠ invalid :=
    ne_of_mem_of_not_mem (List.mem_map_of_mem member) valid
  simpa [isReusable, elsewhere, PairBytes.isLive] using unusable

/-- Where nothing is reusable every chunk is live. -/
theorem liveCount_eq_length {heap : Heap} (valid : invalid ∉ heap.chunks)
    (unusable : ∀ pair ∈ heap.blocks, isReusable pair = false) :
    heap.liveCount = heap.blocks.length :=
  List.countP_eq_length.mpr fun pair member =>
    isLive_of_not_reusable valid member (unusable pair member)

/-- Reusing a free chunk makes one more live. -/
theorem liveCount_reused {heap : Heap} {front back : List PairBytes} {pair : PairBytes}
    (split : heap.blocks = front ++ pair :: back) (reusable : isReusable pair)
    (allocated : Int) :
    { heap with allocated, blocks := front ++ { pair with first := 1 } :: back }.liveCount =
      heap.liveCount + 1 := by
  rw [liveCount_of_split split, liveCount_of_split rfl]
  simp [PairBytes.isLive, first_of_isReusable reusable, nullptr]

/-- Freeing a live chunk makes one less live. -/
theorem liveCount_freed {heap : Heap} {front back : List PairBytes} {pair : PairBytes}
    (split : heap.blocks = front ++ pair :: back) (live : pair.isLive) (allocated : Int) :
    { heap with allocated, blocks := front ++ { pair with first := nullptr } :: back }.liveCount +
      1 = heap.liveCount := by
  rw [liveCount_of_split split, liveCount_of_split rfl, if_pos live]
  simp [PairBytes.isLive]

/-- A carved chunk is marked live, since `std::align` finds nothing at the null address. -/
theorem isLive_carved {stray : Nat} {heap : Heap} (room : heap.carve stray ≠ nullptr) :
    PairBytes.isLive ⟨heap.startPtr stray, heap.carve stray⟩ := by
  simp only [PairBytes.isLive, bne_iff_ne]
  intro start
  rw [carve, start, align_nullptr] at room
  exact room rfl

/-- Carving a chunk makes one more live. -/
theorem liveCount_carved {stray : Nat} {heap : Heap} (room : heap.carve stray ≠ nullptr)
    (allocated : Int) :
    ({ heap with
        allocated, blocks := heap.blocks ++ [⟨heap.startPtr stray, heap.carve stray⟩] } :
      Heap).liveCount = heap.liveCount + 1 := by
  simp [liveCount, isLive_carved room]

/-! ## What one call does -/

/-- The three outcomes of `alloc`: a free chunk is reused, a chunk is carved, or there is no room
and only the counter moves. -/
theorem alloc_cases (stray : Nat) (heap : Heap) :
    (∃ front pair back, heap.blocks = front ++ pair :: back ∧ isReusable pair ∧
      heap.alloc stray =
        ({ heap with
            allocated := heap.allocated + 1
            blocks := front ++ { pair with first := 1 } :: back }, pair.second)) ∨
    (∀ pair ∈ heap.blocks, isReusable pair = false) ∧ heap.carve stray ≠ nullptr ∧
      heap.alloc stray =
        ({ heap with
            allocated := heap.allocated + 1
            blocks := heap.blocks ++ [⟨heap.startPtr stray, heap.carve stray⟩] },
          heap.carve stray) ∨
    (∀ pair ∈ heap.blocks, isReusable pair = false) ∧ heap.carve stray = nullptr ∧
      heap.alloc stray = ({ heap with allocated := heap.allocated + 1 }, nullptr) := by
  cases scan : modifyFirst isReusable (fun pair => { pair with first := 1 }) heap.blocks with
  | some result =>
      obtain ⟨pair, blocks⟩ := result
      obtain ⟨front, back, before, after, selected, _⟩ := modifyFirst_eq_some scan
      exact .inl ⟨front, pair, back, before, selected, by simp [alloc, scan, after]⟩
  | none =>
      have unusable := modifyFirst_eq_none_iff.mp scan
      by_cases room : heap.carve stray = nullptr
      · exact .inr (.inr ⟨unusable, room, by simp [alloc, scan, room]⟩)
      · exact .inr (.inl ⟨unusable, room, by simp [alloc, scan, room]⟩)

/-- A chunk that `alloc` returns is live after the call. -/
theorem isLive_after_alloc {stray : Nat} {heap : Heap}
    (succeeds : (heap.alloc stray).2 ≠ nullptr) :
    ∃ pair ∈ (heap.alloc stray).1.blocks,
      pair.second = (heap.alloc stray).2 ∧ pair.isLive := by
  rcases alloc_cases stray heap with
    ⟨front, reused, back, _, _, result⟩ | ⟨_, room, result⟩ | ⟨_, _, result⟩
  · exact ⟨{ reused with first := 1 }, by simp [result], by simp [result], rfl⟩
  · exact ⟨⟨heap.startPtr stray, heap.carve stray⟩, by simp [result], by simp [result],
      isLive_carved room⟩
  · exact (succeeds (by rw [result])).elim

/-- The two outcomes of `free`: the first live pair of the block is marked free, or nothing
changes. -/
theorem free_cases (block : Nat) (heap : Heap) :
    (∃ front pair back, heap.blocks = front ++ pair :: back ∧ pair.second = block ∧
      pair.isLive ∧
      heap.free block =
        { heap with
          allocated := heap.allocated - 1
          blocks := front ++ { pair with first := nullptr } :: back }) ∨
    (∀ pair ∈ heap.blocks, pair.second = block → pair.isLive = false) ∧
      heap.free block = heap := by
  cases scan : modifyFirst (fun pair => pair.second == block && pair.isLive)
      (fun pair => { pair with first := nullptr }) heap.blocks with
  | some result =>
      obtain ⟨pair, blocks⟩ := result
      obtain ⟨front, back, before, after, selected, _⟩ := modifyFirst_eq_some scan
      simp only [Bool.and_eq_true, beq_iff_eq] at selected
      exact .inl ⟨front, pair, back, before, selected.1, selected.2, by simp [free, scan, after]⟩
  | none =>
      refine .inr ⟨fun pair member equality => ?_, by simp [free, scan]⟩
      simpa [equality] using modifyFirst_eq_none_iff.mp scan pair member

@[simp] theorem freeAll_chunks (heap : Heap) : heap.freeAll.1.chunks = heap.chunks := by
  simp only [freeAll, chunks, List.map_map]
  refine List.map_congr_left fun pair _ => ?_
  by_cases live : pair.isLive <;> simp [live]

@[simp] theorem freeAll_liveCount (heap : Heap) : heap.freeAll.1.liveCount = 0 := by
  simp only [liveCount, freeAll, List.countP_eq_zero, List.mem_map]
  rintro _ ⟨pair, _, rfl⟩
  by_cases live : pair.first = nullptr <;> simp [live, PairBytes.isLive]

@[simp] theorem freeAll_allocated (heap : Heap) :
    heap.freeAll.1.allocated = heap.allocated := rfl

/-- No call touches what the heap was built over. -/
theorem call_frame (heap : Heap) (request : Call) :
    (heap.call request).size = heap.size ∧ (heap.call request).memory = heap.memory ∧
      (heap.call request).align = heap.align ∧ (heap.call request).max = heap.max ∧
      (heap.call request).total = heap.total ∧ (heap.call request).freePtr = heap.freePtr := by
  cases request with
  | alloc stray =>
      rcases alloc_cases stray heap with
        ⟨_, _, _, _, _, result⟩ | ⟨_, _, result⟩ | ⟨_, _, result⟩ <;>
        simp [call, result]
  | free block =>
      rcases free_cases block heap with ⟨_, _, _, _, _, _, result⟩ | ⟨_, result⟩ <;>
        simp [call, result]
  | freeAll => simp [call, freeAll]

@[simp] theorem length_chunks (heap : Heap) : heap.chunks.length = heap.blocks.length :=
  List.length_map _

/-- A call leaves the chunks as they are, or finds none to reuse and puts one behind them, which is
live. -/
theorem chunks_call_cases (heap : Heap) (request : Call) :
    (heap.call request).chunks = heap.chunks ∨
      ∃ stray, (∀ pair ∈ heap.blocks, isReusable pair = false) ∧ heap.carve stray ≠ nullptr ∧
        (heap.call request).chunks = heap.chunks ++ [heap.carve stray] ∧
        (heap.call request).liveCount = heap.liveCount + 1 := by
  cases request with
  | alloc stray =>
      rcases alloc_cases stray heap with
        ⟨front, pair, back, split, _, result⟩ | ⟨unusable, room, result⟩ | ⟨_, _, result⟩
      · exact .inl (by simp [call, chunks, result, split])
      · refine .inr ⟨stray, unusable, room, by simp [call, chunks, result], ?_⟩
        rw [call, result, liveCount_carved room]
      · exact .inl (by simp [call, chunks, result])
  | free block =>
      rcases free_cases block heap with ⟨front, pair, back, split, _, _, result⟩ | ⟨_, result⟩
      · exact .inl (by simp [call, chunks, result, split])
      · exact .inl (by simp [call, result])
  | freeAll => exact .inl (freeAll_chunks heap)

@[simp] theorem alloc_allocated (stray : Nat) (heap : Heap) :
    (heap.alloc stray).1.allocated = heap.allocated + 1 := by
  rcases alloc_cases stray heap with
    ⟨_, _, _, _, _, result⟩ | ⟨_, _, result⟩ | ⟨_, _, result⟩ <;> simp [result]

/-- `free` lowers the counter and the number of live chunks together. -/
theorem free_counts (block : Nat) (heap : Heap) :
    (heap.free block).allocated - (heap.free block).liveCount =
      heap.allocated - heap.liveCount := by
  rcases free_cases block heap with ⟨front, pair, back, split, _, live, result⟩ | ⟨_, result⟩
  · have one_less := liveCount_freed split live (heap.allocated - 1)
    rw [← result] at one_less
    have lowered : (heap.free block).allocated = heap.allocated - 1 := by rw [result]
    omega
  · rw [result]

/-- The counter stays an upper bound of the number of live chunks. -/
theorem liveCount_call_le {heap : Heap} (counted : (heap.liveCount : Int) ≤ heap.allocated)
    (request : Call) : ((heap.call request).liveCount : Int) ≤ (heap.call request).allocated := by
  cases request with
  | alloc stray =>
      have at_most : (heap.alloc stray).1.liveCount ≤ heap.liveCount + 1 := by
        rcases alloc_cases stray heap with
          ⟨front, pair, back, split, reusable, result⟩ | ⟨_, room, result⟩ | ⟨_, _, result⟩
        · rw [result, liveCount_reused split reusable]
        · rw [result, liveCount_carved room]
        · simp [result, liveCount]
      rw [call, alloc_allocated]
      omega
  | free block =>
      have counts := free_counts block heap
      rw [call]
      omega
  | freeAll =>
      rw [call, freeAll_liveCount, freeAll_allocated]
      omega

/-- The call asks for a chunk. -/
def Call.isAlloc : Call → Bool
  | .alloc _ => true
  | .free _ | .freeAll => false

theorem perform_eq_some {heap next : Heap} {request : Call} :
    heap.perform request = some next ↔
      next = heap.call request ∧ -2 ^ 31 ≤ next.allocated ∧ next.allocated < 2 ^ 31 := by
  rw [perform]
  constructor
  · intro taken
    rw [Option.ite_none_right_eq_some] at taken
    obtain ⟨range, same⟩ := taken
    obtain rfl := Option.some.inj same
    exact ⟨rfl, range⟩
  · rintro ⟨rfl, range⟩
    rw [if_pos range]

end Heap

end Drumlin
