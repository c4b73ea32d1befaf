import Drumlin.Heap

/-!
# Placement of the chunks

In a region that can hold at least one chunk, the chunks a heap carves are aligned, stay inside the
region and never overlap, and `alloc` never hands out a live one.  The counter only bounds the live
chunks from above: a failed `alloc` and `freeAll` both leave it too high.
-/

namespace Drumlin

open Cxx

/-- Bytes for a heap, with what the heap relies on. -/
structure Extent where
  /-- First byte. -/
  memory : Nat
  /-- Number of bytes. -/
  max : Nat
  /-- Size of a chunk. -/
  size : Nat
  /-- Alignment of a chunk. -/
  align : Nat
  max_lt : max < 2 ^ 31
  size_pos : 1 ≤ size
  size_le : size ≤ max
  align_pow : ∃ exponent, align = 2 ^ exponent
  /-- No object lies at the null address. -/
  nonnull : memory ≠ nullptr
  /-- The address one past the bytes exists. -/
  inSpace : memory + max < 2 ^ 64

/-- Bytes that begin where a chunk may. -/
structure Region extends Extent where
  aligned : align ∣ memory

/-- Four chunks of sixteen bytes. -/
def Region.four : Region where
  memory := 4096
  max := 64
  size := 16
  align := 16
  max_lt := by decide
  size_pos := by decide
  size_le := by decide
  align_pow := ⟨4, rfl⟩
  aligned := by decide
  nonnull := by decide
  inSpace := by decide

namespace Region

theorem align_pos (region : Region) : 0 < region.align := by
  obtain ⟨exponent, power⟩ := region.align_pow
  rw [power]
  exact Nat.two_pow_pos exponent

/-- The heap as constructed over the region. -/
def heap (region : Region) (total : Int) (freePtr : Nat) : Heap :=
  .construct total region.size region.memory freePtr region.align region.max

/-- The invariant of every heap over the region. -/
structure Placed (region : Region) (heap : Heap) : Prop where
  size_eq : heap.size = region.size
  memory_eq : heap.memory = region.memory
  align_eq : heap.align = region.align
  max_eq : heap.max = region.max
  aligned : ∀ chunk ∈ heap.chunks, region.align ∣ chunk
  inside : ∀ chunk ∈ heap.chunks,
    region.memory ≤ chunk ∧ chunk + region.size ≤ region.memory + region.max
  ordered : heap.chunks.Pairwise fun left right => left + region.size ≤ right
  counted : (heap.liveCount : Int) ≤ heap.allocated
  carved : heap.blocks = [] → heap.allocated = 0

variable {region : Region} {heap : Heap}

theorem placed_construct (region : Region) (total : Int) (freePtr : Nat) :
    region.Placed (region.heap total freePtr) := by
  constructor <;> simp [Region.heap, Heap.construct, Heap.chunks, Heap.liveCount]

/-! ## Room for a new chunk -/

/-- No chunk lies at the address that the reuse scan passes over. -/
theorem Placed.valid (placed : region.Placed heap) : Heap.invalid ∉ heap.chunks := by
  intro member
  have bounds := placed.inside Heap.invalid member
  have space := region.inSpace
  have positive := region.size_pos
  rw [Heap.invalid] at bounds
  omega

/-- When every chunk is live, the counter is zero only on the empty heap. -/
theorem Placed.blocks_eq_nil (placed : region.Placed heap)
    (unusable : ∀ pair ∈ heap.blocks, Heap.isReusable pair = false)
    (zero : heap.allocated = 0) : heap.blocks = [] := by
  have live := Heap.liveCount_eq_length placed.valid unusable
  have counted := placed.counted
  exact List.length_eq_zero_iff.mp (by omega)

/-- The space `alloc` searches starts behind every chunk and ends with the region. -/
theorem Placed.search_window (placed : region.Placed heap) (stray : Nat)
    (unusable : ∀ pair ∈ heap.blocks, Heap.isReusable pair = false) :
    region.memory ≤ heap.startPtr stray ∧
      heap.startPtr stray + heap.remaining = region.memory + region.max ∧
      ∀ chunk ∈ heap.chunks, chunk + region.size ≤ heap.startPtr stray := by
  have small := region.max_lt
  rcases List.eq_nil_or_concat heap.blocks with empty | ⟨front, last, split⟩
  · have start : heap.startPtr stray = region.memory := by
      simp [Heap.startPtr, placed.carved empty, placed.memory_eq]
    have space : heap.remaining = region.max := by
      simp only [Heap.remaining, empty, List.getLast?_nil, placed.max_eq]
      rw [toSizeT_of_bounds (by omega) (by omega)]
      simp
    exact ⟨start.ge, by rw [start, space], by simp [Heap.chunks, empty]⟩
  · rw [List.concat_eq_append] at split
    have nonzero : heap.allocated ≠ 0 := fun zero => by
      simpa [split] using placed.blocks_eq_nil unusable zero
    have start : heap.startPtr stray = last.second + region.size := by
      simp [Heap.startPtr, nonzero, Heap.backEnd, split, placed.size_eq]
    have chunks_eq : heap.chunks = front.map PairBytes.second ++ [last.second] := by
      simp [Heap.chunks, split]
    have bounds := placed.inside last.second (by simp [chunks_eq])
    have space : heap.remaining = region.memory + region.max - (last.second + region.size) := by
      simp only [Heap.remaining, split, List.getLast?_concat, placed.max_eq, placed.size_eq,
        placed.memory_eq]
      rw [toSizeT_of_bounds (by omega) (by omega)]
      omega
    have ordered := placed.ordered
    rw [chunks_eq, List.pairwise_append] at ordered
    refine ⟨by omega, by omega, fun chunk member => ?_⟩
    rw [start]
    rcases List.mem_append.mp (chunks_eq ▸ member) with earlier | latest
    · have before := ordered.2.2 chunk earlier last.second (by simp)
      omega
    · obtain rfl := List.mem_singleton.mp latest
      exact le_rfl

/-- A carved chunk is aligned, lies inside the region and behind every other chunk. -/
theorem Placed.carve_spec (placed : region.Placed heap) (stray : Nat)
    (unusable : ∀ pair ∈ heap.blocks, Heap.isReusable pair = false)
    (room : heap.carve stray ≠ nullptr) :
    region.align ∣ heap.carve stray ∧ region.memory ≤ heap.carve stray ∧
      heap.carve stray + region.size ≤ region.memory + region.max ∧
      ∀ chunk ∈ heap.chunks, chunk + region.size ≤ heap.carve stray := by
  obtain ⟨start_ge, window, behind⟩ := placed.search_window stray unusable
  rw [Heap.carve, placed.align_eq, placed.size_eq] at room ⊢
  obtain ⟨aligned, later, fits⟩ := align_spec region.align_pos room
  refine ⟨aligned, start_ge.trans later, by omega, fun chunk member => ?_⟩
  exact (behind chunk member).trans later

/-- The first chunk of an empty heap is carved at the start of the region. -/
theorem Placed.carve_of_nil (placed : region.Placed heap) (stray : Nat)
    (empty : heap.blocks = []) : heap.carve stray ≠ nullptr := by
  obtain ⟨start_ge, window, -⟩ := placed.search_window stray (by simp [empty])
  have start : heap.startPtr stray = region.memory := by
    simp [Heap.startPtr, placed.carved empty, placed.memory_eq]
  have fits := region.size_le
  rw [Heap.carve, placed.align_eq, placed.size_eq, start,
    align_of_dvd region.align_pos region.aligned (by omega)]
  exact region.nonnull

/-! ## Every call keeps the placement -/

/-- After a call that leaves the list empty nothing is counted: the first `alloc` finds room. -/
theorem Placed.carved_call (placed : region.Placed heap) (request : Heap.Call)
    (empty : (heap.call request).blocks = []) : (heap.call request).allocated = 0 := by
  cases request with
  | alloc stray =>
      rcases Heap.alloc_cases stray heap with
        ⟨front, pair, back, _, _, result⟩ | ⟨_, _, result⟩ | ⟨_, full, result⟩
      · simp [Heap.call, result] at empty
      · simp [Heap.call, result] at empty
      · simp only [Heap.call, result] at empty
        exact (placed.carve_of_nil stray empty full).elim
  | free block =>
      rcases Heap.free_cases block heap with ⟨front, pair, back, _, _, _, result⟩ | ⟨_, result⟩
      · simp [Heap.call, result] at empty
      · rw [Heap.call, result] at empty ⊢
        exact placed.carved empty
  | freeAll => exact placed.carved (by simpa [Heap.call, Heap.freeAll] using empty)

theorem Placed.call (placed : region.Placed heap) (request : Heap.Call) :
    region.Placed (heap.call request) := by
  obtain ⟨size, memory, align, max, -, -⟩ := heap.call_frame request
  have counted := Heap.liveCount_call_le placed.counted request
  have carved := placed.carved_call request
  rcases heap.chunks_call_cases request with same | ⟨stray, unusable, room, grown, -⟩
  · exact ⟨size.trans placed.size_eq, memory.trans placed.memory_eq, align.trans placed.align_eq,
      max.trans placed.max_eq, same ▸ placed.aligned, same ▸ placed.inside,
      same ▸ placed.ordered, counted, carved⟩
  · obtain ⟨aligned, start_le, fits, behind⟩ := placed.carve_spec stray unusable room
    refine ⟨size.trans placed.size_eq, memory.trans placed.memory_eq,
      align.trans placed.align_eq, max.trans placed.max_eq, ?_, ?_, ?_, counted, carved⟩
    · intro chunk member
      rcases List.mem_append.mp (grown ▸ member) with old | new
      · exact placed.aligned chunk old
      · exact List.mem_singleton.mp new ▸ aligned
    · intro chunk member
      rcases List.mem_append.mp (grown ▸ member) with old | new
      · exact placed.inside chunk old
      · exact List.mem_singleton.mp new ▸ ⟨start_le, fits⟩
    · rw [grown, List.pairwise_append]
      refine ⟨placed.ordered, List.pairwise_singleton _ _, ?_⟩
      intro old member new new_mem
      exact List.mem_singleton.mp new_mem ▸ behind old member

/-- A chunk that `alloc` returns was not live before the call. -/
theorem Placed.not_isLive_of_alloc (placed : region.Placed heap) (stray : Nat)
    {pair : PairBytes} (member : pair ∈ heap.blocks)
    (returned : pair.second = (heap.alloc stray).2)
    (succeeds : (heap.alloc stray).2 ≠ nullptr) : pair.first = nullptr := by
  have positive := region.size_pos
  rcases Heap.alloc_cases stray heap with
    ⟨front, reused, back, split, reusable, result⟩ | ⟨unusable, room, result⟩ | ⟨_, _, result⟩
  · have ordered := placed.ordered
    rw [Heap.chunks, split, List.map_append, List.map_cons, List.pairwise_append,
      List.pairwise_cons] at ordered
    obtain ⟨-, ⟨behind, -⟩, before⟩ := ordered
    rw [result] at returned
    rw [split] at member
    rcases List.mem_append.mp member with earlier | later
    · have := before pair.second (List.mem_map_of_mem earlier) reused.second (by simp)
      omega
    · rcases List.mem_cons.mp later with rfl | behind_mem
      · exact Heap.first_of_isReusable reusable
      · have := behind pair.second (List.mem_map_of_mem behind_mem)
        omega
  · have behind := (placed.carve_spec stray unusable room).2.2.2 pair.second
      (List.mem_map_of_mem member)
    rw [result] at returned
    omega
  · exact (succeeds (by rw [result])).elim

end Region

/-- The chunks of a heap are aligned and lie inside the region, the bytes of two chunks are
disjoint, and what `alloc` returns next is not live before that call and live after it. -/
structure Region.Sound (region : Region) (heap : Heap) : Prop where
  inside : ∀ pair ∈ heap.blocks, region.align ∣ pair.second ∧
    Set.Ico pair.second (pair.second + region.size) ⊆
      Set.Ico region.memory (region.memory + region.max)
  disjoint : heap.blocks.Pairwise fun left right =>
    Disjoint (Set.Ico left.second (left.second + region.size))
      (Set.Ico right.second (right.second + region.size))
  fresh : ∀ stray next, heap.perform (.alloc stray) = some next →
    (heap.alloc stray).2 ≠ nullptr →
      (∀ pair ∈ heap.blocks, pair.second = (heap.alloc stray).2 → pair.first = nullptr) ∧
      ∃ pair ∈ next.blocks, pair.second = (heap.alloc stray).2 ∧ pair.first ≠ nullptr

theorem Region.Placed.sound {region : Region} {heap : Heap} (placed : region.Placed heap) :
    region.Sound heap := by
  refine ⟨fun pair member => ⟨?_, ?_⟩, ?_, ?_⟩
  · exact placed.aligned pair.second (List.mem_map_of_mem member)
  · obtain ⟨lower, upper⟩ := placed.inside pair.second (List.mem_map_of_mem member)
    exact Set.Ico_subset_Ico lower upper
  · refine (List.pairwise_map.mp placed.ordered).imp fun before => ?_
    exact Set.Ico_disjoint_Ico.mpr ((min_le_left _ _).trans (before.trans (le_max_right _ _)))
  · intro stray next taken succeeds
    obtain ⟨rfl, -⟩ := Heap.perform_eq_some.mp taken
    obtain ⟨pair, member, returned, live⟩ := Heap.isLive_after_alloc succeeds
    refine ⟨fun pair member returned => ?_, pair, member, returned, ?_⟩
    · exact placed.not_isLive_of_alloc stray member returned succeeds
    · simpa [PairBytes.isLive] using live

end Drumlin
