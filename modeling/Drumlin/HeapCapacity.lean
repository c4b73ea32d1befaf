import Drumlin.AllocatorRegistry
import Drumlin.HeapPlacement

/-!
# How many chunks a heap serves

`registerUse` sizes the region by eight bytes more than a chunk for each of `n` buffers, rounded to
pages, and agrees on `n - 1` chunks.  `alloc` spends a multiple of the alignment on each chunk but
the last.
-/

namespace Drumlin

open Cxx

namespace Heap

/-- Calls of `alloc` one after another, with the chunks they return. -/
def allocEach (heap : Heap) : List Nat → Heap × List Nat
  | [] => (heap, [])
  | stray :: strays =>
      let (next, chunk) := heap.alloc stray
      let (final, chunks) := next.allocEach strays
      (final, chunk :: chunks)

/-- So many consecutive calls of `alloc` all return a chunk. -/
def Serves (count : Nat) (heap : Heap) : Prop :=
  ∀ strays : List Nat, strays.length = count → ∀ chunk ∈ (heap.allocEach strays).2, chunk ≠ nullptr

end Heap

namespace Region

/-- The distance from one chunk to the next. -/
def stride (region : Region) : Nat := roundUp region.align region.size

/-- The heap after so many calls of `alloc` that all returned a chunk. -/
structure Filled (region : Region) (count : Nat) (heap : Heap) : Prop where
  size_eq : heap.size = region.size
  memory_eq : heap.memory = region.memory
  align_eq : heap.align = region.align
  max_eq : heap.max = region.max
  allocated_eq : heap.allocated = count
  live : ∀ pair ∈ heap.blocks, pair.isLive
  chunks_eq : heap.chunks =
    (List.range count).map fun chunk => region.memory + chunk * region.stride
  room : ∀ chunk < count, chunk * region.stride + region.size ≤ region.max

variable {region : Region} {heap : Heap} {count : Nat}

theorem filled_zero (region : Region) (total : Int) (freePtr : Nat) :
    region.Filled 0 (region.heap total freePtr) := by
  constructor <;> simp [Region.heap, Heap.construct, Heap.chunks]

theorem stride_aligned (region : Region) : region.align ∣ region.stride :=
  Nat.dvd_mul_left _ _

/-- Where the next chunk is looked for, how much room there is, and whether it fits. -/
theorem Filled.carve_eq (filled : region.Filled count heap) (stray : Nat) :
    heap.startPtr stray ≠ nullptr ∧
      heap.carve stray =
        if count * region.stride + region.size ≤ region.max then
          region.memory + count * region.stride
        else nullptr := by
  have positive := region.align_pos
  have small := region.max_lt
  have nonnull := Nat.pos_of_ne_zero region.nonnull
  have rounded := le_roundUp positive region.size
  cases count with
  | zero =>
      have empty : heap.blocks = [] := by
        simpa [Heap.chunks] using filled.chunks_eq
      have start : heap.startPtr stray = region.memory := by
        simp [Heap.startPtr, filled.allocated_eq, filled.memory_eq]
      have space : heap.remaining = region.max := by
        simp only [Heap.remaining, empty, List.getLast?_nil, filled.max_eq]
        rw [toSizeT_of_bounds (by omega) (by omega)]
        exact Int.toNat_natCast _
      refine ⟨start ▸ region.nonnull, ?_⟩
      rw [Heap.carve, filled.align_eq, filled.size_eq, start, space,
        align_of_dvd positive region.aligned region.size_le]
      simp [region.size_le]
  | succ last =>
      have before := filled.room last (Nat.lt_succ_self last)
      have back : heap.blocks.getLast?.map PairBytes.second =
          some (region.memory + last * region.stride) := by
        rw [← List.getLast?_map, ← Heap.chunks, filled.chunks_eq, List.range_succ]
        simp
      obtain ⟨pair, pair_last, pair_eq⟩ := Option.map_eq_some_iff.mp back
      have start : heap.startPtr stray = region.memory + last * region.stride + region.size := by
        have nonzero : heap.allocated ≠ 0 := by
          rw [filled.allocated_eq]
          omega
        simp [Heap.startPtr, nonzero, Heap.backEnd, pair_last, pair_eq, filled.size_eq]
      have space : heap.remaining = region.max - (last * region.stride + region.size) := by
        simp only [Heap.remaining, pair_last, pair_eq, filled.max_eq, filled.memory_eq,
          filled.size_eq]
        rw [toSizeT_of_bounds (by omega) (by omega)]
        omega
      have aligned : region.align ∣ region.memory + last * region.stride :=
        Nat.dvd_add region.aligned (Nat.dvd_mul_left_of_dvd region.stride_aligned last)
      refine ⟨by rw [start, nullptr]; omega, ?_⟩
      rw [Heap.carve, filled.align_eq, filled.size_eq, start, space, Cxx.align_eq,
        roundUp_add positive aligned, ← stride, Nat.succ_mul, Nat.add_assoc]
      rw [← stride] at rounded
      refine if_congr ?_ rfl rfl
      omega

/-- One more call of `alloc` returns a chunk precisely if the next multiple of the stride leaves
room for it. -/
theorem Filled.alloc (filled : region.Filled count heap) (stray : Nat) :
    ((heap.alloc stray).2 ≠ nullptr ↔ count * region.stride + region.size ≤ region.max) ∧
      ((heap.alloc stray).2 ≠ nullptr → region.Filled (count + 1) (heap.alloc stray).1) := by
  obtain ⟨start_ne, carved⟩ := filled.carve_eq stray
  have nonnull := Nat.pos_of_ne_zero region.nonnull
  have exactly : heap.carve stray ≠ nullptr ↔
      count * region.stride + region.size ≤ region.max := by
    rw [carved]
    split
    · rename_i fits
      rw [nullptr]
      exact iff_of_true (by omega) fits
    · rename_i full
      exact iff_of_false (fun ne => ne rfl) full
  rcases Heap.alloc_cases stray heap with
    ⟨front, pair, back, split, reusable, -⟩ | ⟨-, room, result⟩ | ⟨-, full, result⟩
  · have live := filled.live pair (by simp [split])
    exact (bne_iff_ne.mp live (Heap.first_of_isReusable reusable)).elim
  · have fits := exactly.mp room
    rw [if_pos fits] at carved
    refine ⟨by rw [result]; exact exactly, fun _ => ?_⟩
    rw [result]
    refine ⟨filled.size_eq, filled.memory_eq, filled.align_eq, filled.max_eq, ?_, ?_, ?_, ?_⟩
    · simp [filled.allocated_eq]
    · rw [List.forall_mem_append, List.forall_mem_singleton]
      exact ⟨filled.live, bne_iff_ne.mpr start_ne⟩
    · have chunks := filled.chunks_eq
      simp only [Heap.chunks] at chunks
      simp [Heap.chunks, chunks, carved, List.range_succ]
    · intro chunk bound
      rcases Nat.lt_succ_iff_lt_or_eq.mp bound with earlier | rfl
      · exact filled.room chunk earlier
      · exact fits
  · rw [result]
    exact ⟨iff_of_false (fun ne => ne rfl) fun fits => exactly.mpr fits full,
      fun ne => (ne rfl).elim⟩

/-- Consecutive calls all return a chunk precisely if there is room for each of them. -/
theorem Filled.allocEach_iff (filled : region.Filled count heap) (strays : List Nat) :
    (∀ chunk ∈ (heap.allocEach strays).2, chunk ≠ nullptr) ↔
      ∀ later < strays.length, (count + later) * region.stride + region.size ≤ region.max := by
  induction strays generalizing count heap with
  | nil => simp [Heap.allocEach]
  | cons stray strays induction =>
      obtain ⟨first, next⟩ := filled.alloc stray
      change (∀ chunk ∈ (heap.alloc stray).2 :: ((heap.alloc stray).1.allocEach strays).2,
        chunk ≠ nullptr) ↔ _
      rw [List.forall_mem_cons, List.length_cons, Nat.forall_lt_succ_left, first, Nat.add_zero]
      refine and_congr_right fun fits => ?_
      rw [induction (next (first.mpr fits))]
      simp only [Nat.add_assoc, Nat.add_comm 1]

/-- There is room for all of them if there is room for the last. -/
theorem Filled.serves_iff (filled : region.Filled count heap) (more : Nat) :
    heap.Serves (more + 1) ↔ (count + more) * region.stride + region.size ≤ region.max := by
  constructor
  · intro serves
    have all := (filled.allocEach_iff (List.replicate (more + 1) 0)).mp
      (serves (List.replicate (more + 1) 0) List.length_replicate)
    exact all more (by simp)
  · intro room strays length
    refine (filled.allocEach_iff strays).mpr fun later bound => ?_
    have before : (count + later) * region.stride ≤ (count + more) * region.stride :=
      Nat.mul_le_mul_right _ (by omega)
    omega

end Region

namespace SharedHeaps

/-- `registerUse` succeeds for a data length, a queue size and an alignment as they should be, and
nothing overflows: neither in `size_t` nor in the `int`s that the heap keeps, nor is the region cut
off by the end of the address space. -/
structure Registers (source : UsesAllocator) (align : UInt32) (base : Nat) : Prop where
  length_pos : 1 ≤ source.dataLength.toNat
  queue_le : 2 ≤ source.getQueueSize
  align_pow : ∃ exponent, align.toNat = 2 ^ exponent
  obtains : Obtains source align base
  product_lt : (source.dataLength.toNat + 8) * source.getQueueSize < 2 ^ 64
  pages_lt : (1 + (source.dataLength.toNat + 8) * source.getQueueSize / 2 ^ 12) * 2 ^ 12 < 2 ^ 64
  total_lt : source.getQueueSize - 1 < 2 ^ 31
  max_lt : regionSize source.dataLength.toNat source.getQueueSize -
    (roundUp align.toNat base - base) < 2 ^ 31
  inSpace : base + regionSize source.dataLength.toNat source.getQueueSize < 2 ^ 64

variable {source : UsesAllocator} {align : UInt32} {base : Nat}

/-- The region of the heap `registerUse` makes. -/
def Registers.region (registers : Registers source align base) : Region where
  memory := roundUp align.toNat base
  max := regionSize source.dataLength.toNat source.getQueueSize - (roundUp align.toNat base - base)
  size := source.dataLength.toNat
  align := align.toNat
  max_lt := registers.max_lt
  size_pos := registers.length_pos
  size_le := by
    have fits := registers.obtains.2
    rw [Cxx.align_eq, ite_ne_right_iff] at fits
    omega
  align_pow := registers.align_pow
  aligned := Nat.dvd_mul_left _ _
  nonnull := by
    have fits := registers.obtains.2
    rw [Cxx.align_eq, ite_ne_right_iff] at fits
    exact fits.2
  inSpace := by
    have fits := registers.obtains.2
    have space := registers.inSpace
    rw [Cxx.align_eq, ite_ne_right_iff] at fits
    omega

/-- The bytes asked for when nothing wraps. -/
theorem Registers.regionSize_eq (registers : Registers source align base) :
    regionSize source.dataLength.toNat source.getQueueSize =
      (1 + (source.dataLength.toNat + 8) * source.getQueueSize / 2 ^ 12) * 2 ^ 12 := by
  simp only [regionSize]
  rw [Nat.mod_eq_of_lt registers.product_lt, Nat.mod_eq_of_lt registers.pages_lt]

/-- `registerUse` returns a heap as constructed over its region. -/
theorem Registers.heapAt_eq (registers : Registers source align base) (uses : Nat)
    (shared : SharedHeaps) :
    (shared.registerUse uses source align base).2 = .ok shared.heapCount ∧
      (shared.registerUse uses source align base).1.cache.heapAt shared.heapCount =
        registers.region.heap (source.getQueueSize - 1 : Nat) (roundUp align.toNat base) := by
  obtain ⟨memory, aligned⟩ := registers.obtains
  have fits := aligned
  rw [Cxx.align_eq, ite_ne_right_iff] at fits
  have start : Cxx.align align.toNat source.dataLength.toNat base
      (regionSize source.dataLength.toNat source.getQueueSize) = roundUp align.toNat base := by
    rw [Cxx.align_eq, if_pos fits.1]
  have least : base ≤ roundUp align.toNat base := le_roundUp registers.region.align_pos base
  have queue := registers.queue_le
  have total : toInt (source.getQueueSize - 1) = (source.getQueueSize - 1 : Nat) := by
    have bound := registers.total_lt
    rw [toInt_of_bounds (by omega) (by omega)]
    omega
  have max : toInt (regionSize source.dataLength.toNat source.getQueueSize -
      (roundUp align.toNat base - base)) = (registers.region.max : Int) := by
    have bound := registers.max_lt
    change _ = ((regionSize source.dataLength.toNat source.getQueueSize -
      (roundUp align.toNat base - base) : Nat) : Int)
    rw [toInt_of_bounds (by omega) (by omega)]
    omega
  constructor
  · simp [registerUse, memory, aligned]
  · simp only [registerUse, memory, aligned, if_false, Function.update_self]
    rw [start, total, max]
    rfl

/-- The heap `registerUse` returns serves the chunks agreed upon exactly when the last of them, so
many strides from the first, still lies in the pages asked for, less what is skipped to align the
first. -/
theorem registerUse_serves_iff (uses : Nat) (source : UsesAllocator) (align : UInt32) (base : Nat)
    (shared : SharedHeaps) (registers : Registers source align base) :
    ∃ heap, (shared.registerUse uses source align base).2 = .ok heap ∧
      (((shared.registerUse uses source align base).1.cache.heapAt heap).Serves
          (source.getQueueSize - 1) ↔
        (source.getQueueSize - 2) * roundUp align.toNat source.dataLength.toNat +
            source.dataLength.toNat ≤
          (1 + (source.dataLength.toNat + 8) * source.getQueueSize / 2 ^ 12) * 2 ^ 12 -
            (roundUp align.toNat base - base)) := by
  obtain ⟨returned, made⟩ := registers.heapAt_eq uses shared
  have queue := registers.queue_le
  have count : source.getQueueSize - 1 = source.getQueueSize - 2 + 1 := by omega
  refine ⟨shared.heapCount, returned, ?_⟩
  rw [made, count, (registers.region.filled_zero _ _).serves_iff, Nat.zero_add,
    ← registers.regionSize_eq]
  rfl

/-- Eight buffers of 64 bytes, aligned to 16. -/
theorem registers_sixtyFour : Registers ⟨64, 8, 1, 1⟩ 16 4096 where
  length_pos := by decide
  queue_le := by decide
  align_pow := ⟨4, rfl⟩
  obtains := ⟨by decide, by decide⟩
  product_lt := by decide
  pages_lt := by decide
  total_lt := by decide
  max_lt := by decide
  inSpace := by decide

theorem registerUse_serves_sixtyFour :
    ∃ heap, (start.registerUse 1 ⟨64, 8, 1, 1⟩ 16 4096).2 = .ok heap ∧
      ((start.registerUse 1 ⟨64, 8, 1, 1⟩ 16 4096).1.cache.heapAt heap).Serves 7 := by
  obtain ⟨heap, returned, serves⟩ :=
    registerUse_serves_iff 1 ⟨64, 8, 1, 1⟩ 16 4096 start registers_sixtyFour
  exact ⟨heap, returned, serves.mpr (by decide)⟩

/-- Three buffers of one byte, aligned to a page: the region has room for the first. -/
theorem registerUse_not_serves :
    ¬∀ (uses : Nat) (source : UsesAllocator) (align : UInt32) (base : Nat) (shared : SharedHeaps),
      Registers source align base →
        ∃ heap, (shared.registerUse uses source align base).2 = .ok heap ∧
          ((shared.registerUse uses source align base).1.cache.heapAt heap).Serves
            (source.getQueueSize - 1) := by
  intro always
  have registers : Registers ⟨1, 3, 1, 1⟩ 4096 4096 :=
    ⟨by decide, by decide, ⟨12, rfl⟩, ⟨by decide, by decide⟩, by decide, by decide, by decide,
      by decide, by decide⟩
  obtain ⟨heap, returned, serves⟩ := always 1 ⟨1, 3, 1, 1⟩ 4096 4096 start registers
  obtain ⟨same, made⟩ := registers.heapAt_eq 1 start
  obtain rfl := Except.ok.inj (returned.symm.trans same)
  rw [made] at serves
  have room : (0 + 1) * roundUp 4096 1 + 1 ≤ regionSize 1 3 - (roundUp 4096 4096 - 4096) :=
    ((registers.region.filled_zero _ _).serves_iff 1).mp serves
  exact absurd room (by decide)

end SharedHeaps

end Drumlin
