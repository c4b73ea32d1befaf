import Drumlin.AllocatorRegistry

/-!
# The region of a heap

`registerUse` computes the size of a region in `size_t`, and passes what is left of it and the
number of chunks to a constructor that takes an `int` for each.  It keeps a region that turns out to
be too small.
-/

namespace Drumlin

open Cxx

namespace SharedHeaps

/-! ## The sizes of a heap -/

/-- The heap that `registerUse` returns. -/
theorem heapAt_registerUse {uses base heap : Nat} {source : UsesAllocator} {align : UInt32}
    {shared : SharedHeaps} (returned : (shared.registerUse uses source align base).2 = .ok heap) :
    let sz := source.dataLength.toNat
    let n := source.getQueueSize
    let mem := roundUp align.toNat base
    base ≤ mem ∧ sz + (mem - base) ≤ regionSize sz n ∧
      (shared.registerUse uses source align base).1.cache.heapAt heap =
        .construct (toInt (n - 1)) sz mem mem align.toNat
          (toInt (regionSize sz n - (mem - base))) := by
  intro sz n mem
  rcases registerUse_cases uses source align base shared with
    ⟨⟨memory, aligned⟩, result, -⟩ | ⟨-, ⟨exception, thrown⟩, -⟩
  · obtain rfl : shared.heapCount = heap := by simpa [result] using returned
    obtain ⟨start_ne, fits⟩ := align_ne_nullptr_iff.mp aligned
    have later := le_roundUp ((roundUp_ne_nullptr_iff memory).mp start_ne) base
    have start : Cxx.align align.toNat sz base (regionSize sz n) = mem := by
      rw [align_eq, if_pos fits]
    refine ⟨later, fits, ?_⟩
    rw [registerUse, if_neg memory, if_neg aligned, start]
    simp only [Function.update_self, sz, n]
  · simp [thrown] at returned

/-- The heap is built over what the arguments ask for: one chunk less than the queue is long, and
all bytes from its start to the end of the block, with no product or sum reduced. -/
structure SizedExactly (source : UsesAllocator) (base : Nat) (heap : Heap) : Prop where
  total_eq : heap.total = (source.getQueueSize : Int) - 1
  total_nonneg : 0 ≤ heap.total
  max_eq : heap.memory + heap.max =
    (base + regionSize source.dataLength.toNat source.getQueueSize : Nat)
  bytes_lt : (source.dataLength.toNat + 8) * source.getQueueSize < 2 ^ 64
  pages_lt : (1 + (source.dataLength.toNat + 8) * source.getQueueSize / 2 ^ 12) * 2 ^ 12 < 2 ^ 64

/-- Where nothing is reduced the region is the pages for all chunks and one more. -/
theorem regionSize_eq {sz n : Nat} (small : (1 + (sz + 8) * n / 2 ^ 12) * 2 ^ 12 < 2 ^ 64) :
    regionSize sz n = (1 + (sz + 8) * n / 2 ^ 12) * 2 ^ 12 := by
  have bytes : (sz + 8) * n < 2 ^ 64 := by omega
  rw [regionSize, Nat.mod_eq_of_lt bytes, Nat.mod_eq_of_lt small]

/-- The product of a length and a number of chunks that an `int` can hold is not reduced. -/
theorem pages_lt_of_le {sz n : Nat} (length : sz < 2 ^ 32) (number : n ≤ 2 ^ 31) :
    (1 + (sz + 8) * n / 2 ^ 12) * 2 ^ 12 < 2 ^ 64 := by
  have bytes : (sz + 8) * n ≤ (2 ^ 32 + 8) * 2 ^ 31 := Nat.mul_le_mul (by omega) number
  omega

/-- The constructor keeps the sizes precisely if the queue is neither empty nor longer than
`2 ^ 31`, and fewer than `2 ^ 31` bytes of the pages lie behind the padding. -/
theorem sizedExactly_iff {uses base heap : Nat} {source : UsesAllocator} {align : UInt32}
    {shared : SharedHeaps} (returned : (shared.registerUse uses source align base).2 = .ok heap) :
    SizedExactly source base ((shared.registerUse uses source align base).1.cache.heapAt heap) ↔
      1 ≤ source.getQueueSize ∧ source.getQueueSize ≤ 2 ^ 31 ∧
        (1 + (source.dataLength.toNat + 8) * source.getQueueSize / 2 ^ 12) * 2 ^ 12 <
          2 ^ 31 + (roundUp align.toNat base - base) := by
  obtain ⟨later, fits, built⟩ := heapAt_registerUse returned
  have length := source.dataLength.toNat_lt
  rw [built]
  constructor
  · rintro ⟨total_eq, total_nonneg, max_eq, -, pages⟩
    have total_lt := toInt_lt (source.getQueueSize - 1)
    have max_lt := toInt_lt
      (regionSize source.dataLength.toNat source.getQueueSize - (roundUp align.toNat base - base))
    simp only [Heap.construct] at total_eq total_nonneg max_eq
    rw [regionSize_eq pages] at max_eq max_lt
    exact ⟨by omega, by omega, by omega⟩
  · rintro ⟨nonempty, number, max_lt⟩
    have pages := pages_lt_of_le length number
    rw [regionSize_eq pages] at fits ⊢
    refine ⟨toInt_of_bounds (by omega) (by omega), ?_, ?_, by omega, pages⟩
    · simp only [Heap.construct]
      rw [toInt_of_bounds (by omega) (by omega)]
      omega
    · simp only [Heap.construct]
      rw [regionSize_eq pages, toInt_of_bounds (by omega) (by omega)]
      omega

/-- Four chunks of 64 bytes. -/
theorem sizedExactly_four :
    SizedExactly ⟨64, 4, 1, 1⟩ 4096
      ((start.registerUse 1 ⟨64, 4, 1, 1⟩ 16 4096).1.cache.heapAt 0) :=
  (sizedExactly_iff (by decide)).mpr ⟨by decide, by decide, by decide⟩

/-- The heap of an empty queue has a total of `-1`. -/
theorem sizedExactly_fails :
    ¬∀ (uses base heap : Nat) (source : UsesAllocator) (align : UInt32) (shared : SharedHeaps),
      (∃ exponent, align.toNat = 2 ^ exponent) →
      (shared.registerUse uses source align base).2 = .ok heap →
      SizedExactly source base
        ((shared.registerUse uses source align base).1.cache.heapAt heap) := by
  intro sized
  have empty := sized 1 4096 0 ⟨64, 0, 1, 1⟩ 16 .start ⟨4, by decide⟩ (by decide)
  have total_nonneg := empty.total_nonneg
  revert total_nonneg
  decide

end SharedHeaps

/-! ## When `registerUse` throws -/

/-- `Allocator`: its heaps, and the regions obtained from `malloc` that were not passed to `::free`
since, by their first byte. -/
structure Allocator where
  /-- The heaps. -/
  shared : SharedHeaps
  /-- The regions. -/
  regions : List Nat

namespace Allocator

/-- `Allocator::registerUse`.  On no path does it free the region it obtained. -/
def registerUse (uses : Nat) (source : UsesAllocator) (align : UInt32) (base : Nat)
    (allocator : Allocator) : Allocator × Except String Nat :=
  let regions := if base = nullptr then allocator.regions else allocator.regions ++ [base]
  let (shared, result) := allocator.shared.registerUse uses source align base
  ({ shared, regions }, result)

/-- The pages asked for hold a chunk behind the padding of its alignment. -/
def PagesHold (source : UsesAllocator) (align : UInt32) (base : Nat) : Prop :=
  align ≠ 0 ∧ source.dataLength.toNat + (roundUp align.toNat base - base) ≤
    (1 + (source.dataLength.toNat + 8) * source.getQueueSize % 2 ^ 64 / 2 ^ 12) * 2 ^ 12 % 2 ^ 64

theorem obtains_iff (source : UsesAllocator) (align : UInt32) {base : Nat}
    (memory : base ≠ nullptr) :
    SharedHeaps.Obtains source align base ↔ PagesHold source align base := by
  rw [SharedHeaps.Obtains, PagesHold, and_iff_right memory, align_ne_nullptr_iff,
    roundUp_ne_nullptr_iff memory]
  refine and_congr_left' ?_
  rw [Nat.pos_iff_ne_zero, ne_eq, ne_eq, ← UInt32.toNat_inj, UInt32.toNat_zero]

/-- A `registerUse` that throws leaves everything as it was precisely if `malloc` failed, or the
pages hold a chunk, so that nothing is thrown. -/
theorem registerUse_throws_iff (uses : Nat) (source : UsesAllocator) (align : UInt32) (base : Nat)
    (allocator : Allocator) :
    (∀ exception, (allocator.registerUse uses source align base).2 = .error exception →
        (allocator.registerUse uses source align base).1 = allocator) ↔
      base = nullptr ∨ PagesHold source align base := by
  by_cases memory : base = nullptr
  · refine iff_of_true (fun exception _ => ?_) (.inl memory)
    simp [registerUse, SharedHeaps.registerUse, memory]
  · rw [or_iff_right memory, ← obtains_iff source align memory]
    rcases SharedHeaps.registerUse_cases uses source align base allocator.shared with
      ⟨obtains, returned, -⟩ | ⟨refused, ⟨exception, thrown⟩, -⟩
    · refine iff_of_true (fun exception error => ?_) obtains
      simp [registerUse, returned] at error
    · refine iff_of_false (fun same => ?_) refused
      have regions := congrArg regions (same exception thrown)
      simp [registerUse, memory] at regions

/-- A chunk of two pages and no queue: one page is obtained and left allocated. -/
theorem registerUse_throws_fails :
    ¬∀ (uses : Nat) (source : UsesAllocator) (align : UInt32) (base : Nat) (allocator : Allocator)
        (exception : String),
      (allocator.registerUse uses source align base).2 = .error exception →
      (allocator.registerUse uses source align base).1 = allocator := by
  intro same
  have thrown := same 1 ⟨8192, 0, 1, 1⟩ 16 4096 ⟨.start, []⟩ "ENOALIGN" (by decide)
  have regions := congrArg regions thrown
  revert regions
  decide

end Allocator

end Drumlin
