import Drumlin.AllocatorSizes

/-!
# The queue of a use

`getQueueSize` (uses_allocator.h) multiplies the backlog by how many process durations a tick has,
and takes the ceiling of the product.  The quotient of two durations is an integer already.
-/

namespace Drumlin

open Cxx

namespace SharedHeaps

/-- The queue is the least integer not below the ticks of the backlog over the process duration, and
every heap registered for the use has one chunk less. -/
structure HoldsBacklog (source : UsesAllocator) : Prop where
  least : IsLeast {size : Int | (source.bufferSize.toNat * source.tau : ℚ) / source.process ≤ size}
    source.getQueueSize
  total : ∀ uses align base shared heap, (registerUse uses source align base shared).2 = .ok heap →
    ((registerUse uses source align base shared).1.cache.heapAt heap).total =
      ⌈(source.bufferSize.toNat * source.tau : ℚ) / source.process⌉ - 1

/-- Within the ranges of the integers no conversion changes the queue size. -/
theorem getQueueSize_eq {source : UsesAllocator} (tau : 0 ≤ source.tau)
    (process : 0 < source.process) (product : source.bufferSize.toNat * source.tau < 2 ^ 63)
    (small : source.getQueueSize < 2 ^ 31) :
    (source.getQueueSize : Int) = source.bufferSize.toNat * (source.tau / source.process) := by
  have quotient := Int.ediv_nonneg tau process.le
  have size_nonneg : 0 ≤ source.bufferSize.toNat * (source.tau / source.process) := by positivity
  have size_le : source.bufferSize.toNat * (source.tau / source.process) ≤
      source.bufferSize.toNat * source.tau :=
    mul_le_mul_of_nonneg_left (Int.ediv_le_self _ tau) (by positivity)
  rw [UsesAllocator.getQueueSize, Int.tdiv_eq_ediv_of_nonneg tau] at small ⊢
  rcases lt_or_ge (source.bufferSize.toNat * (source.tau / source.process)) (2 ^ 53) with
    exact | rounded
  · rw [toDouble_of_lt (by omega), toSizeT_of_bounds size_nonneg (by omega)]
    exact Int.toNat_of_nonneg size_nonneg
  · obtain ⟨least, greatest⟩ := toDouble_bounds rounded (size_le.trans_lt product)
    rw [toSizeT_of_bounds (by omega) (by omega)] at small
    omega

/-- The rounded quotient times the backlog is the least integer only if nothing is rounded. -/
theorem isLeast_mul_ediv_iff {backlog tau process : Int} (backlog_nonneg : 0 ≤ backlog)
    (positive : 0 < process) :
    IsLeast {size : Int | (backlog * tau : ℚ) / process ≤ size} (backlog * (tau / process)) ↔
      backlog = 0 ∨ process ∣ tau := by
  have cast_pos : (0 : ℚ) < process := by exact_mod_cast positive
  have mem_iff (size : Int) : (backlog * tau : ℚ) / process ≤ size ↔
      backlog * tau ≤ size * process := by
    rw [div_le_iff₀ cast_pos]
    exact_mod_cast Iff.rfl
  simp only [IsLeast, mem_lowerBounds, Set.mem_ofPred_eq, mem_iff]
  have remainder_nonneg := Int.emod_nonneg tau positive.ne'
  constructor
  · rintro ⟨reaches, -⟩
    have rest : backlog * (tau % process) ≤ 0 := by
      calc
        backlog * (tau % process) = backlog * tau - backlog * (tau / process) * process := by
          rw [Int.emod_def]
          ring
        _ ≤ 0 := by omega
    rcases backlog_nonneg.eq_or_lt with zero | backlog_pos
    · exact .inl zero.symm
    · right
      apply Int.dvd_of_emod_eq_zero
      exact le_antisymm (nonpos_of_mul_nonpos_right rest backlog_pos) remainder_nonneg
  · intro exact
    have equal : backlog * tau = backlog * (tau / process) * process := by
      rcases exact with rfl | divides
      · simp
      · rw [mul_assoc, Int.ediv_mul_cancel divides]
    rw [equal]
    exact ⟨le_rfl, fun size reaches => le_of_mul_le_mul_right reaches positive⟩

/-- The queue is the least integer that holds the backlog, and the heap has a chunk less, precisely
if there is no backlog or the tick is a multiple of the process duration. -/
theorem holdsBacklog_iff {source : UsesAllocator} (tau : 0 ≤ source.tau)
    (process : 0 < source.process) (product : source.bufferSize.toNat * source.tau < 2 ^ 63)
    (small : source.getQueueSize < 2 ^ 31) :
    HoldsBacklog source ↔ source.bufferSize = 0 ∨ source.process ∣ source.tau := by
  have queue := getQueueSize_eq tau process product small
  have backlog_zero : (source.bufferSize.toNat : Int) = 0 ↔ source.bufferSize = 0 := by
    rw [Nat.cast_eq_zero, ← UInt32.toNat_inj, UInt32.toNat_zero]
  rw [← backlog_zero, ← isLeast_mul_ediv_iff (Int.natCast_nonneg _) process, ← queue]
  constructor
  · intro holds
    exact_mod_cast holds.least
  · intro least
    have least : IsLeast {size : Int |
        (source.bufferSize.toNat * source.tau : ℚ) / source.process ≤ size}
        source.getQueueSize := by
      exact_mod_cast least
    have ceiling : ⌈(source.bufferSize.toNat * source.tau : ℚ) / source.process⌉ =
        source.getQueueSize := by
      apply le_antisymm
      · exact Int.ceil_le.mpr least.1
      · exact least.2 (Set.mem_ofPred_eq ▸ Int.le_ceil _)
    refine ⟨least, fun uses align base shared heap returned => ?_⟩
    obtain ⟨-, -, built⟩ := heapAt_registerUse returned
    rw [built, ceiling]
    exact toInt_of_bounds (by omega) (by omega)

/-- Four ticks of twice the process duration. -/
theorem holdsBacklog_eight : HoldsBacklog ⟨64, 4, 20, 10⟩ :=
  (holdsBacklog_iff (by decide) (by decide) (by decide) (by decide)).mpr (.inr (by decide))

/-- One tick that takes half as long as the processing: the queue is empty. -/
theorem holdsBacklog_fails :
    ¬∀ source : UsesAllocator, 0 ≤ source.tau → 0 < source.process →
      source.bufferSize.toNat * source.tau < 2 ^ 63 → source.getQueueSize < 2 ^ 31 →
      HoldsBacklog source := by
  intro always
  have holds := always ⟨64, 1, 10, 20⟩ (by decide) (by decide) (by decide) (by decide)
  have empty : (⟨64, 1, 10, 20⟩ : UsesAllocator).getQueueSize = 0 := by decide
  have least := holds.least.1
  rw [empty] at least
  norm_num [show UInt32.toNat 1 = 1 from rfl] at least

end SharedHeaps

end Drumlin
