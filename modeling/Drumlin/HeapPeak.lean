import Drumlin.HeapPlacement

/-!
# How far a heap grows

A chunk once carved stays in the list, to be reused.  The length of the list is the largest number
of chunks that were ever live together.
-/

namespace Drumlin

open Cxx

/-- One call raises the number of chunks just as far as the number of live ones needs. -/
theorem Heap.length_call {heap : Heap} (valid : Heap.invalid ∉ heap.chunks)
    (request : Heap.Call) :
    (heap.call request).blocks.length =
      Max.max heap.blocks.length (heap.call request).liveCount := by
  have bounded : (heap.call request).liveCount ≤ (heap.call request).blocks.length :=
    List.countP_le_length
  rcases heap.chunks_call_cases request with same | ⟨stray, unusable, -, grown, one_more⟩
  · have lengths := congrArg List.length same
    simp only [Heap.length_chunks] at lengths
    omega
  · have full := Heap.liveCount_eq_length valid unusable
    have lengths := congrArg List.length grown
    simp only [Heap.length_chunks, List.length_append, List.length_singleton] at lengths
    omega

namespace Extent

variable {extent : Extent} {heap : Heap}

/-- Every chunk is at an even address, or the alignment asks for nothing. -/
def Even (extent : Extent) (heap : Heap) : Prop :=
  (∃ region : Region, region.toExtent = extent ∧ region.Placed heap) ∨
    2 ∣ extent.align ∧ heap.align = extent.align ∧ ∀ chunk ∈ heap.chunks, extent.align ∣ chunk

theorem even_construct (extent : Extent) (total : Int) (freePtr : Nat) :
    extent.Even
      (.construct total extent.size extent.memory freePtr extent.align extent.max) := by
  obtain ⟨exponent, power⟩ := extent.align_pow
  cases exponent with
  | zero =>
      let region : Region := ⟨extent, by simp [power]⟩
      exact .inl ⟨region, rfl, region.placed_construct total freePtr⟩
  | succ exponent =>
      refine .inr ⟨⟨2 ^ exponent, by rw [power, pow_succ, mul_comm]⟩, rfl, ?_⟩
      simp [Heap.construct, Heap.chunks]

theorem Even.call (even : extent.Even heap) (request : Heap.Call) :
    extent.Even (heap.call request) := by
  rcases even with ⟨region, same, placed⟩ | ⟨two, align, multiples⟩
  · exact .inl ⟨region, same, placed.call request⟩
  · refine .inr ⟨two, (heap.call_frame request).2.2.1.trans align, ?_⟩
    rcases heap.chunks_call_cases request with same | ⟨stray, -, room, grown, -⟩
    · rwa [same]
    · rw [grown, List.forall_mem_append, List.forall_mem_singleton]
      obtain ⟨exponent, power⟩ := extent.align_pow
      have positive : 0 < heap.align := by
        rw [align, power]
        exact Nat.two_pow_pos exponent
      exact ⟨multiples, align ▸ (align_spec positive room).1⟩

theorem Even.valid (even : extent.Even heap) : Heap.invalid ∉ heap.chunks := by
  rcases even with ⟨region, -, placed⟩ | ⟨two, -, multiples⟩
  · exact placed.valid
  · intro member
    have divides := two.trans (multiples Heap.invalid member)
    revert divides
    decide

end Extent

/-- The number of chunks is the greatest number of live ones in the run so far, and the next call
adds a chunk only when all of them are live. -/
theorem heap_blocks_isGreatest (extent : Extent) (total : Int) (freePtr : Nat)
    (calls : List Heap.Call) :
    let start := Heap.construct total extent.size extent.memory freePtr extent.align extent.max
    let heap := calls.foldl Heap.call start
    IsGreatest
        { live | ∃ sofar, sofar <+: calls ∧ live = (sofar.foldl Heap.call start).liveCount }
        heap.blocks.length ∧
      ∀ request, heap.blocks.length < (heap.call request).blocks.length →
        ∀ pair ∈ heap.blocks, pair.first ≠ nullptr := by
  intro start heap
  have preserved : ∀ heap request, extent.Even heap → extent.Even (heap.call request) :=
    fun _ request even => even.call request
  have initial : extent.Even start := extent.even_construct total freePtr
  refine ⟨?_, fun request grows pair member => ?_⟩
  · exact Runs.isGreatest_of_max (fun heap : Heap => heap.blocks.length) Heap.liveCount
      extent.Even preserved (fun _ request even => Heap.length_call even.valid request) initial rfl
      calls
  · have even : extent.Even heap := Runs.foldl_invariant preserved initial calls
    rcases heap.chunks_call_cases request with same | ⟨stray, unusable, -⟩
    · have lengths := congrArg List.length same
      simp only [Heap.length_chunks] at lengths
      omega
    · have live := Heap.isLive_of_not_reusable even.valid member (unusable pair member)
      simpa [PairBytes.isLive] using live

end Drumlin
