import Drumlin.AllocatorRegistry

/-!
# Unregistering every use

`unregisterAll` (allocator.cpp) goes through `m_heaps` by `std::for_each`, and its body erases the
element at which the iterator is.  Erasing an element of an `unordered_map` invalidates the
iterators to it and no others; to advance an invalid iterator is undefined.
-/

namespace Drumlin

open Cxx

namespace SharedHeaps

/-- Every key is come to once, no heap is left, and what they held is returned. -/
def UnregistersAll (tokenAt : Nat → Str) (order : List (Nat × Nat)) (shared : SharedHeaps) : Prop :=
  ∃ final freud,
    unregisterFrom tokenAt order shared = some (final, order.map Prod.fst, freud) ∧
      final.heaps = [] ∧
      freud = (order.map fun pair =>
        (shared.cache.heapAt pair.2).total * (shared.cache.heapAt pair.2).size).sum

/-- In whatever order the elements come, the traversal is as it should be precisely if there are
none. -/
theorem unregistersAll_iff {tokenAt : Nat → Str} {order : List (Nat × Nat)} {shared : SharedHeaps}
    (elements : order.Perm shared.heaps) :
    UnregistersAll tokenAt order shared ↔ shared.heaps = [] := by
  constructor
  · rintro ⟨final, freud, ran, -⟩
    cases order with
    | nil => exact elements.nil_eq.symm
    | cons pair rest =>
        rw [unregisterFrom_cons (elements.mem_iff.mp List.mem_cons_self)] at ran
        cases ran
  · intro none
    rw [none] at elements
    rw [elements.eq_nil]
    exact ⟨shared, 0, rfl, none, rfl⟩

/-- An allocator without heaps. -/
theorem unregistersAll_start : UnregistersAll (fun _ => []) [] .start :=
  (unregistersAll_iff (List.Perm.refl [])).mpr rfl

/-- One registered heap. -/
theorem unregistersAll_fails :
    ¬∀ (tokenAt : Nat → Str) (order : List (Nat × Nat)) (shared : SharedHeaps),
      order.Perm shared.heaps → UnregistersAll tokenAt order shared := by
  intro always
  obtain ⟨final, freud, ran, -⟩ := always (fun _ => []) [(1, 0)]
    (start.registerUse 1 ⟨64, 4, 1, 1⟩ 16 4096).1 (by decide)
  have undefined : (unregisterFrom (fun _ => []) [(1, 0)]
      (start.registerUse 1 ⟨64, 4, 1, 1⟩ 16 4096).1).isSome = false := by decide
  rw [ran] at undefined
  cases undefined

end SharedHeaps

end Drumlin
