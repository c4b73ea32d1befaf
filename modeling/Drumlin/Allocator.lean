import Drumlin.BufferCache

/-!
# The allocator

`Allocator` (allocator.h, allocator.cpp) obtains the region of a heap from `malloc` and keeps the
heap in `m_heaps`, by the `UsesAllocator` it was registered for.  A heap is owned by the shared
pointers to it: in `m_heaps`, in the entries of the cache, and in the hands of callers.
-/

namespace Drumlin

open Cxx

/-- `UsesAllocator`, as far as the allocator reads it. -/
structure UsesAllocator where
  /-- `m_data_length`. -/
  dataLength : UInt32
  /-- `m_buffer_size`. -/
  bufferSize : UInt32
  /-- `m_tau`, in microseconds. -/
  tau : Int
  /-- `m_process`, in microseconds. -/
  process : Int
deriving DecidableEq, Repr

/-- `UsesAllocator::getQueueSize`.  The quotient of two durations is that of their counts. -/
def UsesAllocator.getQueueSize (uses : UsesAllocator) : Nat :=
  toSizeT (toDouble (uses.bufferSize.toNat * uses.tau.tdiv uses.process))

/-- The heaps and all shared pointers to them. -/
structure SharedHeaps where
  /-- The cache, with the heaps themselves. -/
  cache : UseIdentCache
  /-- `m_heaps`: the address of a `UsesAllocator` and a shared pointer to its heap. -/
  heaps : List (Nat × Nat)
  /-- The shared pointers callers hold. -/
  handles : List Nat
  /-- Number of heaps constructed, and number of the next one. -/
  heapCount : Nat
  /-- The heaps whose region was passed to `::free`, once for every time it was. -/
  freed : List Nat

namespace SharedHeaps

/-- No heap, no entry and no subscription. -/
def start : SharedHeaps where
  cache :=
    { heapAt := fun _ => Heap.construct 0 0 nullptr nullptr 0 0
      buffers := []
      subscriptions := [] }
  heaps := []
  handles := []
  heapCount := 0
  freed := []

/-- The number of shared pointers to a heap. -/
def useCount (heap : Nat) (shared : SharedHeaps) : Nat :=
  shared.handles.count heap + shared.heaps.countP (fun entry => entry.2 == heap) +
    shared.cache.buffers.countP fun entry => entry.2 == heap

/-- `::free`, of the region of a heap.  The argument is `_free`, the aligned start that `std::align`
left there: with padding in front of it, that is not what `malloc` returned. -/
def passToFree (heap : Nat) (shared : SharedHeaps) : SharedHeaps :=
  { shared with freed := shared.freed ++ [heap] }

/-- What follows when a shared pointer to a heap is gone: `heap_t::~heap_t` frees the region if it
was the last. -/
def release (heap : Nat) (shared : SharedHeaps) : SharedHeaps :=
  if shared.useCount heap = 0 then shared.passToFree heap else shared

/-! ## Registering -/

/-- The bytes `registerUse` asks `malloc` for.  The quotient is an integer before it reaches
`ceil`. -/
def regionSize (sz n : Nat) : Nat :=
  let m := (sz + 8) * n % 2 ^ 64
  let tmp := m / 2 ^ 12
  (1 + tmp) * 2 ^ 12 % 2 ^ 64

/-- `Allocator::getHeap`, and every other search of `m_heaps`. -/
def getHeap (uses : Nat) (shared : SharedHeaps) : Option Nat := shared.heaps.lookup uses

/-- `Allocator::registerUse` of the allocator at an address, where `malloc` returned `base`.
`std::align` moves `_free` itself to the aligned start, and takes what it skips off `m`; `insert`
leaves an entry that is there already.  `drumlin::debug` is taken to be false: with it, `CPLATE` of
the new heap locks the mutex of the logger twice. -/
def registerUse (uses : Nat) (source : UsesAllocator) (align : UInt32) (base : Nat)
    (shared : SharedHeaps) : SharedHeaps × Except String Nat :=
  let sz := source.dataLength.toNat
  let n := source.getQueueSize
  let m := regionSize sz n
  if base = nullptr then
    (shared, .error "ENOMEM")
  else
    let mem := Cxx.align align.toNat sz base m
    if mem = nullptr then
      (shared, .error "ENOALIGN")
    else
      let pHeap := Heap.construct (toInt (n - 1)) sz mem mem align.toNat (toInt (m - (mem - base)))
      let heap := shared.heapCount
      ({ shared with
          cache :=
            { shared.cache with heapAt := Function.update shared.cache.heapAt heap pHeap }
          heaps := if (shared.getHeap uses).isSome then shared.heaps
            else shared.heaps ++ [(uses, heap)]
          handles := shared.handles ++ [heap]
          heapCount := heap + 1 },
        .ok heap)

/-! ## Clearing and unregistering -/

/-- `BufferCache::clearAllocated` through a filter that was copied.  The erased entries are gone
when the call returns. -/
def clearAllocated (use : UseIdentFilter) (shared : SharedHeaps) : SharedHeaps :=
  let pairs := shared.cache.buffers.filter fun pair => use.equals pair.1
  let cleared := { shared with cache := (shared.cache.clearAllocated UseIdentFilter.equals use).1 }
  (pairs.map Prod.snd).dedup.foldl (fun shared heap => shared.release heap) cleared

/-- `Allocator::do_unregisterHeap`, with what it returns.  `tokenAt` is the token of the
`UsesAllocator` at an address. -/
def doUnregisterHeap (tokenAt : Nat → Str) (first second : Nat) (shared : SharedHeaps) :
    SharedHeaps × Int :=
  let heap := shared.cache.heapAt second
  let cleared :=
    if heap.allocated ≠ 0 then
      shared.clearAllocated (Filter.sourcesOnly ⟨.ofUses first (tokenAt first)⟩).slice
    else shared
  let freed := cleared.passToFree second
  let erased := { freed with heaps := freed.heaps.filter fun entry => entry.1 != first }
  (erased.release second, toInt (heap.total * heap.size))

/-- `Allocator::unregisterUse`, with what it returns. -/
def unregisterUse (tokenAt : Nat → Str) (uses : Nat) (shared : SharedHeaps) : SharedHeaps × Int :=
  match shared.getHeap uses with
  | some heap => shared.doUnregisterHeap tokenAt uses heap
  | none => (shared, -2)

/-- The loop of `Allocator::unregisterAll`, with the keys it came to and what it returns: the
elements are those from the iterator on, in the order that `m_heaps` has.  None where an iterator to
an erased element is advanced. -/
def unregisterFrom (tokenAt : Nat → Str) :
    List (Nat × Nat) → SharedHeaps → Option (SharedHeaps × List Nat × Int)
  | [], shared => some (shared, [], 0)
  | pair :: rest, shared =>
      -- an element erased before is not come to
      if pair ∉ shared.heaps then
        unregisterFrom tokenAt rest shared
      else
        let (unregistered, freud) := shared.doUnregisterHeap tokenAt pair.1 pair.2
        if pair ∉ unregistered.heaps then
          none
        else
          (unregisterFrom tokenAt rest unregistered).map fun (final, visited, sum) =>
            (final, pair.1 :: visited, freud + sum)

/-- `Allocator::unregisterAll`, with what it returns.  None where it is undefined. -/
def unregisterAll (tokenAt : Nat → Str) (shared : SharedHeaps) : Option (SharedHeaps × Int) :=
  (unregisterFrom tokenAt shared.heaps shared).map fun (final, _, freud) => (final, freud)

/-! ## Calls -/

/-- A call made on the allocator, the cache or a heap, or the end of a caller's shared pointer. -/
inductive Call
  | registerUse (uses : Nat) (source : UsesAllocator) (align : UInt32) (base : Nat)
  | getHeap (uses : Nat)
  | unregisterUse (uses : Nat)
  | unregisterAll
  | heap (heap : Nat) (request : Heap.Call)
  | addAllocated (ident : UseIdent) (heap : Nat)
  | clearAllocated (filter : Filter)
  | drop (heap : Nat)

/-- The heaps after one call, if it is defined.  What is called through a shared pointer takes a
caller that holds one. -/
def call (tokenAt : Nat → Str) (identAt : Nat → UseIdent) (shared : SharedHeaps) :
    Call → Option SharedHeaps
  | .registerUse uses source align base => some (shared.registerUse uses source align base).1
  | .getHeap uses => some { shared with handles := shared.handles ++ (shared.getHeap uses).toList }
  | .unregisterUse uses => some (shared.unregisterUse tokenAt uses).1
  | .unregisterAll => (shared.unregisterAll tokenAt).map Prod.fst
  | .heap heap request =>
      if heap ∈ shared.handles then
        some { shared with
          cache := shared.cache.call UseIdentFilter.equals identAt (.heap heap request) }
      else some shared
  | .addAllocated ident heap =>
      if heap ∈ shared.handles then
        some { shared with
          cache := (shared.cache.addAllocated UseIdentFilter.equals identAt (ident, heap)).1 }
      else some shared
  | .clearAllocated filter => some (shared.clearAllocated filter.slice)
  | .drop heap =>
      if heap ∈ shared.handles then
        some ({ shared with handles := shared.handles.erase heap }.release heap)
      else some shared

end SharedHeaps

end Drumlin
