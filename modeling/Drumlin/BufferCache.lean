import Drumlin.Heap
import Drumlin.UseIdent

/-!
# The buffer cache

`BufferCache` (buffer_cache.h, buffer_cache.cpp) relates heaps to the identifiers of their uses and
calls its subscribers for every buffer that arrives.  What a stored filter accepts is a parameter
of the cache: in the code it is the comparison of a filter that was copied into the cache.
-/

namespace Drumlin

/-- `HeapBuffer`, as far as the cache reads it. -/
structure HeapBuffer where
  /-- Where the buffer is. -/
  address : Nat
  /-- `m_ident`, what `getUseIdent` returns. -/
  ident : UseIdent
deriving DecidableEq, Repr

/-- An element of `m_buffers`: an identifier and a shared pointer to a heap. -/
abbrev CacheEntry := UseIdent × Nat

/-- `BufferCache`, for subscriptions that hold a `Selector`.  Heaps and acceptors are known by
number. -/
structure BufferCache (Selector : Type) where
  /-- The heap a shared pointer leads to. -/
  heapAt : Nat → Heap
  /-- `m_buffers`. -/
  buffers : List CacheEntry
  /-- `m_subscriptions`. -/
  subscriptions : List (Selector × Nat)

/-- The comparison of two elements of `m_buffers`, with `UseIdent::operator==` on the left. -/
def CacheEntry.equals (left right : CacheEntry) : Bool :=
  left.1.equals right.1 && left.2 == right.2

namespace BufferCache

variable {Selector : Type} (accepts : Selector → UseIdent → Bool)

/-! ## Operations -/

/-- `BufferCache::publish`: the acceptors called, each with the address of the buffer.  What it
returns is their number. -/
def publish (buffer : HeapBuffer) (cache : BufferCache Selector) : List (Nat × Nat) :=
  (cache.subscriptions.filter fun sub => accepts sub.1 buffer.ident).map fun sub =>
    (sub.2, buffer.address)

/-- `BufferCache::addAllocated`, with the calls of its acceptors and what it returns.  It publishes
whatever is in the chunks of the heap; `identAt` is the identifier read in a chunk. -/
def addAllocated (identAt : Nat → UseIdent) (pair : CacheEntry) (cache : BufferCache Selector) :
    BufferCache Selector × List (Nat × Nat) × Nat :=
  let added := { cache with buffers := cache.buffers ++ [pair] }
  let blocks := (cache.heapAt pair.2).chunks
  (added, blocks.flatMap fun block => added.publish accepts ⟨block, identAt block⟩, blocks.length)

/-- `BufferCache::findRelevant`. -/
def findRelevant (use : Selector) (cache : BufferCache Selector) : List Nat :=
  (cache.buffers.filter fun buffer => accepts use buffer.1).flatMap fun buffer =>
    (cache.heapAt buffer.2).chunks

/-- `BufferCache::subscribe`, with what it returns. -/
def subscribe (sub : Selector × Nat) (cache : BufferCache Selector) :
    BufferCache Selector × List Nat :=
  let subscribed := { cache with subscriptions := cache.subscriptions ++ [sub] }
  (subscribed, subscribed.findRelevant accepts sub.1)

/-- `BufferCache::unsubscribe`, with what it returns. -/
def unsubscribe (acceptor : Nat) (cache : BufferCache Selector) : BufferCache Selector × Nat :=
  ({ cache with subscriptions := cache.subscriptions.filter fun sub => sub.2 != acceptor },
    cache.subscriptions.countP fun sub => sub.2 == acceptor)

/-- The first loop of `clearAllocated`: free all chunks of the heaps of the entries given, and
collect the buffers destroyed. -/
def freeHeaps : List CacheEntry → (Nat → Heap) → (Nat → Heap) × List Nat
  | [], heapAt => (heapAt, [])
  | entry :: entries, heapAt =>
      let (heap, destroyed) := (heapAt entry.2).freeAll
      let (heapAt, later) := freeHeaps entries (Function.update heapAt entry.2 heap)
      (heapAt, destroyed ++ later)

/-- The second loop of `clearAllocated`: `std::remove` and `erase` for each of the pairs. -/
def eraseEntries (pairs buffers : List CacheEntry) : List CacheEntry :=
  pairs.foldl (fun buffers pair => buffers.filter fun entry => !entry.equals pair) buffers

/-- `BufferCache::clearAllocated`, with the buffers it destroys; their number is what it
returns. -/
def clearAllocated (use : Selector) (cache : BufferCache Selector) :
    BufferCache Selector × List Nat :=
  let pairs := cache.buffers.filter fun pair => accepts use pair.1
  let (heapAt, destroyed) := freeHeaps pairs cache.heapAt
  ({ cache with heapAt, buffers := eraseEntries pairs cache.buffers }, destroyed)

/-- A call made on the cache, or on one of the heaps it refers to. -/
inductive Call (Selector : Type)
  | addAllocated (pair : CacheEntry)
  | clearAllocated (use : Selector)
  | subscribe (sub : Selector × Nat)
  | unsubscribe (acceptor : Nat)
  | heap (heap : Nat) (request : Heap.Call)

/-- The cache after one call.  The calls `findRelevant` and `publish` leave it as it is. -/
def call (identAt : Nat → UseIdent) (cache : BufferCache Selector) :
    Call Selector → BufferCache Selector
  | .addAllocated pair => (cache.addAllocated accepts identAt pair).1
  | .clearAllocated use => (cache.clearAllocated accepts use).1
  | .subscribe sub => (cache.subscribe accepts sub).1
  | .unsubscribe acceptor => (cache.unsubscribe acceptor).1
  | .heap heap request =>
      { cache with heapAt := Function.update cache.heapAt heap ((cache.heapAt heap).call request) }

/-- What a publication calls after other calls. -/
def publishAfter (identAt : Nat → UseIdent) (later : List (Call Selector)) (buffer : HeapBuffer)
    (cache : BufferCache Selector) : List (Nat × Nat) :=
  (later.foldl (call accepts identAt) cache).publish accepts buffer

/-! ## Subscriptions -/

/-- What one call does to the subscriptions. -/
def Call.subscriptions (subscriptions : List (Selector × Nat)) :
    Call Selector → List (Selector × Nat)
  | .subscribe sub => subscriptions ++ [sub]
  | .unsubscribe acceptor => subscriptions.filter fun sub => sub.2 != acceptor
  | .addAllocated _ | .clearAllocated _ | .heap _ _ => subscriptions

@[simp] theorem call_subscriptions (identAt : Nat → UseIdent) (cache : BufferCache Selector)
    (request : Call Selector) :
    (cache.call accepts identAt request).subscriptions =
      request.subscriptions cache.subscriptions := by
  cases request <;> rfl

theorem foldl_call_subscriptions (identAt : Nat → UseIdent) (cache : BufferCache Selector)
    (requests : List (Call Selector)) :
    (requests.foldl (call accepts identAt) cache).subscriptions =
      requests.foldl Call.subscriptions cache.subscriptions := by
  induction requests generalizing cache with
  | nil => rfl
  | cons request requests induction => simp [induction]

/-- A subscription stays in its place until its acceptor is unsubscribed. -/
theorem subscription_stays {sub : Selector × Nat} (requests : List (Call Selector))
    (kept : ∀ request ∈ requests, request ≠ .unsubscribe sub.2)
    (front back : List (Selector × Nat)) :
    ∃ front' back',
      requests.foldl Call.subscriptions (front ++ sub :: back) = front' ++ sub :: back' ∧
      requests.foldl Call.subscriptions (front ++ back) = front' ++ back' := by
  induction requests generalizing front back with
  | nil => exact ⟨front, back, rfl, rfl⟩
  | cons request requests induction =>
      have later : ∀ request ∈ requests, request ≠ .unsubscribe sub.2 :=
        fun request member => kept request (List.mem_cons_of_mem _ member)
      cases request with
      | subscribe other =>
          simpa [Call.subscriptions] using induction later front (back ++ [other])
      | unsubscribe acceptor =>
          have other : sub.2 ≠ acceptor := fun equal => kept _ List.mem_cons_self (by rw [equal])
          simpa [Call.subscriptions, other] using
            induction later (front.filter fun sub => sub.2 != acceptor)
              (back.filter fun sub => sub.2 != acceptor)
      | addAllocated pair => exact induction later front back
      | clearAllocated use => exact induction later front back
      | heap heap request => exact induction later front back

/-- A subscription is called once more if its filter accepts the buffer. -/
theorem count_publish_insert {cache without : BufferCache Selector} {sub : Selector × Nat}
    {front back : List (Selector × Nat)} (buffer : HeapBuffer)
    (here : cache.subscriptions = front ++ sub :: back)
    (gone : without.subscriptions = front ++ back) :
    (cache.publish accepts buffer).count (sub.2, buffer.address) =
      (without.publish accepts buffer).count (sub.2, buffer.address) +
        if accepts sub.1 buffer.ident then 1 else 0 := by
  cases accepted : accepts sub.1 buffer.ident with
  | true => simp [publish, here, gone, accepted, Nat.add_assoc]
  | false => simp [publish, here, gone, accepted]

/-- However many calls later, a subscription is called exactly when its filter accepts the
buffer. -/
theorem count_publishAfter_subscribe (identAt : Nat → UseIdent) (sub : Selector × Nat)
    (buffer : HeapBuffer) (cache : BufferCache Selector) (later : List (Call Selector))
    (kept : ∀ request ∈ later, request ≠ .unsubscribe sub.2) :
    ((cache.subscribe accepts sub).1.publishAfter accepts identAt later buffer).count
        (sub.2, buffer.address) =
      (cache.publishAfter accepts identAt later buffer).count (sub.2, buffer.address) +
        if accepts sub.1 buffer.ident then 1 else 0 := by
  obtain ⟨front, back, here, gone⟩ := subscription_stays later kept cache.subscriptions []
  rw [List.append_nil] at gone
  refine count_publish_insert accepts buffer (?_ : _ = front ++ sub :: back)
    (?_ : _ = front ++ back)
  · exact (foldl_call_subscriptions accepts identAt _ later).trans here
  · exact (foldl_call_subscriptions accepts identAt _ later).trans gone

/-! ## Clearing -/

/-- Nothing is cleared when no entry is accepted. -/
theorem clearAllocated_of_forall_not {use : Selector} {cache : BufferCache Selector}
    (refused : ∀ entry ∈ cache.buffers, accepts use entry.1 = false) :
    cache.clearAllocated accepts use = (cache, []) := by
  have none : cache.buffers.filter (fun pair => accepts use pair.1) = [] := by
    simpa using refused
  simp [clearAllocated, none, freeHeaps, eraseEntries]

end BufferCache

/-! ## Filters handed to the cache -/

/-- The cache of the code, whose filters are objects of class `UseIdentFilter`. -/
abbrev UseIdentCache := BufferCache UseIdentFilter

namespace UseIdentCache

/-- The cache selects by the comparison of the caller's own filter: in `findRelevant`, in
`clearAllocated`, and in every publication after `subscribe`, however many calls later, as long as
the acceptor is not unsubscribed. -/
structure SelectsBy (sha256 : Str → Str) (identAt : Nat → UseIdent) (filter : BaseFilter)
    (acceptor : Nat) (buffer : HeapBuffer) (cache : UseIdentCache) : Prop where
  /-- The blocks of exactly the accepted entries are returned. -/
  found : cache.findRelevant UseIdentFilter.equals filter.object.slice =
    (cache.buffers.filter fun entry => filter.object.equals sha256 entry.1).flatMap fun entry =>
      (cache.heapAt entry.2).chunks
  /-- The other entries are the ones that stay. -/
  kept : (cache.clearAllocated UseIdentFilter.equals filter.object.slice).1.buffers =
    cache.buffers.filter fun entry => !filter.object.equals sha256 entry.1
  /-- The heaps of the accepted entries are the ones cleared. -/
  cleared : ∀ heap, (cache.clearAllocated UseIdentFilter.equals filter.object.slice).1.heapAt heap =
    if ∃ entry ∈ cache.buffers, entry.2 = heap ∧ filter.object.equals sha256 entry.1 then
      (cache.heapAt heap).freeAll.1
    else cache.heapAt heap
  /-- The subscription is called when the filter accepts the buffer, and only then. -/
  published : ∀ later : List (BufferCache.Call UseIdentFilter),
    (∀ request ∈ later, request ≠ .unsubscribe acceptor) →
    ((cache.subscribe UseIdentFilter.equals (filter.object.slice, acceptor)).1.publishAfter
        UseIdentFilter.equals identAt later buffer).count (acceptor, buffer.address) =
      (cache.publishAfter UseIdentFilter.equals identAt later buffer).count
          (acceptor, buffer.address) +
        if filter.object.equals sha256 buffer.ident then 1 else 0

/-- The cache selects by a caller's filter exactly when there is nothing to select: the copy it
works with accepts nothing. -/
theorem selectsBy_iff (sha256 : Str → Str) (identAt : Nat → UseIdent) (filter : BaseFilter)
    (acceptor : Nat) (buffer : HeapBuffer) (cache : UseIdentCache) :
    SelectsBy sha256 identAt filter acceptor buffer cache ↔
      (∀ entry ∈ cache.buffers, filter.object.equals sha256 entry.1 = false) ∧
        filter.object.equals sha256 buffer.ident = false := by
  have unchanged : cache.clearAllocated UseIdentFilter.equals filter.object.slice = (cache, []) :=
    BufferCache.clearAllocated_of_forall_not _ fun _ _ => rfl
  have silent := BufferCache.count_publishAfter_subscribe UseIdentFilter.equals identAt
    (filter.object.slice, acceptor) buffer cache
  constructor
  · intro selects
    have all : cache.buffers.filter (fun entry => !filter.object.equals sha256 entry.1) =
        cache.buffers := by
      rw [← selects.kept, unchanged]
    refine ⟨fun entry member => by simpa using List.filter_eq_self.mp all entry member, ?_⟩
    have called := selects.published [] (by simp)
    rw [silent [] (by simp)] at called
    simpa using called
  · rintro ⟨refused, unheard⟩
    refine ⟨?_, ?_, ?_, ?_⟩
    · have none : cache.buffers.filter (fun entry => filter.object.equals sha256 entry.1) = [] := by
        simpa using refused
      simp [BufferCache.findRelevant, none]
    · rw [unchanged, eq_comm, List.filter_eq_self]
      simpa using refused
    · intro heap
      rw [unchanged, if_neg]
      rintro ⟨entry, member, -, accepted⟩
      rw [refused entry member] at accepted
      exact Bool.false_ne_true accepted
    · intro later kept
      simpa [unheard] using silent later kept

/-- A cache with one entry: a range that holds every tick finds nothing. -/
theorem selectsBy_fails :
    ¬∀ (sha256 : Str → Str) (identAt : Nat → UseIdent) (filter : BaseFilter) (acceptor : Nat)
      (buffer : HeapBuffer) (cache : UseIdentCache),
      SelectsBy sha256 identAt filter acceptor buffer cache := by
  intro selects
  let cache : UseIdentCache :=
    { heapAt := fun _ => (Heap.construct 3 64 4096 4096 16 4096).call (.alloc 0)
      buffers := [(.empty, 0)]
      subscriptions := [] }
  have kept := (selects id (fun _ => .empty) .anyTick 0 ⟨4096, .empty⟩ cache).kept
  rw [BufferCache.clearAllocated_of_forall_not _ fun _ _ => rfl] at kept
  simp [cache, BaseFilter.anyTick_equals] at kept

end UseIdentCache

end Drumlin
