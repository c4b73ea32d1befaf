import Drumlin.CacheClearing
import Drumlin.CacheSubscriptions
import Drumlin.Library.LockedCalls

/-!
# Calls from many threads

`access::cache` spins for the mutex of the cache, calls a member function and then the continuation
of the `CPS` object, and unlocks.  The member functions are loops over lists that other threads
change with the same calls.  Here each turn of a loop is a step of its own, and threads take their
steps in any order.  The acceptors and continuations do not call back, and do not throw.
-/

namespace Drumlin

open LockedCalls

namespace CacheCalls

/-! ## The code -/

/-- What a member function returns. -/
inductive Return
  | count (number : UInt32)
  | number (number : Int)
  | buffers (relevant : List Nat)
deriving DecidableEq, Repr

/-- The cache, with what it did to others.  A filter is known by a `Selector`, and a continuation
changes a `Client`. -/
structure World (Selector Client : Type) where
  /-- The heap a shared pointer leads to. -/
  heapAt : Nat → Heap
  /-- `m_buffers`. -/
  buffers : List CacheEntry
  /-- `m_subscriptions`. -/
  subscriptions : StdList (Selector × Nat)
  /-- The calls of `accept`, each with the acceptor and the buffer. -/
  accepted : List (Nat × Nat)
  /-- The buffers destroyed. -/
  destroyed : List Nat
  /-- The status objects that have a member `cache`, with the filters whose idents it shows. -/
  statuses : List (Nat × List Selector)
  /-- No `erase` went through an iterator to no node. -/
  valid : Bool
  /-- What the continuations see. -/
  client : Client

variable {Selector Client : Type} (accepts : Selector → UseIdent → Bool)
  (identAt : Nat → UseIdent)

/-- A member function of the cache, step by step. -/
abbrev Member (Selector Client Result : Type) := Resumption (World Selector Client) Result

/-- `BufferCache::publish`. -/
def publish (buffer : HeapBuffer) : Member Selector Client UInt32 :=
  .look fun world =>
    .forEach (fun c sub => .once fun world =>
      let (c, accepted) := Subscriptions.publishOne accepts buffer (c, world.accepted) sub
      ({ world with accepted }, c)) world.subscriptions.toList 0

/-- `BufferCache::addAllocated`. -/
def addAllocated (pair : CacheEntry) : Member Selector Client Int :=
  (Resumption.once fun world => ({ world with buffers := world.buffers ++ [pair] }, ())).andThen
    fun _ => .look fun world =>
      .forEach (fun n block => (publish accepts ⟨block, identAt block⟩).andThen fun _ =>
        .done (n + 1)) (world.heapAt pair.2).chunks 0

/-- The first loop of `BufferCache::clearAllocated`: the counter and the pairs. -/
def freeMatching (use : Selector) : Member Selector Client (Int × List CacheEntry) :=
  .look fun world =>
    .forEach (fun progress pair => .once fun world =>
      let done := BufferCache.clearOne accepts use
        ⟨progress.1, progress.2, world.heapAt, world.destroyed⟩ pair
      ({ world with heapAt := done.heapAt, destroyed := done.destroyed }, (done.n, done.pairs)))
      world.buffers (0, [])

/-- `BufferCache::clearAllocated`. -/
def clearAllocated (use : Selector) : Member Selector Client Int :=
  (freeMatching accepts use).andThen fun progress =>
    (Resumption.forEach (fun _ pair => .once fun world =>
      ({ world with buffers := BufferCache.eraseEqual world.buffers pair }, ())) progress.2
      ()).andThen fun _ => .done progress.1

/-- `BufferCache::findRelevant`. -/
def findRelevant (use : Selector) : Member Selector Client (List Nat) :=
  .look fun world =>
    .forEach (fun relevant buffer => .once fun world =>
      (world, if accepts use buffer.1 then relevant ++ (world.heapAt buffer.2).chunks
        else relevant)) world.buffers []

/-- `BufferCache::subscribe`. -/
def subscribe (sub : Selector × Nat) : Member Selector Client (List Nat) :=
  (Resumption.once fun world =>
    ({ world with subscriptions := world.subscriptions.pushBack sub }, ())).andThen
    fun _ => findRelevant accepts sub.1

/-- The body of the second loop of `BufferCache::unsubscribe`. -/
def eraseOne (iterator : Nat) (world : World Selector Client) : World Selector Client :=
  match world.subscriptions.erase iterator with
  | some subscriptions => { world with subscriptions }
  | none => { world with valid := false }

/-- `BufferCache::unsubscribe`. -/
def unsubscribe (acceptor : Nat) : Member Selector Client Int :=
  .look fun world =>
    (Resumption.forEach (fun progress node => .once fun world =>
      (world, Subscriptions.collectOne acceptor progress node)) world.subscriptions.nodes
      ((0, []) : Int × List Nat)).andThen fun progress =>
    (Resumption.forEach (fun _ iterator => .once fun world => (eraseOne iterator world, ()))
      progress.2 ()).andThen fun _ => .done progress.1

/-- `insert` of a member `cache`, which leaves one alone that is there. -/
def insertStatus (status : Nat) (subs : List Selector) (statuses : List (Nat × List Selector)) :
    List (Nat × List Selector) :=
  if (statuses.lookup status).isSome then statuses else statuses ++ [(status, subs)]

/-- `BufferCache::getStatus`.  The json of a filter is that of its ident, by which it is known. -/
def getStatus (status : Nat) : Member Selector Client Int :=
  .look fun world =>
    (Resumption.forEach (fun subs sub => .once fun world => (world, subs ++ [sub.1]))
      world.subscriptions.toList []).andThen fun subs =>
    (Resumption.once fun world =>
      ({ world with statuses := insertStatus status subs world.statuses }, ())).andThen fun _ =>
    .done 0

/-- A call on the cache. -/
inductive Call (Selector : Type)
  | addAllocated (pair : CacheEntry)
  | clearAllocated (use : Selector)
  | findRelevant (use : Selector)
  | subscribe (sub : Selector × Nat)
  | unsubscribe (acceptor : Nat)
  | publish (buffer : HeapBuffer)
  | getStatus (status : Nat)

/-- The member function that a call is for. -/
def member : Call Selector → Member Selector Client Return
  | .addAllocated pair => (addAllocated accepts identAt pair).andThen fun n =>
      .done (.count (UInt32.ofNat n.toNat))
  | .clearAllocated use => (clearAllocated accepts use).andThen fun n =>
      .done (.count (UInt32.ofNat n.toNat))
  | .findRelevant use => (findRelevant accepts use).andThen fun relevant =>
      .done (.buffers relevant)
  | .subscribe sub => (subscribe accepts sub).andThen fun relevant => .done (.buffers relevant)
  | .unsubscribe acceptor => (unsubscribe acceptor).andThen fun n => .done (.number n)
  | .publish buffer => (publish accepts buffer).andThen fun c => .done (.count c)
  | .getStatus status => (getStatus status).andThen fun n => .done (.number n)

/-- `CPS::operator()`: the member function, and the continuation if there is one. -/
def cps (continuer : Option (Return → Client → Client)) (request : Call Selector) :
    Member Selector Client Return :=
  (member accepts identAt request).andThen fun ret =>
    match continuer with
    | some continuer =>
        .once fun world => ({ world with client := continuer ret world.client }, ret)
    | none => .done ret

/-! ## Calls made at once -/

/-- The cache as the calls at once leave it. -/
structure Book (Selector Client : Type) where
  /-- The cache. -/
  cache : BufferCache Selector
  /-- The calls of `accept`. -/
  accepted : List (Nat × Nat)
  /-- The buffers destroyed. -/
  destroyed : List Nat
  /-- The status objects. -/
  statuses : List (Nat × List Selector)
  /-- What the continuations see. -/
  client : Client

/-- The member functions at once, by the operations on lists. -/
def Book.member (book : Book Selector Client) : Call Selector → Book Selector Client × Return
  | .addAllocated pair =>
      let (cache, called, n) := book.cache.addAllocated accepts identAt pair
      ({ book with cache, accepted := book.accepted ++ called }, .count (UInt32.ofNat n))
  | .clearAllocated use =>
      let (cache, destroyed) := book.cache.clearAllocated accepts use
      ({ book with cache, destroyed := book.destroyed ++ destroyed },
        .count (UInt32.ofNat destroyed.length))
  | .findRelevant use => (book, .buffers (book.cache.findRelevant accepts use))
  | .subscribe sub =>
      let (cache, relevant) := book.cache.subscribe accepts sub
      ({ book with cache }, .buffers relevant)
  | .unsubscribe acceptor =>
      let (cache, n) := book.cache.unsubscribe acceptor
      ({ book with cache }, .number n)
  | .publish buffer =>
      let called := book.cache.publish accepts buffer
      ({ book with accepted := book.accepted ++ called }, .count (UInt32.ofNat called.length))
  | .getStatus status =>
      let subs := book.cache.subscriptions.map Prod.fst
      ({ book with statuses := insertStatus status subs book.statuses }, .number 0)

/-- A call with its continuation at once. -/
def Book.cps (continuer : Option (Return → Client → Client)) (request : Call Selector)
    (book : Book Selector Client) : Book Selector Client × Return :=
  let (next, ret) := book.member accepts identAt request
  (match continuer with
    | some continuer => { next with client := continuer ret next.client }
    | none => next, ret)

/-- What the loops and iterators stand for. -/
def World.book (world : World Selector Client) : Book Selector Client where
  cache := ⟨world.heapAt, world.buffers, world.subscriptions.toList⟩
  accepted := world.accepted
  destroyed := world.destroyed
  statuses := world.statuses
  client := world.client

/-! ## The member functions do what they do at once -/

variable {accepts identAt} {world : World Selector Client}

theorem foldl_publish (buffer : HeapBuffer) (subs : List (Selector × Nat)) (c : UInt32)
    (world : World Selector Client) :
    subs.foldl (fun (progress : World Selector Client × UInt32) sub =>
        let (c, accepted) :=
          Subscriptions.publishOne accepts buffer (progress.2, progress.1.accepted) sub
        ({ progress.1 with accepted }, c)) (world, c) =
      let (c, accepted) := subs.foldl (Subscriptions.publishOne accepts buffer) (c, world.accepted)
      ({ world with accepted }, c) := by
  induction subs generalizing c world with
  | nil => rfl
  | cons sub subs induction => exact induction _ _

theorem run_publish (buffer : HeapBuffer) :
    (publish accepts buffer).run world =
      ({ world with accepted := world.accepted ++ world.book.cache.publish accepts buffer },
        UInt32.ofNat (world.book.cache.publish accepts buffer).length) := by
  rw [publish, Resumption.run_look, Resumption.run_forEach]
  simp only [Resumption.run_once]
  rw [foldl_publish, Subscriptions.foldl_publishOne]
  simp [BufferCache.publish, World.book, List.countP_eq_length_filter]

theorem foldl_addAllocated (blocks : List Nat) (n : Int) (world : World Selector Client) :
    blocks.foldl (fun (progress : World Selector Client × Int) block =>
        ((publish accepts ⟨block, identAt block⟩).andThen fun _ =>
          .done (progress.2 + 1)).run progress.1) (world, n) =
      ({ world with
          accepted := world.accepted ++ blocks.flatMap fun block =>
            world.book.cache.publish accepts ⟨block, identAt block⟩ }, n + blocks.length) := by
  induction blocks generalizing n world with
  | nil => simp
  | cons block blocks induction =>
      rw [List.foldl_cons, Resumption.run_andThen, run_publish, Resumption.run_done, induction]
      simp [World.book, BufferCache.publish, add_assoc, add_comm (1 : Int)]

theorem run_addAllocated (pair : CacheEntry) :
    (addAllocated accepts identAt pair).run world =
      ({ world with
          buffers := world.buffers ++ [pair]
          accepted := world.accepted ++
            (world.book.cache.addAllocated accepts identAt pair).2.1 },
        ((world.book.cache.addAllocated accepts identAt pair).2.2 : Int)) := by
  rw [addAllocated, Resumption.run_andThen, Resumption.run_once, Resumption.run_look,
    Resumption.run_forEach, foldl_addAllocated]
  simp [World.book, BufferCache.addAllocated, BufferCache.publish]

theorem foldl_freeMatching (use : Selector) (buffers : List CacheEntry)
    (progress : Int × List CacheEntry) (world : World Selector Client) :
    buffers.foldl (fun (progress : World Selector Client × (Int × List CacheEntry)) pair =>
        let done := BufferCache.clearOne accepts use
          ⟨progress.2.1, progress.2.2, progress.1.heapAt, progress.1.destroyed⟩ pair
        ({ progress.1 with heapAt := done.heapAt, destroyed := done.destroyed },
          (done.n, done.pairs))) (world, progress) =
      let done := buffers.foldl (BufferCache.clearOne accepts use)
        ⟨progress.1, progress.2, world.heapAt, world.destroyed⟩
      ({ world with heapAt := done.heapAt, destroyed := done.destroyed },
        (done.n, done.pairs)) := by
  induction buffers generalizing progress world with
  | nil => rfl
  | cons pair buffers induction => exact induction _ _

theorem foldl_eraseEqual (pairs : List CacheEntry) (world : World Selector Client) :
    pairs.foldl (fun (progress : World Selector Client × Unit) pair =>
        ({ progress.1 with buffers := BufferCache.eraseEqual progress.1.buffers pair }, ()))
        (world, ()) =
      ({ world with buffers := pairs.foldl BufferCache.eraseEqual world.buffers }, ()) := by
  induction pairs generalizing world with
  | nil => rfl
  | cons pair pairs induction => exact induction _

theorem run_clearAllocated (use : Selector) :
    (clearAllocated accepts use).run world =
      ({ world with
          heapAt := (world.book.cache.clearAllocated accepts use).1.heapAt
          buffers := (world.book.cache.clearAllocated accepts use).1.buffers
          destroyed := world.destroyed ++ (world.book.cache.clearAllocated accepts use).2 },
        ((world.book.cache.clearAllocated accepts use).2.length : Int)) := by
  have erased : BufferCache.eraseEqual =
      fun buffers pair => buffers.filter fun entry => !entry.equals pair := by
    funext buffers pair
    simp [BufferCache.eraseEqual]
  rw [clearAllocated, freeMatching, Resumption.run_andThen, Resumption.run_look,
    Resumption.run_forEach]
  simp only [Resumption.run_once, Resumption.run_andThen, Resumption.run_forEach,
    Resumption.run_done]
  rw [foldl_freeMatching, BufferCache.foldl_clearOne]
  dsimp only
  rw [foldl_eraseEqual, erased]
  simp [World.book, BufferCache.clearAllocated, BufferCache.eraseEntries]

theorem foldl_findRelevant (use : Selector) (buffers : List CacheEntry) (relevant : List Nat)
    (world : World Selector Client) :
    buffers.foldl (fun (progress : World Selector Client × List Nat) buffer =>
        (progress.1, if accepts use buffer.1 then
          progress.2 ++ (progress.1.heapAt buffer.2).chunks else progress.2)) (world, relevant) =
      (world, relevant ++ (buffers.filter fun buffer => accepts use buffer.1).flatMap fun buffer =>
        (world.heapAt buffer.2).chunks) := by
  induction buffers generalizing relevant with
  | nil => simp
  | cons buffer buffers induction =>
      cases accepted : accepts use buffer.1 <;> simp [accepted, induction]

theorem run_findRelevant (use : Selector) :
    (findRelevant accepts use).run world =
      (world, world.book.cache.findRelevant accepts use) := by
  rw [findRelevant, Resumption.run_look, Resumption.run_forEach]
  simp only [Resumption.run_once]
  rw [foldl_findRelevant]
  simp [World.book, BufferCache.findRelevant]

theorem foldl_collect (acceptor : Nat) (nodes : List (Nat × (Selector × Nat)))
    (progress : Int × List Nat) (world : World Selector Client) :
    nodes.foldl (fun (progress : World Selector Client × (Int × List Nat)) node =>
        (progress.1, Subscriptions.collectOne acceptor progress.2 node)) (world, progress) =
      (world, nodes.foldl (Subscriptions.collectOne acceptor) progress) := by
  induction nodes generalizing progress with
  | nil => rfl
  | cons node nodes induction => exact induction _

theorem foldl_eraseOne {iterators : List Nat} {left : StdList (Selector × Nat)}
    (erased : world.subscriptions.eraseEach iterators = some left) :
    iterators.foldl (fun (progress : World Selector Client × Unit) iterator =>
        (eraseOne iterator progress.1, ())) (world, ()) =
      ({ world with subscriptions := left }, ()) := by
  induction iterators generalizing world with
  | nil =>
      obtain rfl : world.subscriptions = left := by simpa [StdList.eraseEach] using erased
      rfl
  | cons iterator iterators induction =>
      rw [StdList.eraseEach, List.foldlM_cons, Option.bind_eq_bind,
        Option.bind_eq_some_iff] at erased
      obtain ⟨next, first, rest⟩ := erased
      rw [List.foldl_cons]
      have step : eraseOne iterator world = { world with subscriptions := next } := by
        simp [eraseOne, first]
      rw [step]
      exact @induction { world with subscriptions := next } rest

theorem run_unsubscribe (acceptor : Nat) :
    ∃ left : StdList (Selector × Nat),
      (unsubscribe acceptor).run world =
        ({ world with subscriptions := left },
          ((world.book.cache.unsubscribe acceptor).2 : Int)) ∧
      left.toList = (world.book.cache.unsubscribe acceptor).1.subscriptions := by
  obtain ⟨left, removed, kept⟩ := Subscriptions.unsubscribe_eq acceptor world.subscriptions
  refine ⟨left, ?_, kept⟩
  simp only [Subscriptions.unsubscribe, Option.map_eq_some_iff, Prod.mk.injEq] at removed
  obtain ⟨_, erased, rfl, number⟩ := removed
  rw [unsubscribe, Resumption.run_look, Resumption.run_andThen, Resumption.run_forEach]
  simp only [Resumption.run_once, Resumption.run_andThen, Resumption.run_forEach,
    Resumption.run_done]
  rw [foldl_collect, foldl_eraseOne erased, number]
  rfl

theorem foldl_getStatus (subscriptions : List (Selector × Nat)) (subs : List Selector)
    (world : World Selector Client) :
    subscriptions.foldl (fun (progress : World Selector Client × List Selector) sub =>
        (progress.1, progress.2 ++ [sub.1])) (world, subs) =
      (world, subs ++ subscriptions.map Prod.fst) := by
  induction subscriptions generalizing subs with
  | nil => simp
  | cons sub subscriptions induction => simp [induction]

theorem run_getStatus (status : Nat) :
    (getStatus status).run world =
      ({ world with
          statuses := insertStatus status (world.book.cache.subscriptions.map Prod.fst)
            world.statuses }, 0) := by
  rw [getStatus, Resumption.run_look, Resumption.run_andThen, Resumption.run_forEach]
  simp only [Resumption.run_once, Resumption.run_andThen, Resumption.run_done]
  rw [foldl_getStatus, List.nil_append]
  rfl

variable (accepts identAt)

/-- A member function step by step does what it does at once, and erases through no invalid
iterator. -/
theorem member_book (request : Call Selector) (world : World Selector Client) :
    (((member accepts identAt request).run world).1.book,
        ((member accepts identAt request).run world).2) =
      world.book.member accepts identAt request ∧
    ((member accepts identAt request).run world).1.valid = world.valid := by
  cases request with
  | addAllocated pair =>
      rw [member, Resumption.run_andThen, run_addAllocated]
      exact ⟨by simp [Book.member, World.book, BufferCache.addAllocated], rfl⟩
  | clearAllocated use =>
      rw [member, Resumption.run_andThen, run_clearAllocated]
      exact ⟨by simp [Book.member, World.book, BufferCache.clearAllocated], rfl⟩
  | findRelevant use =>
      rw [member, Resumption.run_andThen, run_findRelevant]
      exact ⟨rfl, rfl⟩
  | subscribe sub =>
      rw [member, Resumption.run_andThen, subscribe, Resumption.run_andThen, Resumption.run_once,
        run_findRelevant]
      exact ⟨by simp [Book.member, World.book, BufferCache.subscribe], rfl⟩
  | unsubscribe acceptor =>
      obtain ⟨left, removed, kept⟩ := @run_unsubscribe _ _ world acceptor
      rw [member, Resumption.run_andThen, removed]
      exact ⟨by simp [Book.member, World.book, kept, BufferCache.unsubscribe], rfl⟩
  | publish buffer =>
      rw [member, Resumption.run_andThen, run_publish]
      exact ⟨rfl, rfl⟩
  | getStatus status =>
      rw [member, Resumption.run_andThen, run_getStatus]
      exact ⟨rfl, rfl⟩

theorem cps_book (continuer : Option (Return → Client → Client)) (request : Call Selector)
    (world : World Selector Client) :
    (((cps accepts identAt continuer request).run world).1.book,
        ((cps accepts identAt continuer request).run world).2) =
      world.book.cps accepts identAt continuer request ∧
    ((cps accepts identAt continuer request).run world).1.valid = world.valid := by
  obtain ⟨book, valid⟩ := member_book accepts identAt request world
  rw [cps, Resumption.run_andThen, Book.cps, ← book]
  cases continuer with
  | none => exact ⟨rfl, valid⟩
  | some continuer => exact ⟨rfl, valid⟩

/-! ## Any order of steps -/

/-- What a caller asks for. -/
abbrev Request (Selector Client : Type) := Option (Return → Client → Client) × Call Selector

/-- The calls of some callers, step by step. -/
def calls (requests : List (Request Selector Client)) : List (Member Selector Client Return) :=
  requests.map fun request => cps accepts identAt request.1 request.2

/-- What the calls of some callers leave, made at once and one after another. -/
def served (requests : List (Request Selector Client)) (book : Book Selector Client)
    (callers : List Nat) : Book Selector Client :=
  callers.foldl (fun book self => (requests[self]?).elim book fun request =>
    (book.cps accepts identAt request.1 request.2).1) book

theorem after_calls (requests : List (Request Selector Client)) (callers : List Nat)
    (world : World Selector Client) :
    (after (calls accepts identAt requests) world callers).book =
        served accepts identAt requests world.book callers ∧
      (after (calls accepts identAt requests) world callers).valid = world.valid := by
  induction callers generalizing world with
  | nil => exact ⟨rfl, rfl⟩
  | cons self callers induction =>
      simp only [after, served, calls, List.foldl_cons, List.getElem?_map] at induction ⊢
      cases requests[self]? with
      | none => exact induction world
      | some request =>
          obtain ⟨book, valid⟩ := cps_book accepts identAt request.1 request.2 world
          obtain ⟨books, valids⟩ :=
            induction ((cps accepts identAt request.1 request.2).run world).1
          refine ⟨books.trans ?_, valids.trans valid⟩
          rw [Option.elim_some, ← book]

/-- Whatever calls threads make on the cache through `access::cache`, and in whatever order they try
the mutex and take the turns of their loops: the cache, the calls of `accept`, the buffers
destroyed, the status objects and what the continuations see are as if the calls had been made at
once in the order in which they took the mutex, every caller is returned what its call returns then,
and no iterator that is erased through is invalid. -/
theorem calls_atOnce (requests : List (Request Selector Client)) (world : World Selector Client)
    (valid : world.valid = true) {schedule : List (Nat × Unit)}
    {final : ActorPool.Pool (Shared (World Selector Client))
      (Caller (World Selector Client) Return)}
    (run : Runs.exec (ActorPool.step behave) (start (calls accepts identAt requests) world)
      schedule = some final) :
    let callers := order (calls accepts identAt requests) world schedule
    callers.Nodup ∧
      (final.shared.holder = none →
        final.shared.state.book = served accepts identAt requests world.book callers ∧
          final.shared.state.valid = true) ∧
      ∀ (self : Nat) (ret : Return), final.actors[self]? = some (.past ret) →
        ∃ before rest request, callers = before ++ self :: rest ∧
          requests[self]? = some request ∧
          ret = ((served accepts identAt requests world.book before).cps accepts identAt request.1
            request.2).2 := by
  obtain ⟨distinct, linear⟩ := linear_of_exec run
  refine ⟨distinct, fun free => ?_, fun self ret there => ?_⟩
  · obtain ⟨book, kept⟩ := after_calls accepts identAt requests
      (order (calls accepts identAt requests) world schedule) world
    rw [linear.free free]
    exact ⟨book, kept.trans valid⟩
  · obtain ⟨before, rest, call, split, its, returned⟩ := linear.past self ret there
    simp only [calls, List.getElem?_map, Option.map_eq_some_iff] at its
    obtain ⟨request, asked, rfl⟩ := its
    refine ⟨before, rest, request, split, asked, ?_⟩
    obtain ⟨book, -⟩ := cps_book accepts identAt request.1 request.2
      (after (calls accepts identAt requests) world before)
    rw [← returned, ← (after_calls accepts identAt requests before world).1, ← book]

/-- Two threads: one clears a tick while the other, which subscribes, spins for the mutex. -/
theorem calls_atOnce_two :
    ∃ (world : World UInt32 Unit) (schedule : List (Nat × Unit)) (final : _),
      Runs.exec (ActorPool.step behave)
        (start (calls BufferCache.ofTick (fun _ => ⟨none, [], [], 1⟩)
          [(none, .subscribe (1, 5)), (none, .clearAllocated 1)]) world) schedule = some final ∧
      final.shared.holder = none ∧
      final.shared.state.book =
        served BufferCache.ofTick (fun _ => ⟨none, [], [], 1⟩)
          [(none, .subscribe (1, 5)), (none, .clearAllocated 1)] world.book
          (order (calls BufferCache.ofTick (fun _ => ⟨none, [], [], 1⟩)
            [(none, .subscribe (1, 5)), (none, .clearAllocated 1)]) world schedule) := by
  have ended : (Runs.exec (ActorPool.step behave)
      (start (calls BufferCache.ofTick (fun _ => ⟨none, [], [], 1⟩)
        [(none, .subscribe (1, 5)), (none, .clearAllocated 1)])
        (⟨BufferCache.sharedCache.heapAt, BufferCache.sharedCache.buffers, .empty, [], [], [],
          true, ()⟩ : World UInt32 Unit))
      ([(1, ()), (0, ()), (1, ()), (0, ())] ++ List.replicate 6 (1, ()) ++
        List.replicate 5 (0, ()))).map (fun final => final.shared.holder) = some none := by
    decide +kernel
  obtain ⟨final, run, free⟩ := Option.map_eq_some_iff.mp ended
  exact ⟨_, _, final, run, free, ((calls_atOnce _ _ _ _ rfl run).2.1 free).1⟩

end CacheCalls

end Drumlin
