import Drumlin.Work
import Drumlin.Library.LockedCalls

/-!
# A store and many threads

`setWork` and `getWork` (work.cpp) look for a token and then change the map and the queue, with the
mutex of the store taken throughout (`THREADSLOCK`).  Here each look and each change is a step of
its own, and threads take their steps in any order.  Descriptors are added without that mutex, and
not here.
-/

namespace Drumlin

open LockedCalls

namespace Work.StoreCalls

/-! ## The code -/

/-- A member function of the store, step by step. -/
abbrev Member := Resumption Store (Except Str Access)

/-- `new Access`, to what the map holds for the token. -/
def hand (workToken : Token) : Member :=
  (Resumption.once fun store => store.hand workToken).andThen fun access => .done (.ok access)

/-- `Store::setWork`: the look, `new Object`, `insert`, `push` and `new Access`. -/
def setWork (workToken : Token) : Member :=
  .look fun store =>
    if (store.workMap.lookup workToken).isSome then .done (.error (Store.alreadySeen workToken))
    else
      (Resumption.once fun store =>
        ({ store with objects := store.objects ++ [Object.mk []] },
          store.objects.length)).andThen fun object =>
      (Resumption.once fun store =>
        ({ store with workMap := store.workMap ++ [(workToken, object)] }, ())).andThen fun _ =>
      (Resumption.once fun store =>
        ({ store with workQueue := store.workQueue ++ [workToken] }, ())).andThen fun _ =>
      hand workToken

/-- `Store::getWork`. -/
def getWork (workToken : Token) : Member :=
  .look fun store =>
    if (store.workMap.lookup workToken).isNone then .done (.error (Store.cannotFind workToken))
    else hand workToken

/-- What a thread calls. -/
inductive Request
  | setWork (token : Token)
  | getWork (token : Token)
deriving DecidableEq

/-- The member function of a request. -/
def Request.member : Request → Member
  | .setWork token => StoreCalls.setWork token
  | .getWork token => StoreCalls.getWork token

/-! ## Requests at once -/

/-- The request as a call of the store. -/
def Request.call : Request → Store.Call
  | .setWork token => .setWork token
  | .getWork token => .getWork token

/-- What the call returns. -/
def Request.ret (store : Store) : Request → Except Str Access
  | .setWork token => (store.setWork token).2
  | .getWork token => (store.getWork token).2

/-- The ledger of requests made one after another. -/
def ledger (requests : List Request) (callers : List Nat) : Ledger :=
  (callers.filterMap (requests[·]?)).foldl (fun ledger request => ledger.call request.call)
    Ledger.start

variable {requests : List Request} {callers : List Nat} {token : Token}

theorem ledger_append (requests : List Request) (callers : List Nat) (self : Nat) :
    ledger requests (callers ++ [self]) =
      (requests[self]?).elim (ledger requests callers) fun request =>
        (ledger requests callers).call request.call := by
  cases there : requests[self]? <;> simp [ledger, List.filterMap_append, there]

theorem ledger_eq (requests : List Request) (callers : List Nat) :
    ledger requests callers =
      ((callers.filterMap (requests[·]?)).map Request.call).foldl Ledger.call Ledger.start := by
  rw [ledger, List.foldl_map]

theorem sound_ledger (requests : List Request) (callers : List Nat) :
    (ledger requests callers).Sound := by
  rw [ledger_eq]
  exact Ledger.sound_start.run _

theorem call_eq_setWork_iff (request : Request) :
    request.call = .setWork token ↔ request = .setWork token := by
  cases request <;> simp [Request.call]

/-- The tokens of the ledger are those that were set. -/
theorem mem_tokens_ledger :
    token ∈ (ledger requests callers).tokens ↔
      ∃ self ∈ callers, requests[self]? = some (.setWork token) := by
  rw [ledger_eq, Ledger.mem_tokens_run]
  simp [Ledger.start, call_eq_setWork_iff]

/-- Step by step a member function does what it does at once. -/
theorem run_member (request : Request) (store : Store) :
    store.call request.call = some (request.member.run store).1 ∧
      (request.member.run store).2 = request.ret store := by
  cases request with
  | setWork token =>
      simp only [Request.call, Request.member, Request.ret, Store.call, setWork, Store.setWork,
        Resumption.run_look]
      split <;> simp [hand]
  | getWork token =>
      simp only [Request.call, Request.member, Request.ret, Store.call, getWork, Store.getWork,
        Resumption.run_look]
      split <;> simp [hand]

/-- What the requests leave is what the ledger stands for. -/
theorem after_eq (requests : List Request) (callers : List Nat) :
    after (requests.map Request.member) Store.start callers =
      (ledger requests callers).realize := by
  induction callers using List.reverseRecOn with
  | nil => rfl
  | append_singleton callers self induction =>
      rw [ledger_append]
      cases there : requests[self]? with
      | none => simpa [after, there] using induction
      | some request =>
          have asked : (requests.map Request.member)[self]? = some request.member := by
            simp [there]
          rw [after_append asked, induction]
          have followed := Ledger.call_realize (sound_ledger requests callers) request.call
          exact Option.some.inj ((run_member request _).1.symm.trans followed)

/-! ## Any order of steps -/

/-- Whatever threads set and get in a store that is empty at first, and in whatever order they take
their steps: the store is what the ledger stands for of the requests in the order in which the
threads took the mutex; of those that set one token exactly the first succeeds, and those succeed
that get a token which was set before. -/
theorem setWork_once (requests : List Request) {schedule : List (Nat × Unit)}
    {final : ActorPool.Pool (Shared Store) (Caller Store (Except Str Access))}
    (run : Runs.exec (ActorPool.step behave) (start (requests.map Request.member) Store.start)
      schedule = some final) :
    let callers := order (requests.map Request.member) Store.start schedule
    callers.Nodup ∧
      (final.shared.holder = none → final.shared.state = (ledger requests callers).realize) ∧
      ∀ (self : Nat) (ret : Except Str Access), final.actors[self]? = some (.past ret) →
        ∃ before rest, callers = before ++ self :: rest ∧
          (∀ token, requests[self]? = some (.setWork token) →
            (ret.isOk ↔ ∀ other ∈ before, requests[other]? ≠ some (.setWork token))) ∧
          (∀ token, requests[self]? = some (.getWork token) →
            (ret.isOk ↔ ∃ other ∈ before, requests[other]? = some (.setWork token))) := by
  obtain ⟨distinct, linear⟩ := linear_of_exec run
  refine ⟨distinct, fun free => (linear.free free).trans (after_eq requests _), ?_⟩
  intro self ret there
  obtain ⟨before, rest, call, split, its, returned⟩ := linear.past self ret there
  obtain ⟨request, asked, rfl⟩ := by simpa using its
  rw [after_eq, (run_member request _).2] at returned
  refine ⟨before, rest, split, fun token sets => ?_, fun token gets => ?_⟩
  · obtain rfl := Option.some.inj (asked.symm.trans sets)
    rw [Request.ret, Ledger.setWork_realize (sound_ledger requests before)] at returned
    have fresh : token ∉ (ledger requests before).tokens ↔
        ∀ other ∈ before, requests[other]? ≠ some (.setWork token) := by
      simp [mem_tokens_ledger]
    rw [← fresh, ← returned]
    by_cases present : token ∈ (ledger requests before).tokens <;> simp [present, Except.isOk,
      Except.toBool]
  · obtain rfl := Option.some.inj (asked.symm.trans gets)
    rw [Request.ret, Ledger.getWork_realize] at returned
    rw [← mem_tokens_ledger, ← returned]
    by_cases present : token ∈ (ledger requests before).tokens <;> simp [present, Except.isOk,
      Except.toBool]

/-- Two threads that set the same token: the second takes the mutex first, and the first spins
meanwhile. -/
theorem setWork_once_two :
    ∃ (requests : List Request) (schedule : List (Nat × Unit)) (final : _),
      Runs.exec (ActorPool.step behave) (start (requests.map Request.member) Store.start) schedule =
        some final ∧
      order (requests.map Request.member) Store.start schedule = [1, 0] ∧
      final.shared.state = (ledger requests
        (order (requests.map Request.member) Store.start schedule)).realize := by
  have ended : (Runs.exec (ActorPool.step behave)
      (start ((List.replicate 2 (Request.setWork ⟨[], .replicate 16 0, 0⟩)).map Request.member)
        Store.start)
      ([(1, ()), (0, ())] ++ List.replicate 6 (1, ()) ++ List.replicate 3 (0, ()))).map
        (fun final => final.shared.holder) = some none := by
    decide +kernel
  obtain ⟨final, run, free⟩ := Option.map_eq_some_iff.mp ended
  exact ⟨_, _, final, run, by decide +kernel, (setWork_once _ run).2.1 free⟩

end Work.StoreCalls

end Drumlin
