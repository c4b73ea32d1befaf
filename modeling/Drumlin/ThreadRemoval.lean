import Drumlin.ThreadPool

/-!
# Requests to remove a thread

`Thread::quit` is called at the end of `run`, for a `ThreadShutdown`, and by `stop` for a thread
that is not started.  Each call posts a `ThreadRemove`, and nothing tells the three apart: how often
a thread is removed is how often one of them became due.
-/

namespace Drumlin

open ActorPool

/-- What the requests are counted by. -/
structure Ledger where
  /-- The threads for which a `quit` became due. -/
  claimed : List Nat
  /-- The threads for which a `ThreadRemove` was posted. -/
  posted : List Nat
  /-- The threads for which one was pulled. -/
  pulled : List Nat
  /-- The events not yet pulled. -/
  queue : List Event
  /-- The threads deleted. -/
  deleted : List Nat
deriving DecidableEq, Repr

/-- The threads whose removal is asked for by events. -/
def removals (queue : List Event) : List Nat :=
  queue.filterMap fun event => if event.type = .threadRemove then some event.pointer else none

/-- What an actor has still to do for each thread: to call `quit`, and to remove it. -/
structure Duties where
  /-- How many calls of `quit`. -/
  due : Nat → Nat
  /-- How many calls of `removeThread` that it is in. -/
  hand : Nat → Nat

/-- What one action does to the ledger, with the duties of the actor before and after it. -/
inductive Ledger.Step (before : Ledger) : Option Nat → Ledger → Duties → Duties → Prop
  | keep {old new : Duties} (due : ∀ thread, new.due thread = old.due thread)
      (hand : ∀ thread, new.hand thread = old.hand thread) :
      Step before none before old new
  | claim {old new : Duties} (claimed : Nat)
      (due : ∀ thread, new.due thread = old.due thread + if claimed = thread then 1 else 0)
      (hand : ∀ thread, new.hand thread = old.hand thread) :
      Step before (some claimed) { before with claimed := before.claimed ++ [claimed] } old new
  | quit {old new : Duties} (posted : Nat)
      (due : ∀ thread, old.due thread = new.due thread + if posted = thread then 1 else 0)
      (hand : ∀ thread, new.hand thread = old.hand thread) :
      Step before none
        { before with
          posted := before.posted ++ [posted]
          queue := before.queue ++ [Threads.removeEvent posted] } old new
  | drop {old new : Duties} (event : Event) (queue : List Event)
      (due : ∀ thread, new.due thread = old.due thread)
      (hand : ∀ thread, new.hand thread = old.hand thread)
      (front : before.queue = event :: queue) (other : event.type ≠ .threadRemove) :
      Step before none { before with queue } old new
  | pull {old new : Duties} (event : Event) (queue : List Event)
      (due : ∀ thread, new.due thread = old.due thread)
      (hand : ∀ thread, new.hand thread =
        old.hand thread + if event.pointer = thread then 1 else 0)
      (front : before.queue = event :: queue) (request : event.type = .threadRemove) :
      Step before none
        { before with queue, pulled := before.pulled ++ [event.pointer] } old new
  | remove {old new : Duties} (removed : Nat) (posted : List Event) (deleted : List Nat)
      (due : ∀ thread, new.due thread = old.due thread)
      (hand : ∀ thread, old.hand thread =
        new.hand thread + if removed = thread then 1 else 0)
      (silent : removals posted = []) (gone : deleted.Sublist [removed]) :
      Step before none
        { before with
          queue := before.queue ++ posted
          deleted := before.deleted ++ deleted } old new

namespace Threads

/-- The ledger of the threads. -/
def ledger (threads : Threads) : Ledger where
  claimed := threads.claimed
  posted := threads.posted
  pulled := threads.pulled
  queue := threads.application.queue
  deleted := threads.application.deleted

@[simp] theorem ledger_dereference (thread : Nat) (threads : Threads) :
    (threads.dereference thread).ledger = threads.ledger := by
  unfold dereference
  split <;> rfl

@[simp] theorem ledger_post (thread : Nat) (event : Event) (threads : Threads) :
    (threads.post thread event).ledger = threads.ledger := rfl

@[simp] theorem ledger_send (thread : Nat) (event : Event) (threads : Threads) :
    (threads.send thread event).ledger = threads.ledger :=
  ledger_dereference thread threads

@[simp] theorem ledger_release (threads : Threads) : threads.release.ledger = threads.ledger := rfl

theorem ledger_claim (thread : Nat) (threads : Threads) :
    (threads.claim thread).ledger =
      { threads.ledger with claimed := threads.ledger.claimed ++ [thread] } := rfl

theorem ledger_start (thread : Nat) (threads : Threads) :
    (threads.start thread).ledger =
      { threads.ledger with claimed := threads.ledger.claimed ++ [thread] } := rfl

end Threads

namespace Actor

/-- The thread for which a `quit` becomes due by the next action. -/
def claims (threads : Threads) (choice : Choice) : Actor → Option Nat
  | run thread _ .exec => if choice = .shutdownEvent then some thread else none
  | access _ _ (.start thread _) | addThread thread _ .start | stop _ (.test _ (thread :: _)) =>
      if (threads.threadAt thread).isReady then none else some thread
  | _ => none

/-- How many calls of `quit` for the thread the actor has still to make.  Who was interrupted in its
sleep keeps the one that it never makes. -/
def due (thread : Nat) : Actor → Nat
  | run _ _ .done => 0
  | run other _ .shutdown => if other = thread then 2 else 0
  | run other _ _ | access _ _ (.launch other _) | addThread other _ .launch
  | stop _ (.quit _ other _) => if other = thread then 1 else 0
  | _ => 0

/-- The thread that the actor is about to remove. -/
def removes : Actor → Option Nat
  | exec (.lock thread) | exec (.testStarted thread) | exec (.testTerminated thread _)
  | exec (.remove thread _) => some thread
  | _ => none

/-- How many calls of `removeThread` for the thread the actor is in. -/
def hand (thread : Nat) (actor : Actor) : Nat := if actor.removes = some thread then 1 else 0

/-- What an actor and those it spawns have still to do. -/
def duties (spawned : List Actor) (actor : Actor) : Duties where
  due := fun thread => actor.due thread + (spawned.map (due thread)).sum
  hand := fun thread => actor.hand thread + (spawned.map (hand thread)).sum

variable {self : Nat} {choice : Choice} {threads threads' : Threads}

theorem run_ledger {thread boost : Nat} {phase phase' : RunPhase}
    (acted : Thread.run thread boost choice threads phase = some (threads', phase')) :
    threads.ledger.Step ((run thread boost phase).claims threads choice) threads'.ledger
      ((run thread boost phase).duties []) ((run thread boost phase').duties []) := by
  cases phase with
  | postWork =>
      obtain ⟨rfl, rfl⟩ := by simpa [Thread.run] using acted
      rw [Threads.ledger_post, Threads.ledger_dereference]
      split <;> exact .keep (fun _ => rfl) fun _ => rfl
  | loop =>
      simp only [Thread.run] at acted
      split at acted <;> obtain ⟨rfl, rfl⟩ := by simpa using acted
      · exact .keep (fun _ => rfl) fun _ => rfl
      · exact .keep (fun _ => rfl) fun _ => rfl
  | tryLock =>
      simp only [Thread.run] at acted
      obtain ⟨rfl, rfl⟩ := by simpa using acted
      split
      · exact .keep (fun _ => rfl) fun _ => rfl
      · exact .keep (fun _ => rfl) fun _ => rfl
  | exec =>
      by_cases handled : choice = .shutdownEvent
      · obtain ⟨rfl, rfl⟩ := by simpa [Thread.run, handled] using acted
        rw [Threads.ledger_claim, Threads.ledger_dereference]
        simp only [claims, handled, if_true]
        refine .claim thread (fun other => ?_) fun _ => rfl
        simp only [duties, due, List.map_nil, List.sum_nil, Nat.add_zero]
        split <;> rfl
      · obtain ⟨rfl, rfl⟩ := by simpa [Thread.run, handled] using acted
        rw [Threads.ledger_dereference]
        simp only [claims, handled, if_false]
        exact .keep (fun _ => rfl) fun _ => rfl
  | shutdown =>
      obtain ⟨_, rfl, rfl⟩ := by simpa [Thread.run, Threads.guarded_eq_some] using acted
      refine .quit thread (fun other => ?_) fun _ => rfl
      simp only [duties, due, List.map_nil, List.sum_nil, Nat.add_zero]
      split <;> rfl
  | tick | shutdownWorker =>
      obtain ⟨rfl, rfl⟩ := by simpa [Thread.run] using acted
      rw [Threads.ledger_dereference]
      exact .keep (fun _ => rfl) fun _ => rfl
  | sleep =>
      simp only [Thread.run] at acted
      split at acted <;> obtain ⟨rfl, rfl⟩ := by simpa using acted
      · exact .keep (fun _ => rfl) fun _ => rfl
      · exact .keep (fun _ => rfl) fun _ => rfl
  | testWorker =>
      obtain ⟨rfl, rfl⟩ := by simpa [Thread.run] using acted
      split <;> exact .keep (fun _ => rfl) fun _ => rfl
  | quit =>
      obtain ⟨_, rfl, rfl⟩ := by simpa [Thread.run, Threads.guarded_eq_some] using acted
      refine .quit thread (fun other => ?_) fun _ => rfl
      simp [duties, due]
  | entry | leave | reset | terminate | clearReady =>
      obtain ⟨rfl, rfl⟩ := by simpa [Thread.run] using acted
      exact .keep (fun _ => rfl) fun _ => rfl
  | done | interrupted => simp [Thread.run] at acted

theorem use_ledger {query : Query} {functor : Functor} {phase phase' : AccessPhase}
    {launched : Option Nat}
    (acted : ThreadAccessor.use self query functor threads phase =
      some (threads', phase', launched)) :
    threads.ledger.Step ((access query functor phase).claims threads choice) threads'.ledger
      ((access query functor phase).duties [])
      ((access query functor phase').duties (threads.entries launched)) := by
  cases phase with
  | lock =>
      simp only [ThreadAccessor.use, Option.map_eq_some_iff, Threads.acquire_eq_some] at acted
      obtain ⟨_, ⟨_, rfl⟩, acted⟩ := acted
      obtain ⟨rfl, rfl, rfl⟩ := by simpa using acted
      exact .keep (fun _ => rfl) fun _ => rfl
  | visit todo selected =>
      cases todo with
      | nil =>
          obtain ⟨rfl, rfl, rfl⟩ := by simpa [ThreadAccessor.use] using acted
          exact .keep (fun _ => rfl) fun _ => rfl
      | cons thread todo =>
          obtain ⟨rfl, rfl, rfl⟩ := by simpa [ThreadAccessor.use] using acted
          rw [apply_ite Threads.ledger, Threads.ledger_dereference, ite_self]
          exact .keep (fun _ => rfl) fun _ => rfl
  | apply todo =>
      cases todo with
      | nil =>
          obtain ⟨rfl, rfl, rfl⟩ := by simpa [ThreadAccessor.use] using acted
          exact .keep (fun _ => rfl) fun _ => rfl
      | cons thread todo =>
          cases functor with
          | startThread =>
              simp only [ThreadAccessor.use] at acted
              split at acted <;> obtain ⟨rfl, rfl, rfl⟩ := by simpa using acted
              · exact .keep (fun _ => rfl) fun _ => rfl
              · exact .keep (fun _ => rfl) fun _ => rfl
          | sendEvent event =>
              obtain ⟨rfl, rfl, rfl⟩ := by simpa [ThreadAccessor.use] using acted
              rw [Threads.ledger_send]
              exact .keep (fun _ => rfl) fun _ => rfl
          | terminate =>
              obtain ⟨rfl, rfl, rfl⟩ := by simpa [ThreadAccessor.use] using acted
              exact .keep (fun _ => rfl) fun _ => rfl
  | start thread todo =>
      simp only [ThreadAccessor.use] at acted
      split at acted <;> rename_i ready <;> obtain ⟨rfl, rfl, rfl⟩ := by simpa using acted
      · simp only [claims, ready, if_true]
        exact .keep (fun _ => rfl) fun _ => rfl
      · simp only [claims, ready]
        rw [Threads.ledger_start]
        refine .claim thread (fun other => ?_) fun _ => rfl
        simp [duties, due]
  | launch thread todo =>
      obtain ⟨rfl, rfl, rfl⟩ := by simpa [ThreadAccessor.use] using acted
      refine .keep (fun other => ?_) fun other => ?_
      · simp [duties, due]
      · simp [duties, hand, removes]
  | done => simp [ThreadAccessor.use] at acted

theorem addThread_ledger {thread : Nat} {startWork : Bool} {phase phase' : AddPhase}
    {launched : Option Nat}
    (acted : threads.addThread self thread startWork phase = some (threads', phase', launched)) :
    threads.ledger.Step ((addThread thread startWork phase).claims threads choice) threads'.ledger
      ((addThread thread startWork phase).duties [])
      ((addThread thread startWork phase').duties (threads.entries launched)) := by
  cases phase with
  | lock =>
      simp only [Threads.addThread, Option.map_eq_some_iff, Threads.acquire_eq_some] at acted
      obtain ⟨_, ⟨_, rfl⟩, acted⟩ := acted
      obtain ⟨rfl, rfl, rfl⟩ := by simpa using acted
      exact .keep (fun _ => rfl) fun _ => rfl
  | add =>
      obtain ⟨rfl, rfl, rfl⟩ := by simpa [Threads.addThread] using acted
      have same : ((threads.dereference thread).onApplication fun app =>
          app.addThread thread startWork).ledger = threads.ledger := by
        rw [← Threads.ledger_dereference thread threads]
        cases startWork <;> rfl
      rw [same]
      cases startWork <;> exact .keep (fun _ => rfl) fun _ => rfl
  | start =>
      simp only [Threads.addThread] at acted
      split at acted <;> rename_i ready <;> obtain ⟨rfl, rfl, rfl⟩ := by simpa using acted
      · simp only [claims, ready, if_true]
        exact .keep (fun _ => rfl) fun _ => rfl
      · simp only [claims, ready]
        rw [Threads.ledger_start]
        refine .claim thread (fun other => ?_) fun _ => rfl
        simp [duties, due]
  | launch =>
      obtain ⟨rfl, rfl, rfl⟩ := by simpa [Threads.addThread] using acted
      refine .keep (fun other => ?_) fun other => ?_
      · simp [duties, due]
      · simp [duties, hand, removes]
  | release =>
      obtain ⟨rfl, rfl, rfl⟩ := by simpa [Threads.addThread] using acted
      exact .keep (fun _ => rfl) fun _ => rfl
  | done => simp [Threads.addThread] at acted

theorem getStatus_ledger {phase phase' : StatusPhase}
    (acted : threads.getStatus self phase = some (threads', phase')) :
    threads.ledger.Step ((getStatus phase).claims threads choice) threads'.ledger
      ((getStatus phase).duties []) ((getStatus phase').duties []) := by
  cases phase with
  | lock =>
      simp only [Threads.getStatus, Option.map_eq_some_iff, Threads.acquire_eq_some] at acted
      obtain ⟨_, ⟨_, rfl⟩, acted⟩ := acted
      obtain ⟨rfl, rfl⟩ := by simpa using acted
      exact .keep (fun _ => rfl) fun _ => rfl
  | writeToObject todo =>
      cases todo <;> obtain ⟨rfl, rfl⟩ := by simpa [Threads.getStatus] using acted
      · exact .keep (fun _ => rfl) fun _ => rfl
      · rw [Threads.ledger_dereference]
        exact .keep (fun _ => rfl) fun _ => rfl
  | getStatus thread todo =>
      obtain ⟨rfl, rfl⟩ := by simpa [Threads.getStatus] using acted
      rw [Threads.ledger_dereference]
      exact .keep (fun _ => rfl) fun _ => rfl
  | done => simp [Threads.getStatus] at acted

theorem stop_ledger {first : Nat} {phase phase' : StopPhase}
    (acted : threads.stop self first phase = some (threads', phase')) :
    threads.ledger.Step ((stop first phase).claims threads choice) threads'.ledger
      ((stop first phase).duties []) ((stop first phase').duties []) := by
  cases phase with
  | round type =>
      simp only [Threads.stop] at acted
      split at acted
      · simp only [Option.map_eq_some_iff, Threads.acquire_eq_some] at acted
        obtain ⟨_, ⟨_, rfl⟩, acted⟩ := acted
        obtain ⟨rfl, rfl⟩ := by simpa using acted
        exact .keep (fun _ => rfl) fun _ => rfl
      · obtain ⟨rfl, rfl⟩ := by simpa using acted
        exact .keep (fun _ => rfl) fun _ => rfl
  | select type todo selected =>
      cases todo with
      | nil =>
          obtain ⟨rfl, rfl⟩ := by simpa [Threads.stop] using acted
          exact .keep (fun _ => rfl) fun _ => rfl
      | cons thread todo =>
          simp only [Threads.stop] at acted
          split at acted <;> obtain ⟨rfl, rfl⟩ := by simpa using acted
          · exact .keep (fun _ => rfl) fun _ => rfl
          · exact .keep (fun _ => rfl) fun _ => rfl
  | compare type thread todo selected =>
      obtain ⟨rfl, rfl⟩ := by simpa [Threads.stop] using acted
      rw [Threads.ledger_dereference]
      exact .keep (fun _ => rfl) fun _ => rfl
  | terminate type todo selected =>
      cases todo <;> obtain ⟨rfl, rfl⟩ := by simpa [Threads.stop] using acted
      · exact .keep (fun _ => rfl) fun _ => rfl
      · exact .keep (fun _ => rfl) fun _ => rfl
  | test type todo =>
      cases todo with
      | nil =>
          obtain ⟨rfl, rfl⟩ := by simpa [Threads.stop] using acted
          exact .keep (fun _ => rfl) fun _ => rfl
      | cons thread todo =>
          simp only [Threads.stop] at acted
          split at acted <;> rename_i ready <;> obtain ⟨rfl, rfl⟩ := by simpa using acted
          · simp only [claims, ready, if_true]
            exact .keep (fun _ => rfl) fun _ => rfl
          · simp only [claims, ready]
            rw [Threads.ledger_claim]
            refine .claim thread (fun other => ?_) fun _ => rfl
            simp [duties, due]
  | quit type thread todo =>
      obtain ⟨_, rfl, rfl⟩ := by simpa [Threads.stop, Threads.guarded_eq_some] using acted
      refine .quit thread (fun other => ?_) fun _ => rfl
      simp [duties, due]
  | wait type thread todo =>
      simp only [Threads.stop] at acted
      split at acted <;> obtain ⟨rfl, rfl⟩ := by simpa using acted
      · exact .keep (fun _ => rfl) fun _ => rfl
      · exact .keep (fun _ => rfl) fun _ => rfl
  | join type thread todo =>
      simp only [Threads.stop] at acted
      split at acted
      · simp at acted
      · obtain ⟨rfl, rfl⟩ := by simpa using acted
        exact .keep (fun _ => rfl) fun _ => rfl
  | done => simp [Threads.stop] at acted

theorem exec_ledger {phase phase' : ExecPhase}
    (acted : threads.exec self phase = some (threads', phase')) :
    threads.ledger.Step none threads'.ledger ((exec phase).duties [])
      ((exec phase').duties []) := by
  cases phase with
  | pull =>
      cases pending : threads.application.queue with
      | nil => simp [Threads.exec, pending] at acted
      | cons event queue =>
          have front : threads.ledger.queue = event :: queue := pending
          by_cases request : event.type = .threadRemove
          · obtain ⟨rfl, rfl⟩ := by simpa [Threads.exec, pending, request] using acted
            refine .pull event queue (fun _ => rfl) (fun other => ?_) front request
            simp [duties, hand, removes]
          · obtain ⟨rfl, rfl⟩ := by simpa [Threads.exec, pending, request] using acted
            exact .drop event queue (fun _ => rfl) (fun _ => rfl) front request
  | lock thread =>
      simp only [Threads.exec, Option.map_eq_some_iff, Threads.acquire_eq_some] at acted
      obtain ⟨_, ⟨_, rfl⟩, acted⟩ := acted
      obtain ⟨rfl, rfl⟩ := by simpa using acted
      exact .keep (fun _ => rfl) fun _ => rfl
  | testStarted thread =>
      obtain ⟨rfl, rfl⟩ := by simpa [Threads.exec] using acted
      exact .keep (fun _ => rfl) fun _ => rfl
  | testTerminated thread isStarted =>
      obtain ⟨rfl, rfl⟩ := by simpa [Threads.exec] using acted
      exact .keep (fun _ => rfl) fun _ => rfl
  | remove thread status =>
      have given : ∀ other, (exec (.remove thread status)).hand other =
          (exec .pull).hand other + if thread = other then 1 else 0 := by
        simp [hand, removes]
      rcases Application.removeThread_cases thread status threads.application with
        ⟨running, result⟩ | ⟨ended, result⟩
      · obtain ⟨rfl, rfl⟩ := by simpa [Threads.exec, running] using acted
        have kept : ((threads.dereference thread).onApplication fun app =>
            (app.removeThread thread status).1).ledger = threads.ledger := by
          rw [← Threads.ledger_dereference thread threads]
          simp [Threads.onApplication, Threads.ledger, Application.removeThread, running]
        have step : threads.ledger.Step none _ ((exec (.remove thread status)).duties [])
            ((exec .pull).duties []) :=
          .remove thread [] [] (fun _ => rfl) given rfl (List.nil_sublist _)
        rw [Threads.ledger_release, kept]
        simpa using step
      · obtain ⟨rfl, rfl⟩ := by simpa [Threads.exec, ended] using acted
        have gone : (threads.onApplication fun app => (app.removeThread thread status).1).ledger =
            { threads.ledger with
              queue := threads.ledger.queue ++
                if ∀ other ∈ threads.application.threads, other = thread then
                  [Application.threadsGone]
                else []
              deleted := threads.ledger.deleted ++ [thread] } := by
          rw [Threads.ledger, Threads.onApplication, result]
          rfl
        rw [Threads.ledger_release, gone]
        refine .remove thread _ [thread] (fun _ => rfl) given ?_ (List.Sublist.refl _)
        split <;> rfl

/-- What one action of an actor does to the ledger, and to what is still to do. -/
theorem behave_ledger {actor actor' : Actor} {spawned : List Actor}
    (acted : actor.behave self threads choice = some (threads', actor', spawned)) :
    threads.ledger.Step (actor.claims threads choice) threads'.ledger (actor.duties [])
      (actor'.duties spawned) := by
  cases behaves_of_behave acted with
  | run taken => exact run_ledger taken
  | access taken => exact use_ledger taken
  | addThread taken => exact addThread_ledger taken
  | getStatus taken => exact getStatus_ledger taken
  | stop taken => exact stop_ledger taken
  | exec taken => exact exec_ledger taken
  | send thread event =>
      rw [Threads.ledger_send]
      exact .keep (fun _ => rfl) fun _ => rfl

end Actor

/-! ## The books balance -/

/-- Requests are pulled in the order in which they were posted. -/
def Ledger.InOrder (ledger : Ledger) : Prop :=
  ledger.pulled ++ removals ledger.queue = ledger.posted

@[simp] theorem removals_append (front back : List Event) :
    removals (front ++ back) = removals front ++ removals back :=
  List.filterMap_append

theorem Ledger.InOrder.step {before after : Ledger} {claims : Option Nat} {old new : Duties}
    (inOrder : before.InOrder) (step : before.Step claims after old new) : after.InOrder := by
  unfold InOrder at inOrder ⊢
  cases step with
  | keep due hand => exact inOrder
  | claim claimed due hand => exact inOrder
  | quit posted due hand =>
      rw [removals_append, ← List.append_assoc, inOrder]
      rfl
  | drop event queue due hand front other =>
      rw [← inOrder, front]
      simp [removals, other]
  | pull event queue due hand front request =>
      rw [← inOrder, front]
      simp [removals, request]
  | remove removed posted deleted due hand silent gone =>
      rw [removals_append, silent, List.append_nil, inOrder]

/-- Every `quit` that became due was called or is still to be called. -/
theorem Ledger.Step.due_balance {before after : Ledger} {claims : Option Nat} {old new : Duties}
    (step : before.Step claims after old new) (thread : Nat) :
    after.posted.count thread + new.due thread + before.claimed.count thread =
      before.posted.count thread + old.due thread + after.claimed.count thread := by
  cases step with
  | keep due hand => rw [due]
  | claim claimed due hand =>
      simp only [due, List.count_append, List.count_singleton']
      omega
  | quit posted due hand =>
      simp only [due, List.count_append, List.count_singleton']
      omega
  | drop event queue due hand front other => rw [due]
  | pull event queue due hand front request => rw [due]
  | remove removed posted deleted due hand silent gone => rw [due]

/-- A thread is deleted at most once for each request that was pulled. -/
theorem Ledger.Step.hand_balance {before after : Ledger} {claims : Option Nat} {old new : Duties}
    (step : before.Step claims after old new) (thread : Nat) :
    after.deleted.count thread + new.hand thread + before.pulled.count thread ≤
      before.deleted.count thread + old.hand thread + after.pulled.count thread := by
  cases step with
  | keep due hand => rw [hand]
  | claim claimed due hand => rw [hand]
  | quit posted due hand => rw [hand]
  | drop event queue due hand front other => rw [hand]
  | pull event queue due hand front request =>
      simp only [hand, List.count_append, List.count_singleton']
      omega
  | remove removed posted deleted due hand silent gone =>
      have once := gone.count_le thread
      simp only [hand, List.count_append, List.count_singleton'] at once ⊢
      omega

theorem Ledger.Step.claimed {before after : Ledger} {claims : Option Nat} {old new : Duties}
    (step : before.Step claims after old new) :
    after.claimed = before.claimed ++ claims.toList := by
  cases step <;> simp

namespace ThreadPool

/-- The books of the pool are in order: every `quit` that became due was called, or an actor has
still to call it, and every deletion was requested. -/
structure Balanced (pool : ThreadPool) : Prop where
  inOrder : pool.shared.ledger.InOrder
  due : ∀ thread, pool.shared.ledger.posted.count thread + load (Actor.due thread) pool =
    pool.shared.ledger.claimed.count thread
  hand : ∀ thread, pool.shared.ledger.deleted.count thread + load (Actor.hand thread) pool ≤
    pool.shared.ledger.pulled.count thread

/-- The action makes a `quit` due only for a thread for which none was due before. -/
def ClaimsOnce (pool : ThreadPool) (label : Nat × Choice) : Prop :=
  ∀ actor, pool.actors[label.1]? = some actor →
    ∀ thread, actor.claims pool.shared label.2 = some thread → thread ∉ pool.shared.claimed

/-- Every thread is the subject of at most one `ThreadRemove`, and none that was deleted is in a
`ThreadRemove` of the queue or about to be removed. -/
structure RemovesOnce (pool : ThreadPool) : Prop where
  posted : pool.shared.posted.Nodup
  pending : ∀ thread ∈ removals pool.shared.application.queue,
    thread ∉ pool.shared.application.deleted
  processed : ∀ actor ∈ pool.actors, ∀ thread, actor.removes = some thread →
    thread ∉ pool.shared.application.deleted

/-- No actor has a `quit` left to call, and none was interrupted before it called one. -/
def AtRest (pool : ThreadPool) : Prop :=
  ∀ actor ∈ pool.actors, ∀ thread, actor.due thread = 0

theorem Balanced.initial (task : Nat → String) (worker : Nat → Option Nat) (listed : List Nat)
    (clients : List Client) : (ThreadPool.initial task worker listed clients).Balanced := by
  refine ⟨rfl, fun thread => ?_, fun thread => ?_⟩
  · have idle : ∀ client : Client, client.actor.due thread = 0 := fun client => by
      cases client <;> rfl
    simp [load, ThreadPool.initial, Threads.ledger, Function.comp_def, idle]
  · have idle : ∀ client : Client, client.actor.hand thread = 0 := fun client => by
      cases client <;> rfl
    simp [load, ThreadPool.initial, Threads.ledger, Function.comp_def, idle, Application.start]

theorem Balanced.step {pool next : ThreadPool} {label : Nat × Choice} (balanced : pool.Balanced)
    (taken : pool.step label = some next) : next.Balanced := by
  obtain ⟨front, actor, back, shared, actor', spawned, split, _, acted, rfl⟩ :=
    ActorPool.step_eq_some taken
  have effect := Actor.behave_ledger acted
  refine ⟨balanced.inOrder.step effect, fun thread => ?_, fun thread => ?_⟩
  · have moved := load_step (Actor.due thread) split shared actor' spawned
    have balance := balanced.due thread
    have counts := effect.due_balance thread
    simp only [Actor.duties, List.map_nil, List.sum_nil, Nat.add_zero] at counts ⊢
    omega
  · have moved := load_step (Actor.hand thread) split shared actor' spawned
    have balance := balanced.hand thread
    have counts := effect.hand_balance thread
    simp only [Actor.duties, List.map_nil, List.sum_nil, Nat.add_zero] at counts ⊢
    omega

/-- A balanced pool in which no thread was claimed twice removes none twice. -/
theorem Balanced.removesOnce {pool : ThreadPool} (balanced : pool.Balanced)
    (claimed : pool.shared.claimed.Nodup) : pool.RemovesOnce := by
  have posted : pool.shared.posted.Nodup := by
    rw [List.nodup_iff_count] at claimed ⊢
    intro thread
    have balance := balanced.due thread
    have once := claimed thread
    simp only [Threads.ledger] at balance
    omega
  -- who is deleted was pulled, and neither waits nor is about to be removed
  have pulled (thread : Nat) (deleted : thread ∈ pool.shared.application.deleted) :
      (removals pool.shared.application.queue).count thread = 0 ∧
        load (Actor.hand thread) pool = 0 := by
    have once := List.nodup_iff_count.mp posted thread
    have inOrder : pool.shared.pulled ++ removals pool.shared.application.queue =
      pool.shared.posted := balanced.inOrder
    have gone := List.count_pos_iff.mpr deleted
    have balance := balanced.hand thread
    rw [← inOrder, List.count_append] at once
    simp only [Threads.ledger] at balance
    omega
  refine ⟨posted, fun thread waiting deleted => ?_, fun actor member thread removes deleted => ?_⟩
  · have waits := List.count_pos_iff.mpr waiting
    have none := (pulled thread deleted).1
    omega
  · have hand := (pulled thread deleted).2
    rw [load, List.sum_eq_zero_iff_forall_eq_nat] at hand
    have idle := hand _ (List.mem_map_of_mem member)
    simp [Actor.hand, removes] at idle

/-- At rest, what was claimed was posted. -/
theorem Balanced.claimed_nodup {pool : ThreadPool} (balanced : pool.Balanced)
    (rest : pool.AtRest) (posted : pool.shared.posted.Nodup) : pool.shared.claimed.Nodup := by
  rw [List.nodup_iff_count] at posted ⊢
  intro thread
  have idle : load (Actor.due thread) pool = 0 := by
    rw [load, List.sum_eq_zero_iff_forall_eq_nat]
    simpa using fun actor member => rest actor member thread
  have balance := balanced.due thread
  have once := posted thread
  simp only [Threads.ledger, idle] at balance
  omega

/-- No thread is claimed twice precisely in the runs in which every action claims only threads that
were not claimed before. -/
theorem claimed_nodup_iff {pool final : ThreadPool} {schedule : List (Nat × Choice)}
    (run : Runs.exec step pool schedule = some final) :
    final.shared.claimed.Nodup ↔
      pool.shared.claimed.Nodup ∧ Runs.Along step ClaimsOnce pool schedule := by
  have grows (pool next : ThreadPool) (label : Nat × Choice) (taken : pool.step label = some next) :
      ∃ actor, pool.actors[label.1]? = some actor ∧ next.shared.claimed =
        pool.shared.claimed ++ (actor.claims pool.shared label.2).toList := by
    obtain ⟨front, actor, back, shared, actor', spawned, split, place, acted, rfl⟩ :=
      ActorPool.step_eq_some taken
    exact ⟨actor, place ▸ getElem?_of_split split, (Actor.behave_ledger acted).claimed⟩
  refine Runs.good_exec_iff_along (fun _ => True) (fun pool => pool.shared.claimed.Nodup)
    (fun _ _ _ _ _ => trivial) ?_ ?_ trivial run
  · intro pool label next taken _ once
    obtain ⟨actor, acts, claimed⟩ := grows pool next label taken
    have condition : pool.ClaimsOnce label ↔ ∀ thread,
        actor.claims pool.shared label.2 = some thread → thread ∉ pool.shared.claimed := by
      simp [ClaimsOnce, acts]
    rw [claimed, condition]
    cases claims : actor.claims pool.shared label.2 with
    | none => simpa using once
    | some thread => simpa [List.nodup_append, once] using List.forall_mem_ne'
  · intro pool label next taken _ twice once
    obtain ⟨actor, _, claimed⟩ := grows pool next label taken
    rw [claimed] at once
    exact twice (once.sublist (List.sublist_append_left _ _))

/-- In the runs in which no thread is started, found not started by `stop` or told to shut down
after one of these happened to it before, every thread is asked to be removed at most once, and none
after it was deleted.  In the other runs it is asked twice as soon as all actors are at rest. -/
theorem removesOnce_of_claimsOnce {task : Nat → String} {worker : Nat → Option Nat}
    {listed : List Nat} {clients : List Client} {schedule : List (Nat × Choice)}
    {final : ThreadPool}
    (run : Runs.exec step (initial task worker listed clients) schedule = some final) :
    (Runs.Along step ClaimsOnce (initial task worker listed clients) schedule →
      final.RemovesOnce) ∧
    (final.AtRest → final.RemovesOnce →
      Runs.Along step ClaimsOnce (initial task worker listed clients) schedule) := by
  have balanced : final.Balanced :=
    Runs.exec_invariant_of_forall (fun _ _ _ before taken => before.step taken)
      (Balanced.initial task worker listed clients) run
  have counted := claimed_nodup_iff run
  constructor
  · intro once
    exact balanced.removesOnce (counted.mpr ⟨List.nodup_nil, once⟩)
  · intro rest safe
    exact (counted.mp (balanced.claimed_nodup rest safe.posted)).2

/-- A thread is started, sleeps once, is terminated and removed. -/
theorem removesOnce_started :
    ∃ final, Runs.exec step
        (initial (fun _ => "worker") (fun _ => some 1) [1]
          [.access (.named "worker") .startThread, .access (.workered 1) .terminate, .exec])
        (List.replicate 7 (0, .usual) ++ List.replicate 7 (3, .usual) ++
          List.replicate 5 (1, .usual) ++ List.replicate 7 (3, .usual) ++
          List.replicate 5 (2, .usual)) = some final ∧
      final.shared.application.deleted = [1] ∧ final.RemovesOnce := by
  have started : (Runs.exec step
      (initial (fun _ => "worker") (fun _ => some 1) [1]
        [.access (.named "worker") .startThread, .access (.workered 1) .terminate, .exec])
      (List.replicate 7 (0, .usual) ++ List.replicate 7 (3, .usual) ++
        List.replicate 5 (1, .usual) ++ List.replicate 7 (3, .usual) ++
        List.replicate 5 (2, .usual))).map
          (fun final => (final.shared.claimed, final.shared.application.deleted)) =
            some ([1], [1]) := by
    decide
  obtain ⟨final, run, record⟩ := Option.map_eq_some_iff.mp started
  have claimed : final.shared.claimed = [1] := congrArg Prod.fst record
  have once := ((claimed_nodup_iff run).mp (by simp [claimed])).2
  exact ⟨final, run, congrArg Prod.snd record, (removesOnce_of_claimsOnce run).1 once⟩

/-- The application stops a thread that is not started, and the thread is started then. -/
theorem removesOnce_fails :
    ¬∀ (task : Nat → String) (worker : Nat → Option Nat) (listed : List Nat)
      (clients : List Client) (schedule : List (Nat × Choice)) (final : ThreadPool),
      Runs.exec step (initial task worker listed clients) schedule = some final →
        final.RemovesOnce := by
  intro safe
  have twice : (Runs.exec step
      (initial (fun _ => "worker") (fun _ => some 1) [1]
        [.stop 0 1, .access (.named "worker") .startThread])
      (List.replicate 8 (0, .usual) ++ List.replicate 7 (1, .usual) ++
        List.replicate 7 (2, .usual))).map (fun final => final.shared.posted) = some [1, 1] := by
    decide
  obtain ⟨final, run, posted⟩ := Option.map_eq_some_iff.mp twice
  have once := (safe _ _ _ _ _ final run).posted
  simp [posted] at once

end ThreadPool

end Drumlin
