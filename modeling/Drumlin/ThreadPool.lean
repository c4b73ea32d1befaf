import Drumlin.Application
import Drumlin.Library.ActorPool

/-!
# Threads at work

The functions of `Thread`, `Application` and `ThreadAccessor` that run at the same time, one atomic
action after another.  Each getter of a `Thread` is one action: it copies a field under the mutex of
the thread, and what it returns is a copy of its own.  Actions on the list of threads take the mutex
of the application.  The mutexes of a thread and those that are static in `Thread`, `ThreadWorker`
and `event` are left out; they only rule out interleavings.  Whether `run` gets its own is left
open.  `drumlin::debug` is true, as it is by default, so that log lines read the workers of the
threads they show.  What a worker does is not modelled; it throws nothing, and calls the same
functions as any other client.
-/

namespace Drumlin

open ActorPool

/-- `Thread`. -/
structure Thread where
  /-- `m_task`. -/
  task : String
  /-- The type of the worker the thread was constructed with, if any. -/
  created : Option Nat
  /-- `m_worker`, by its type. -/
  worker : Option Nat
  /-- `m_ready`. -/
  isReady : Bool
  /-- `m_deleting`. -/
  isDeleting : Bool
  /-- `m_terminated`. -/
  isTerminated : Bool
  /-- `m_thread`, by the number of its `boost::thread`. -/
  boostThread : Option Nat
deriving DecidableEq, Repr

/-- `Thread::Thread`. -/
def Thread.construct (task : String) (worker : Option Nat) : Thread :=
  ⟨task, worker, worker, false, false, false, none⟩

/-- The application and the threads, with a record of what happened to them.  A deleted thread keeps
its fields here, but no action uses it. -/
structure Threads where
  /-- The threads. -/
  threadAt : Nat → Thread
  /-- The application. -/
  application : Application
  /-- The actor that holds the mutex of the application. -/
  lock : Option Nat
  /-- The number of `boost::thread`s made so far. -/
  launches : Nat
  /-- The `boost::thread`s whose function has returned. -/
  returned : List Nat
  /-- The threads for which a `quit` became due: they were started, `stop` found them not started,
  or they came to handle a `ThreadShutdown`. -/
  claimed : List Nat
  /-- The threads for which a `ThreadRemove` was posted. -/
  posted : List Nat
  /-- The threads for which a `ThreadRemove` was pulled. -/
  pulled : List Nat
  /-- The threads whose worker was reset. -/
  resets : List Nat
  /-- The threads whose null worker was dereferenced. -/
  nullDereferences : List Nat

namespace Threads

/-- Change one thread. -/
def update (thread : Nat) (change : Thread → Thread) (threads : Threads) : Threads :=
  { threads with
    threadAt := Function.update threads.threadAt thread (change (threads.threadAt thread)) }

/-- Change the application. -/
def onApplication (change : Application → Application) (threads : Threads) : Threads :=
  { threads with application := change threads.application }

/-- `Thread::terminate`. -/
def terminate (thread : Nat) (threads : Threads) : Threads :=
  threads.update thread fun this => { this with isTerminated := true }

/-- Reset the worker of a thread. -/
def resetWorker (thread : Nat) (threads : Threads) : Threads :=
  let reset := threads.update thread fun this => { this with worker := none }
  { reset with resets := reset.resets ++ [thread] }

/-- A `quit` of the thread becomes due. -/
def claim (thread : Nat) (threads : Threads) : Threads :=
  { threads with claimed := threads.claimed ++ [thread] }

/-- The event that asks for the removal of a thread. -/
def removeEvent (thread : Nat) : Event := ⟨.threadRemove, "removeThread", thread⟩

/-- `Thread::quit`. -/
def quit (thread : Nat) (threads : Threads) : Threads :=
  { threads with
    application := threads.application.post (removeEvent thread)
    posted := threads.posted ++ [thread] }

/-- Dereference what `getWorker` returns. -/
def dereference (thread : Nat) (threads : Threads) : Threads :=
  if (threads.threadAt thread).worker.isSome then threads
  else { threads with nullDereferences := threads.nullDereferences ++ [thread] }

/-- `Thread::post`. -/
def post (thread : Nat) (event : Event) (threads : Threads) : Threads :=
  { threads with
    application :=
      { threads.application with
        threadEvents := threads.application.threadEvents ++ [(thread, event)] } }

/-- `event::send`, which logs the target and so dereferences its worker. -/
def send (thread : Nat) (event : Event) (threads : Threads) : Threads :=
  (threads.dereference thread).post thread event

/-- `Thread::start` of a thread whose `m_ready` is not set, up to the making of `m_thread`. -/
def start (thread : Nat) (threads : Threads) : Threads :=
  (threads.update thread fun this => { this with isReady := true }).claim thread

/-- `Thread::start` as it makes `m_thread`, and lets go of the one that was there. -/
def launch (thread : Nat) (threads : Threads) : Threads :=
  let made := threads.update thread fun this => { this with boostThread := some threads.launches }
  { made with launches := made.launches + 1 }

/-- Take the mutex of the application, if no other actor has it. -/
def acquire (self : Nat) (threads : Threads) : Option Threads :=
  if threads.lock = none then some { threads with lock := some self } else none

/-- Let go of the mutex of the application. -/
def release (threads : Threads) : Threads := { threads with lock := none }

/-- An action inside `Application::post` or `removeThread`, for an actor that does not have the
mutex. -/
def guarded {α : Type} (action : Threads → α) (threads : Threads) : Option α :=
  if threads.lock = none then some (action threads) else none

theorem guarded_eq_some {α : Type} {action : Threads → α} {threads : Threads} {result : α} :
    threads.guarded action = some result ↔ threads.lock = none ∧ action threads = result := by
  simp [guarded]

theorem acquire_eq_some {self : Nat} {threads threads' : Threads} :
    threads.acquire self = some threads' ↔
      threads.lock = none ∧ { threads with lock := some self } = threads' := by
  simp [acquire]

end Threads

/-- What is left open to an actor: whether the thread was interrupted, whether `try_lock` fails, and
whether `exec` pulls a `ThreadShutdown`. -/
inductive Choice
  | usual
  | interrupted
  | locked
  | shutdownEvent
deriving DecidableEq, Repr

/-! ## `Thread::run` -/

/-- Where `Thread::run` is. -/
inductive RunPhase
  | entry
  | postWork
  | loop
  | tryLock
  | exec
  | shutdown
  | tick
  | sleep
  | leave
  | testWorker
  | shutdownWorker
  | reset
  | terminate
  | clearReady
  | quit
  | done
  /-- An interruption came out of `run`. -/
  | interrupted
deriving DecidableEq, Repr

/-- `Thread::run`.  When `exec` pulls a `ThreadShutdown` that the worker does not handle, `event`
calls `quit`, and the loop goes on; the tick is handled always.  That the static mutex is unlocked
also where `try_lock` failed is taken to be harmless.  An interruption of the sleep comes out of
`run`, which does nothing more then.  One that `exec` meets is left out: nothing is defined when it
is handled there. -/
def Thread.run (thread boost : Nat) (choice : Choice) (threads : Threads) :
    RunPhase → Option (Threads × RunPhase)
  | .entry =>
      some (threads.post thread ⟨.threadNotify, "beforeWork", Cxx.nullptr⟩, .postWork)
  | .postWork =>
      let logged := threads.dereference thread
      some (logged.post thread ⟨.threadWork, "work", Cxx.nullptr⟩,
        if (threads.threadAt thread).isTerminated then .testWorker else .loop)
  | .loop =>
      let this := threads.threadAt thread
      if this.isReady && !this.isDeleting && !this.isTerminated && choice != .interrupted then
        some (threads, .tryLock)
      else some (threads, .leave)
  | .tryLock => some (threads, if choice = .locked then .tick else .exec)
  | .exec =>
      let logged := threads.dereference thread
      if choice = .shutdownEvent then some (logged.claim thread, .shutdown)
      else some (logged, .tick)
  | .shutdown => threads.guarded fun threads => (threads.quit thread, .tick)
  | .tick => some (threads.dereference thread, .sleep)
  | .sleep =>
      if choice = .interrupted then
        some ({ threads with returned := threads.returned ++ [boost] }, .interrupted)
      else some (threads, .loop)
  | .leave =>
      some (threads.update thread fun this => { this with isDeleting := true }, .testWorker)
  | .testWorker =>
      some (threads,
        if (threads.threadAt thread).worker.isSome then .shutdownWorker else .terminate)
  | .shutdownWorker => some (threads.dereference thread, .reset)
  | .reset => some (threads.resetWorker thread, .clearReady)
  | .terminate => some (threads.terminate thread, .clearReady)
  | .clearReady =>
      some (threads.update thread fun this => { this with isReady := false }, .quit)
  | .quit =>
      threads.guarded fun threads =>
        ({ threads.quit thread with returned := threads.returned ++ [boost] }, .done)
  | .done | .interrupted => none

/-! ## `ThreadAccessor` -/

/-- The selections made before a functor is applied: `named`, `typed`, and `getWorkered` for the
worker that a thread was constructed with. -/
inductive Query
  | named (name : String)
  | typed (type : Nat)
  | workered (owner : Nat)
deriving DecidableEq, Repr

/-- The predicate of a selection. -/
def Query.holds (thread : Nat) (this : Thread) : Query → Bool
  | .named name => this.task == name
  | .typed type => this.worker == some type
  | .workered owner => thread == owner && this.worker.isSome

/-- The predicate of `typed` dereferences the worker, that of `getWorkered` compares the pointer. -/
def Query.reads : Query → Bool
  | .typed _ => true
  | .named _ | .workered _ => false

/-- `StartThread`, `SendEvent`, and what `ThreadWorker::signalTermination` does with `first`. -/
inductive Functor
  | startThread
  | sendEvent (event : Event)
  | terminate
deriving DecidableEq, Repr

/-- Where the use of an accessor is. -/
inductive AccessPhase
  | lock
  | visit (todo selected : List Nat)
  | apply (todo : List Nat)
  | start (thread : Nat) (todo : List Nat)
  | launch (thread : Nat) (todo : List Nat)
  | done
deriving DecidableEq, Repr

/-- A `ThreadAccessor` that makes a selection and applies a functor to it, holding the mutex of the
application from its constructor on.  What it throws for an empty selection ends it as well.  The
last component tells which thread was launched. -/
def ThreadAccessor.use (self : Nat) (query : Query) (functor : Functor) (threads : Threads) :
    AccessPhase → Option (Threads × AccessPhase × Option Nat)
  | .lock =>
      (threads.acquire self).map fun threads =>
        (threads, .visit threads.application.threads [], none)
  | .visit (thread :: todo) selected =>
      let selected :=
        if query.holds thread (threads.threadAt thread) then selected ++ [thread] else selected
      some (if query.reads then threads.dereference thread else threads, .visit todo selected, none)
  | .visit [] selected => some (threads, .apply selected, none)
  | .apply (thread :: todo) =>
      match functor with
      | .startThread =>
          if (threads.threadAt thread).isReady then some (threads, .apply todo, none)
          else some (threads, .start thread todo, none)
      | .sendEvent event => some (threads.send thread event, .apply todo, none)
      | .terminate => some (threads.terminate thread, .apply [], none)
  | .apply [] => some (threads.release, .done, none)
  | .start thread todo =>
      if (threads.threadAt thread).isReady then some (threads, .apply todo, none)
      else some (threads.start thread, .launch thread todo, none)
  | .launch thread todo => some (threads.launch thread, .apply todo, some thread)
  | .done => none

/-! ## `Application` -/

/-- Where `Application::addThread` is. -/
inductive AddPhase
  | lock
  | add
  | start
  | launch
  | release
  | done
deriving DecidableEq, Repr

/-- `Application::addThread`, which logs the thread before it lists it. -/
def Threads.addThread (self thread : Nat) (startWork : Bool) (threads : Threads) :
    AddPhase → Option (Threads × AddPhase × Option Nat)
  | .lock => (threads.acquire self).map fun threads => (threads, .add, none)
  | .add =>
      let logged := threads.dereference thread
      some (logged.onApplication fun app => app.addThread thread startWork,
        if startWork then .start else .release, none)
  | .start =>
      if (threads.threadAt thread).isReady then some (threads, .release, none)
      else some (threads.start thread, .launch, none)
  | .launch => some (threads.launch thread, .release, some thread)
  | .release => some (threads.release, .done, none)
  | .done => none

/-- Where `Application::getStatus` is. -/
inductive StatusPhase
  | lock
  | writeToObject (todo : List Nat)
  | getStatus (thread : Nat) (todo : List Nat)
  | done
deriving DecidableEq, Repr

/-- `Application::getStatus`, which reads the worker of every thread twice. -/
def Threads.getStatus (self : Nat) (threads : Threads) :
    StatusPhase → Option (Threads × StatusPhase)
  | .lock =>
      (threads.acquire self).map fun threads =>
        (threads, .writeToObject threads.application.threads)
  | .writeToObject (thread :: todo) => some (threads.dereference thread, .getStatus thread todo)
  | .writeToObject [] => some (threads.release, .done)
  | .getStatus thread todo => some (threads.dereference thread, .writeToObject todo)
  | .done => none

/-- Where `Application::stop` is. -/
inductive StopPhase
  | round (type : Nat)
  | select (type : Nat) (todo selected : List Nat)
  | compare (type thread : Nat) (todo selected : List Nat)
  | terminate (type : Nat) (todo selected : List Nat)
  | test (type : Nat) (todo : List Nat)
  | quit (type thread : Nat) (todo : List Nat)
  | wait (type thread : Nat) (todo : List Nat)
  | join (type thread : Nat) (todo : List Nat)
  | done
deriving DecidableEq, Repr

/-- `Application::stop`, one round for each type of worker above `first`: select the threads and
terminate them under the mutex of the application, then call `quit` for those that are not started
and wait for the others. -/
def Threads.stop (self first : Nat) (threads : Threads) : StopPhase → Option (Threads × StopPhase)
  | .round type =>
      if first < type then
        (threads.acquire self).map fun threads =>
          (threads, .select type threads.application.threads [])
      else some (threads, .done)
  | .select type (thread :: todo) selected =>
      if (threads.threadAt thread).worker.isSome then
        some (threads, .compare type thread todo selected)
      else some (threads, .select type todo selected)
  | .select type [] selected => some (threads, .terminate type selected selected)
  | .compare type thread todo selected =>
      let selected :=
        if (threads.threadAt thread).worker = some type then selected ++ [thread] else selected
      some (threads.dereference thread, .select type todo selected)
  | .terminate type (thread :: todo) selected =>
      some (threads.terminate thread, .terminate type todo selected)
  | .terminate type [] selected => some (threads.release, .test type selected)
  | .test type (thread :: todo) =>
      if (threads.threadAt thread).isReady then some (threads, .wait type thread todo)
      else some (threads.claim thread, .quit type thread todo)
  | .test type [] => some (threads, .round (type - 1))
  | .quit type thread todo => threads.guarded fun threads => (threads.quit thread, .test type todo)
  | .wait type thread todo =>
      let this := threads.threadAt thread
      if this.boostThread.isSome && !this.isDeleting then some (threads, .join type thread todo)
      else some (threads, .test type todo)
  | .join type thread todo =>
      if (threads.threadAt thread).boostThread.any (· ∉ threads.returned) then none
      else some (threads, .test type todo)
  | .done => none

/-- Where a turn of `Application::exec` is. -/
inductive ExecPhase
  | pull
  | lock (thread : Nat)
  | testStarted (thread : Nat)
  | testTerminated (thread : Nat) (isStarted : Bool)
  | remove (thread : Nat) (status : ThreadStatus)
deriving DecidableEq, Repr

/-- The turns of `Application::exec`: pull an event, and remove a thread if it asks for that.  The
message of the exception shows the thread and goes to the log only. -/
def Threads.exec (self : Nat) (threads : Threads) : ExecPhase → Option (Threads × ExecPhase)
  | .pull =>
      match threads.application.queue with
      | [] => none
      | event :: queue =>
          let rest := { threads with application := { threads.application with queue } }
          if event.type = .threadRemove then
            some ({ rest with pulled := rest.pulled ++ [event.pointer] }, .lock event.pointer)
          else some (rest, .pull)
  | .lock thread => (threads.acquire self).map fun threads => (threads, .testStarted thread)
  | .testStarted thread =>
      some (threads, .testTerminated thread (threads.threadAt thread).isReady)
  | .testTerminated thread isStarted =>
      some (threads, .remove thread ⟨isStarted, (threads.threadAt thread).isTerminated, ""⟩)
  | .remove thread status =>
      let shown := if status.isRunning then threads.dereference thread else threads
      let removed := shown.onApplication fun app => (app.removeThread thread status).1
      some (removed.release, .pull)

/-! ## The pool -/

/-- Whoever acts on the threads. -/
inductive Actor
  | run (thread boost : Nat) (phase : RunPhase)
  | access (query : Query) (functor : Functor) (phase : AccessPhase)
  | addThread (thread : Nat) (startWork : Bool) (phase : AddPhase)
  | getStatus (phase : StatusPhase)
  | stop (first : Nat) (phase : StopPhase)
  | exec (phase : ExecPhase)
  | send (thread : Nat) (event : Event)
  | done
deriving DecidableEq, Repr

/-- The thread that the next action of an actor uses. -/
def Actor.touches : Actor → Option Nat
  | .run _ _ .tryLock | .run _ _ .sleep | .run _ _ .interrupted | .run _ _ .done => none
  | .run thread _ _ => some thread
  | .access _ _ (.visit (thread :: _) _) | .access _ _ (.apply (thread :: _))
  | .access _ _ (.start thread _) | .access _ _ (.launch thread _) => some thread
  | .addThread thread _ .add | .addThread thread _ .start | .addThread thread _ .launch =>
      some thread
  | .getStatus (.writeToObject (thread :: _)) | .getStatus (.getStatus thread _) => some thread
  | .stop _ (.select _ (thread :: _) _) | .stop _ (.compare _ thread _ _)
  | .stop _ (.terminate _ (thread :: _) _) | .stop _ (.test _ (thread :: _))
  | .stop _ (.quit _ thread _) | .stop _ (.wait _ thread _) | .stop _ (.join _ thread _) =>
      some thread
  | .exec (.lock thread) | .exec (.testStarted thread) | .exec (.testTerminated thread _)
  | .exec (.remove thread _) => some thread
  | .send thread _ => some thread
  | _ => none

/-- The function of a thread as it is launched. -/
def Threads.entries (launched : Option Nat) (threads : Threads) : List Actor :=
  launched.toList.map fun thread => .run thread threads.launches .entry

@[simp] theorem Threads.entries_none (threads : Threads) : threads.entries none = [] := rfl

@[simp] theorem Threads.entries_some (thread : Nat) (threads : Threads) :
    threads.entries (some thread) = [.run thread threads.launches .entry] := rfl

/-- What an actor does next if the thread it uses was not deleted. -/
def Actor.act : Behavior Threads Actor Choice := fun self threads actor choice =>
  match actor with
  | .run thread boost phase =>
      (Thread.run thread boost choice threads phase).map fun (threads, phase) =>
        (threads, .run thread boost phase, [])
  | .access query functor phase =>
      (ThreadAccessor.use self query functor threads phase).map fun (after, phase, launched) =>
        (after, .access query functor phase, threads.entries launched)
  | .addThread thread startWork phase =>
      (threads.addThread self thread startWork phase).map fun (after, phase, launched) =>
        (after, .addThread thread startWork phase, threads.entries launched)
  | .getStatus phase =>
      (threads.getStatus self phase).map fun (threads, phase) => (threads, .getStatus phase, [])
  | .stop first phase =>
      (threads.stop self first phase).map fun (threads, phase) => (threads, .stop first phase, [])
  | .exec phase =>
      (threads.exec self phase).map fun (threads, phase) => (threads, .exec phase, [])
  | .send thread event => some (threads.send thread event, .done, [])
  | .done => none

/-- What an actor does next.  Nothing is defined if it uses a thread that was deleted. -/
def Actor.behave : Behavior Threads Actor Choice := fun self threads actor choice =>
  if actor.touches.any (· ∈ threads.application.deleted) then none
  else actor.act self threads choice

/-- An action of an actor, by the function that makes it. -/
inductive Actor.Behaves (self : Nat) (threads : Threads) (choice : Choice) :
    Actor → Threads → Actor → List Actor → Prop
  | run {thread boost : Nat} {phase phase' : RunPhase} {threads' : Threads}
      (acted : Thread.run thread boost choice threads phase = some (threads', phase')) :
      Behaves self threads choice (.run thread boost phase) threads' (.run thread boost phase') []
  | access {query : Query} {functor : Functor} {phase phase' : AccessPhase} {threads' : Threads}
      {launched : Option Nat}
      (acted : ThreadAccessor.use self query functor threads phase =
        some (threads', phase', launched)) :
      Behaves self threads choice (.access query functor phase) threads'
        (.access query functor phase') (threads.entries launched)
  | addThread {thread : Nat} {startWork : Bool} {phase phase' : AddPhase} {threads' : Threads}
      {launched : Option Nat}
      (acted : threads.addThread self thread startWork phase =
        some (threads', phase', launched)) :
      Behaves self threads choice (.addThread thread startWork phase) threads'
        (.addThread thread startWork phase') (threads.entries launched)
  | getStatus {phase phase' : StatusPhase} {threads' : Threads}
      (acted : threads.getStatus self phase = some (threads', phase')) :
      Behaves self threads choice (.getStatus phase) threads' (.getStatus phase') []
  | stop {first : Nat} {phase phase' : StopPhase} {threads' : Threads}
      (acted : threads.stop self first phase = some (threads', phase')) :
      Behaves self threads choice (.stop first phase) threads' (.stop first phase') []
  | exec {phase phase' : ExecPhase} {threads' : Threads}
      (acted : threads.exec self phase = some (threads', phase')) :
      Behaves self threads choice (.exec phase) threads' (.exec phase') []
  | send (thread : Nat) (event : Event) :
      Behaves self threads choice (.send thread event) (threads.send thread event) .done []

theorem Actor.behaves_of_behave {self : Nat} {threads threads' : Threads} {actor actor' : Actor}
    {choice : Choice} {spawned : List Actor}
    (acted : actor.behave self threads choice = some (threads', actor', spawned)) :
    Actor.Behaves self threads choice actor threads' actor' spawned := by
  have did : actor.act self threads choice = some (threads', actor', spawned) := by
    unfold behave at acted
    split at acted
    · simp at acted
    · exact acted
  cases actor with
  | run thread boost phase =>
      simp only [act, Option.map_eq_some_iff, Prod.exists, Prod.mk.injEq] at did
      obtain ⟨_, phase', went, rfl, rfl, rfl⟩ := did
      exact .run went
  | access query functor phase =>
      simp only [act, Option.map_eq_some_iff, Prod.exists, Prod.mk.injEq] at did
      obtain ⟨_, phase', launched, went, rfl, rfl, rfl⟩ := did
      exact .access went
  | addThread thread startWork phase =>
      simp only [act, Option.map_eq_some_iff, Prod.exists, Prod.mk.injEq] at did
      obtain ⟨_, phase', launched, went, rfl, rfl, rfl⟩ := did
      exact .addThread went
  | getStatus phase =>
      simp only [act, Option.map_eq_some_iff, Prod.exists, Prod.mk.injEq] at did
      obtain ⟨_, phase', went, rfl, rfl, rfl⟩ := did
      exact .getStatus went
  | stop first phase =>
      simp only [act, Option.map_eq_some_iff, Prod.exists, Prod.mk.injEq] at did
      obtain ⟨_, phase', went, rfl, rfl, rfl⟩ := did
      exact .stop went
  | exec phase =>
      simp only [act, Option.map_eq_some_iff, Prod.exists, Prod.mk.injEq] at did
      obtain ⟨_, phase', went, rfl, rfl, rfl⟩ := did
      exact .exec went
  | send thread event =>
      obtain ⟨rfl, rfl, rfl⟩ := by simpa [act] using did
      exact .send thread event
  | done => simp [act] at did

/-- Whoever is spawned is a thread that begins. -/
theorem Actor.entry_of_spawned {self : Nat} {threads threads' : Threads} {actor actor' : Actor}
    {choice : Choice} {spawned : List Actor}
    (acted : actor.behave self threads choice = some (threads', actor', spawned)) {other : Actor}
    (new : other ∈ spawned) : ∃ thread boost, other = .run thread boost .entry := by
  cases behaves_of_behave acted with
  | access | addThread =>
      obtain ⟨thread, -, rfl⟩ := List.mem_map.mp new
      exact ⟨thread, threads.launches, rfl⟩
  | run | getStatus | stop | exec | send => simp at new

/-- What a client calls.  `ThreadWorker::signalTermination` and `event::post` are the use of an
accessor with `getWorkered`. -/
inductive Client
  | access (query : Query) (functor : Functor)
  | addThread (thread : Nat) (startWork : Bool)
  | getStatus
  | stop (first last : Nat)
  | exec
  | send (thread : Nat) (event : Event)
deriving DecidableEq, Repr

/-- The client before its first action. -/
def Client.actor : Client → Actor
  | .access query functor => .access query functor .lock
  | .addThread thread startWork => .addThread thread startWork .lock
  | .getStatus => .getStatus .lock
  | .stop first last => .stop first (.round last)
  | .exec => .exec .pull
  | .send thread event => .send thread event

/-- The pool of the threads and of those who act on them. -/
abbrev ThreadPool := Pool Threads Actor

namespace ThreadPool

/-- Threads that were not started, of which some were added, and clients that have not begun. -/
def initial (task : Nat → String) (worker : Nat → Option Nat) (listed : List Nat)
    (clients : List Client) : ThreadPool where
  shared :=
    { threadAt := fun thread => .construct (task thread) (worker thread)
      application := { Application.start with threads := listed }
      lock := none
      launches := 0
      returned := []
      claimed := []
      posted := []
      pulled := []
      resets := []
      nullDereferences := [] }
  actors := clients.map Client.actor

/-- One action of one actor. -/
def step (pool : ThreadPool) (label : Nat × Choice) : Option ThreadPool :=
  ActorPool.step Actor.behave pool label

end ThreadPool

end Drumlin
