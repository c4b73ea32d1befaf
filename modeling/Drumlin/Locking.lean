import Drumlin.Library.LockOrder

/-!
# The mutexes of the application and its threads

The locks are taken in getters, stream operators and logging macros as much as in the functions
that say so.  Every function is given here as the scopes of its lock guards; the outcomes of its
tests are data of the call.
-/

namespace Drumlin.Locking

open LockOrder Script

/-- The mutexes. -/
inductive Mutex
  /-- `iapp->m_critical_section`. -/
  | application
  /-- `logger::s_critical_section`. -/
  | logger
  /-- `Thread::m_critical_section`. -/
  | threads
  /-- `ThreadWorker::m_critical_section`. -/
  | workers
  /-- The `m_mutex` of a thread. -/
  | thread (thread : Nat)
deriving DecidableEq, Repr

/-- All but the logger's are a `std::recursive_mutex`. -/
def recursive : Mutex → Bool
  | .logger => false
  | _ => true

/-! ## The macros -/

/-- `{LOGLOCK; Debug() << …}`: what is streamed is evaluated only while `debug` is set. -/
def log (debug : Bool) (streamed : Script Mutex) : Script Mutex :=
  scope .logger (onlyIf debug streamed)

/-- A line of the log, of values that are streamed without a lock. -/
def logLine : Script Mutex := scope .logger done

/-- `INTERNAL` in a function of a thread. -/
def internal (thread : Nat) (body : Script Mutex) : Script Mutex := scope (.thread thread) body

/-- `THREADSLOCK` in a function of the application. -/
def threadsLock (body : Script Mutex) : Script Mutex := scope .application body

/-! ## Threads and workers -/

namespace Thread

def getBoostThread (thread : Nat) : Script Mutex := internal thread done

def getWorker (thread : Nat) : Script Mutex := internal thread done

def hasWorker (thread : Nat) : Script Mutex := internal thread done

def isStarted (thread : Nat) : Script Mutex := internal thread done

def getTask : Script Mutex := scope .threads done

/-- `getType` of the worker. -/
def workerType : Script Mutex := scope .workers done

/-- `operator<<`, which reads the id of the `boost::thread` if there is one. -/
def stream (thread : Nat) (launched : Bool) : Script Mutex :=
  getTask.andThen <| (getWorker thread).andThen <| workerType.andThen <|
    (isStarted thread).andThen <| onlyIf launched (getBoostThread thread)

def terminate (thread : Nat) : Script Mutex := logLine.andThen (internal thread done)

def start (thread : Nat) : Script Mutex := scope .threads (internal thread done)

/-- `delete`: the destructor, and those of the events left in the queue. -/
def delete (queued : Nat) : Script Mutex :=
  logLine.andThen (forEach (fun _ => logLine) (List.range queued))

end Thread

/-! ## Events and exceptions -/

namespace Event

/-- The constructor of an event. -/
def make : Script Mutex := logLine

/-- The destructor of an event. -/
def destroy : Script Mutex := logLine

/-- `send`: the line shows the target. -/
def send (debug : Bool) (target : Nat) (launched : Bool) : Script Mutex :=
  log debug (Thread.stream target launched)

end Event

/-- The constructor of an exception. -/
def exception : Script Mutex := logLine

def Application.post : Script Mutex := threadsLock done

def Event.punt : Script Mutex := logLine.andThen Application.post

/-- The event outlives the guard: the application gets no further with it than `isStarted`. -/
def Thread.quit (thread : Nat) : Script Mutex :=
  internal thread (Event.make.andThen Event.punt)

/-! ## The application -/

namespace Application

/-- `addThread`: the event is destroyed here if the thread has dropped it already. -/
def addThread (debug : Bool) (thread : Nat) (launched startWork dropped : Bool) : Script Mutex :=
  threadsLock <| (log debug (Thread.stream thread launched)).andThen <| onlyIf startWork <|
    Event.make.andThen <| (onlyIf dropped Event.destroy).andThen <| Thread.start thread

/-- How `removeThread` ends. -/
inductive Removal
  /-- The thread is not terminated, and its message tells so. -/
  | refused (launched : Bool)
  /-- The thread is deleted with the events of its queue, and others are left. -/
  | removed (queued : Nat)
  /-- The thread was the last one; the event may be dropped before the call ends. -/
  | last (queued : Nat) (dropped : Bool)
deriving DecidableEq, Repr

def removeThread (debug : Bool) (thread : Nat) (removal : Removal) : Script Mutex :=
  threadsLock <| (log debug Thread.getTask).andThen <| (Thread.isStarted thread).andThen <|
    match removal with
    | .refused launched => (Thread.stream thread launched).andThen exception
    | .removed queued => (Thread.delete queued).andThen logLine
    | .last queued dropped =>
        (Thread.delete queued).andThen <| logLine.andThen <| Event.make.andThen <|
          post.andThen <| onlyIf dropped Event.destroy

/-- What `stop` finds for one type. -/
structure Round where
  /-- The threads of the list, with whether they have a worker. -/
  visited : List (Nat × Bool)
  /-- The threads whose worker is of the type, with whether they are started at last. -/
  selected : List (Nat × Bool)
deriving DecidableEq, Repr

/-- The threads of the type are looked up and terminated. -/
def Round.terminating (round : Round) : Script Mutex :=
  threadsLock <|
    (forEach (fun (thread, hasWorker) => (Thread.hasWorker thread).andThen <|
      onlyIf hasWorker ((Thread.getWorker thread).andThen Thread.workerType))
      round.visited).andThen <|
    logLine.andThen <| forEach (fun (thread, _) => Thread.terminate thread) round.selected

/-- `quit` is called for those that are not started; `wait` takes no lock. -/
def Round.waiting (round : Round) : Script Mutex :=
  forEach (fun (thread, started) => (Thread.isStarted thread).andThen <|
    onlyIf (!started) (Thread.quit thread)) round.selected

/-- The body of the loop of `stop`. -/
def Round.script (round : Round) : Script Mutex :=
  round.terminating.andThen <| logLine.andThen round.waiting

def stop (rounds : List Round) : Script Mutex :=
  logLine.andThen <| (forEach Round.script rounds).andThen logLine

end Application

/-! ## Thread accessors -/

namespace ThreadAccessor

/-- What an accessor is used for between its constructor, which takes the lock of the application,
and its destructor.  The functions not named here take no lock. -/
inductive Use
  | named (visited : List Nat)
  | typed (visited : List Nat)
  | getWorkered (visited : List Nat)
  /-- `StartThread` for the selected threads, with whether each is started. -/
  | startThread (selection : List (Nat × Bool))
  /-- `SendEvent` for the selected threads, with whether each is launched. -/
  | sendEvent (selection : List (Nat × Bool))
  /-- Nothing is selected, and that is an exception. -/
  | empty
deriving DecidableEq, Repr

def getWorkered (visited : List Nat) : Script Mutex := forEach Thread.getWorker visited

def sendEvent (debug : Bool) (selection : List (Nat × Bool)) : Script Mutex :=
  forEach (fun (thread, launched) => Event.send debug thread launched) selection

def Use.script (debug : Bool) : Use → Script Mutex
  | .named visited => forEach (fun _ => Thread.getTask) visited
  | .typed visited =>
      forEach (fun thread => (Thread.getWorker thread).andThen Thread.workerType) visited
  | .getWorkered visited => ThreadAccessor.getWorkered visited
  | .startThread selection =>
      forEach (fun (thread, started) =>
        (Thread.isStarted thread).andThen (onlyIf (!started) (Thread.start thread))) selection
  | .sendEvent selection => ThreadAccessor.sendEvent debug selection
  | .empty => exception

def script (debug : Bool) (uses : List Use) : Script Mutex :=
  threadsLock (forEach (Use.script debug) uses)

end ThreadAccessor

/-- `event::post` to a worker, with its thread, if there is one, and whether it is launched. -/
def Event.post (debug : Bool) (visited : List Nat) (found : Option (Nat × Bool)) : Script Mutex :=
  threadsLock <| (ThreadAccessor.getWorkered visited).andThen <|
    match found with
    | none => log debug Thread.workerType
    | some (thread, launched) => ThreadAccessor.sendEvent debug [(thread, launched)]

/-- `signalTermination`, with the thread of the worker, if there is one, and whether it is
terminated. -/
def ThreadWorker.signalTermination (visited : List Nat) (found : Option (Nat × Bool)) :
    Script Mutex :=
  scope .workers <| threadsLock <| (ThreadAccessor.getWorkered visited).andThen <|
    match found with
    | none => Thread.workerType.andThen exception
    | some (thread, terminated) => onlyIf (!terminated) (Thread.terminate thread)

/-- The calls of the threads. -/
inductive Call
  | addThread (thread : Nat) (launched startWork dropped : Bool)
  | removeThread (thread : Nat) (removal : Application.Removal)
  | stop (rounds : List Application.Round)
  | post
  | access (uses : List ThreadAccessor.Use)
  | postTo (visited : List Nat) (found : Option (Nat × Bool))
  | quit (thread : Nat)
  | signalTermination (visited : List Nat) (found : Option (Nat × Bool))
deriving DecidableEq, Repr

def Call.script (debug : Bool) : Call → Script Mutex
  | addThread thread launched startWork dropped =>
      Application.addThread debug thread launched startWork dropped
  | removeThread thread removal => Application.removeThread debug thread removal
  | stop rounds => Application.stop rounds
  | post => Application.post
  | access uses => ThreadAccessor.script debug uses
  | postTo visited found => Event.post debug visited found
  | quit thread => Thread.quit thread
  | signalTermination visited found => ThreadWorker.signalTermination visited found

/-! ## The order -/

def rank : Mutex → Nat
  | .application => 0
  | .logger => 1
  | .threads => 2
  | .workers => 3
  | .thread _ => 4

/-- A lock above all those held.  Where any is held, that of the application is. -/
def Ascends (held : List Mutex) (mutex : Mutex) : Prop :=
  (∀ holder ∈ held, rank holder < rank mutex) ∧ (held ≠ [] → Mutex.application ∈ held)

/-- The logger's lock, wherever that of the application keeps out whoever would ask for more under
the logger's. -/
def Gated (held : List Mutex) (mutex : Mutex) : Prop :=
  mutex = .logger ∧ Mutex.application ∈ held ∧ Mutex.logger ∉ held

/-- The lock of the application or the logger's, for a thread that holds others but neither of
these. -/
def Descends (held : List Mutex) (mutex : Mutex) : Prop :=
  (mutex = .application ∨ mutex = .logger) ∧ held ≠ [] ∧
    Mutex.application ∉ held ∧ Mutex.logger ∉ held

instance (held : List Mutex) (mutex : Mutex) : Decidable (Descends held mutex) :=
  inferInstanceAs (Decidable (_ ∧ _))

/-- The order in which the functions lock. -/
def Allowed (held : List Mutex) (mutex : Mutex) : Prop :=
  Ascends held mutex ∨ Gated held mutex ∨ Descends held mutex

/-! ## What the functions ask for -/

section Orderly

variable {ok : List Mutex → Mutex → Prop} {held : List Mutex} {debug : Bool} {thread : Nat}

@[simp] theorem orderly_log {streamed : Script Mutex} :
    Orderly ok held (log debug streamed) ↔
      ok held .logger ∧ (debug = true → Orderly ok (.logger :: held) streamed) := by
  simp [log]

@[simp] theorem orderly_logLine : Orderly ok held logLine ↔ ok held .logger := by
  simp [logLine]

@[simp] theorem orderly_internal {body : Script Mutex} :
    Orderly ok held (internal thread body) ↔
      ok held (.thread thread) ∧ Orderly ok (.thread thread :: held) body := by
  simp [internal]

@[simp] theorem orderly_threadsLock {body : Script Mutex} :
    Orderly ok held (threadsLock body) ↔
      ok held .application ∧ Orderly ok (.application :: held) body := by
  simp [threadsLock]

@[simp] theorem orderly_getWorker :
    Orderly ok held (Thread.getWorker thread) ↔ ok held (.thread thread) := by
  simp [Thread.getWorker]

@[simp] theorem orderly_hasWorker :
    Orderly ok held (Thread.hasWorker thread) ↔ ok held (.thread thread) := by
  simp [Thread.hasWorker]

@[simp] theorem orderly_isStarted :
    Orderly ok held (Thread.isStarted thread) ↔ ok held (.thread thread) := by
  simp [Thread.isStarted]

@[simp] theorem orderly_getTask : Orderly ok held Thread.getTask ↔ ok held .threads := by
  simp [Thread.getTask]

@[simp] theorem orderly_workerType : Orderly ok held Thread.workerType ↔ ok held .workers := by
  simp [Thread.workerType]

/-- A thread is shown with the locks of its three parts, taken one after another. -/
@[simp] theorem orderly_stream {launched : Bool} :
    Orderly ok held (Thread.stream thread launched) ↔
      ok held .threads ∧ ok held .workers ∧ ok held (.thread thread) := by
  simp only [Thread.stream, orderly_andThen, orderly_getTask, orderly_getWorker,
    orderly_workerType, orderly_isStarted, orderly_onlyIf, Thread.getBoostThread,
    orderly_internal, orderly_done]
  tauto

@[simp] theorem orderly_terminate :
    Orderly ok held (Thread.terminate thread) ↔ ok held .logger ∧ ok held (.thread thread) := by
  simp [Thread.terminate]

@[simp] theorem orderly_start :
    Orderly ok held (Thread.start thread) ↔
      ok held .threads ∧ ok (.threads :: held) (.thread thread) := by
  simp [Thread.start]

@[simp] theorem orderly_delete {queued : Nat} :
    Orderly ok held (Thread.delete queued) ↔ ok held .logger := by
  simp only [Thread.delete, orderly_andThen, orderly_logLine, orderly_forEach]
  tauto

@[simp] theorem orderly_make : Orderly ok held Event.make ↔ ok held .logger := orderly_logLine

@[simp] theorem orderly_destroy : Orderly ok held Event.destroy ↔ ok held .logger :=
  orderly_logLine

@[simp] theorem orderly_exception : Orderly ok held exception ↔ ok held .logger := orderly_logLine

@[simp] theorem orderly_post : Orderly ok held Application.post ↔ ok held .application := by
  simp [Application.post]

/-- The lock of the application and the logger's are asked for under the thread's. -/
@[simp] theorem orderly_quit :
    Orderly ok held (Thread.quit thread) ↔
      ok held (.thread thread) ∧ ok (.thread thread :: held) .logger ∧
        ok (.thread thread :: held) .application := by
  simp [Thread.quit, Event.punt]

@[simp] theorem orderly_getWorkered {visited : List Nat} :
    Orderly ok held (ThreadAccessor.getWorkered visited) ↔
      ∀ thread ∈ visited, ok held (.thread thread) := by
  simp [ThreadAccessor.getWorkered]

@[simp] theorem orderly_sendEvent {selection : List (Nat × Bool)} :
    Orderly ok held (ThreadAccessor.sendEvent debug selection) ↔
      ∀ target ∈ selection, ok held .logger ∧ (debug = true →
        ok (.logger :: held) .threads ∧ ok (.logger :: held) .workers ∧
          ok (.logger :: held) (.thread target.1)) := by
  simp [ThreadAccessor.sendEvent, Event.send]

end Orderly

section Calls

attribute [local simp] Permits Allowed Ascends Gated Descends rank recursive

theorem addThread_orderly (debug : Bool) (thread : Nat) (launched startWork dropped : Bool) :
    (Application.addThread debug thread launched startWork dropped).Orderly
      (Permits recursive Allowed) [] := by
  simp [Application.addThread]

theorem removeThread_orderly (debug : Bool) (thread : Nat) (removal : Application.Removal) :
    (Application.removeThread debug thread removal).Orderly (Permits recursive Allowed) [] := by
  cases removal <;> simp [Application.removeThread]

theorem stop_orderly (rounds : List Application.Round) :
    (Application.stop rounds).Orderly (Permits recursive Allowed) [] := by
  simp [Application.stop, Application.Round.script, Application.Round.terminating,
    Application.Round.waiting]

theorem access_orderly (debug : Bool) (uses : List ThreadAccessor.Use) :
    (ThreadAccessor.script debug uses).Orderly (Permits recursive Allowed) [] := by
  have use_orderly : ∀ use : ThreadAccessor.Use,
      (use.script debug).Orderly (Permits recursive Allowed) [.application] := by
    intro use
    cases use <;> simp [ThreadAccessor.Use.script]
  simp [ThreadAccessor.script, use_orderly]

theorem postTo_orderly (debug : Bool) (visited : List Nat) (found : Option (Nat × Bool)) :
    (Event.post debug visited found).Orderly (Permits recursive Allowed) [] := by
  cases found <;> simp [Event.post]

theorem signalTermination_orderly (visited : List Nat) (found : Option (Nat × Bool)) :
    (ThreadWorker.signalTermination visited found).Orderly (Permits recursive Allowed) [] := by
  cases found <;> simp [ThreadWorker.signalTermination]

/-- `quit` asks for the lock of the application and the logger's under a thread's `m_mutex`, and
`signalTermination` for that of the application under the workers'; nothing else goes down. -/
theorem script_orderly (debug : Bool) (call : Call) :
    (call.script debug).Orderly (Permits recursive Allowed) [] := by
  cases call with
  | addThread thread launched startWork dropped =>
      exact addThread_orderly debug thread launched startWork dropped
  | removeThread thread removal => exact removeThread_orderly debug thread removal
  | stop rounds => exact stop_orderly rounds
  | post => simp [Call.script]
  | access uses => exact access_orderly debug uses
  | postTo visited found => exact postTo_orderly debug visited found
  | quit thread => simp [Call.script]
  | signalTermination visited found => exact signalTermination_orderly visited found

end Calls

/-! ## Deadlocks -/

/-- One turn of a thread. -/
abbrev turn {Thread : Type} [Fintype Thread] [DecidableEq Thread] (debug : Bool) :
    State Thread Mutex → Turn Thread Call → Option (State Thread Mutex) :=
  step recursive (Call.script debug)

theorem not_mem_of_descends (held : List Mutex) (mutex : Mutex) (descends : Descends held mutex) :
    mutex ∉ held := by
  obtain ⟨rfl | rfl, -, application, logger⟩ := descends
  · exact application
  · exact logger

/-- Whoever is blocked while it holds the logger's lock holds that of the application. -/
theorem application_mem_of_blocked {Thread : Type} {state : State Thread Mutex}
    (sound : Sound recursive Allowed state) {thread : Thread} {mutex : Mutex}
    (blocked : (state thread).waitingFor = some mutex)
    (logger : Mutex.logger ∈ (state thread).held) :
    Mutex.application ∈ (state thread).held := by
  rcases sound.waits thread mutex blocked with ascends | gated | descends
  · exact ascends.2 (List.ne_nil_of_mem logger)
  · exact absurd logger gated.2.2
  · exact absurd logger descends.2.2.2

/-- No cycle of threads each waiting for a lock the next one holds is reached, while no thread that
holds a lock is blocked for a lock of one that is blocked in a request that goes down. -/
theorem notDeadlocked_of_apart {Thread : Type} [Fintype Thread] [DecidableEq Thread]
    {debug : Bool} {turns : List (Turn Thread Call)}
    {final : State Thread Mutex}
    (apart : Runs.Along (turn debug) (Apart Descends recursive) idle turns)
    (run : Runs.exec (turn debug) idle turns = some final) : ¬Deadlocked final := by
  obtain ⟨sound, parted⟩ :=
    sound_and_parted_of_exec (script_orderly debug) not_mem_of_descends apart run
  refine not_deadlocked rank ?_
  intro thread other third lock next further holds waiting member blocked gate stuck
  rcases sound.waits other next blocked with ascends | gated | descends
  · exact ascends.1 lock member
  · -- The holder of the logger's lock would hold that of the application too.
    obtain ⟨rfl, application, logger⟩ := gated
    have distinct : other ≠ third := by
      rintro rfl
      exact logger gate
    have again := application_mem_of_blocked sound stuck gate
    exact absurd again (sound.exclusive other third distinct .application application)
  · exact absurd ⟨next, blocked, descends⟩ (parted thread other holds ⟨lock, waiting, member⟩)

/-- Of threads that are not kept apart, one that is blocked for the lock of the application is in a
cycle at once; one that quits asks for that lock after the logger's. -/
theorem deadlocked_of_waitsFor {Thread : Type} {state : State Thread Mutex}
    (sound : Sound recursive Allowed state) {thread other : Thread}
    (holds : (state thread).held ≠ []) (waits : WaitsFor state thread other)
    (blocked : (state other).waitingFor = some .application)
    (descends : Descends (state other).held .application) : Deadlocked state := by
  obtain ⟨mutex, asked, member⟩ := waits
  have application : Mutex.application ∈ (state thread).held := by
    rcases sound.waits thread mutex asked with ascends | gated | ⟨rfl | rfl, -⟩
    · exact ascends.2 holds
    · exact gated.2.1
    · exact absurd member descends.2.2.1
    · exact absurd member descends.2.2.2
  exact ⟨thread, .tail (.single ⟨mutex, asked, member⟩) ⟨.application, blocked, application⟩⟩

/-- A thread quits, and is blocked for a while by one that posts. -/
theorem notDeadlocked_quit :
    ∃ final : State (Fin 2) Mutex,
      Runs.exec (turn true) idle
        [.begin 0 (.quit 1), .begin 1 .post, .act 0, .act 1, .act 0, .act 0, .act 0, .act 0,
          .act 0, .act 1, .act 0] = some final ∧ ¬Deadlocked final := by
  obtain ⟨final, run⟩ := Option.isSome_iff_exists.mp (show (Runs.exec (turn true)
    (idle : State (Fin 2) Mutex)
    [.begin 0 (.quit 1), .begin 1 .post, .act 0, .act 1, .act 0, .act 0, .act 0, .act 0,
      .act 0, .act 1, .act 0]).isSome from by decide)
  exact ⟨final, run, notDeadlocked_of_apart (by decide) run⟩

/-- A thread that is at its end quits while the application looks for threads to stop. -/
theorem notDeadlocked_fails :
    ¬∀ (threads : Nat) (debug : Bool) (turns : List (Turn (Fin threads) Call))
      (final : State (Fin threads) Mutex),
      Runs.exec (turn debug) idle turns = some final → ¬Deadlocked final := by
  intro safe
  have cycle : (Runs.exec (turn true) (idle : State (Fin 2) Mutex)
      (.begin 0 (.quit 1) :: .act 0 :: .begin 1 (.stop [⟨[(1, true)], [(1, false)]⟩]) ::
        List.replicate 4 (.act 1) ++ List.replicate 5 (.act 0))).map
      (fun final => decide (WaitsFor final 0 1 ∧ WaitsFor final 1 0)) = some true := by
    decide
  obtain ⟨final, run, waits⟩ := Option.map_eq_some_iff.mp cycle
  obtain ⟨first, second⟩ := of_decide_eq_true waits
  exact safe 2 true _ final run ⟨0, .tail (.single first) second⟩

end Drumlin.Locking
