import Drumlin.Library.Cxx

/-!
# The application and its threads

`Application` (application.h, application.cpp) lists the threads in the vector `m_threads`.  A
thread that ended asks for its removal with an event, and the application shuts down when the last
thread is gone.  This is the application as one call after another finds it; threads are known by
number.
-/

namespace Drumlin

/-- `DrumlinEventType`, without the values that only mark ranges. -/
inductive EventType
  | threadWork
  | threadNotify
  | threadWarning
  | threadShutdown
  | threadRemove
  | applicationClose
  | applicationThreadsGone
  | applicationShutdown
  | applicationRestart
deriving DecidableEq, Repr

/-- `Event`. -/
structure Event where
  /-- `m_type`. -/
  type : EventType
  /-- `m_string`. -/
  name : String
  /-- `m_ptr`. -/
  pointer : Nat
deriving DecidableEq, Repr

/-- What `removeThread` reads of a thread. -/
structure ThreadStatus where
  /-- What `isStarted` returns. -/
  isStarted : Bool
  /-- What `isTerminated` returns. -/
  isTerminated : Bool
  /-- What the stream operator writes. -/
  shown : String
deriving DecidableEq, Repr

/-- The thread was started and did not terminate. -/
def ThreadStatus.isRunning (status : ThreadStatus) : Bool :=
  status.isStarted && !status.isTerminated

/-- `Application`, and what it did to its threads. -/
structure Application where
  /-- `m_threads`. -/
  threads : List Nat
  /-- `m_queue`. -/
  queue : List Event
  /-- The events posted to threads. -/
  threadEvents : List (Nat × Event)
  /-- The threads whose `start` was called. -/
  started : List Nat
  /-- The threads deleted. -/
  deleted : List Nat
deriving DecidableEq, Repr

namespace Application

/-- An application without threads. -/
def start : Application := ⟨[], [], [], [], []⟩

/-- `Application::post`. -/
def post (event : Event) (app : Application) : Application :=
  { app with queue := app.queue ++ [event] }

/-- The event that there are no threads left. -/
def threadsGone : Event := ⟨.applicationThreadsGone, "threadsGone", Cxx.nullptr⟩

/-- `Application::addThread`. -/
def addThread (thread : Nat) (startWork : Bool) (app : Application) : Application :=
  let added := { app with threads := app.threads ++ [thread] }
  if startWork then
    { added with
      threadEvents :=
        added.threadEvents ++ [(thread, ⟨.threadNotify, "beforeStart", Cxx.nullptr⟩)]
      started := added.started ++ [thread] }
  else added

/-- `Application::removeThread`, with the message of the exception it throws.  The vector is not
shortened after `std::remove`. -/
def removeThread (thread : Nat) (status : ThreadStatus) (app : Application) :
    Application × Option String :=
  if status.isRunning then
    (app, some (status.shown ++ " : not terminated\n"))
  else
    let (threads, distance) := Cxx.remove thread app.threads
    let removed := { app with threads, deleted := app.deleted ++ [thread] }
    (if distance = 0 then removed.post threadsGone else removed, none)

/-- The two outcomes of `removeThread`: it throws and changes nothing, or deletes the thread, and
says that the threads are gone if it finds no entry for another. -/
theorem removeThread_cases (thread : Nat) (status : ThreadStatus) (app : Application) :
    status.isRunning = true ∧
      app.removeThread thread status = (app, some (status.shown ++ " : not terminated\n")) ∨
    status.isRunning = false ∧
      app.removeThread thread status =
        ({ app with
            threads := (Cxx.remove thread app.threads).1
            queue := app.queue ++
              if ∀ other ∈ app.threads, other = thread then [threadsGone] else []
            deleted := app.deleted ++ [thread] }, none) := by
  cases running : status.isRunning with
  | true => exact .inl ⟨rfl, by simp [removeThread, running]⟩
  | false =>
      refine .inr ⟨rfl, ?_⟩
      by_cases gone : ∀ other ∈ app.threads, other = thread
      · have distance := (Cxx.remove_snd_eq_zero_iff thread _).mpr gone
        rw [if_pos gone]
        simp [removeThread, running, distance, post]
      · have distance := mt (Cxx.remove_snd_eq_zero_iff thread _).mp gone
        rw [if_neg gone]
        simp [removeThread, running, distance]

end Application

end Drumlin
