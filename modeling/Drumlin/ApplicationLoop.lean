import Drumlin.Library.Runs
import Drumlin.ThreadPool

/-!
# The loop of the application

`Application::exec` (application.cpp) pulls one event after another and hands it to
`Application::event`, until the application is terminated or its thread interrupted.  `event`
removes threads, stops them, and turns the end of the last thread into the end of the application.
Anyone may post, interrupt the loop or add a thread in between.
-/

namespace Drumlin

/-! ## The code -/

/-- Where `Application::exec` is. -/
inductive ExecPoint
  /-- At the condition of the loop. -/
  | test
  | interruptionPoint
  /-- At `try_pull`. -/
  | pull
  /-- In `stop`, before the round of a type. -/
  | stop (type : Nat)
  /-- In the round of a type, with the threads that are left to quit or to wait for. -/
  | settle (type : Nat) (todo : List Nat)
  | sleep
  | returned (code : Nat)
deriving DecidableEq, Repr

/-- What a step of `exec` reads of threads. -/
structure Reading where
  /-- The thread that is removed, quit or waited for. -/
  status : ThreadStatus
  /-- The types of the workers there are. -/
  worker : Nat → Option Nat

/-- The application as its loop has it, and what it did. -/
structure ApplicationLoop where
  /-- `m_threads`, `m_queue` and the threads deleted. -/
  application : Application
  /-- `terminated`. -/
  isTerminated : Bool
  /-- What `interruption_requested` returns. -/
  isInterrupted : Bool
  /-- `Tracer::tracer` is set. -/
  hasTracer : Bool
  /-- Where `exec` is. -/
  point : ExecPoint
  /-- The events posted to the application, in order. -/
  posted : List Event
  /-- The events `event` was called with, in order. -/
  handled : List Event
  /-- Those of them that were logged as unhandled. -/
  unhandled : List Event
  /-- The threads whose `terminate` was called, in order. -/
  terminated : List Nat
  /-- How often the trace was written. -/
  traces : Nat
deriving DecidableEq, Repr

namespace ApplicationLoop

/-- An application with these threads before its `exec`. -/
def start (threads : List Nat) : ApplicationLoop where
  application := { Application.start with threads }
  isTerminated := false
  isInterrupted := false
  hasTracer := false
  point := .test
  posted := []
  handled := []
  unhandled := []
  terminated := []
  traces := 0

/-- `Application::post`. -/
def post (event : Event) (app : ApplicationLoop) : ApplicationLoop :=
  { app with application := app.application.post event, posted := app.posted ++ [event] }

/-- The event that ends the loop. -/
def shutdownEvent : Event := ⟨.applicationShutdown, "Shutdown::shutdown", Cxx.nullptr⟩

/-- The event that is to begin anew. -/
def restartEvent : Event := ⟨.applicationRestart, "Shutdown::restart", Cxx.nullptr⟩

/-- `Application::shutdown`. -/
def shutdown (restarting : Bool) (app : ApplicationLoop) : ApplicationLoop :=
  app.post (if restarting then restartEvent else shutdownEvent)

/-- `Application::quit`. -/
def quit (app : ApplicationLoop) : ApplicationLoop := { app with isTerminated := true }

/-- `Tracer::endTrace`. -/
def endTrace (app : ApplicationLoop) : ApplicationLoop :=
  if app.hasTracer then { app with traces := app.traces + 1 } else app

/-- `Application::removeThread`, with the message of the exception it throws. -/
def removeThread (thread : Nat) (status : ThreadStatus) (app : ApplicationLoop) :
    ApplicationLoop × Option String :=
  let removal := app.application.removeThread thread status
  ({ app with
      application := removal.1
      posted := app.posted ++ removal.1.queue.drop app.application.queue.length }, removal.2)

/-- `Application::event`, with what it returns.  For an `ApplicationClose` it goes on in `stop`. -/
def event (last : Nat) (status : ThreadStatus) (event : Event) (app : ApplicationLoop) :
    ApplicationLoop × Bool :=
  match event.type with
  | .threadWarning => (app, true)
  | .threadRemove =>
      let removal := app.removeThread event.pointer status
      (removal.1, removal.2.isNone)
  | .applicationClose => ({ app with point := .stop last }, true)
  | .applicationThreadsGone => (app.shutdown (event.pointer != Cxx.nullptr), true)
  | .applicationShutdown => (app.endTrace.quit, true)
  | .applicationRestart => (app, true)
  | .threadWork | .threadNotify | .threadShutdown => (app, false)

/-- `Application::exec` up to its next point.  The types of workers are those above `first`, up to
`last`. -/
def exec (first last : Nat) (reading : Reading) (app : ApplicationLoop) :
    Option ApplicationLoop :=
  match app.point with
  | .test =>
      if !app.isTerminated && !app.isInterrupted then
        some { app with point := .interruptionPoint }
      else some { app with point := .returned 0 }
  | .interruptionPoint =>
      if app.isInterrupted then
        some ({ app with isInterrupted := false, point := .returned 1 }.shutdown false)
      else some { app with point := .pull }
  | .pull =>
      match app.application.queue with
      | [] => some { app with point := .sleep }
      | pulled :: queue =>
          let (next, isHandled) :=
            { app with
              application := { app.application with queue }
              handled := app.handled ++ [pulled]
              point := .sleep }.event last reading.status pulled
          some (if isHandled then next else { next with unhandled := next.unhandled ++ [pulled] })
  | .stop type =>
      if first < type then
        let selected :=
          app.application.threads.filter fun thread => reading.worker thread = some type
        some { app with terminated := app.terminated ++ selected, point := .settle type selected }
      else some { app with point := .sleep }
  | .settle type [] => some { app with point := .stop (type - 1) }
  | .settle type (thread :: todo) =>
      if reading.status.isStarted then some { app with point := .settle type todo }
      else some { app.post (Threads.removeEvent thread) with point := .settle type todo }
  | .sleep =>
      if app.isInterrupted then
        some ({ app with isInterrupted := false, point := .returned 1 }.shutdown false)
      else some { app with point := .test }
  | .returned _ => none

/-- What happens next: the loop goes on, or anyone posts an event, interrupts the loop, starts a
trace or adds a thread. -/
inductive Act
  | exec (reading : Reading)
  | post (event : Event)
  | interrupt
  | startTrace
  | addThread (thread : Nat) (startWork : Bool)

/-- One act.  Nothing is defined for the loop after it has returned. -/
def step (first last : Nat) (app : ApplicationLoop) : Act → Option ApplicationLoop
  | .exec reading => app.exec first last reading
  | .post event => some (app.post event)
  | .interrupt => some { app with isInterrupted := true }
  | .startTrace => some { app with hasTracer := true }
  | .addThread thread startWork =>
      some { app with application := app.application.addThread thread startWork }

variable {first last : Nat} {app next final : ApplicationLoop} {act : Act}

/-! ## What an event does -/

@[simp] theorem post_queue (event : Event) (app : ApplicationLoop) :
    (app.post event).application.queue = app.application.queue ++ [event] := rfl

@[simp] theorem post_threads (event : Event) (app : ApplicationLoop) :
    (app.post event).application.threads = app.application.threads := rfl

@[simp] theorem post_deleted (event : Event) (app : ApplicationLoop) :
    (app.post event).application.deleted = app.application.deleted := rfl

@[simp] theorem post_posted (event : Event) (app : ApplicationLoop) :
    (app.post event).posted = app.posted ++ [event] := rfl

@[simp] theorem post_point (event : Event) (app : ApplicationLoop) :
    (app.post event).point = app.point := rfl

@[simp] theorem post_handled (event : Event) (app : ApplicationLoop) :
    (app.post event).handled = app.handled := rfl

@[simp] theorem post_isTerminated (event : Event) (app : ApplicationLoop) :
    (app.post event).isTerminated = app.isTerminated := rfl

@[simp] theorem post_terminated (event : Event) (app : ApplicationLoop) :
    (app.post event).terminated = app.terminated := rfl

/-- Posting what the application says itself: a thread is gone, or asks to be removed. -/
theorem removeThread_eq (thread : Nat) (status : ThreadStatus) (app : ApplicationLoop) :
    status.isRunning = true ∧ (app.removeThread thread status).1 = app ∧
        (app.removeThread thread status).2.isNone = false ∨
      status.isRunning = false ∧ (app.removeThread thread status).2.isNone = true ∧
        ∃ removed : ApplicationLoop,
          removed = { app with
            application :=
              { app.application with
                threads := (Cxx.remove thread app.application.threads).1
                deleted := app.application.deleted ++ [thread] } } ∧
          (app.removeThread thread status).1 =
            if ∀ other ∈ app.application.threads, other = thread then
              removed.post Application.threadsGone
            else removed := by
  rcases app.application.removeThread_cases thread status with
    ⟨running, refused⟩ | ⟨running, removed⟩
  · refine .inl ⟨running, ?_, ?_⟩
    · simp [removeThread, refused]
    · simp [removeThread, refused]
  · refine .inr ⟨running, by simp [removeThread, removed], _, rfl, ?_⟩
    by_cases gone : ∀ other ∈ app.application.threads, other = thread
    · rw [if_pos gone] at removed ⊢
      simp [removeThread, removed, post, Application.post]
    · rw [if_neg gone] at removed ⊢
      simp [removeThread, removed]

/-- The trace is written before the loop is told to end. -/
theorem endTrace_quit (app : ApplicationLoop) :
    app.endTrace.quit = { app with isTerminated := true, traces := app.endTrace.traces } := by
  unfold endTrace
  split <;> rfl

/-- The application after an event was pulled and before it is handled. -/
def pulled (event : Event) (queue : List Event) (app : ApplicationLoop) : ApplicationLoop :=
  { app with
    application := { app.application with queue }
    handled := app.handled ++ [event]
    point := .sleep }

/-- What `event` does, by the type of the event. -/
inductive Handles (last : Nat) (app : ApplicationLoop) : Event → ApplicationLoop → Prop
  | ignore (event : Event) (isHandled : Bool) (type : event.type ≠ .applicationShutdown) :
      Handles last app event
        { app with unhandled := if isHandled then app.unhandled else app.unhandled ++ [event] }
  | removeLast (event : Event) (type : event.type = .threadRemove) (status : ThreadStatus)
      (idle : status.isRunning = false)
      (gone : ∀ other ∈ app.application.threads, other = event.pointer) :
      Handles last app event
        ({ app with
          application :=
            { app.application with
              threads := (Cxx.remove event.pointer app.application.threads).1
              deleted := app.application.deleted ++ [event.pointer] } }.post
          Application.threadsGone)
  | remove (event : Event) (type : event.type = .threadRemove) (status : ThreadStatus)
      (idle : status.isRunning = false)
      (left : ¬∀ other ∈ app.application.threads, other = event.pointer) :
      Handles last app event
        { app with
          application :=
            { app.application with
              threads := (Cxx.remove event.pointer app.application.threads).1
              deleted := app.application.deleted ++ [event.pointer] } }
  | close (event : Event) (type : event.type = .applicationClose) :
      Handles last app event { app with point := .stop last }
  | gone (event : Event) (type : event.type = .applicationThreadsGone) (restarting : Bool) :
      Handles last app event (app.shutdown restarting)
  | shutdown (event : Event) (type : event.type = .applicationShutdown) (traces : Nat) :
      Handles last app event { app with isTerminated := true, traces }

/-- What an act does. -/
inductive Moves (first last : Nat) (app : ApplicationLoop) : Act → ApplicationLoop → Prop
  | post (event : Event) : Moves first last app (.post event) (app.post event)
  | interrupt : Moves first last app .interrupt { app with isInterrupted := true }
  | startTrace : Moves first last app .startTrace { app with hasTracer := true }
  | addThread (thread : Nat) (startWork : Bool) :
      Moves first last app (.addThread thread startWork)
        { app with application := app.application.addThread thread startWork }
  | enter {reading : Reading} (place : app.point = .test) (goes : app.isTerminated = false) :
      Moves first last app (.exec reading) { app with point := .interruptionPoint }
  | leave {reading : Reading} (place : app.point = .test)
      (ends : app.isTerminated = true ∨ app.isInterrupted = true) :
      Moves first last app (.exec reading) { app with point := .returned 0 }
  | interrupted {reading : Reading}
      (place : app.point = .interruptionPoint ∨ app.point = .sleep) :
      Moves first last app (.exec reading)
        ({ app with isInterrupted := false, point := .returned 1 }.shutdown false)
  | come {reading : Reading} (place : app.point = .interruptionPoint) :
      Moves first last app (.exec reading) { app with point := .pull }
  | idle {reading : Reading} (place : app.point = .pull) (empty : app.application.queue = []) :
      Moves first last app (.exec reading) { app with point := .sleep }
  | handle {reading : Reading} (place : app.point = .pull) (event : Event) (queue : List Event)
      (waiting : app.application.queue = event :: queue) (next : ApplicationLoop)
      (handles : (app.pulled event queue).Handles last event next) :
      Moves first last app (.exec reading) next
  | round {reading : Reading} (type : Nat) (place : app.point = .stop type)
      (more : first < type) (selected : List Nat)
      (selects : selected =
        app.application.threads.filter fun thread => reading.worker thread = some type) :
      Moves first last app (.exec reading)
        { app with
          terminated := app.terminated ++ selected
          point := .settle type selected }
  | rounded {reading : Reading} (type : Nat) (place : app.point = .stop type)
      (ended : ¬first < type) : Moves first last app (.exec reading) { app with point := .sleep }
  | settled {reading : Reading} (type : Nat) (place : app.point = .settle type []) :
      Moves first last app (.exec reading) { app with point := .stop (type - 1) }
  | settleQuit {reading : Reading} (type thread : Nat) (todo : List Nat)
      (place : app.point = .settle type (thread :: todo)) :
      Moves first last app (.exec reading)
        { app.post (Threads.removeEvent thread) with point := .settle type todo }
  | settleWait {reading : Reading} (type thread : Nat) (todo : List Nat)
      (place : app.point = .settle type (thread :: todo)) :
      Moves first last app (.exec reading) { app with point := .settle type todo }
  | wake {reading : Reading} (place : app.point = .sleep) :
      Moves first last app (.exec reading) { app with point := .test }

theorem handles_of_event (last : Nat) (status : ThreadStatus) (pulled : Event)
    (app : ApplicationLoop) {result : ApplicationLoop × Bool}
    (taken : app.event last status pulled = result) :
    app.Handles last pulled
      (if result.2 then result.1
        else { result.1 with unhandled := result.1.unhandled ++ [pulled] }) := by
  subst taken
  cases type : pulled.type with
  | threadWarning | applicationRestart =>
      simpa [event, type] using Handles.ignore pulled true (by simp [type])
  | threadWork | threadNotify | threadShutdown =>
      simpa [event, type] using Handles.ignore pulled false (by simp [type])
  | applicationClose => simpa [event, type] using Handles.close pulled type
  | applicationThreadsGone => simpa [event, type] using Handles.gone pulled type _
  | applicationShutdown =>
      simp only [event, type, if_true, endTrace_quit]
      exact .shutdown pulled type _
  | threadRemove =>
      simp only [event, type]
      rcases app.removeThread_eq pulled.pointer status with
        ⟨-, same, refused⟩ | ⟨idle, done, removed, rfl, same⟩
      · rw [same, refused]
        simpa using Handles.ignore pulled false (by simp [type])
      · rw [same, done, if_pos rfl]
        split
        · exact .removeLast pulled type status idle ‹_›
        · exact .remove pulled type status idle ‹_›

theorem moves_of_step (taken : app.step first last act = some next) :
    app.Moves first last act next := by
  cases act with
  | post event =>
      obtain rfl := Option.some.inj taken
      exact .post event
  | interrupt =>
      obtain rfl := Option.some.inj taken
      exact .interrupt
  | startTrace =>
      obtain rfl := Option.some.inj taken
      exact .startTrace
  | addThread thread startWork =>
      obtain rfl := Option.some.inj taken
      exact .addThread thread startWork
  | exec reading =>
      simp only [step, exec] at taken
      split at taken
      · rename_i place
        split at taken <;> obtain rfl := Option.some.inj taken
        · rename_i goes
          simp only [Bool.and_eq_true, Bool.not_eq_true'] at goes
          exact .enter place goes.1
        · rename_i ends
          refine .leave place ?_
          cases terminated : app.isTerminated <;> simp_all
      · rename_i place
        split at taken <;> obtain rfl := Option.some.inj taken
        · exact .interrupted (.inl place)
        · exact .come place
      · rename_i place
        split at taken
        · obtain rfl := Option.some.inj taken
          exact .idle place ‹_›
        · rename_i event queue waiting
          obtain rfl := Option.some.inj taken
          exact .handle place event queue waiting _ (handles_of_event last _ event _ rfl)
      · rename_i type place
        split at taken <;> obtain rfl := Option.some.inj taken
        · exact .round type place ‹_› _ rfl
        · exact .rounded type place ‹_›
      · rename_i type place
        obtain rfl := Option.some.inj taken
        exact .settled type place
      · rename_i type thread todo place
        split at taken <;> obtain rfl := Option.some.inj taken
        · exact .settleWait type thread todo place
        · exact .settleQuit type thread todo place
      · rename_i place
        split at taken <;> obtain rfl := Option.some.inj taken
        · exact .interrupted (.inr place)
        · exact .wake place
      · simp at taken

/-! ## Every event in its turn -/

/-- The events are handled in the order in which they were posted, none twice and none left out, up
to the first `ApplicationShutdown`; `exec` returns 0 when that was handled or an interruption is
pending, and otherwise 1, when it was interrupted and leaves a shutdown behind that nobody
handles. -/
structure InTurn (app : ApplicationLoop) : Prop where
  fifo : app.handled ++ app.application.queue = app.posted
  front : ∀ event ∈ app.handled.dropLast, event.type ≠ .applicationShutdown
  ends : app.isTerminated = true ↔ ∃ event ∈ app.handled, event.type = .applicationShutdown
  returns : ∀ code, app.point = .returned code →
    code = 0 ∧ (app.isTerminated = true ∨ app.isInterrupted = true) ∨
      code = 1 ∧ shutdownEvent ∈ app.application.queue

/-- The loop is in a turn that it began before it was terminated. -/
def InTime (app : ApplicationLoop) : Prop :=
  app.point = .interruptionPoint ∨ app.point = .pull → app.isTerminated = false

theorem inTurn_start (threads : List Nat) : (start threads).InTurn :=
  ⟨rfl, by simp [start], by simp [start], by simp [start]⟩

/-- What is kept if only the queue and the record of what was posted grow. -/
theorem InTurn.post (inTurn : app.InTurn) (event : Event) : (app.post event).InTurn := by
  refine ⟨?_, inTurn.front, inTurn.ends, fun code returned => ?_⟩
  · rw [post_handled, post_queue, post_posted, ← List.append_assoc, inTurn.fifo]
  · rcases inTurn.returns code returned with zero | ⟨one, left⟩
    · exact .inl zero
    · exact .inr ⟨one, by simp [left]⟩

/-- What is kept if the loop only goes to another point. -/
theorem InTurn.move (inTurn : app.InTurn) (point : ExecPoint)
    (inside : ∀ code, point ≠ .returned code) :
    { app with point }.InTurn :=
  ⟨inTurn.fifo, inTurn.front, inTurn.ends, fun code returned => (inside code returned).elim⟩

/-- Another event is pulled. -/
theorem InTurn.pulled (inTurn : app.InTurn) (goes : app.isTerminated = false) {event : Event}
    {queue : List Event} (waiting : app.application.queue = event :: queue) :
    (app.pulled event queue).handled ++ queue = app.posted ∧
      (∀ other ∈ (app.pulled event queue).handled.dropLast, other.type ≠ .applicationShutdown) ∧
      ((∃ other ∈ (app.pulled event queue).handled, other.type = .applicationShutdown) ↔
        event.type = .applicationShutdown) := by
  have none_before : ∀ other ∈ app.handled, other.type ≠ .applicationShutdown := by
    intro other member shutdown
    have terminated := inTurn.ends.mpr ⟨other, member, shutdown⟩
    simp [goes] at terminated
  refine ⟨?_, ?_, ?_⟩
  · rw [← inTurn.fifo, waiting, ApplicationLoop.pulled, List.append_assoc, List.singleton_append]
  · simpa [ApplicationLoop.pulled] using none_before
  · simp only [ApplicationLoop.pulled, List.mem_append, List.mem_singleton]
    constructor
    · rintro ⟨other, member | rfl, shutdown⟩
      · exact (none_before other member shutdown).elim
      · exact shutdown
    · exact fun shutdown => ⟨event, .inr rfl, shutdown⟩

theorem InTurn.handles (inTurn : app.InTurn) (goes : app.isTerminated = false) {event : Event}
    {queue : List Event} (waiting : app.application.queue = event :: queue)
    (handles : (app.pulled event queue).Handles last event next) : next.InTurn := by
  obtain ⟨fifo, front, only⟩ := inTurn.pulled goes waiting
  have open_of (type : event.type ≠ .applicationShutdown) :
      (app.pulled event queue).InTurn := by
    refine ⟨fifo, front, ?_, fun code returned => ?_⟩
    · refine iff_of_false ?_ fun found => type (only.mp found)
      simp [ApplicationLoop.pulled, goes]
    · simp [ApplicationLoop.pulled] at returned
  cases handles with
  | ignore isHandled type =>
      obtain ⟨fifo, front, ends, returns⟩ := open_of type
      exact ⟨fifo, front, ends, returns⟩
  | removeLast type status idle gone =>
      obtain ⟨fifo, front, ends, returns⟩ := open_of (by simp [type])
      refine InTurn.post ?_ _
      exact ⟨fifo, front, ends, returns⟩
  | remove type status idle left =>
      obtain ⟨fifo, front, ends, returns⟩ := open_of (by simp [type])
      exact ⟨fifo, front, ends, returns⟩
  | close type => exact (open_of (by simp [type])).move _ (by simp)
  | gone type restarting => exact (open_of (by simp [type])).post _
  | shutdown type traces =>
      refine ⟨fifo, front, iff_of_true rfl (only.mpr type), fun code returned => ?_⟩
      simp [ApplicationLoop.pulled] at returned

theorem InTurn.moves (inTurn : app.InTurn) (inTime : app.InTime)
    (moves : app.Moves first last act next) : next.InTurn := by
  cases moves with
  | post event => exact inTurn.post event
  | interrupt =>
      refine ⟨inTurn.fifo, inTurn.front, inTurn.ends, fun code returned => ?_⟩
      rcases inTurn.returns code returned with ⟨zero, -⟩ | one
      · exact .inl ⟨zero, .inr rfl⟩
      · exact .inr one
  | startTrace => exact ⟨inTurn.fifo, inTurn.front, inTurn.ends, inTurn.returns⟩
  | addThread thread startWork =>
      have queue : (app.application.addThread thread startWork).queue = app.application.queue := by
        unfold Application.addThread
        split <;> rfl
      refine ⟨?_, inTurn.front, inTurn.ends, fun code returned => ?_⟩
      · exact queue ▸ inTurn.fifo
      · exact queue ▸ inTurn.returns code returned
  | enter place goes => exact inTurn.move _ (by simp)
  | leave place ends =>
      refine ⟨inTurn.fifo, inTurn.front, inTurn.ends, ?_⟩
      rintro code ⟨⟩
      exact .inl ⟨rfl, ends⟩
  | interrupted place =>
      refine ⟨?_, inTurn.front, inTurn.ends, ?_⟩
      · exact (inTurn.post shutdownEvent).fifo
      · rintro code ⟨⟩
        exact .inr ⟨rfl, List.mem_append_right _ (List.mem_singleton.mpr rfl)⟩
  | come place => exact inTurn.move _ (by simp)
  | idle place empty => exact inTurn.move _ (by simp)
  | handle place event queue waiting next handles =>
      exact inTurn.handles (inTime (.inr place)) waiting handles
  | round type place more selected selects =>
      exact ⟨inTurn.fifo, inTurn.front, inTurn.ends, by simp⟩
  | rounded type place ended => exact inTurn.move _ (by simp)
  | settled type place => exact inTurn.move _ (by simp)
  | settleQuit type thread todo place => exact (inTurn.post _).move _ (by simp)
  | settleWait type thread todo place => exact inTurn.move _ (by simp)
  | wake place => exact inTurn.move _ (by simp)

theorem InTime.moves (inTime : app.InTime) (moves : app.Moves first last act next) :
    next.InTime := by
  cases moves with
  | post | interrupt | startTrace | addThread => exact inTime
  | enter place goes => exact fun _ => goes
  | come place => exact fun _ => inTime (.inl place)
  | handle place event queue waiting next handles =>
      intro again
      cases handles <;> simp [pulled, shutdown, ApplicationLoop.post] at again
  | leave | interrupted | idle | round | rounded | settled | settleQuit | settleWait | wake =>
      intro again
      simp [shutdown] at again

/-- In every run of the application, whoever posts to it and interrupts it, every event is handled
in its turn. -/
theorem exec_inTurn (first last : Nat) (threads : List Nat) {acts : List Act}
    (run : Runs.exec (step first last) (start threads) acts = some final) : final.InTurn := by
  have preserved (app : ApplicationLoop) (act : Act) (next : ApplicationLoop)
      (before : app.InTurn ∧ app.InTime) (taken : app.step first last act = some next) :
      next.InTurn ∧ next.InTime :=
    ⟨before.1.moves before.2 (moves_of_step taken), before.2.moves (moves_of_step taken)⟩
  have inTime : (start threads).InTime := by simp [InTime, start]
  exact (Runs.exec_invariant_of_forall preserved ⟨inTurn_start threads, inTime⟩ run).1

/-- A thread is removed, the application shut down and the loop left, with an event behind the
shutdown that nobody handles. -/
theorem exec_inTurn_shutdown :
    ∃ acts final, Runs.exec (step 0 2) (start [7]) acts = some final ∧ final.InTurn ∧
      final.point = .returned 0 ∧ final.application.queue ≠ [] := by
  let on : Act := .exec ⟨⟨true, true, ""⟩, fun _ => none⟩
  have run : Runs.exec (step 0 2) (start [7])
      (.post (Threads.removeEvent 7) :: List.replicate 12 on ++
        [.post (Threads.removeEvent 8), on]) = some _ := rfl
  exact ⟨_, _, run, exec_inTurn 0 2 [7] run, rfl, by decide⟩

end ApplicationLoop

end Drumlin
