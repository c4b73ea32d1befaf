import Drumlin.Library.Runs
import Drumlin.ThreadPool

/-!
# Shutting a thread down

`Thread::event` answers a `ThreadShutdown` with `quit`, which asks the application for the removal
of the thread and does nothing else.  This is one started thread, event by event, and the
application that pulls its removal.
-/

namespace Drumlin

/-- Where `Thread::run` is. -/
inductive RunPoint
  | entry
  | postWork
  | loop
  | tryLock
  | exec
  | tick
  | sleep
  | leave
  | reset
  | clearReady
  | quit
  | done
  /-- An interruption came out of `run`. -/
  | interrupted
deriving DecidableEq, Repr

/-- A started thread and the application, with a record of what they did. -/
structure StartedThread where
  /-- The thread. -/
  this : Thread
  /-- Its number. -/
  number : Nat
  /-- `m_queue`. -/
  queue : List Event
  /-- What `interruption_requested` returns. -/
  isInterrupted : Bool
  /-- Where its `run` is. -/
  point : RunPoint
  /-- The application. -/
  application : Application
  /-- The events `work` was called with. -/
  works : List Event
  /-- `event` handled a `ThreadShutdown`. -/
  isShutDown : Bool
  /-- The messages of the exceptions `removeThread` threw for the thread. -/
  exceptions : List String
deriving DecidableEq, Repr

namespace StartedThread

/-- A thread just started, with what was posted to it before. -/
def start (number : Nat) (task : String) (worker : Nat) (queue : List Event)
    (application : Application) : StartedThread where
  this := ⟨task, some worker, some worker, true, false, false, some 0⟩
  number := number
  queue := queue
  isInterrupted := false
  point := .entry
  application := application
  works := []
  isShutDown := false
  exceptions := []

/-- `Thread::post`. -/
def post (event : Event) (thread : StartedThread) : StartedThread :=
  { thread with queue := thread.queue ++ [event] }

/-- `Thread::quit`.  The call that would interrupt the thread is commented out. -/
def quit (thread : StartedThread) : StartedThread :=
  { thread with application := thread.application.post (Threads.removeEvent thread.number) }

/-- What the `event` of the worker returns: it may consume any event but a `ThreadShutdown`. -/
def consumes (choice : Bool) (event : Event) : Bool :=
  choice && event.type != .threadShutdown

/-- `Thread::event`, with what it returns. -/
def event (choice : Bool) (event : Event) (thread : StartedThread) : StartedThread × Bool :=
  if consumes choice event then
    (thread, true)
  else
    match event.type with
    | .threadWork => ({ thread with works := thread.works ++ [event] }, true)
    | .threadShutdown => ({ thread.quit with isShutDown := true }, true)
    | _ => (thread, false)

/-- `Thread::exec`.  An interruption is thrown before an event is pulled, and its handler writes the
event to the log: nothing is defined then. -/
def exec (choice : Bool) (thread : StartedThread) : Option StartedThread :=
  if thread.isInterrupted then
    none
  else
    match thread.queue with
    | [] => some thread
    | next :: queue => some ({ thread with queue }.event choice next).1

/-- What a thread handles in every turn of its loop. -/
def tickEvent : Event := ⟨.threadWork, "tick", Cxx.nullptr⟩

/-- `Thread::run`, up to its next point.  The choice is whether `try_lock` succeeds, and whether the
worker consumes an event. -/
def run (choice : Bool) (thread : StartedThread) : Option StartedThread :=
  let this := thread.this
  match thread.point with
  | .entry =>
      some { thread.post ⟨.threadNotify, "beforeWork", Cxx.nullptr⟩ with point := .postWork }
  | .postWork =>
      some { thread.post ⟨.threadWork, "work", Cxx.nullptr⟩ with
        point := if this.isTerminated then .reset else .loop }
  | .loop =>
      let goesOn :=
        this.isReady && !this.isDeleting && !this.isTerminated && !thread.isInterrupted
      some { thread with point := if goesOn then .tryLock else .leave }
  | .tryLock => some { thread with point := if choice then .exec else .tick }
  | .exec => (thread.exec choice).map fun executed => { executed with point := .tick }
  | .tick =>
      let (ticked, handled) := thread.event choice tickEvent
      some { ticked with point := if handled then .sleep else .leave }
  | .sleep =>
      if thread.isInterrupted then
        some { thread with isInterrupted := false, point := .interrupted }
      else
        some { thread with point := .loop }
  | .leave => some { thread with this := { this with isDeleting := true }, point := .reset }
  | .reset =>
      let this :=
        if this.worker.isSome then { this with worker := none }
        else { this with isTerminated := true }
      some { thread with this, point := .clearReady }
  | .clearReady => some { thread with this := { this with isReady := false }, point := .quit }
  | .quit => some { thread.quit with point := .done }
  | .done | .interrupted => none

/-- The event asks for the removal of the thread. -/
def Removes (thread : StartedThread) (event : Event) : Prop :=
  event.type = .threadRemove ∧ event.pointer = thread.number

instance (thread : StartedThread) : DecidablePred thread.Removes :=
  fun _ => inferInstanceAs (Decidable (_ ∧ _))

/-- What `removeThread` reads of the thread. -/
def status (thread : StartedThread) : ThreadStatus :=
  ⟨thread.this.isReady, thread.this.isTerminated, ""⟩

/-- One turn of `Application::exec`.  What other events do to the thread are acts of their own. -/
def pull (thread : StartedThread) : Option StartedThread :=
  match thread.application.queue with
  | [] => none
  | event :: queue =>
      let pulled := { thread.application with queue }
      if thread.Removes event then
        let removal := pulled.removeThread thread.number thread.status
        some { thread with
          application := removal.1
          exceptions := thread.exceptions ++ removal.2.toList }
      else
        some { thread with application := pulled }

/-- What happens next: the thread goes on, anyone posts to it, terminates or interrupts it or punts
another event, or the application pulls one. -/
inductive Act
  | run (choice : Bool)
  | post (event : Event)
  | terminate
  | interrupt
  | punt (event : Event)
  | pull
deriving DecidableEq, Repr

/-- One act.  Nothing is defined for a thread that was deleted. -/
def step (thread : StartedThread) (act : Act) : Option StartedThread :=
  if thread.number ∈ thread.application.deleted then
    none
  else
    match act with
    | .run choice => thread.run choice
    | .post event => some (thread.post event)
    | .terminate => some { thread with this := { thread.this with isTerminated := true } }
    | .interrupt => some { thread with isInterrupted := true }
    | .punt event =>
        if thread.Removes event then none
        else some { thread with application := thread.application.post event }
    | .pull => thread.pull

/-! ## What is asked of a run -/

/-- The act calls `work` for no thread that was shut down, and no removal of the thread is
refused. -/
structure Orderly (thread : StartedThread) (act : Act) : Prop where
  quiet : ∀ next, thread.step act = some next → thread.isShutDown = true →
    next.works = thread.works
  accepted : ∀ next, thread.step act = some next → next.exceptions = thread.exceptions

/-- `event` is called next with a `ThreadWork`. -/
def AsksForWork (thread : StartedThread) : Prop :=
  thread.point = .tick ∨ thread.point = .exec ∧ thread.isInterrupted = false ∧
    ∃ event ∈ thread.queue.head?, event.type = .threadWork

/-- The application pulls the removal of the thread next. -/
def AsksForRemoval (thread : StartedThread) : Prop :=
  ∃ event ∈ thread.application.queue.head?, thread.Removes event

/-- The worker of a thread that was shut down consumes every `ThreadWork`, and when the application
pulls the removal of a thread, the thread was terminated or its `run` is over; unless the thread
was deleted. -/
structure Undisturbed (thread : StartedThread) (act : Act) : Prop where
  consumed : thread.number ∉ thread.application.deleted → thread.isShutDown = true →
    thread.AsksForWork → ∀ choice, act = .run choice → choice = true
  removable : thread.number ∉ thread.application.deleted → act = .pull → thread.AsksForRemoval →
    thread.this.isTerminated = true ∨ thread.this.isReady = false

/-! ## What one act does -/

variable {thread next : StartedThread} {choice : Bool}

/-- `event` calls `work` precisely for a `ThreadWork` that the worker does not consume. -/
theorem event_works_iff (choice : Bool) (event : Event) (thread : StartedThread) :
    (thread.event choice event).1.works = thread.works ↔
      (event.type = .threadWork → choice = true) := by
  obtain ⟨type, name, pointer⟩ := event
  cases choice <;> cases type <;> simp [StartedThread.event, consumes, quit]

/-- `event` touches nothing else. -/
theorem event_frame (choice : Bool) (event : Event) (thread : StartedThread) :
    let handled := (thread.event choice event).1
    handled = { thread with
      application := handled.application
      works := handled.works
      isShutDown := handled.isShutDown } := by
  obtain ⟨type, name, pointer⟩ := event
  cases choice <;> cases type <;> simp [StartedThread.event, consumes, quit]

/-- The tick is answered, and shuts nothing down. -/
theorem event_tickEvent (choice : Bool) (thread : StartedThread) :
    (thread.event choice tickEvent).2 = true ∧
      (thread.event choice tickEvent).1.isShutDown = thread.isShutDown := by
  cases choice <;> simp [StartedThread.event, consumes, tickEvent]

/-- What `exec` does: it handles the first event, if there is one. -/
theorem exec_cases (taken : thread.exec choice = some next) :
    thread.isInterrupted = false ∧
      (thread.queue = [] ∧ next = thread ∨
        ∃ event queue, thread.queue = event :: queue ∧
          next = ({ thread with queue }.event choice event).1) := by
  unfold exec at taken
  split at taken
  · cases taken
  · rename_i live
    refine ⟨by simpa using live, ?_⟩
    split at taken
    · rename_i empty
      cases taken
      exact .inl ⟨empty, rfl⟩
    · rename_i event queue split
      cases taken
      exact .inr ⟨event, queue, split, rfl⟩

/-- What a thread does as it goes on: it handles an event, in `exec` or at the tick, or calls
nothing. -/
theorem run_cases (taken : thread.run choice = some next) :
    (thread.point = .exec ∧
      ∃ executed, thread.exec choice = some executed ∧ next = { executed with point := .tick }) ∨
    thread.point = .tick ∧ next = { (thread.event choice tickEvent).1 with point := .sleep } ∨
    (thread.point ≠ .exec ∧ thread.point ≠ .tick) ∧ next.works = thread.works ∧
      next.exceptions = thread.exceptions := by
  cases point : thread.point with
  | exec =>
      simp only [run, point, Option.map_eq_some_iff] at taken
      obtain ⟨executed, executes, rfl⟩ := taken
      exact .inl ⟨rfl, executed, executes, rfl⟩
  | tick =>
      simp only [run, point, (event_tickEvent choice thread).1, if_true, Option.some.injEq] at taken
      exact .inr (.inl ⟨rfl, taken.symm⟩)
  | sleep =>
      simp only [run, point] at taken
      split at taken <;> cases taken <;> simp
  | done | interrupted => simp [run, point] at taken
  | entry | postWork | loop | tryLock | leave | reset | clearReady | quit =>
      simp only [run, point, Option.some.injEq] at taken
      subst taken
      simp [post, quit]

/-- The thread calls `work` precisely if it has a `ThreadWork` that the worker does not consume. -/
theorem run_works_iff (taken : thread.run choice = some next) :
    next.works = thread.works ↔ (thread.AsksForWork → choice = true) := by
  rcases run_cases taken with ⟨point, executed, executes, rfl⟩ | ⟨point, rfl⟩ |
    ⟨⟨notExec, notTick⟩, works, -⟩
  · obtain ⟨live, ⟨empty, rfl⟩ | ⟨event, queue, split, rfl⟩⟩ := exec_cases executes
    · simp [AsksForWork, point, empty]
    · rw [event_works_iff]
      simp [AsksForWork, point, live, split]
  · rw [event_works_iff]
    simp [AsksForWork, point, tickEvent]
  · simp [AsksForWork, works, notExec, notTick]

theorem run_exceptions (taken : thread.run choice = some next) :
    next.exceptions = thread.exceptions := by
  rcases run_cases taken with ⟨-, executed, executes, rfl⟩ | ⟨-, rfl⟩ | ⟨-, -, same⟩
  · obtain ⟨-, ⟨-, rfl⟩ | ⟨event, queue, -, rfl⟩⟩ := exec_cases executes
    · rfl
    · rw [event_frame]
  · rw [event_frame]
  · exact same

/-- The application pulls an event.  It refuses the removal of the thread precisely if the thread
runs. -/
theorem pull_cases (taken : thread.pull = some next) :
    next = { thread with application := next.application, exceptions := next.exceptions } ∧
      (next.exceptions = thread.exceptions ↔
        (thread.AsksForRemoval →
          thread.this.isTerminated = true ∨ thread.this.isReady = false)) := by
  unfold pull at taken
  split at taken
  · cases taken
  · rename_i event queue split
    have asks : thread.AsksForRemoval ↔ thread.Removes event := by
      simp [AsksForRemoval, split]
    rw [asks]
    split at taken
    · rename_i removes
      cases taken
      refine ⟨rfl, ?_⟩
      rcases Application.removeThread_cases thread.number thread.status
          { thread.application with queue } with ⟨running, result⟩ | ⟨idle, result⟩
      · rw [result]
        simp only [ThreadStatus.isRunning, status, Bool.and_eq_true, Bool.not_eq_true'] at running
        simp [removes, running]
      · rw [result]
        simp only [ThreadStatus.isRunning, status, Bool.and_eq_false_iff,
          Bool.not_eq_false'] at idle
        simp [removes, idle.symm]
    · rename_i other
      cases taken
      simp [other]

theorem AsksForWork.run (asks : thread.AsksForWork) (choice : Bool) :
    ∃ next, thread.run choice = some next := by
  rcases asks with point | ⟨point, live, event, member, -⟩
  · simp [StartedThread.run, point]
  · obtain ⟨queue, split⟩ := List.head?_eq_some_iff.mp member
    simp [StartedThread.run, exec, point, live, split]

theorem AsksForRemoval.pull (asks : thread.AsksForRemoval) : ∃ next, thread.pull = some next := by
  obtain ⟨event, member, removes⟩ := asks
  obtain ⟨queue, split⟩ := List.head?_eq_some_iff.mp member
  simp [StartedThread.pull, split, removes]

/-- One act, by who makes it.  The last case is for all others than the thread and the
application: they call nothing, and change only what others may change. -/
theorem step_cases {act : Act} (taken : thread.step act = some next) :
    thread.number ∉ thread.application.deleted ∧
      ((∃ choice, act = .run choice ∧ thread.run choice = some next) ∨
        (act = .pull ∧ thread.pull = some next) ∨
        next = { thread with
          this := next.this
          queue := next.queue
          isInterrupted := next.isInterrupted
          application := next.application } ∧
        (act ≠ .terminate → next.this = thread.this) ∧
        (act ≠ .interrupt → next.isInterrupted = thread.isInterrupted)) := by
  by_cases alive : thread.number ∈ thread.application.deleted
  · simp [step, alive] at taken
  · refine ⟨alive, ?_⟩
    cases act with
    | run choice => exact .inl ⟨choice, rfl, by simpa [step, alive] using taken⟩
    | pull => exact .inr (.inl ⟨rfl, by simpa [step, alive] using taken⟩)
    | post | terminate | interrupt =>
        simp only [step, alive, if_false, Option.some.injEq] at taken
        subst taken
        exact .inr (.inr ⟨rfl, by simp [post], by simp [post]⟩)
    | punt event =>
        simp only [step, alive, if_false, Option.ite_none_left_eq_some, Option.some.injEq] at taken
        obtain ⟨-, rfl⟩ := taken
        exact .inr (.inr ⟨rfl, by simp, by simp⟩)

/-- The exact condition for one act. -/
theorem orderly_iff (thread : StartedThread) (act : Act) :
    thread.Orderly act ↔ thread.Undisturbed act := by
  constructor
  · intro orderly
    constructor
    · rintro alive shutDown asks choice rfl
      obtain ⟨next, taken⟩ := asks.run choice
      have stepped : thread.step (.run choice) = some next := by simpa [step, alive] using taken
      exact (run_works_iff taken).mp (orderly.quiet next stepped shutDown) asks
    · rintro alive rfl asks
      obtain ⟨next, taken⟩ := asks.pull
      have stepped : thread.step .pull = some next := by simpa [step, alive] using taken
      exact (pull_cases taken).2.mp (orderly.accepted next stepped) asks
  · intro undisturbed
    constructor
    · intro next stepped shutDown
      obtain ⟨alive, ⟨choice, rfl, taken⟩ | ⟨-, taken⟩ | ⟨same, -, -⟩⟩ := step_cases stepped
      · exact (run_works_iff taken).mpr
          fun asks => undisturbed.consumed alive shutDown asks choice rfl
      · rw [(pull_cases taken).1]
      · rw [same]
    · intro next stepped
      obtain ⟨alive, ⟨choice, rfl, taken⟩ | ⟨rfl, taken⟩ | ⟨same, -, -⟩⟩ := step_cases stepped
      · exact run_exceptions taken
      · exact (pull_cases taken).2.mpr (undisturbed.removable alive rfl)
      · rw [same]

/-! ## Runs -/

/-- A run is orderly precisely if after a `ThreadShutdown` the worker consumes every `ThreadWork`,
and the application pulls the removal of the thread only when the thread was terminated or its `run`
is over. -/
theorem orderly_run_iff (number : Nat) (task : String) (worker : Nat) (queue : List Event)
    (application : Application) (acts : List Act) :
    Runs.Along step Orderly (start number task worker queue application) acts ↔
      Runs.Along step Undisturbed (start number task worker queue application) acts := by
  apply Runs.along_congr fun _ => True
  · intro thread act next taken _
    trivial
  · intro thread act _
    exact orderly_iff thread act
  · trivial

/-- The tick after the `exec` that handled a `ThreadShutdown` calls `work`. -/
theorem orderly_run_fails :
    ¬∀ (number : Nat) (task : String) (worker : Nat) (queue : List Event)
        (application : Application) (acts : List Act),
      Runs.Along step Orderly (start number task worker queue application) acts := by
  intro orderly
  have run := orderly 1 "worker" 1 [⟨.threadShutdown, "shutdown", Cxx.nullptr⟩] .start
    [.run false, .run false, .run false, .run true, .run false, .run false]
  iterate 5 rw [Runs.along_cons_of_step rfl] at run; replace run := run.2
  have quiet := run.1.quiet _ rfl rfl
  revert quiet
  decide

/-! ## A shutdown by itself -/

/-- Nobody terminates or interrupts the thread, and its worker leaves the tick. -/
structure LeftAlone (thread : StartedThread) (act : Act) : Prop where
  terminate : act ≠ .terminate
  interrupt : act ≠ .interrupt
  tick : ∀ choice, act = .run choice → thread.point = .tick → choice = false

/-- The thread is in its loop or before it, and if it was shut down, it is at the tick. -/
structure Serving (thread : StartedThread) : Prop where
  ready : thread.this.isReady = true
  deleting : thread.this.isDeleting = false
  terminated : thread.this.isTerminated = false
  interrupted : thread.isInterrupted = false
  serves : thread.point ∈ [.entry, .postWork, .loop, .tryLock, .exec, .tick, .sleep]
  ticks : thread.isShutDown = true → thread.point = .tick

theorem Serving.isShutDown_eq_false (serving : thread.Serving) (point : thread.point ≠ .tick) :
    thread.isShutDown = false := by
  by_contra shutDown
  exact point (serving.ticks (by simpa using shutDown))

theorem Serving.run (serving : thread.Serving) (alive : thread.number ∉ thread.application.deleted)
    (alone : thread.LeftAlone (.run choice)) (undisturbed : thread.Undisturbed (.run choice))
    (ran : thread.run choice = some next) : next.Serving := by
  have points := serving.serves
  simp only [List.mem_cons, List.not_mem_nil, or_false] at points
  rcases points with point | point | point | point | point | point | point
  · have running := serving.isShutDown_eq_false (by simp [point])
    simp only [StartedThread.run, point, Option.some.injEq] at ran
    subst ran
    exact { serving with serves := by simp, ticks := by simp [post, running] }
  · have running := serving.isShutDown_eq_false (by simp [point])
    simp only [StartedThread.run, point, Option.some.injEq, serving.terminated] at ran
    subst ran
    exact { serving with serves := by simp, ticks := by simp [post, running] }
  · have running := serving.isShutDown_eq_false (by simp [point])
    simp only [StartedThread.run, point, Option.some.injEq, serving.ready, serving.deleting,
      serving.terminated, serving.interrupted] at ran
    subst ran
    exact { serving with interrupted := rfl, serves := by simp, ticks := by simp [running] }
  · have running := serving.isShutDown_eq_false (by simp [point])
    simp only [StartedThread.run, point, Option.some.injEq] at ran
    subst ran
    exact { serving with serves := by cases choice <;> simp, ticks := by simp [running] }
  · simp only [StartedThread.run, point, Option.map_eq_some_iff] at ran
    obtain ⟨executed, executes, rfl⟩ := ran
    obtain ⟨-, ⟨-, rfl⟩ | ⟨event, queue, -, rfl⟩⟩ := exec_cases executes
    · exact { serving with serves := by simp, ticks := fun _ => rfl }
    · rw [event_frame]
      exact { serving with serves := by simp, ticks := fun _ => rfl }
  · -- the tick of a thread that was shut down would call `work`
    have left : choice = false := alone.tick choice rfl point
    have running : thread.isShutDown = false := by
      by_contra shutDown
      have consumed := undisturbed.consumed alive (by simpa using shutDown) (.inl point) choice rfl
      simp [left] at consumed
    obtain ⟨handled, same⟩ := event_tickEvent choice thread
    simp only [StartedThread.run, point, handled, if_true, Option.some.injEq] at ran
    subst ran
    rw [running] at same
    rw [event_frame, same]
    exact { serving with serves := by simp, ticks := by simp }
  · have running := serving.isShutDown_eq_false (by simp [point])
    simp only [StartedThread.run, point, serving.interrupted, Bool.false_eq_true, if_false,
      Option.some.injEq] at ran
    subst ran
    exact { serving with interrupted := rfl, serves := by simp, ticks := by simp [running] }

theorem Serving.step (serving : thread.Serving) {act : Act} (alone : thread.LeftAlone act)
    (orderly : thread.Orderly act) (taken : thread.step act = some next) : next.Serving := by
  have undisturbed := (orderly_iff thread act).mp orderly
  obtain ⟨alive, ⟨choice, rfl, ran⟩ | ⟨rfl, pulled⟩ | ⟨same, this, interrupted⟩⟩ :=
    step_cases taken
  · exact serving.run alive alone undisturbed ran
  · rw [(pull_cases pulled).1]
    exact { serving with }
  · rw [same, this alone.terminate, interrupted alone.interrupt]
    exact { serving with }

/-- Where a shutdown is all that ends a thread, no orderly run goes on after it: the thread stands
at the tick that follows. -/
theorem point_of_orderly {number : Nat} {task : String} {worker : Nat} {queue : List Event}
    {application : Application} {acts : List Act} {final : StartedThread}
    (orderly : Runs.Along step (fun thread act => thread.LeftAlone act ∧ thread.Orderly act)
      (start number task worker queue application) acts)
    (ran : Runs.exec step (start number task worker queue application) acts = some final)
    (shutDown : final.isShutDown = true) : final.point = .tick := by
  have serving : (start number task worker queue application).Serving := by
    constructor <;> simp [start]
  have served : final.Serving := by
    apply Runs.exec_invariant _ serving orderly ran
    intro thread act next serving met taken
    exact serving.step met.1 met.2 taken
  exact served.ticks shutDown

end StartedThread

end Drumlin
