import Drumlin.ThreadPool

/-!
# Workers that are gone

`Thread::run` resets the worker before it asks for the removal of the thread, so that a thread is
listed for a while without a worker.  Only `stop` and the end of `run` ask whether there is a worker
before they use it, and they read the worker again then.
-/

namespace Drumlin

open ActorPool

/-- What the readings of workers and of names depend on. -/
structure WorkerView where
  /-- The name of a thread. -/
  task : Nat → String
  /-- The worker of a thread. -/
  worker : Nat → Option Nat
  /-- The worker a thread was constructed with. -/
  created : Nat → Option Nat
  /-- The threads whose worker was reset. -/
  resets : List Nat
  /-- The threads whose null worker was dereferenced. -/
  nullDereferences : List Nat

namespace WorkerView

/-- Dereference the worker of a thread. -/
def dereference (thread : Nat) (view : WorkerView) : WorkerView :=
  if (view.worker thread).isSome then view
  else { view with nullDereferences := view.nullDereferences ++ [thread] }

/-- Reset the worker of a thread. -/
def reset (thread : Nat) (view : WorkerView) : WorkerView :=
  { view with worker := Function.update view.worker thread none, resets := view.resets ++ [thread] }

/-- What one action does to the view: nothing; a test that finds a worker before a reading; a
reading without a test, with or without another one to come; a reading that another one or a test
came before; a reset. -/
inductive Step (before : WorkerView) :
    (reads visits resets : Option Nat) → WorkerView → (visits' : Option Nat) → Prop
  | keep : Step before none none none before none
  | test (thread : Nat) (present : (before.worker thread).isSome) :
      Step before none none none before (some thread)
  | read (thread : Nat) (visits' : Option Nat) (again : ∀ other ∈ visits', other = thread) :
      Step before (some thread) none none (before.dereference thread) visits'
  | again (thread : Nat) : Step before none (some thread) none (before.dereference thread) none
  | reset (thread : Nat) : Step before none none (some thread) (before.reset thread) none

end WorkerView

namespace Threads

/-- The view of the workers. -/
def workers (threads : Threads) : WorkerView where
  task := fun thread => (threads.threadAt thread).task
  worker := fun thread => (threads.threadAt thread).worker
  created := fun thread => (threads.threadAt thread).created
  resets := threads.resets
  nullDereferences := threads.nullDereferences

theorem workers_update (thread : Nat) (change : Thread → Thread) (threads : Threads)
    (task : ∀ this, (change this).task = this.task)
    (worker : ∀ this, (change this).worker = this.worker)
    (created : ∀ this, (change this).created = this.created) :
    (threads.update thread change).workers = threads.workers := by
  have same {α : Type} (field : Thread → α) (kept : ∀ this, field (change this) = field this)
      (other : Nat) : field ((threads.update thread change).threadAt other) =
        field (threads.threadAt other) := by
    by_cases here : other = thread
    · simp [update, here, kept]
    · simp [update, here]
  simp only [workers, WorkerView.mk.injEq]
  exact ⟨funext (same Thread.task task), funext (same Thread.worker worker),
    funext (same Thread.created created), rfl, rfl⟩

@[simp] theorem workers_claim (thread : Nat) (threads : Threads) :
    (threads.claim thread).workers = threads.workers := rfl

@[simp] theorem workers_post (thread : Nat) (event : Event) (threads : Threads) :
    (threads.post thread event).workers = threads.workers := rfl

@[simp] theorem workers_release (threads : Threads) : threads.release.workers = threads.workers :=
  rfl

@[simp] theorem workers_start (thread : Nat) (threads : Threads) :
    (threads.start thread).workers = threads.workers :=
  workers_update thread (fun this => { this with isReady := true }) threads (fun _ => rfl)
    (fun _ => rfl) fun _ => rfl

@[simp] theorem workers_launch (thread : Nat) (threads : Threads) :
    (threads.launch thread).workers = threads.workers :=
  workers_update thread (fun this => { this with boostThread := some threads.launches }) threads
    (fun _ => rfl) (fun _ => rfl) fun _ => rfl

@[simp] theorem workers_dereference (thread : Nat) (threads : Threads) :
    (threads.dereference thread).workers = threads.workers.dereference thread := by
  by_cases present : (threads.threadAt thread).worker.isSome <;>
    simp [dereference, WorkerView.dereference, workers, present]

/-- The application is not part of the view. -/
@[simp] theorem workers_onApplication (change : Application → Application) (threads : Threads) :
    (threads.onApplication change).workers = threads.workers := rfl

@[simp] theorem workers_send (thread : Nat) (event : Event) (threads : Threads) :
    (threads.send thread event).workers = threads.workers.dereference thread :=
  workers_dereference thread threads

@[simp] theorem workers_resetWorker (thread : Nat) (threads : Threads) :
    (threads.resetWorker thread).workers = threads.workers.reset thread := by
  have same (other : Nat) :
      (Function.update threads.threadAt thread
        { threads.threadAt thread with worker := none } other).task =
          (threads.threadAt other).task ∧
      (Function.update threads.threadAt thread
        { threads.threadAt thread with worker := none } other).worker =
          Function.update (fun other => (threads.threadAt other).worker) thread none other ∧
      (Function.update threads.threadAt thread
        { threads.threadAt thread with worker := none } other).created =
          (threads.threadAt other).created := by
    by_cases here : other = thread
    · subst here
      simp
    · simp [here]
  simp only [workers, resetWorker, WorkerView.reset, WorkerView.mk.injEq]
  exact ⟨funext fun other => (same other).1, funext fun other => (same other).2.1,
    funext fun other => (same other).2.2, rfl, rfl⟩

@[simp] theorem workers_terminate (thread : Nat) (threads : Threads) :
    (threads.terminate thread).workers = threads.workers :=
  workers_update _ _ _ (fun _ => rfl) (fun _ => rfl) fun _ => rfl

end Threads

/-- `SendEvent` logs the thread that it sends to. -/
def Functor.reads : Functor → Bool
  | .sendEvent _ => true
  | .startThread | .terminate => false

namespace Actor

/-- The thread whose worker the next action dereferences without having asked for it. -/
def reads : Actor → Option Nat
  | run thread _ .postWork | run thread _ .exec | run thread _ .tick | addThread thread _ .add
  | getStatus (.writeToObject (thread :: _)) | send thread _ => some thread
  | access query _ (.visit (thread :: _) _) => if query.reads then some thread else none
  | access _ functor (.apply (thread :: _)) => if functor.reads then some thread else none
  | exec (.remove thread status) => if status.isRunning then some thread else none
  | _ => none

/-- The thread whose worker was tested or read, and is to be read again. -/
def visits : Actor → Option Nat
  | run thread _ .shutdownWorker | getStatus (.getStatus thread _)
  | stop _ (.compare _ thread _ _) =>
      some thread
  | _ => none

/-- The thread whose worker the next action resets. -/
def resets : Actor → Option Nat
  | run thread _ .reset => some thread
  | _ => none

variable {self : Nat} {choice : Choice} {threads threads' : Threads}

theorem run_workers {thread boost : Nat} {phase phase' : RunPhase}
    (acted : Thread.run thread boost choice threads phase = some (threads', phase')) :
    threads.workers.Step (run thread boost phase).reads (run thread boost phase).visits
      (run thread boost phase).resets threads'.workers (run thread boost phase').visits := by
  cases phase with
  | postWork =>
      obtain ⟨rfl, rfl⟩ := by simpa [Thread.run] using acted
      rw [Threads.workers_post, Threads.workers_dereference]
      split
      · exact .read thread none (by simp)
      · exact .read thread none (by simp)
  | loop =>
      simp only [Thread.run] at acted
      split at acted <;> obtain ⟨rfl, rfl⟩ := by simpa using acted
      · exact .keep
      · exact .keep
  | tryLock =>
      simp only [Thread.run] at acted
      obtain ⟨rfl, rfl⟩ := by simpa using acted
      split
      · exact .keep
      · exact .keep
  | exec =>
      by_cases handled : choice = .shutdownEvent <;>
        obtain ⟨rfl, rfl⟩ := by simpa [Thread.run, handled] using acted
      · rw [Threads.workers_claim, Threads.workers_dereference]
        exact .read thread none (by simp)
      · rw [Threads.workers_dereference]
        exact .read thread none (by simp)
  | tick =>
      obtain ⟨rfl, rfl⟩ := by simpa [Thread.run] using acted
      rw [Threads.workers_dereference]
      exact .read thread none (by simp)
  | sleep =>
      simp only [Thread.run] at acted
      split at acted <;> obtain ⟨rfl, rfl⟩ := by simpa using acted
      · exact .keep
      · exact .keep
  | leave =>
      obtain ⟨rfl, rfl⟩ := by simpa [Thread.run] using acted
      rw [Threads.workers_update]
      · exact .keep
      · exact fun _ => rfl
      · exact fun _ => rfl
      · exact fun _ => rfl
  | testWorker =>
      obtain ⟨rfl, rfl⟩ := by simpa [Thread.run] using acted
      split <;> rename_i present
      · exact .test thread present
      · exact .keep
  | shutdownWorker =>
      obtain ⟨rfl, rfl⟩ := by simpa [Thread.run] using acted
      rw [Threads.workers_dereference]
      exact .again thread
  | reset =>
      obtain ⟨rfl, rfl⟩ := by simpa [Thread.run] using acted
      rw [Threads.workers_resetWorker]
      exact .reset thread
  | terminate =>
      obtain ⟨rfl, rfl⟩ := by simpa [Thread.run] using acted
      rw [Threads.workers_terminate]
      exact .keep
  | clearReady =>
      obtain ⟨rfl, rfl⟩ := by simpa [Thread.run] using acted
      rw [Threads.workers_update]
      · exact .keep
      · exact fun _ => rfl
      · exact fun _ => rfl
      · exact fun _ => rfl
  | entry =>
      obtain ⟨rfl, rfl⟩ := by simpa [Thread.run] using acted
      exact .keep
  | shutdown | quit =>
      obtain ⟨_, rfl, rfl⟩ := by simpa [Thread.run, Threads.guarded_eq_some] using acted
      exact .keep
  | done | interrupted => simp [Thread.run] at acted

theorem use_workers {query : Query} {functor : Functor} {phase phase' : AccessPhase}
    {launched : Option Nat}
    (acted : ThreadAccessor.use self query functor threads phase =
      some (threads', phase', launched)) :
    threads.workers.Step (access query functor phase).reads none none threads'.workers none := by
  cases phase with
  | lock =>
      simp only [ThreadAccessor.use, Option.map_eq_some_iff, Threads.acquire_eq_some] at acted
      obtain ⟨_, ⟨_, rfl⟩, acted⟩ := acted
      obtain ⟨rfl, rfl, rfl⟩ := by simpa using acted
      exact .keep
  | visit todo selected =>
      cases todo with
      | nil =>
          obtain ⟨rfl, rfl, rfl⟩ := by simpa [ThreadAccessor.use] using acted
          exact .keep
      | cons thread todo =>
          obtain ⟨rfl, rfl, rfl⟩ := by simpa [ThreadAccessor.use] using acted
          cases query with
          | typed type =>
              rw [Query.reads, if_pos rfl, Threads.workers_dereference]
              exact .read thread none (by simp)
          | named | workered => exact .keep
  | apply todo =>
      cases todo with
      | nil =>
          obtain ⟨rfl, rfl, rfl⟩ := by simpa [ThreadAccessor.use] using acted
          exact .keep
      | cons thread todo =>
          cases functor with
          | startThread =>
              simp only [ThreadAccessor.use] at acted
              split at acted <;> obtain ⟨rfl, rfl, rfl⟩ := by simpa using acted
              · exact .keep
              · exact .keep
          | sendEvent event =>
              obtain ⟨rfl, rfl, rfl⟩ := by simpa [ThreadAccessor.use] using acted
              rw [Threads.workers_send]
              exact .read _ none (by simp)
          | terminate =>
              obtain ⟨rfl, rfl, rfl⟩ := by simpa [ThreadAccessor.use] using acted
              rw [Threads.workers_terminate]
              exact .keep
  | start thread todo =>
      simp only [ThreadAccessor.use] at acted
      split at acted <;> obtain ⟨rfl, rfl, rfl⟩ := by simpa using acted
      · exact .keep
      · rw [Threads.workers_start]
        exact .keep
  | launch thread todo =>
      obtain ⟨rfl, rfl, rfl⟩ := by simpa [ThreadAccessor.use] using acted
      rw [Threads.workers_launch]
      exact .keep
  | done => simp [ThreadAccessor.use] at acted

theorem addThread_workers {thread : Nat} {startWork : Bool} {phase phase' : AddPhase}
    {launched : Option Nat}
    (acted : threads.addThread self thread startWork phase = some (threads', phase', launched)) :
    threads.workers.Step (addThread thread startWork phase).reads none none threads'.workers
      none := by
  cases phase with
  | lock =>
      simp only [Threads.addThread, Option.map_eq_some_iff, Threads.acquire_eq_some] at acted
      obtain ⟨_, ⟨_, rfl⟩, acted⟩ := acted
      obtain ⟨rfl, rfl, rfl⟩ := by simpa using acted
      exact .keep
  | add =>
      obtain ⟨rfl, rfl, rfl⟩ := by simpa [Threads.addThread] using acted
      rw [Threads.workers_onApplication, Threads.workers_dereference]
      exact .read thread none (by simp)
  | start =>
      simp only [Threads.addThread] at acted
      split at acted <;> obtain ⟨rfl, rfl, rfl⟩ := by simpa using acted
      · exact .keep
      · rw [Threads.workers_start]
        exact .keep
  | launch =>
      obtain ⟨rfl, rfl, rfl⟩ := by simpa [Threads.addThread] using acted
      rw [Threads.workers_launch]
      exact .keep
  | release =>
      obtain ⟨rfl, rfl, rfl⟩ := by simpa [Threads.addThread] using acted
      exact .keep
  | done => simp [Threads.addThread] at acted

theorem getStatus_workers {phase phase' : StatusPhase}
    (acted : threads.getStatus self phase = some (threads', phase')) :
    threads.workers.Step (getStatus phase).reads (getStatus phase).visits none threads'.workers
      (getStatus phase').visits := by
  cases phase with
  | lock =>
      simp only [Threads.getStatus, Option.map_eq_some_iff, Threads.acquire_eq_some] at acted
      obtain ⟨_, ⟨_, rfl⟩, acted⟩ := acted
      obtain ⟨rfl, rfl⟩ := by simpa using acted
      exact .keep
  | writeToObject todo =>
      cases todo <;> obtain ⟨rfl, rfl⟩ := by simpa [Threads.getStatus] using acted
      · exact .keep
      · rw [Threads.workers_dereference]
        exact .read _ _ (by simp [visits])
  | getStatus thread todo =>
      obtain ⟨rfl, rfl⟩ := by simpa [Threads.getStatus] using acted
      rw [Threads.workers_dereference]
      exact .again thread
  | done => simp [Threads.getStatus] at acted

theorem stop_workers {first : Nat} {phase phase' : StopPhase}
    (acted : threads.stop self first phase = some (threads', phase')) :
    threads.workers.Step none (stop first phase).visits none threads'.workers
      (stop first phase').visits := by
  cases phase with
  | round type =>
      simp only [Threads.stop] at acted
      split at acted
      · simp only [Option.map_eq_some_iff, Threads.acquire_eq_some] at acted
        obtain ⟨_, ⟨_, rfl⟩, acted⟩ := acted
        obtain ⟨rfl, rfl⟩ := by simpa using acted
        exact .keep
      · obtain ⟨rfl, rfl⟩ := by simpa using acted
        exact .keep
  | select type todo selected =>
      cases todo with
      | nil =>
          obtain ⟨rfl, rfl⟩ := by simpa [Threads.stop] using acted
          exact .keep
      | cons thread todo =>
          simp only [Threads.stop] at acted
          split at acted <;> rename_i present <;> obtain ⟨rfl, rfl⟩ := by simpa using acted
          · exact .test thread present
          · exact .keep
  | compare type thread todo selected =>
      obtain ⟨rfl, rfl⟩ := by simpa [Threads.stop] using acted
      rw [Threads.workers_dereference]
      exact .again thread
  | terminate type todo selected =>
      cases todo <;> obtain ⟨rfl, rfl⟩ := by simpa [Threads.stop] using acted
      · exact .keep
      · rw [Threads.workers_terminate]
        exact .keep
  | test type todo =>
      cases todo with
      | nil =>
          obtain ⟨rfl, rfl⟩ := by simpa [Threads.stop] using acted
          exact .keep
      | cons thread todo =>
          simp only [Threads.stop] at acted
          split at acted <;> obtain ⟨rfl, rfl⟩ := by simpa using acted
          · exact .keep
          · exact .keep
  | quit type thread todo =>
      obtain ⟨_, rfl, rfl⟩ := by simpa [Threads.stop, Threads.guarded_eq_some] using acted
      exact .keep
  | wait type thread todo =>
      simp only [Threads.stop] at acted
      split at acted <;> obtain ⟨rfl, rfl⟩ := by simpa using acted
      · exact .keep
      · exact .keep
  | join type thread todo =>
      simp only [Threads.stop] at acted
      split at acted
      · simp at acted
      · obtain ⟨rfl, rfl⟩ := by simpa using acted
        exact .keep
  | done => simp [Threads.stop] at acted

theorem exec_workers {phase phase' : ExecPhase}
    (acted : threads.exec self phase = some (threads', phase')) :
    threads.workers.Step (exec phase).reads none none threads'.workers none := by
  cases phase with
  | pull =>
      cases pending : threads.application.queue with
      | nil => simp [Threads.exec, pending] at acted
      | cons event queue =>
          by_cases request : event.type = .threadRemove <;>
            obtain ⟨rfl, rfl⟩ := by simpa [Threads.exec, pending, request] using acted
          · exact .keep
          · exact .keep
  | lock thread =>
      simp only [Threads.exec, Option.map_eq_some_iff, Threads.acquire_eq_some] at acted
      obtain ⟨_, ⟨_, rfl⟩, acted⟩ := acted
      obtain ⟨rfl, rfl⟩ := by simpa using acted
      exact .keep
  | testStarted | testTerminated =>
      obtain ⟨rfl, rfl⟩ := by simpa [Threads.exec] using acted
      exact .keep
  | remove thread status =>
      cases running : status.isRunning <;>
        obtain ⟨rfl, rfl⟩ := by simpa [Threads.exec, running] using acted
      · simp only [reads, running]
        exact .keep
      · rw [Threads.workers_release, Threads.workers_onApplication, Threads.workers_dereference]
        simp only [reads, running, if_true]
        exact .read thread none (by simp)

/-- What one action of an actor does to the workers.  What it spawns has read none. -/
theorem behave_workers {actor actor' : Actor} {spawned : List Actor}
    (acted : actor.behave self threads choice = some (threads', actor', spawned)) :
    threads.workers.Step actor.reads actor.visits actor.resets threads'.workers actor'.visits ∧
      ∀ other ∈ spawned, other.visits = none := by
  refine ⟨?_, fun other new => ?_⟩
  · cases behaves_of_behave acted with
    | run taken => exact run_workers taken
    | access taken => exact use_workers taken
    | addThread taken => exact addThread_workers taken
    | getStatus taken => exact getStatus_workers taken
    | stop taken => exact stop_workers taken
    | exec taken => exact exec_workers taken
    | send thread event =>
        rw [Threads.workers_send]
        exact .read thread none (by simp)
  · obtain ⟨thread, boost, rfl⟩ := entry_of_spawned acted new
    rfl

end Actor

namespace WorkerView

/-- A worker is there until it is reset. -/
def Consistent (view : WorkerView) : Prop :=
  ∀ thread, view.worker thread = if thread ∈ view.resets then none else view.created thread

@[simp] theorem dereference_worker (thread : Nat) (view : WorkerView) :
    (view.dereference thread).worker = view.worker := by
  unfold dereference
  split <;> rfl

@[simp] theorem dereference_task (thread : Nat) (view : WorkerView) :
    (view.dereference thread).task = view.task := by
  unfold dereference
  split <;> rfl

theorem dereference_eq_self {thread : Nat} {view : WorkerView}
    (present : (view.worker thread).isSome) : view.dereference thread = view := by
  rw [dereference, if_pos present]

theorem dereference_null {thread : Nat} {view : WorkerView}
    (missing : ¬(view.worker thread).isSome) :
    (view.dereference thread).nullDereferences ≠ [] := by
  simp [dereference, missing]

theorem Consistent.step {before after : WorkerView} {reads visits resets visits' : Option Nat}
    (consistent : before.Consistent) (step : before.Step reads visits resets after visits') :
    after.Consistent := by
  cases step with
  | keep => exact consistent
  | test thread present => exact consistent
  | read thread visits' again =>
      unfold dereference
      split
      · exact consistent
      · exact consistent
  | again thread =>
      unfold dereference
      split
      · exact consistent
      · exact consistent
  | reset thread =>
      intro other
      by_cases here : other = thread
      · simp [reset, here]
      · simp [reset, here, consistent other]

/-- Null dereferences stay on record, and no worker comes back. -/
theorem Step.decays {before after : WorkerView} {reads visits resets visits' : Option Nat}
    (step : before.Step reads visits resets after visits') :
    (before.nullDereferences ≠ [] → after.nullDereferences ≠ []) ∧
      ∀ thread, (after.worker thread).isSome → (before.worker thread).isSome := by
  cases step with
  | keep => simp
  | test thread present => simp
  | read thread visits' again =>
      unfold dereference
      split <;> simp
  | again thread =>
      unfold dereference
      split <;> simp
  | reset thread =>
      refine ⟨id, fun other present => ?_⟩
      by_cases here : other = thread
      · simp [WorkerView.reset, here] at present
      · simpa [WorkerView.reset, here] using present

/-- A reading that was to come again goes on record if it is null. -/
theorem Step.read_again {before after : WorkerView} {reads resets visits' : Option Nat}
    {thread : Nat} (step : before.Step reads (some thread) resets after visits')
    (clean : after.nullDereferences = []) : (before.worker thread).isSome := by
  cases step with
  | again =>
      by_contra missing
      exact dereference_null missing clean

end WorkerView

namespace ThreadPool

/-- Whoever is to read a worker again still finds it. -/
def Visited (view : WorkerView) (actor : Actor) : Prop :=
  ∀ thread, actor.visits = some thread → (view.worker thread).isSome

/-- No null worker was dereferenced, and none is about to be by an actor that read it before. -/
structure Unharmed (pool : ThreadPool) : Prop where
  clean : pool.shared.workers.nullDereferences = []
  visited : ∀ actor ∈ pool.actors, Visited pool.shared.workers actor

/-- A worker is read without a test only while the thread has the worker it was constructed with,
and is reset only while no actor is between two readings of it. -/
def ReadsBeforeReset (pool : ThreadPool) (label : Nat × Choice) : Prop :=
  ∀ actor, pool.actors[label.1]? = some actor →
    (∀ thread, actor.reads = some thread →
      (pool.shared.threadAt thread).created ≠ none ∧ thread ∉ pool.shared.resets) ∧
    ∀ thread, actor.resets = some thread → ∀ other ∈ pool.actors, other.visits ≠ some thread

private theorem unharmed_iff_of_split {shared : Threads} {front back spawned : List Actor}
    {actor : Actor} (fresh : ∀ other ∈ spawned, other.visits = none) :
    Unharmed ⟨shared, front ++ actor :: back ++ spawned⟩ ↔
      shared.workers.nullDereferences = [] ∧ Visited shared.workers actor ∧
        ∀ other ∈ front ++ back, Visited shared.workers other := by
  have idle : ∀ other ∈ spawned, Visited shared.workers other := by
    intro other new thread visits
    simp [fresh other new] at visits
  constructor
  · rintro ⟨clean, visited⟩
    obtain ⟨here, others, -⟩ := forall_mem_iff.mp visited
    exact ⟨clean, here, others⟩
  · rintro ⟨clean, here, others⟩
    exact ⟨clean, forall_mem_iff.mpr ⟨here, others, idle⟩⟩

theorem unharmed_step_iff {pool next : ThreadPool} {label : Nat × Choice}
    (consistent : pool.shared.workers.Consistent) (unharmed : pool.Unharmed)
    (taken : pool.step label = some next) : next.Unharmed ↔ pool.ReadsBeforeReset label := by
  obtain ⟨front, actor, back, shared, actor', spawned, split, place, acted, rfl⟩ :=
    ActorPool.step_eq_some taken
  obtain ⟨effect, fresh⟩ := Actor.behave_workers acted
  have acts : pool.actors[label.1]? = some actor := place ▸ getElem?_of_split split
  obtain ⟨clean, visited⟩ := unharmed
  obtain ⟨here, others⟩ := (forall_mem_iff_of_split split).mp visited
  have condition : pool.ReadsBeforeReset label ↔
      (∀ thread, actor.reads = some thread → (pool.shared.workers.worker thread).isSome) ∧
        ∀ thread, actor.resets = some thread →
          ∀ other ∈ pool.actors, other.visits ≠ some thread := by
    simp only [ReadsBeforeReset, acts, Option.some.injEq, forall_eq']
    refine and_congr_left' (forall₂_congr fun thread _ => ?_)
    rw [consistent thread]
    by_cases gone : thread ∈ pool.shared.resets <;>
      simp [Threads.workers, gone, Option.isSome_iff_ne_none]
  rw [unharmed_iff_of_split fresh, condition]
  unfold Visited at here ⊢
  generalize reads_eq : actor.reads = reads, visits_eq : actor.visits = visits,
    resets_eq : actor.resets = resets, actor'.visits = visits', shared.workers = view
    at effect here ⊢
  cases effect with
  | keep => exact iff_of_true ⟨clean, by simp, others⟩ ⟨by simp, by simp⟩
  | test thread present =>
      refine iff_of_true ⟨clean, ?_, others⟩ ⟨by simp, by simp⟩
      rintro _ ⟨⟩
      exact present
  | read thread visits' again =>
      by_cases present : (pool.shared.workers.worker thread).isSome
      · rw [WorkerView.dereference_eq_self present]
        refine iff_of_true ⟨clean, fun other later => again other later ▸ present, others⟩
          ⟨?_, by simp⟩
        rintro _ ⟨⟩
        exact present
      · exact iff_of_false (fun safe => WorkerView.dereference_null present safe.1)
          fun safe => present (safe.1 thread rfl)
  | again thread =>
      rw [WorkerView.dereference_eq_self (here thread rfl)]
      exact iff_of_true ⟨clean, by simp, others⟩ ⟨by simp, by simp⟩
  | reset thread =>
      constructor
      · rintro ⟨-, -, kept⟩
        refine ⟨by simp, ?_⟩
        rintro _ ⟨⟩
        refine (forall_mem_iff_of_split split).mpr ⟨by simp [visits_eq], ?_⟩
        intro other member reading
        simpa [WorkerView.reset] using kept other member thread reading
      · rintro ⟨-, untouched⟩
        refine ⟨clean, by simp, fun other member thread' reading => ?_⟩
        have distinct : thread' ≠ thread := fun same =>
          ((forall_mem_iff_of_split split).mp (untouched thread rfl)).2 other member
            (same ▸ reading)
        simpa [WorkerView.reset, distinct] using others other member thread' reading

/-- Harm is not undone. -/
theorem not_unharmed_step {pool next : ThreadPool} {label : Nat × Choice}
    (harmed : ¬pool.Unharmed) (taken : pool.step label = some next) : ¬next.Unharmed := by
  obtain ⟨front, actor, back, shared, actor', spawned, split, place, acted, rfl⟩ :=
    ActorPool.step_eq_some taken
  obtain ⟨effect, fresh⟩ := Actor.behave_workers acted
  obtain ⟨recorded, decayed⟩ := effect.decays
  rw [unharmed_iff_of_split fresh]
  rintro ⟨clean, here, others⟩
  have before : pool.shared.workers.nullDereferences = [] := by
    by_contra null
    exact recorded null clean
  refine harmed ⟨before, (forall_mem_iff_of_split split).mpr ⟨fun thread reading => ?_, ?_⟩⟩
  · rw [reading] at effect
    exact effect.read_again clean
  · intro other member thread reading
    exact decayed thread (others other member thread reading)

/-- No actor is between two readings of a worker. -/
def NoVisits (pool : ThreadPool) : Prop := ∀ actor ∈ pool.actors, actor.visits = none

/-- No null worker is dereferenced in the runs in which a worker is read without a test only before
it is reset, and reset only while no actor is between two readings of it.  In the other runs one is,
as soon as no actor is between two readings. -/
theorem nullDereferences_of_readsBeforeReset {task : Nat → String} {worker : Nat → Option Nat}
    {listed : List Nat} {clients : List Client} {schedule : List (Nat × Choice)}
    {final : ThreadPool}
    (run : Runs.exec step (initial task worker listed clients) schedule = some final) :
    (Runs.Along step ReadsBeforeReset (initial task worker listed clients) schedule →
      final.shared.nullDereferences = []) ∧
    (final.NoVisits → final.shared.nullDereferences = [] →
      Runs.Along step ReadsBeforeReset (initial task worker listed clients) schedule) := by
  have idle : (initial task worker listed clients).Unharmed := by
    refine ⟨rfl, fun actor member thread reading => ?_⟩
    obtain ⟨client, _, rfl⟩ := List.mem_map.mp member
    cases client <;> simp [Client.actor, Actor.visits] at reading
  have counted : final.Unharmed ↔ (initial task worker listed clients).Unharmed ∧
      Runs.Along step ReadsBeforeReset (initial task worker listed clients) schedule := by
    refine Runs.good_exec_iff_along (fun pool => pool.shared.workers.Consistent) Unharmed
      ?_ ?_ ?_ ?_ run
    · intro pool label next taken consistent
      obtain ⟨front, actor, back, shared, actor', spawned, _, _, acted, rfl⟩ :=
        ActorPool.step_eq_some taken
      exact consistent.step (Actor.behave_workers acted).1
    · exact fun pool label next taken consistent unharmed =>
        unharmed_step_iff consistent unharmed taken
    · exact fun pool label next taken _ harmed => not_unharmed_step harmed taken
    · intro thread
      rfl
  constructor
  · intro first
    exact (counted.mpr ⟨idle, first⟩).clean
  · intro rest clean
    refine (counted.mp ⟨clean, fun actor member thread reading => ?_⟩).2
    simp [rest actor member] at reading

/-- The status of a thread is read while it has its worker. -/
theorem nullDereferences_getStatus :
    ∃ final, Runs.exec step (initial (fun _ => "worker") (fun _ => some 1) [1] [.getStatus])
        (List.replicate 4 (0, .usual)) = some final ∧
      Runs.Along step ReadsBeforeReset
        (initial (fun _ => "worker") (fun _ => some 1) [1] [.getStatus])
        (List.replicate 4 (0, .usual)) ∧
      final.shared.nullDereferences = [] := by
  have result : (Runs.exec step
      (initial (fun _ => "worker") (fun _ => some 1) [1] [.getStatus])
      (List.replicate 4 (0, .usual))).map
        (fun final => (final.shared.nullDereferences, final.actors.map Actor.visits)) =
          some ([], [none]) := by
    decide
  obtain ⟨final, run, record⟩ := Option.map_eq_some_iff.mp result
  have visits : final.actors.map Actor.visits = [none] := congrArg Prod.snd record
  have clean : final.shared.nullDereferences = [] := congrArg Prod.fst record
  have rest : final.NoVisits := fun actor member => by
    have listed : actor.visits ∈ final.actors.map Actor.visits := List.mem_map_of_mem member
    simpa [visits] using listed
  have first := (nullDereferences_of_readsBeforeReset run).2 rest clean
  exact ⟨final, run, first, (nullDereferences_of_readsBeforeReset run).1 first⟩

/-- A thread is started, its worker terminates it, and its status is read before it is removed. -/
theorem nullDereferences_fails :
    ¬∀ (task : Nat → String) (worker : Nat → Option Nat) (listed : List Nat)
      (clients : List Client) (schedule : List (Nat × Choice)) (final : ThreadPool),
      Runs.exec step (initial task worker listed clients) schedule = some final →
        final.shared.nullDereferences = [] := by
  intro safe
  have null : (Runs.exec step
      (initial (fun _ => "worker") (fun _ => some 1) [1]
        [.access (.named "worker") .startThread, .access (.workered 1) .terminate, .getStatus])
      (List.replicate 7 (0, .usual) ++ List.replicate 2 (3, .usual) ++
        List.replicate 5 (1, .usual) ++ List.replicate 5 (3, .usual) ++
        List.replicate 2 (2, .usual))).map
          (fun final => final.shared.nullDereferences) = some [1] := by
    decide
  obtain ⟨final, run, record⟩ := Option.map_eq_some_iff.mp null
  simp [safe _ _ _ _ _ final run] at record

end ThreadPool

end Drumlin
