import Drumlin.ThreadPool

/-!
# The lifecycle of threads

What the actors of the pool do to threads, told by the stages of the actors: a thread is started,
launched, entered, serves its loop, leaves it and ends, or is interrupted in its sleep.  `m_ready`
says whether one of the stages is taken, so that no thread runs twice at a time, however often it is
started.
-/

namespace Drumlin

open ActorPool

/-! ## Stages -/

/-- How far an actor is with a thread, and the number of the `boost::thread` if it was made. -/
inductive Stage
  /-- The actor does not run a thread. -/
  | idle
  /-- It has set `m_ready` and makes the thread. -/
  | launching (thread : Nat)
  /-- The thread has not come to its loop. -/
  | starting (thread boost : Nat)
  /-- The thread is at the condition of its loop. -/
  | looping (thread boost : Nat)
  /-- It handles an event or the tick, or sleeps. -/
  | serving (thread boost : Nat)
  /-- It has left its loop. -/
  | leaving (thread boost : Nat)
  /-- It has cleared `m_ready`. -/
  | finishing (thread boost : Nat)
  /-- It was interrupted in its sleep, and never clears `m_ready`. -/
  | abandoned (thread boost : Nat)
deriving DecidableEq, Repr

namespace Stage

/-- `m_ready` was set for the thread and is not cleared. -/
def active (thread : Nat) : Stage → Bool
  | launching other | starting other _ | looping other _ | serving other _ | leaving other _
  | abandoned other _ => other == thread
  | idle | finishing _ _ => false

/-- The function of the `boost::thread` was called and has not returned. -/
def runs (boost : Nat) : Stage → Bool
  | starting _ other | looping _ other | serving _ other | leaving _ other | finishing _ other =>
      other == boost
  | idle | launching _ | abandoned _ _ => false

/-- The thread is run and `m_ready` is not cleared. -/
def holds (thread boost : Nat) : Stage → Bool
  | starting thread' boost' | looping thread' boost' | serving thread' boost'
  | leaving thread' boost' => thread' == thread && boost' == boost
  | idle | launching _ | finishing _ _ | abandoned _ _ => false

theorem active_of_holds {thread boost : Nat} {stage : Stage}
    (held : stage.holds thread boost = true) : stage.active thread = true := by
  cases stage <;> simp_all [holds, active]

end Stage

/-- What the stages depend on. -/
structure Lifecycle where
  /-- `m_ready` of each thread. -/
  isReady : Nat → Bool
  /-- `m_deleting`. -/
  isDeleting : Nat → Bool
  /-- `m_terminated`. -/
  isTerminated : Nat → Bool
  /-- `m_thread`. -/
  boostThread : Nat → Option Nat
  /-- The number of `boost::thread`s made so far. -/
  launches : Nat
  /-- The `boost::thread`s whose function has returned. -/
  returned : List Nat

namespace Lifecycle

/-- What an action does to the lifecycle and to the stage of its actor, and the stages of those it
spawns. -/
inductive Step (before : Lifecycle) : Stage → Lifecycle → Stage → List Stage → Prop
  | keep (stage : Stage) : Step before stage before stage []
  | terminate (thread : Nat) (stage : Stage) :
      Step before stage
        { before with isTerminated := Function.update before.isTerminated thread true } stage []
  | start (thread : Nat) (idle : before.isReady thread = false) :
      Step before .idle { before with isReady := Function.update before.isReady thread true }
        (.launching thread) []
  | launch (thread : Nat) :
      Step before (.launching thread)
        { before with
          boostThread := Function.update before.boostThread thread (some before.launches)
          launches := before.launches + 1 } .idle [.starting thread before.launches]
  | enter (thread boost : Nat) (goes : before.isTerminated thread = false) :
      Step before (.starting thread boost) before (.looping thread boost) []
  | skip (thread boost : Nat) (ended : before.isTerminated thread = true) :
      Step before (.starting thread boost) before (.leaving thread boost) []
  | serve (thread boost : Nat) (stays : before.isDeleting thread = false)
      (goes : before.isTerminated thread = false) :
      Step before (.looping thread boost) before (.serving thread boost) []
  | again (thread boost : Nat) :
      Step before (.serving thread boost) before (.looping thread boost) []
  | abandon (thread boost : Nat) :
      Step before (.serving thread boost) { before with returned := before.returned ++ [boost] }
        (.abandoned thread boost) []
  | leave (thread boost : Nat) :
      Step before (.looping thread boost) before (.leaving thread boost) []
  | mark (thread boost : Nat) :
      Step before (.leaving thread boost)
        { before with isDeleting := Function.update before.isDeleting thread true }
        (.leaving thread boost) []
  | finish (thread boost : Nat) :
      Step before (.leaving thread boost)
        { before with isReady := Function.update before.isReady thread false }
        (.finishing thread boost) []
  | done (thread boost : Nat) :
      Step before (.finishing thread boost) { before with returned := before.returned ++ [boost] }
        .idle []

end Lifecycle

namespace Threads

/-- The lifecycle of the threads. -/
def lifecycle (threads : Threads) : Lifecycle where
  isReady := fun thread => (threads.threadAt thread).isReady
  isDeleting := fun thread => (threads.threadAt thread).isDeleting
  isTerminated := fun thread => (threads.threadAt thread).isTerminated
  boostThread := fun thread => (threads.threadAt thread).boostThread
  launches := threads.launches
  returned := threads.returned

@[simp] theorem lifecycle_dereference (thread : Nat) (threads : Threads) :
    (threads.dereference thread).lifecycle = threads.lifecycle := by
  unfold dereference
  split <;> rfl

@[simp] theorem lifecycle_post (thread : Nat) (event : Event) (threads : Threads) :
    (threads.post thread event).lifecycle = threads.lifecycle := rfl

/-- The application is not part of the lifecycle. -/
@[simp] theorem lifecycle_onApplication (change : Application → Application) (threads : Threads) :
    (threads.onApplication change).lifecycle = threads.lifecycle := rfl

@[simp] theorem lifecycle_send (thread : Nat) (event : Event) (threads : Threads) :
    (threads.send thread event).lifecycle = threads.lifecycle :=
  lifecycle_dereference thread threads

/-- A field of one thread changes. -/
theorem field_update {α : Type} (field : Thread → α) (thread : Nat) (change : Thread → Thread)
    (threads : Threads) :
    (fun other => field ((threads.update thread change).threadAt other)) =
      Function.update (fun other => field (threads.threadAt other)) thread
        (field (change (threads.threadAt thread))) := by
  funext other
  by_cases same : other = thread
  · subst same
    simp [update]
  · simp [update, same]

/-- A field that a change leaves alone. -/
theorem field_update_of_eq {α : Type} (field : Thread → α) (thread : Nat) {change : Thread → Thread}
    (threads : Threads) (same : ∀ this, field (change this) = field this) :
    (fun other => field ((threads.update thread change).threadAt other)) =
      fun other => field (threads.threadAt other) := by
  rw [field_update, same]
  exact Function.update_eq_self thread _

theorem lifecycle_setReady (thread : Nat) (value : Bool) (threads : Threads) :
    (threads.update thread fun this => { this with isReady := value }).lifecycle =
      { threads.lifecycle with
        isReady := Function.update threads.lifecycle.isReady thread value } := by
  simp only [lifecycle, Lifecycle.mk.injEq]
  exact ⟨field_update Thread.isReady thread _ threads,
    field_update_of_eq Thread.isDeleting thread threads fun _ => rfl,
    field_update_of_eq Thread.isTerminated thread threads fun _ => rfl,
    field_update_of_eq Thread.boostThread thread threads fun _ => rfl, rfl, rfl⟩

theorem lifecycle_setDeleting (thread : Nat) (threads : Threads) :
    (threads.update thread fun this => { this with isDeleting := true }).lifecycle =
      { threads.lifecycle with
        isDeleting := Function.update threads.lifecycle.isDeleting thread true } := by
  simp only [lifecycle, Lifecycle.mk.injEq]
  exact ⟨field_update_of_eq Thread.isReady thread threads fun _ => rfl,
    field_update Thread.isDeleting thread _ threads,
    field_update_of_eq Thread.isTerminated thread threads fun _ => rfl,
    field_update_of_eq Thread.boostThread thread threads fun _ => rfl, rfl, rfl⟩

@[simp] theorem lifecycle_terminate (thread : Nat) (threads : Threads) :
    (threads.terminate thread).lifecycle =
      { threads.lifecycle with
        isTerminated := Function.update threads.lifecycle.isTerminated thread true } := by
  simp only [lifecycle, Lifecycle.mk.injEq]
  exact ⟨field_update_of_eq Thread.isReady thread threads fun _ => rfl,
    field_update_of_eq Thread.isDeleting thread threads fun _ => rfl,
    field_update Thread.isTerminated thread _ threads,
    field_update_of_eq Thread.boostThread thread threads fun _ => rfl, rfl, rfl⟩

theorem lifecycle_setThread (thread boost : Nat) (threads : Threads) :
    (threads.update thread fun this => { this with boostThread := some boost }).lifecycle =
      { threads.lifecycle with
        boostThread := Function.update threads.lifecycle.boostThread thread (some boost) } := by
  simp only [lifecycle, Lifecycle.mk.injEq]
  exact ⟨field_update_of_eq Thread.isReady thread threads fun _ => rfl,
    field_update_of_eq Thread.isDeleting thread threads fun _ => rfl,
    field_update_of_eq Thread.isTerminated thread threads fun _ => rfl,
    field_update Thread.boostThread thread _ threads, rfl, rfl⟩

theorem lifecycle_start (thread : Nat) (threads : Threads) :
    (threads.start thread).lifecycle =
      { threads.lifecycle with
        isReady := Function.update threads.lifecycle.isReady thread true } :=
  lifecycle_setReady thread true threads

theorem lifecycle_launch (thread : Nat) (threads : Threads) :
    (threads.launch thread).lifecycle =
      { threads.lifecycle with
        boostThread := Function.update threads.lifecycle.boostThread thread (some threads.launches)
        launches := threads.launches + 1 } := by
  have made := lifecycle_setThread thread threads.launches threads
  change { (threads.update thread fun this =>
    { this with boostThread := some threads.launches }).lifecycle with
    launches := threads.launches + 1 } = _
  rw [made]

@[simp] theorem lifecycle_resetWorker (thread : Nat) (threads : Threads) :
    (threads.resetWorker thread).lifecycle = threads.lifecycle := by
  have same {α : Type} (field : Thread → α)
      (kept : ∀ this, field { this with worker := none } = field this) :=
    @field_update_of_eq _ field thread (fun this => { this with worker := none }) threads kept
  simp only [lifecycle, Lifecycle.mk.injEq]
  exact ⟨same Thread.isReady fun _ => rfl, same Thread.isDeleting fun _ => rfl,
    same Thread.isTerminated fun _ => rfl, same Thread.boostThread fun _ => rfl, rfl, rfl⟩

end Threads

namespace Actor

/-- How far an actor is with a thread. -/
def stage : Actor → Stage
  | run thread boost .entry | run thread boost .postWork => .starting thread boost
  | run thread boost .loop => .looping thread boost
  | run thread boost .tryLock | run thread boost .exec | run thread boost .shutdown
  | run thread boost .tick | run thread boost .sleep => .serving thread boost
  | run thread boost .leave | run thread boost .testWorker | run thread boost .shutdownWorker
  | run thread boost .reset | run thread boost .terminate | run thread boost .clearReady =>
      .leaving thread boost
  | run thread boost .quit => .finishing thread boost
  | run thread boost .interrupted => .abandoned thread boost
  | access _ _ (.launch thread _) | addThread thread _ .launch => .launching thread
  | _ => .idle

variable {self : Nat} {choice : Choice} {threads threads' : Threads}

/-! ## What one action does -/

theorem run_lifecycle {thread boost : Nat} {phase phase' : RunPhase}
    (acted : Thread.run thread boost choice threads phase = some (threads', phase')) :
    threads.lifecycle.Step (run thread boost phase).stage threads'.lifecycle
      (run thread boost phase').stage [] := by
  cases phase with
  | entry =>
      obtain ⟨rfl, rfl⟩ := by simpa [Thread.run] using acted
      exact .keep _
  | postWork =>
      simp only [Thread.run] at acted
      obtain ⟨rfl, rfl⟩ := by simpa using acted
      rw [Threads.lifecycle_post, Threads.lifecycle_dereference]
      cases ended : (threads.threadAt thread).isTerminated with
      | true => exact .skip thread boost ended
      | false => exact .enter thread boost ended
  | loop =>
      simp only [Thread.run] at acted
      split at acted <;> obtain ⟨rfl, rfl⟩ := by simpa using acted
      · rename_i goes
        simp only [Bool.and_eq_true, Bool.not_eq_true'] at goes
        exact .serve thread boost goes.1.1.2 goes.1.2
      · exact .leave thread boost
  | tryLock =>
      simp only [Thread.run] at acted
      obtain ⟨rfl, rfl⟩ := by simpa using acted
      split
      · exact .keep _
      · exact .keep _
  | exec =>
      simp only [Thread.run] at acted
      split at acted <;> obtain ⟨rfl, rfl⟩ := by simpa using acted
      · have same : ((threads.dereference thread).claim thread).lifecycle = threads.lifecycle :=
          Threads.lifecycle_dereference thread threads
        rw [same]
        exact .keep _
      · rw [Threads.lifecycle_dereference]
        exact .keep _
  | shutdown =>
      simp only [Thread.run, Threads.guarded_eq_some, Prod.mk.injEq] at acted
      obtain ⟨-, rfl, rfl⟩ := acted
      exact .keep _
  | tick =>
      obtain ⟨rfl, rfl⟩ := by simpa [Thread.run] using acted
      rw [Threads.lifecycle_dereference]
      exact .keep _
  | sleep =>
      simp only [Thread.run] at acted
      split at acted <;> obtain ⟨rfl, rfl⟩ := by simpa using acted
      · exact .abandon thread boost
      · exact .again thread boost
  | leave =>
      obtain ⟨rfl, rfl⟩ := by simpa [Thread.run] using acted
      rw [Threads.lifecycle_setDeleting]
      exact .mark thread boost
  | testWorker =>
      simp only [Thread.run] at acted
      obtain ⟨rfl, rfl⟩ := by simpa using acted
      split
      · exact .keep _
      · exact .keep _
  | shutdownWorker =>
      obtain ⟨rfl, rfl⟩ := by simpa [Thread.run] using acted
      rw [Threads.lifecycle_dereference]
      exact .keep _
  | reset =>
      obtain ⟨rfl, rfl⟩ := by simpa [Thread.run] using acted
      rw [Threads.lifecycle_resetWorker]
      exact .keep _
  | terminate =>
      obtain ⟨rfl, rfl⟩ := by simpa [Thread.run] using acted
      rw [Threads.lifecycle_terminate]
      exact .terminate thread _
  | clearReady =>
      obtain ⟨rfl, rfl⟩ := by simpa [Thread.run] using acted
      rw [Threads.lifecycle_setReady]
      exact .finish thread boost
  | quit =>
      simp only [Thread.run, Threads.guarded_eq_some, Prod.mk.injEq] at acted
      obtain ⟨-, rfl, rfl⟩ := acted
      exact .done thread boost
  | done | interrupted => simp [Thread.run] at acted

theorem use_lifecycle {query : Query} {functor : Functor} {phase phase' : AccessPhase}
    {launched : Option Nat}
    (acted : ThreadAccessor.use self query functor threads phase =
      some (threads', phase', launched)) :
    threads.lifecycle.Step (access query functor phase).stage threads'.lifecycle
      (access query functor phase').stage ((threads.entries launched).map stage) := by
  cases phase with
  | lock =>
      simp only [ThreadAccessor.use, Option.map_eq_some_iff, Threads.acquire_eq_some] at acted
      obtain ⟨_, ⟨-, rfl⟩, acted⟩ := acted
      obtain ⟨rfl, rfl, rfl⟩ := by simpa using acted
      exact .keep _
  | visit todo selected =>
      cases todo with
      | nil =>
          obtain ⟨rfl, rfl, rfl⟩ := by simpa [ThreadAccessor.use] using acted
          exact .keep _
      | cons thread todo =>
          obtain ⟨rfl, rfl, rfl⟩ := by simpa [ThreadAccessor.use] using acted
          rw [apply_ite Threads.lifecycle, Threads.lifecycle_dereference, ite_self]
          exact .keep _
  | apply todo =>
      cases todo with
      | nil =>
          obtain ⟨rfl, rfl, rfl⟩ := by simpa [ThreadAccessor.use] using acted
          exact .keep _
      | cons thread todo =>
          cases functor with
          | startThread =>
              simp only [ThreadAccessor.use] at acted
              split at acted <;> obtain ⟨rfl, rfl, rfl⟩ := by simpa using acted
              · exact .keep _
              · exact .keep _
          | sendEvent event =>
              obtain ⟨rfl, rfl, rfl⟩ := by simpa [ThreadAccessor.use] using acted
              rw [Threads.lifecycle_send]
              exact .keep _
          | terminate =>
              obtain ⟨rfl, rfl, rfl⟩ := by simpa [ThreadAccessor.use] using acted
              rw [Threads.lifecycle_terminate]
              exact .terminate thread _
  | start thread todo =>
      simp only [ThreadAccessor.use] at acted
      split at acted <;> obtain ⟨rfl, rfl, rfl⟩ := by simpa using acted
      · exact .keep _
      · rename_i idle
        rw [Threads.lifecycle_start]
        exact .start thread (Bool.eq_false_of_not_eq_true idle)
  | launch thread todo =>
      obtain ⟨rfl, rfl, rfl⟩ := by simpa [ThreadAccessor.use] using acted
      rw [Threads.lifecycle_launch]
      exact .launch thread
  | done => simp [ThreadAccessor.use] at acted

theorem addThread_lifecycle {thread : Nat} {startWork : Bool} {phase phase' : AddPhase}
    {launched : Option Nat}
    (acted : threads.addThread self thread startWork phase = some (threads', phase', launched)) :
    threads.lifecycle.Step (addThread thread startWork phase).stage threads'.lifecycle
      (addThread thread startWork phase').stage ((threads.entries launched).map stage) := by
  cases phase with
  | lock =>
      simp only [Threads.addThread, Option.map_eq_some_iff, Threads.acquire_eq_some] at acted
      obtain ⟨_, ⟨-, rfl⟩, acted⟩ := acted
      obtain ⟨rfl, rfl, rfl⟩ := by simpa using acted
      exact .keep _
  | add =>
      obtain ⟨rfl, rfl, rfl⟩ := by simpa [Threads.addThread] using acted
      rw [Threads.lifecycle_onApplication, Threads.lifecycle_dereference]
      cases startWork <;> exact .keep _
  | start =>
      simp only [Threads.addThread] at acted
      split at acted <;> obtain ⟨rfl, rfl, rfl⟩ := by simpa using acted
      · exact .keep _
      · rename_i idle
        rw [Threads.lifecycle_start]
        exact .start thread (Bool.eq_false_of_not_eq_true idle)
  | launch =>
      obtain ⟨rfl, rfl, rfl⟩ := by simpa [Threads.addThread] using acted
      rw [Threads.lifecycle_launch]
      exact .launch thread
  | release =>
      obtain ⟨rfl, rfl, rfl⟩ := by simpa [Threads.addThread] using acted
      exact .keep _
  | done => simp [Threads.addThread] at acted

theorem getStatus_lifecycle {phase phase' : StatusPhase}
    (acted : threads.getStatus self phase = some (threads', phase')) :
    threads'.lifecycle = threads.lifecycle := by
  cases phase with
  | lock =>
      simp only [Threads.getStatus, Option.map_eq_some_iff, Threads.acquire_eq_some] at acted
      obtain ⟨_, ⟨-, rfl⟩, acted⟩ := acted
      obtain ⟨rfl, rfl⟩ := by simpa using acted
      rfl
  | writeToObject todo =>
      cases todo with
      | nil =>
          obtain ⟨rfl, rfl⟩ := by simpa [Threads.getStatus] using acted
          rfl
      | cons thread todo =>
          obtain ⟨rfl, rfl⟩ := by simpa [Threads.getStatus] using acted
          simp
  | getStatus thread todo =>
      obtain ⟨rfl, rfl⟩ := by simpa [Threads.getStatus] using acted
      simp
  | done => simp [Threads.getStatus] at acted

theorem stop_lifecycle {first : Nat} {phase phase' : StopPhase}
    (acted : threads.stop self first phase = some (threads', phase')) :
    threads.lifecycle.Step .idle threads'.lifecycle .idle [] := by
  cases phase with
  | round type =>
      simp only [Threads.stop] at acted
      split at acted
      · simp only [Option.map_eq_some_iff, Threads.acquire_eq_some] at acted
        obtain ⟨_, ⟨-, rfl⟩, acted⟩ := acted
        obtain ⟨rfl, rfl⟩ := by simpa using acted
        exact .keep _
      · obtain ⟨rfl, rfl⟩ := by simpa using acted
        exact .keep _
  | select type todo selected =>
      cases todo with
      | nil =>
          obtain ⟨rfl, rfl⟩ := by simpa [Threads.stop] using acted
          exact .keep _
      | cons thread todo =>
          simp only [Threads.stop] at acted
          split at acted <;> obtain ⟨rfl, rfl⟩ := by simpa using acted
          · exact .keep _
          · exact .keep _
  | compare type thread todo selected =>
      obtain ⟨rfl, rfl⟩ := by simpa [Threads.stop] using acted
      rw [Threads.lifecycle_dereference]
      exact .keep _
  | terminate type todo selected =>
      cases todo with
      | nil =>
          obtain ⟨rfl, rfl⟩ := by simpa [Threads.stop] using acted
          exact .keep _
      | cons thread todo =>
          obtain ⟨rfl, rfl⟩ := by simpa [Threads.stop] using acted
          rw [Threads.lifecycle_terminate]
          exact .terminate thread _
  | test type todo =>
      cases todo with
      | nil =>
          obtain ⟨rfl, rfl⟩ := by simpa [Threads.stop] using acted
          exact .keep _
      | cons thread todo =>
          simp only [Threads.stop] at acted
          split at acted <;> obtain ⟨rfl, rfl⟩ := by simpa using acted
          · exact .keep _
          · exact .keep _
  | quit type thread todo =>
      simp only [Threads.stop, Threads.guarded_eq_some, Prod.mk.injEq] at acted
      obtain ⟨-, rfl, rfl⟩ := acted
      exact .keep _
  | wait type thread todo =>
      simp only [Threads.stop] at acted
      split at acted <;> obtain ⟨rfl, rfl⟩ := by simpa using acted
      · exact .keep _
      · exact .keep _
  | join type thread todo =>
      simp only [Threads.stop] at acted
      split at acted
      · simp at acted
      · obtain ⟨rfl, rfl⟩ := by simpa using acted
        exact .keep _
  | done => simp [Threads.stop] at acted

theorem exec_lifecycle {phase phase' : ExecPhase}
    (acted : threads.exec self phase = some (threads', phase')) :
    threads'.lifecycle = threads.lifecycle := by
  cases phase with
  | pull =>
      simp only [Threads.exec] at acted
      split at acted
      · simp at acted
      · split at acted <;> obtain ⟨rfl, rfl⟩ := by simpa using acted
        · rfl
        · rfl
  | lock thread =>
      simp only [Threads.exec, Option.map_eq_some_iff, Threads.acquire_eq_some] at acted
      obtain ⟨_, ⟨-, rfl⟩, acted⟩ := acted
      obtain ⟨rfl, rfl⟩ := by simpa using acted
      rfl
  | testStarted | testTerminated =>
      obtain ⟨rfl, rfl⟩ := by simpa [Threads.exec] using acted
      rfl
  | remove thread status =>
      obtain ⟨rfl, rfl⟩ := by simpa [Threads.exec] using acted
      have same : (if status.isRunning then threads.dereference thread else threads).lifecycle =
          threads.lifecycle := by
        rw [apply_ite Threads.lifecycle, Threads.lifecycle_dereference, ite_self]
      exact same

/-- What one action of an actor does to the lifecycle. -/
theorem behave_lifecycle {actor actor' : Actor} {spawned : List Actor}
    (acted : actor.behave self threads choice = some (threads', actor', spawned)) :
    threads.lifecycle.Step actor.stage threads'.lifecycle actor'.stage (spawned.map stage) := by
  cases behaves_of_behave acted with
  | run ran => exact run_lifecycle ran
  | access used => exact use_lifecycle used
  | addThread added => exact addThread_lifecycle added
  | getStatus read =>
      rw [getStatus_lifecycle read]
      exact .keep _
  | stop stopped => exact stop_lifecycle stopped
  | exec pulled =>
      rw [exec_lifecycle pulled]
      exact .keep _
  | send thread event =>
      rw [Threads.lifecycle_send]
      exact .keep _

end Actor

namespace Lifecycle

variable {before after : Lifecycle} {stage stage' : Stage} {spawned : List Stage}

/-- The number of stages that say so, of those an action spawns. -/
def calls (holds : Nat → Stage → Bool) (thread : Nat) (spawned : List Stage) : Nat :=
  (spawned.map fun stage => (holds thread stage).toNat).sum

/-- `m_ready` is set as a stage becomes active, and cleared as it ends to be so. -/
theorem Step.active (effect : before.Step stage after stage' spawned) (thread : Nat)
    (ready : stage.active thread = true → before.isReady thread = true) :
    (stage'.active thread).toNat + calls Stage.active thread spawned +
        (before.isReady thread).toNat =
      (stage.active thread).toNat + (after.isReady thread).toNat := by
  cases effect with
  | keep => simp [calls]
  | terminate other => simp [calls]
  | start other idle =>
      by_cases same : thread = other
      · subst same
        simp [calls, Stage.active, idle]
      · simp [calls, Stage.active, same, Ne.symm same]
  | launch other => simp [calls, Stage.active]
  | enter other _ goes => simp [calls, Stage.active]
  | skip other _ ended => simp [calls, Stage.active]
  | serve other _ stays goes => simp [calls, Stage.active]
  | again other => simp [calls, Stage.active]
  | abandon other => simp [calls, Stage.active]
  | leave other => simp [calls, Stage.active]
  | mark other => simp [calls, Stage.active]
  | finish other =>
      by_cases same : thread = other
      · subst same
        simp [calls, Stage.active, ready (by simp [Stage.active])]
      · simp [calls, Stage.active, same, Ne.symm same]
  | done other => simp [calls, Stage.active]

/-- The `boost::thread` of a number was made: `1` if so. -/
def made (boost : Nat) (lifecycle : Lifecycle) : Nat :=
  if boost < lifecycle.launches then 1 else 0

/-- A `boost::thread` runs from the moment it is made until its function returns. -/
theorem Step.runs (effect : before.Step stage after stage' spawned) (boost : Nat) :
    (stage'.runs boost).toNat + calls Stage.runs boost spawned + after.returned.count boost +
        before.made boost =
      (stage.runs boost).toNat + before.returned.count boost + after.made boost := by
  cases effect with
  | keep => simp [calls]
  | terminate other => simp [calls, made]
  | start other idle => simp [calls, Stage.runs, made]
  | launch other =>
      rcases Nat.lt_trichotomy boost before.launches with old | rfl | new
      · simp [calls, Stage.runs, made, old, Nat.lt_succ_of_lt old, Nat.ne_of_gt old]
      · simp [calls, Stage.runs, made, Nat.add_comm]
      · simp [calls, Stage.runs, made, Nat.not_lt_of_gt new, Nat.ne_of_lt new,
          Nat.not_lt_of_ge (Nat.succ_le_of_lt new)]
  | enter other _ goes => simp [calls, Stage.runs]
  | skip other _ ended => simp [calls, Stage.runs]
  | serve other _ stays goes => simp [calls, Stage.runs]
  | again other => simp [calls, Stage.runs]
  | leave other => simp [calls, Stage.runs]
  | mark other => simp [calls, Stage.runs, made]
  | finish other => simp [calls, Stage.runs, made]
  | abandon thread other | done thread other =>
      by_cases same : other = boost
      · subst same
        simp [calls, Stage.runs, made]
        omega
      · simp [calls, Stage.runs, made, same]

/-- A thread that was terminated stays so. -/
theorem Step.grows (effect : before.Step stage after stage' spawned) (thread : Nat) :
    before.isTerminated thread = true → after.isTerminated thread = true := by
  cases effect with
  | terminate other => exact fun set => by simp [Function.update_apply, set]
  | _ => exact id

/-- Only who launches a thread changes its `m_thread`, and who runs a thread keeps its number. -/
theorem Step.boostThread (effect : before.Step stage after stage' spawned) (thread : Nat) :
    (after.boostThread thread = before.boostThread thread ∨ stage = .launching thread) ∧
      (∀ boost, stage'.holds thread boost = true → stage.holds thread boost = true) ∧
      ∀ new ∈ spawned, ∀ boost, new.holds thread boost = true →
        after.boostThread thread = some boost := by
  cases effect with
  | launch other =>
      refine ⟨?_, by simp [Stage.holds], ?_⟩
      · by_cases same : thread = other
        · exact .inr (by rw [same])
        · exact .inl (Function.update_of_ne same _ _)
      · intro new member boost held
        obtain rfl := List.mem_singleton.mp member
        simp only [Stage.holds, Bool.and_eq_true, beq_iff_eq] at held
        obtain ⟨rfl, rfl⟩ := held
        exact Function.update_self _ _ _
  | start | abandon | finish | done => exact ⟨.inl rfl, by simp [Stage.holds], by simp⟩
  | keep | terminate | enter | skip | serve | again | leave | mark =>
      exact ⟨.inl rfl, fun _ held => held, by simp⟩

end Lifecycle

namespace ThreadPool

/-! ## Runs -/

/-- How many actors say so. -/
def tally (holds : Nat → Stage → Bool) (thread : Nat) (pool : ThreadPool) : Nat :=
  load (fun actor => (holds thread actor.stage).toNat) pool

/-- The stages of the actors are those the threads are in: `m_ready` is set for exactly one active
actor of a thread, a `boost::thread` that was made is run by one actor or has returned, the one of
whoever holds a thread is in its `m_thread`, and no actor serves a loop that another one has
left. -/
structure Lives (pool : ThreadPool) : Prop where
  active : ∀ thread,
    pool.tally Stage.active thread = (pool.shared.lifecycle.isReady thread).toNat
  runs : ∀ boost,
    pool.tally Stage.runs boost + pool.shared.lifecycle.returned.count boost =
      pool.shared.lifecycle.made boost
  current : ∀ actor ∈ pool.actors, ∀ thread boost, actor.stage.holds thread boost = true →
    pool.shared.lifecycle.boostThread thread = some boost
  stays : ∀ actor ∈ pool.actors, ∀ thread boost, actor.stage = .serving thread boost →
    pool.shared.lifecycle.isDeleting thread = false

variable {pool next : ThreadPool} {thread boost : Nat}

/-- Whoever says so is counted. -/
theorem one_le_tally {holds : Nat → Stage → Bool} {actor : Actor} (member : actor ∈ pool.actors)
    (counts : holds thread actor.stage = true) : 1 ≤ pool.tally holds thread := by
  have one := List.single_le_sum
    (l := pool.actors.map fun actor => (holds thread actor.stage).toNat)
    (fun _ _ => Nat.zero_le _) _ (List.mem_map_of_mem member)
  simpa [tally, load, counts] using one

/-- Somebody who is counted says so. -/
theorem exists_of_tally_ne_zero {holds : Nat → Stage → Bool}
    (counted : pool.tally holds thread ≠ 0) :
    ∃ actor ∈ pool.actors, holds thread actor.stage = true := by
  by_contra nobody
  push Not at nobody
  refine counted ?_
  rw [tally, load, List.sum_eq_zero_iff_forall_eq_nat]
  simp only [List.mem_map]
  rintro _ ⟨actor, member, rfl⟩
  simp [nobody actor member]

theorem Lives.isReady (lives : pool.Lives) {actor : Actor} (member : actor ∈ pool.actors)
    (active : actor.stage.active thread = true) :
    pool.shared.lifecycle.isReady thread = true := by
  have counted := one_le_tally member active
  rw [lives.active thread] at counted
  cases ready : pool.shared.lifecycle.isReady thread with
  | true => rfl
  | false => simp [ready] at counted

/-- The function of a `boost::thread` that an actor runs has not returned. -/
theorem Lives.not_mem_returned (lives : pool.Lives) {actor : Actor} (member : actor ∈ pool.actors)
    (runs : actor.stage.runs boost = true) : boost ∉ pool.shared.lifecycle.returned := by
  intro returned
  have counted := one_le_tally member runs
  have present := List.count_pos_iff.mpr returned
  have total := lives.runs boost
  simp only [Lifecycle.made] at total
  split at total <;> omega

/-- Two places of a pool with actors that are active for the same thread are the same. -/
theorem Lives.eq_of_active (lives : pool.Lives) {first second : Nat} {one other : Actor}
    (here : pool.actors[first]? = some one) (there : pool.actors[second]? = some other)
    (active : one.stage.active thread = true) (active' : other.stage.active thread = true) :
    first = second := by
  by_contra distinct
  have both : 2 ≤ pool.tally Stage.active thread :=
    two_le_load distinct here there (by simp [active]) (by simp [active'])
  rw [lives.active thread] at both
  have one := Bool.toNat_le (pool.shared.lifecycle.isReady thread)
  omega

/-- What an action adds to a tally. -/
theorem tally_step (holds : Nat → Stage → Bool) (thread : Nat) (actor' : Actor)
    (spawned : List Actor) (shared : Threads) {front back : List Actor} {actor : Actor}
    (split : pool.actors = front ++ actor :: back) :
    tally holds thread ⟨shared, front ++ actor' :: back ++ spawned⟩ +
        (holds thread actor.stage).toNat =
      pool.tally holds thread + (holds thread actor'.stage).toNat +
        Lifecycle.calls holds thread (spawned.map Actor.stage) := by
  have sum : Lifecycle.calls holds thread (spawned.map Actor.stage) =
      (spawned.map fun actor => (holds thread actor.stage).toNat).sum := by
    rw [Lifecycle.calls, List.map_map]
    rfl
  rw [sum]
  exact load_step _ split shared actor' spawned

theorem Lives.initial (task : Nat → String) (worker : Nat → Option Nat) (listed : List Nat)
    (clients : List Client) : (initial task worker listed clients).Lives := by
  have idle : ∀ actor ∈ (ThreadPool.initial task worker listed clients).actors,
      actor.stage = .idle := by
    intro actor member
    obtain ⟨client, _, rfl⟩ := List.mem_map.mp member
    cases client <;> rfl
  have none_counts {holds : Nat → Stage → Bool} (thread : Nat)
      (none : holds thread .idle = false) :
      tally holds thread (ThreadPool.initial task worker listed clients) = 0 := by
    by_contra counted
    obtain ⟨actor, member, counts⟩ := exists_of_tally_ne_zero counted
    simp [idle actor member, none] at counts
  constructor
  · exact fun thread => none_counts thread rfl
  · intro boost
    rw [none_counts boost rfl]
    rfl
  · intro actor member thread boost held
    simp [idle actor member, Stage.holds] at held
  · intro actor member thread boost serves
    simp [idle actor member] at serves

/-- Whoever holds a thread held it before, or was just spawned for it. -/
theorem Lives.current_step (lives : pool.Lives) {label : Nat × Choice}
    (taken : pool.step label = some next) :
    ∀ other ∈ next.actors, ∀ thread boost, other.stage.holds thread boost = true →
      next.shared.lifecycle.boostThread thread = some boost := by
  obtain ⟨actor, actor', spawned, present, acted, actors⟩ := ActorPool.actors_of_step taken
  have effect := Actor.behave_lifecycle acted
  intro other member thread boost held
  obtain ⟨place, there⟩ := List.getElem?_of_mem member
  obtain ⟨changed, kept, begun⟩ := effect.boostThread thread
  -- who launches the thread is active for it, so that nobody else holds it
  have same {place : Nat} {holder : Actor} (there : pool.actors[place]? = some holder)
      (held : holder.stage.holds thread boost = true)
      (idle : actor.stage = .launching thread → place ≠ label.1) :
      next.shared.lifecycle.boostThread thread = some boost := by
    have before := lives.current holder (List.mem_of_getElem? there) thread boost held
    rcases changed with unchanged | launches
    · exact unchanged.trans before
    · exact (idle launches (lives.eq_of_active there present (Stage.active_of_holds held)
        (by simp [launches, Stage.active]))).elim
  rw [actors] at there
  rcases getElem?_of_set_append present there with ⟨rfl, rfl⟩ | ⟨distinct, old⟩ | ⟨_, new⟩
  · have before := kept boost held
    exact same present before fun launches => by simp [launches, Stage.holds] at before
  · exact same old held fun _ => distinct
  · exact begun other.stage (List.mem_map_of_mem new) boost held

/-- Who serves a loop was there before, and served it or came from its condition. -/
theorem Lives.stays_step (lives : pool.Lives) {label : Nat × Choice}
    (taken : pool.step label = some next) :
    ∀ other ∈ next.actors, ∀ thread boost, other.stage = .serving thread boost →
      next.shared.lifecycle.isDeleting thread = false := by
  obtain ⟨actor, actor', spawned, present, acted, actors⟩ := ActorPool.actors_of_step taken
  have effect := Actor.behave_lifecycle acted
  intro other member thread boost serves
  obtain ⟨place, there⟩ := List.getElem?_of_mem member
  rw [actors] at there
  rcases getElem?_of_set_append present there with ⟨rfl, rfl⟩ | ⟨distinct, old⟩ | ⟨_, new⟩
  · have stayed := lives.stays actor (List.mem_of_getElem? present) thread boost
    rw [serves] at effect
    generalize stage_eq : actor.stage = stage, after_eq : next.shared.lifecycle = after,
      spawned.map Actor.stage = begun at effect stayed
    cases effect with
    | keep => exact stayed rfl
    | terminate => exact stayed rfl
    | serve _ _ stays goes => exact stays
  · have stayed := lives.stays other (List.mem_of_getElem? old) thread boost serves
    -- whoever marks the thread would be active for it beside this one
    have alone (active : actor.stage.active thread = true) : False :=
      distinct (lives.eq_of_active old present (by simp [serves, Stage.active]) active)
    generalize stage_eq : actor.stage = stage, after_eq : next.shared.lifecycle = after,
      stage_eq' : actor'.stage = stage', spawned.map Actor.stage = begun at effect alone
    cases effect with
    | mark marked =>
        have differ : thread ≠ marked := fun same => alone (by simp [Stage.active, same])
        simpa [Function.update_of_ne differ] using stayed
    | keep | terminate | start | launch | enter | skip | serve | again | abandon | leave | finish
    | done => exact stayed
  · obtain ⟨thread', boost', rfl⟩ := Actor.entry_of_spawned acted new
    simp [Actor.stage] at serves

theorem Lives.step {label : Nat × Choice} (lives : pool.Lives)
    (taken : pool.step label = some next) : next.Lives := by
  have current := lives.current_step taken
  have stays := lives.stays_step taken
  obtain ⟨front, actor, back, shared, actor', spawned, split, place, acted, rfl⟩ :=
    ActorPool.step_eq_some taken
  have effect := Actor.behave_lifecycle acted
  have member : actor ∈ pool.actors := by simp [split]
  refine ⟨fun thread => ?_, fun boost => ?_, current, stays⟩
  · have sum := tally_step Stage.active thread actor' spawned shared split
    have changed := effect.active thread fun active => lives.isReady member active
    have before := lives.active thread
    dsimp only at *
    omega
  · have sum := tally_step Stage.runs boost actor' spawned shared split
    have changed := effect.runs boost
    have before := lives.runs boost
    dsimp only at *
    omega

/-- Some run leads to the pool. -/
def Reached (pool : ThreadPool) : Prop :=
  ∃ task worker listed clients schedule,
    Runs.exec ThreadPool.step (initial task worker listed clients) schedule = some pool

theorem Reached.step {label : Nat × Choice} (reached : pool.Reached)
    (taken : pool.step label = some next) : next.Reached := by
  obtain ⟨task, worker, listed, clients, schedule, run⟩ := reached
  refine ⟨task, worker, listed, clients, schedule ++ [label], ?_⟩
  rw [Runs.exec_append, run]
  simp [Runs.exec, taken]

theorem Reached.exec {schedule : List (Nat × Choice)} (reached : pool.Reached)
    (run : Runs.exec ThreadPool.step pool schedule = some next) : next.Reached :=
  Runs.exec_invariant_of_forall (fun _ _ _ before taken => before.step taken) reached run

theorem Reached.lives (reached : pool.Reached) : pool.Lives := by
  obtain ⟨task, worker, listed, clients, schedule, run⟩ := reached
  exact Runs.exec_invariant_of_forall (fun _ _ _ before taken => before.step taken)
    (Lives.initial task worker listed clients) run

end ThreadPool

end Drumlin
