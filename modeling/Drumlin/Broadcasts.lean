import Drumlin.Library.Turns
import Drumlin.ApplicationMutex
import Drumlin.WorkerReset

/-!
# Events sent to many threads

An accessor with `SendEvent` posts its event to one thread after another, and other accessors,
`send` and the threads go on meanwhile.  Since it has the mutex of the application from its
constructor to its destructor, what several accessors post does not mix, and it reaches the threads
that were listed when it took the mutex.
-/

namespace Drumlin

open ActorPool

@[simp] theorem Threads.application_dereference (thread : Nat) (threads : Threads) :
    (threads.dereference thread).application = threads.application := by
  unfold dereference
  split <;> rfl

@[simp] theorem Threads.application_onApplication (change : Application → Application)
    (threads : Threads) : (threads.onApplication change).application = change threads.application :=
  rfl

theorem Application.removeThread_threadEvents (thread : Nat) (status : ThreadStatus)
    (app : Application) :
    (app.removeThread thread status).1.threadEvents = app.threadEvents := by
  rcases removeThread_cases thread status app with ⟨_, same⟩ | ⟨_, same⟩ <;> rw [same]

namespace Actor

/-! ## Accessors take turns -/

/-- The turn of an accessor that sends an event lasts from its constructor to its destructor. -/
def turn : Actor → Turn
  | access _ (.sendEvent _) .lock => .ahead
  | access _ (.sendEvent _) .done => .past
  | access _ (.sendEvent _) _ => .now
  | _ => .none

/-- What the next action of an accessor posts. -/
def posts : Actor → List (Nat × Event)
  | access _ (.sendEvent event) (.apply (thread :: _)) => [(thread, event)]
  | _ => []

/-- What the next action of any actor posts to a thread. -/
def sends : Actor → List (Nat × Event)
  | send thread event => [(thread, event)]
  | run thread _ .entry => [(thread, ⟨.threadNotify, "beforeWork", Cxx.nullptr⟩)]
  | run thread _ .postWork => [(thread, ⟨.threadWork, "work", Cxx.nullptr⟩)]
  | addThread thread true .add => [(thread, ⟨.threadNotify, "beforeStart", Cxx.nullptr⟩)]
  | actor => actor.posts

variable {self : Nat} {choice : Choice} {threads threads' : Threads} {actor actor' : Actor}
  {spawned : List Actor}

theorem use_turn {query : Query} {functor : Functor} {phase phase' : AccessPhase}
    {launched : Option Nat}
    (acted : ThreadAccessor.use self query functor threads phase =
      some (threads', phase', launched)) :
    TurnStep self threads.lock (access query functor phase).turn threads'.lock
      (access query functor phase').turn := by
  cases functor with
  | startThread | terminate => exact .keep _ _ _ (by simp [turn])
  | sendEvent event =>
      cases phase with
      | lock =>
          simp only [ThreadAccessor.use, Option.map_eq_some_iff, Threads.acquire_eq_some] at acted
          obtain ⟨_, ⟨free, rfl⟩, acted⟩ := acted
          obtain ⟨rfl, rfl, rfl⟩ := by simpa using acted
          exact free ▸ .begin
      | visit todo selected =>
          cases todo <;> obtain ⟨rfl, rfl, rfl⟩ := by simpa [ThreadAccessor.use] using acted
          · exact .keep _ _ _ (by simp [turn])
          · exact .keep _ _ _ (by simp [turn])
      | apply todo =>
          cases todo <;> obtain ⟨rfl, rfl, rfl⟩ := by simpa [ThreadAccessor.use] using acted
          · exact .finish _ _
          · exact .keep _ _ _ (by simp [turn])
      | start thread todo =>
          simp only [ThreadAccessor.use] at acted
          split at acted <;> obtain ⟨rfl, rfl, rfl⟩ := by simpa using acted
          · exact .keep _ _ _ (by simp [turn])
          · exact .keep _ _ _ (by simp [turn])
      | launch thread todo =>
          obtain ⟨rfl, rfl, rfl⟩ := by simpa [ThreadAccessor.use] using acted
          exact .keep _ _ _ (by simp [turn])
      | done => simp [ThreadAccessor.use] at acted

theorem behave_turn
    (acted : actor.behave self threads choice = some (threads', actor', spawned)) :
    TurnStep self threads.lock actor.turn threads'.lock actor'.turn ∧
      ∀ other ∈ spawned, other.turn = .none := by
  refine ⟨?_, fun other new => ?_⟩
  · cases behaves_of_behave acted with
    | access used => exact use_turn used
    | run | addThread | getStatus | stop | exec | send => exact .keep _ _ _ (by simp [turn])
  · obtain ⟨thread, boost, rfl⟩ := entry_of_spawned acted new
    rfl

theorem takesTurns :
    TakesTurns behave Threads.lock inside turn fun _ actor => actor.posts where
  keeps := ThreadPool.keepsMutex
  moves := fun _ _ _ _ _ _ _ acted => behave_turn acted
  within := by
    intro actor now
    cases actor with
    | access query functor phase => cases functor <;> cases phase <;> simp [turn, inside] at now ⊢
    | run | addThread | getStatus | stop | exec | send | done => simp [turn] at now
  silent := by
    intro _ actor late
    unfold posts
    split
    · exact (late rfl).elim
    · rfl

/-! ## What is posted -/

theorem run_threadEvents {thread boost : Nat} {phase phase' : RunPhase}
    (acted : Thread.run thread boost choice threads phase = some (threads', phase')) :
    threads'.application.threadEvents =
      threads.application.threadEvents ++ (run thread boost phase).sends := by
  cases phase <;>
    grind [Thread.run, Threads.guarded, Threads.quit, Threads.claim, Threads.update, Threads.post,
      Threads.resetWorker, Threads.terminate, Application.post, Threads.application_dereference,
      sends, posts]

theorem use_threadEvents {query : Query} {functor : Functor} {phase phase' : AccessPhase}
    {launched : Option Nat}
    (acted : ThreadAccessor.use self query functor threads phase =
      some (threads', phase', launched)) :
    threads'.application.threadEvents =
      threads.application.threadEvents ++ (access query functor phase).posts := by
  cases phase with
  | lock =>
      simp only [ThreadAccessor.use, Option.map_eq_some_iff, Threads.acquire_eq_some] at acted
      obtain ⟨_, ⟨_, rfl⟩, acted⟩ := acted
      obtain ⟨rfl, rfl, rfl⟩ := by simpa using acted
      simp [posts]
  | visit todo selected =>
      cases todo <;> obtain ⟨rfl, rfl, rfl⟩ := by simpa [ThreadAccessor.use] using acted
      · simp [posts]
      · rw [apply_ite Threads.application, Threads.application_dereference, ite_self]
        simp [posts]
  | apply todo =>
      cases todo with
      | nil =>
          obtain ⟨rfl, rfl, rfl⟩ := by simpa [ThreadAccessor.use] using acted
          simp [posts, Threads.release]
      | cons thread todo =>
          cases functor with
          | startThread =>
              simp only [ThreadAccessor.use] at acted
              split at acted <;> obtain ⟨rfl, rfl, rfl⟩ := by simpa using acted
              · simp [posts]
              · simp [posts]
          | sendEvent event =>
              obtain ⟨rfl, rfl, rfl⟩ := by simpa [ThreadAccessor.use] using acted
              simp [posts, Threads.send, Threads.post]
          | terminate =>
              obtain ⟨rfl, rfl, rfl⟩ := by simpa [ThreadAccessor.use] using acted
              simp [posts, Threads.terminate, Threads.update]
  | start thread todo =>
      simp only [ThreadAccessor.use] at acted
      split at acted <;> obtain ⟨rfl, rfl, rfl⟩ := by simpa using acted
      · simp [posts]
      · simp [posts, Threads.start, Threads.update, Threads.claim]
  | launch thread todo =>
      obtain ⟨rfl, rfl, rfl⟩ := by simpa [ThreadAccessor.use] using acted
      simp [posts, Threads.launch, Threads.update]
  | done => simp [ThreadAccessor.use] at acted

theorem addThread_threadEvents {thread : Nat} {startWork : Bool} {phase phase' : AddPhase}
    {launched : Option Nat}
    (acted : threads.addThread self thread startWork phase = some (threads', phase', launched)) :
    threads'.application.threadEvents =
      threads.application.threadEvents ++ (addThread thread startWork phase).sends := by
  cases phase with
  | lock =>
      simp only [Threads.addThread, Option.map_eq_some_iff, Threads.acquire_eq_some] at acted
      obtain ⟨_, ⟨_, rfl⟩, acted⟩ := acted
      obtain ⟨rfl, rfl, rfl⟩ := by simpa using acted
      simp [sends, posts]
  | add =>
      obtain ⟨rfl, rfl, rfl⟩ := by simpa [Threads.addThread] using acted
      cases startWork <;> simp [sends, posts, Application.addThread]
  | start =>
      simp only [Threads.addThread] at acted
      split at acted <;> obtain ⟨rfl, rfl, rfl⟩ := by simpa using acted
      · simp [sends, posts]
      · simp [sends, posts, Threads.start, Threads.update, Threads.claim]
  | launch =>
      obtain ⟨rfl, rfl, rfl⟩ := by simpa [Threads.addThread] using acted
      simp [sends, posts, Threads.launch, Threads.update]
  | release =>
      obtain ⟨rfl, rfl, rfl⟩ := by simpa [Threads.addThread] using acted
      simp [sends, posts, Threads.release]
  | done => simp [Threads.addThread] at acted

theorem getStatus_threadEvents {phase phase' : StatusPhase}
    (acted : threads.getStatus self phase = some (threads', phase')) :
    threads'.application.threadEvents = threads.application.threadEvents := by
  unfold Threads.getStatus at acted
  split at acted <;>
    grind [Threads.acquire, Threads.release, Threads.application_dereference]

theorem stop_threadEvents {first : Nat} {phase phase' : StopPhase}
    (acted : threads.stop self first phase = some (threads', phase')) :
    threads'.application.threadEvents = threads.application.threadEvents := by
  unfold Threads.stop at acted
  split at acted <;>
    grind [Threads.acquire, Threads.release, Threads.application_dereference, Threads.terminate,
      Threads.update, Threads.guarded, Threads.quit, Threads.claim, Application.post]

theorem exec_threadEvents {phase phase' : ExecPhase}
    (acted : threads.exec self phase = some (threads', phase')) :
    threads'.application.threadEvents = threads.application.threadEvents := by
  cases phase with
  | pull =>
      cases pending : threads.application.queue with
      | nil => simp [Threads.exec, pending] at acted
      | cons event queue =>
          by_cases request : event.type = .threadRemove <;>
            obtain ⟨rfl, rfl⟩ := by simpa [Threads.exec, pending, request] using acted
          · rfl
          · rfl
  | lock thread =>
      simp only [Threads.exec, Option.map_eq_some_iff, Threads.acquire_eq_some] at acted
      obtain ⟨_, ⟨_, rfl⟩, acted⟩ := acted
      obtain ⟨rfl, rfl⟩ := by simpa using acted
      rfl
  | testStarted | testTerminated =>
      obtain ⟨rfl, rfl⟩ := by simpa [Threads.exec] using acted
      rfl
  | remove thread status =>
      obtain ⟨rfl, rfl⟩ := by simpa [Threads.exec] using acted
      have shown : (if status.isRunning then threads.dereference thread else threads).application =
          threads.application := by
        rw [apply_ite Threads.application, Threads.application_dereference, ite_self]
      simp only [Threads.release, Threads.application_onApplication, shown,
        Application.removeThread_threadEvents]

/-- An actor posts to threads what its action says. -/
theorem behave_threadEvents
    (acted : actor.behave self threads choice = some (threads', actor', spawned)) :
    threads'.application.threadEvents = threads.application.threadEvents ++ actor.sends := by
  cases behaves_of_behave acted with
  | access used => exact use_threadEvents used
  | run ran => exact run_threadEvents ran
  | addThread added => exact addThread_threadEvents added
  | getStatus read => simpa [sends, posts] using getStatus_threadEvents read
  | stop stopped => simpa [sends, posts] using stop_threadEvents stopped
  | exec pulled => simpa [sends, posts] using exec_threadEvents pulled
  | send thread event => simp [sends, Threads.send, Threads.post]

end Actor

namespace ThreadPool

/-! ## One accessor after another -/

/-- The accessors that send an event, in the order in which they took the mutex. -/
def senders (start : ThreadPool) (schedule : List (Nat × Choice)) : List Nat :=
  Runs.observed step (begins Threads.lock Actor.turn) start schedule

/-- What the accessors posted to which threads, each under its number. -/
def broadcasts (start : ThreadPool) (schedule : List (Nat × Choice)) :
    List (Nat × (Nat × Event)) :=
  Runs.observed step (shown fun _ actor => actor.posts) start schedule

variable {task : Nat → String} {worker : Nat → Option Nat} {listed : List Nat}
  {clients : List Client} {schedule : List (Nat × Choice)} {final : ThreadPool}

theorem initial_turnsTo
    (run : Runs.exec step (initial task worker listed clients) schedule = some final) :
    TurnsTo Actor.turn (senders (initial task worker listed clients) schedule)
      (broadcasts (initial task worker listed clients) schedule) final := by
  refine turnsTo_of_exec Actor.takesTurns rfl (fun actor member => ?_) run
  obtain ⟨client, _, rfl⟩ := List.mem_map.mp member
  cases client <;> rfl

theorem shown_posts {pool next : ThreadPool} {label : Nat × Choice}
    (taken : pool.step label = some next) :
    ∃ part, ((shown (fun _ actor => actor.posts) pool label).map Prod.snd).Sublist part ∧
      next.shared.application.threadEvents = pool.shared.application.threadEvents ++ part := by
  obtain ⟨actor, actor', spawned, present, acted, -⟩ := ActorPool.actors_of_step taken
  refine ⟨actor.sends, ?_, Actor.behave_threadEvents acted⟩
  have same : (shown (fun _ actor => actor.posts) pool label).map Prod.snd = actor.posts := by
    simp [shown, present, Function.comp_def]
  rw [same]
  unfold Actor.posts
  split
  · exact List.Sublist.refl _
  · exact List.nil_sublist _

/-- Whatever the threads, other accessors and those who stop and remove threads do: what accessors
post to many threads does not mix.  The events arrive as if one accessor had posted its event to all
its threads and then another, and no two threads get the events of two accessors in different
orders. -/
theorem broadcasts_inTurns
    (run : Runs.exec step (initial task worker listed clients) schedule = some final) :
    InTurns (senders (initial task worker listed clients) schedule)
        (broadcasts (initial task worker listed clients) schedule) ∧
      ((broadcasts (initial task worker listed clients) schedule).map Prod.snd).Sublist
        final.shared.application.threadEvents ∧
      ∀ (one other thread thread' : Nat) (first second first' second' : Event),
        [(one, thread, first), (other, thread, second)].Sublist
          (broadcasts (initial task worker listed clients) schedule) →
        [(other, thread', second'), (one, thread', first')].Sublist
          (broadcasts (initial task worker listed clients) schedule) → one = other := by
  have turns := (initial_turnsTo run).inTurns
  refine ⟨turns, ?_, fun one other thread thread' first second first' second' early late =>
    turns.agree early late rfl rfl⟩
  refine Runs.exec_observed (fun record (pool : ThreadPool) => (record.map Prod.snd).Sublist
    pool.shared.application.threadEvents) (fun sofar pool label next _ recorded taken => ?_)
    (List.nil_sublist _) run
  obtain ⟨part, within, same⟩ := shown_posts taken
  rw [List.map_append, same]
  exact recorded.append within

/-- Two accessors, each of which posts to two threads; the second takes the mutex first. -/
theorem broadcasts_inTurns_two :
    ∃ clients schedule final,
      Runs.exec step (initial (fun _ => "w") (fun _ => some 1) [7, 8] clients) schedule =
        some final ∧
      final.shared.application.threadEvents.map (fun entry => (entry.1, entry.2.pointer)) =
        [(7, 2), (8, 2), (7, 1), (8, 1)] ∧
      InTurns (senders (initial (fun _ => "w") (fun _ => some 1) [7, 8] clients) schedule)
        (broadcasts (initial (fun _ => "w") (fun _ => some 1) [7, 8] clients) schedule) := by
  have run : Runs.exec step (initial (fun _ => "w") (fun _ => some 1) [7, 8]
      [.access (.named "w") (.sendEvent ⟨.threadWork, "", 1⟩),
        .access (.named "w") (.sendEvent ⟨.threadWork, "", 2⟩)])
      (List.replicate 7 (1, .usual) ++ List.replicate 7 (0, .usual)) = some _ := rfl
  exact ⟨_, _, _, run, rfl, (broadcasts_inTurns run).1⟩

end ThreadPool

/-! ## Whom an event reaches -/

/-- The threads that an accessor may come to select, between the moment it took the mutex and now.
Names do not change; workers are read thread by thread, and may be gone by then. -/
def Query.Selects (moment now : Threads) (threads targets : List Nat) (query : Query) : Prop :=
  match query with
  | .named name => targets = threads.filter fun thread => (moment.threadAt thread).task == name
  | .typed _ | .workered _ =>
      (threads.filter fun thread => query.holds thread (now.threadAt thread)).Sublist targets ∧
        targets.Sublist
          (threads.filter fun thread => query.holds thread (moment.threadAt thread))

/-- What an accessor has posted to, in each phase from the moment it took the mutex. -/
def AccessPhase.Reaches (query : Query) (moment now : Threads) (targets : List Nat) :
    AccessPhase → Prop
  | .visit todo selected =>
      targets = [] ∧ ∃ seen, moment.application.threads = seen ++ todo ∧
        query.Selects moment now seen selected
  | .apply todo => query.Selects moment now moment.application.threads (targets ++ todo)
  | .done => query.Selects moment now moment.application.threads targets
  | .lock | .start _ _ | .launch _ _ => False

/-- Threads keep their names, and none gets a worker that it had not. -/
def Threads.Decays (before after : Threads) : Prop :=
  ∀ thread, (after.threadAt thread).task = (before.threadAt thread).task ∧
    ∀ type, (after.threadAt thread).worker = some type →
      (before.threadAt thread).worker = some type

theorem Threads.Decays.refl (threads : Threads) : threads.Decays threads :=
  fun _ => ⟨rfl, fun _ present => present⟩

theorem Threads.Decays.trans {first second third : Threads} (one : first.Decays second)
    (other : second.Decays third) : first.Decays third :=
  fun thread => ⟨(other thread).1.trans (one thread).1,
    fun type present => (one thread).2 type ((other thread).2 type present)⟩

theorem decays_of_behave {self : Nat} {choice : Choice} {threads threads' : Threads}
    {actor actor' : Actor} {spawned : List Actor}
    (acted : actor.behave self threads choice = some (threads', actor', spawned)) :
    threads.Decays threads' := by
  intro thread
  have effect := (Actor.behave_workers acted).1
  change threads'.workers.task thread = threads.workers.task thread ∧
    ∀ type, threads'.workers.worker thread = some type →
      threads.workers.worker thread = some type
  generalize actor.reads = reads, actor.visits = visits, actor.resets = resets,
    actor'.visits = visits', threads.workers = view, threads'.workers = view' at effect ⊢
  cases effect with
  | keep | test => exact ⟨rfl, fun _ present => present⟩
  | read | again =>
      rw [WorkerView.dereference_worker, WorkerView.dereference_task]
      exact ⟨rfl, fun _ present => present⟩
  | reset other =>
      refine ⟨rfl, fun type present => ?_⟩
      by_cases here : thread = other
      · simp [WorkerView.reset, here] at present
      · simpa [WorkerView.reset, here] using present

variable {moment now later : Threads} {query : Query} {threads targets : List Nat}

/-- A selection finds no thread that it would not have found before. -/
theorem Threads.Decays.holds {thread : Nat} (decays : moment.Decays now)
    (holds : query.holds thread (now.threadAt thread) = true) :
    query.holds thread (moment.threadAt thread) = true := by
  obtain ⟨task, worker⟩ := decays thread
  cases query with
  | named name => simpa [Query.holds, task] using holds
  | typed type => simpa [Query.holds] using worker type (by simpa [Query.holds] using holds)
  | workered owner =>
      simp only [Query.holds, Bool.and_eq_true, Option.isSome_iff_exists] at holds ⊢
      obtain ⟨here, type, present⟩ := holds
      exact ⟨here, type, worker type present⟩

theorem Query.Selects.mono (selects : query.Selects moment now threads targets)
    (decays : now.Decays later) : query.Selects moment later threads targets := by
  cases query with
  | named name => exact selects
  | typed | workered =>
      refine ⟨List.Sublist.trans ?_ selects.1, selects.2⟩
      exact List.monotone_filter_right _ fun thread => decays.holds

theorem AccessPhase.Reaches.mono {phase : AccessPhase}
    (reaches : phase.Reaches query moment now targets) (decays : now.Decays later) :
    phase.Reaches query moment later targets := by
  cases phase with
  | visit todo selected =>
      obtain ⟨none, seen, split, selects⟩ := reaches
      exact ⟨none, seen, split, selects.mono decays⟩
  | apply todo => exact Query.Selects.mono reaches decays
  | done => exact Query.Selects.mono reaches decays
  | lock | start | launch => exact reaches.elim

/-- A selection looks at one more thread. -/
theorem Query.Selects.visit {thread : Nat} (selects : query.Selects moment now threads targets)
    (decays : moment.Decays now) :
    query.Selects moment now (threads ++ [thread])
      (if query.holds thread (now.threadAt thread) then targets ++ [thread] else targets) := by
  cases query with
  | named name =>
      have same : (now.threadAt thread).task = (moment.threadAt thread).task := (decays thread).1
      obtain rfl : targets = _ := selects
      by_cases found : (moment.threadAt thread).task = name <;>
        simp [Query.Selects, Query.holds, same, found]
  | typed | workered =>
      obtain ⟨below, above⟩ := selects
      simp only [Query.Selects, List.filter_append]
      split
      · rename_i present
        simp only [present, decays.holds present, List.filter_cons_of_pos, List.filter_nil]
        exact ⟨below.append (.refl _), above.append (.refl _)⟩
      · rename_i missing
        refine ⟨?_, above.trans (List.sublist_append_left _ _)⟩
        simpa [missing] using below

theorem use_reaches_lock {self : Nat} {event : Event} {phase : AccessPhase}
    {launched : Option Nat}
    (acted : ThreadAccessor.use self query (.sendEvent event) now .lock =
      some (later, phase, launched)) : phase.Reaches query now later [] := by
  simp only [ThreadAccessor.use, Option.map_eq_some_iff, Threads.acquire_eq_some] at acted
  obtain ⟨_, ⟨_, rfl⟩, acted⟩ := acted
  obtain ⟨rfl, rfl, rfl⟩ := by simpa using acted
  refine ⟨rfl, [], rfl, ?_⟩
  cases query <;> simp [Query.Selects]

theorem use_reaches {self : Nat} {event : Event} {phase phase' : AccessPhase}
    {launched : Option Nat}
    (acted : ThreadAccessor.use self query (.sendEvent event) now phase =
      some (later, phase', launched))
    (reaches : phase.Reaches query moment now targets) (decays : moment.Decays now) :
    phase'.Reaches query moment now
      (targets ++ (Actor.access query (.sendEvent event) phase).posts.map Prod.fst) := by
  cases phase with
  | visit todo selected =>
      obtain ⟨rfl, seen, split, selects⟩ := reaches
      cases todo with
      | nil =>
          obtain ⟨rfl, rfl, rfl⟩ := by simpa [ThreadAccessor.use] using acted
          rw [List.append_nil] at split
          simpa [Actor.posts, AccessPhase.Reaches, split] using selects
      | cons thread todo =>
          obtain ⟨rfl, rfl, rfl⟩ := by simpa [ThreadAccessor.use] using acted
          exact ⟨rfl, seen ++ [thread], by simpa using split, selects.visit decays⟩
  | apply todo =>
      cases todo with
      | nil =>
          obtain ⟨rfl, rfl, rfl⟩ := by simpa [ThreadAccessor.use] using acted
          simpa [Actor.posts, AccessPhase.Reaches] using reaches
      | cons thread todo =>
          obtain ⟨rfl, rfl, rfl⟩ := by simpa [ThreadAccessor.use] using acted
          simpa [Actor.posts, AccessPhase.Reaches] using reaches
  | lock | start | launch => exact reaches.elim
  | done => simp [ThreadAccessor.use] at acted

/-- Only the use of an accessor goes on as one. -/
theorem Actor.use_of_behave {self : Nat} {choice : Choice} {actor : Actor}
    {functor : Functor} {phase : AccessPhase} {spawned : List Actor}
    (acted : actor.behave self now choice = some (later, .access query functor phase, spawned)) :
    ∃ phase' launched, actor = .access query functor phase' ∧
      ThreadAccessor.use self query functor now phase' = some (later, phase, launched) := by
  cases behaves_of_behave acted with
  | access used => exact ⟨_, _, rfl, used⟩

namespace ThreadPool

variable {task : Nat → String} {worker : Nat → Option Nat} {listed : List Nat}
  {clients : List Client} {schedule : List (Nat × Choice)} {final : ThreadPool}

/-- In the run so far, an accessor that took the mutex has posted to whom it should. -/
def Reaching (start : ThreadPool) (sofar : List (Nat × Choice)) (pool : ThreadPool) : Prop :=
  ∀ (self : Nat) (query : Query) (event : Event) (phase : AccessPhase),
    pool.actors[self]? = some (.access query (.sendEvent event) phase) → phase ≠ .lock →
    ∃ before choice after moment targets, sofar = before ++ (self, choice) :: after ∧
      Runs.exec step start before = some moment ∧ moment.shared.Decays pool.shared ∧
      (broadcasts start sofar).filter (·.1 = self) =
        targets.map (fun thread => (self, thread, event)) ∧
      phase.Reaches query moment.shared pool.shared targets

theorem Reaching.step {sofar : List (Nat × Choice)} {pool next : ThreadPool}
    {label : Nat × Choice}
    (before : Runs.exec step (initial task worker listed clients) sofar = some pool)
    (reaching : Reaching (initial task worker listed clients) sofar pool)
    (taken : pool.step label = some next) :
    Reaching (initial task worker listed clients) (sofar ++ [label]) next := by
  obtain ⟨actor, actor', spawned, present, acted, actors⟩ := ActorPool.actors_of_step taken
  have decays := decays_of_behave acted
  have shown_eq : shown (fun _ actor => actor.posts) pool label =
      actor.posts.map (label.1, ·) := by simp [shown, present]
  intro self query event phase there begun
  rw [actors] at there
  rw [broadcasts, Runs.observed_concat _ before, shown_eq, List.filter_append]
  rcases getElem?_of_set_append present there with ⟨rfl, same⟩ | ⟨distinct, old⟩ | ⟨_, new⟩
  · subst same
    obtain ⟨phase', launched, rfl, used⟩ := Actor.use_of_behave acted
    have mine : ((Actor.access query (.sendEvent event) phase').posts.map (label.1, ·)).filter
          (·.1 = label.1) =
        ((Actor.access query (.sendEvent event) phase').posts.map Prod.fst).map
          fun thread => (label.1, thread, event) := by
      unfold Actor.posts
      split <;> simp_all
    rw [mine]
    by_cases first : phase' = .lock
    · subst first
      have waited := (initial_turnsTo before).inTurns.filter_eq_nil
        ((initial_turnsTo before).ahead _ _ present rfl)
      refine ⟨sofar, label.2, [], pool, [], rfl, before, decays, ?_, use_reaches_lock used⟩
      simpa [Actor.posts, broadcasts] using waited
    · obtain ⟨earlier, choice, after, moment, targets, split, run, kept, posted, reaches⟩ :=
        reaching label.1 query event phase' present first
      refine ⟨earlier, choice, after ++ [label], moment, _, by simp [split], run,
        kept.trans decays, ?_, (use_reaches used reaches kept).mono decays⟩
      rw [List.map_append, ← posted]
      rfl
  · obtain ⟨earlier, choice, after, moment, targets, split, run, kept, posted, reaches⟩ :=
      reaching self query event phase old begun
    refine ⟨earlier, choice, after ++ [label], moment, targets, by simp [split], run,
      kept.trans decays, ?_, reaches.mono decays⟩
    have others : (actor.posts.map (label.1, ·)).filter (·.1 = self) = [] := by
      simp [List.filter_map, Function.comp_def, Ne.symm distinct]
    rw [others, List.append_nil]
    exact posted
  · exact ((Actor.behave_ahead acted).2 _ _ _ new).elim

end ThreadPool

end Drumlin
