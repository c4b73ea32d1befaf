import Drumlin.Library.PoolMutex
import Drumlin.ThreadLifecycle

/-!
# The mutex of the application

An accessor, `addThread`, `removeThread`, `getStatus` and the selecting part of `stop` hold the
mutex of the application, which `Application::post` takes for itself.  What is behind the mutex does
not change under its holder.
-/

namespace Drumlin

open ActorPool

namespace Actor

/-! ## The mutex of the application -/

/-- The actor is inside a section that the mutex of the application guards. -/
def inside : Actor → Bool
  | access _ _ .lock | access _ _ .done | addThread _ _ .lock | addThread _ _ .done
  | getStatus .lock | getStatus .done => false
  | access _ _ _ | addThread _ _ _ | getStatus _ => true
  | exec (.testStarted _) | exec (.testTerminated _ _) | exec (.remove _ _) => true
  | stop _ (.select _ _ _) | stop _ (.compare _ _ _ _) | stop _ (.terminate _ _ _) => true
  | _ => false

end Actor

namespace Threads

@[simp] theorem lock_dereference (thread : Nat) (threads : Threads) :
    (threads.dereference thread).lock = threads.lock := by
  unfold dereference
  split <;> rfl

@[simp] theorem lock_post (thread : Nat) (event : Event) (threads : Threads) :
    (threads.post thread event).lock = threads.lock := rfl

@[simp] theorem lock_send (thread : Nat) (event : Event) (threads : Threads) :
    (threads.send thread event).lock = threads.lock :=
  lock_dereference thread threads

@[simp] theorem lock_onApplication (change : Application → Application) (threads : Threads) :
    (threads.onApplication change).lock = threads.lock := rfl

@[simp] theorem lock_update (thread : Nat) (change : Thread → Thread) (threads : Threads) :
    (threads.update thread change).lock = threads.lock := rfl

@[simp] theorem lock_terminate (thread : Nat) (threads : Threads) :
    (threads.terminate thread).lock = threads.lock := rfl

/-- One state comes from another without an action that needs the mutex of the application: the list
of the threads and the deleted threads are the same, and no event is posted to the application. -/
structure Apart (threads threads' : Threads) : Prop where
  listed : threads'.application.threads = threads.application.threads
  deleted : threads'.application.deleted = threads.application.deleted
  queue : threads'.application.queue <:+ threads.application.queue

theorem Apart.of_same {threads threads' : Threads}
    (same : threads'.application = threads.application) : threads.Apart threads' :=
  ⟨by rw [same], by rw [same], by rw [same]⟩

theorem Apart.trans {first second third : Threads} (one : first.Apart second)
    (other : second.Apart third) : first.Apart third :=
  ⟨other.listed.trans one.listed, other.deleted.trans one.deleted, other.queue.trans one.queue⟩

theorem apart_dereference (thread : Nat) (threads : Threads) :
    threads.Apart (threads.dereference thread) := by
  unfold dereference
  split
  · exact .of_same rfl
  · exact .of_same rfl

theorem Apart.post {threads threads' : Threads} (apart : threads.Apart threads') (thread : Nat)
    (event : Event) : threads.Apart (threads'.post thread event) :=
  ⟨apart.listed, apart.deleted, apart.queue⟩

theorem apart_send (thread : Nat) (event : Event) (threads : Threads) :
    threads.Apart (threads.send thread event) :=
  (apart_dereference thread threads).post thread event

end Threads

namespace Actor

/-- What an action does to the mutex, and that from outside it leaves alone what somebody's mutex
guards. -/
structure Guards (place : Nat) (threads : Threads) (actor : Actor) (threads' : Threads)
    (actor' : Actor) : Prop where
  mutex : MutexStep place threads.lock actor.inside threads'.lock actor'.inside
  part : actor.inside = false → threads.lock ≠ none → threads.Apart threads'

variable {self : Nat} {choice : Choice} {threads threads' : Threads}

theorem Guards.of_eq {actor actor' : Actor} (lock : threads'.lock = threads.lock)
    (inside : actor'.inside = actor.inside) (part : threads.Apart threads') :
    Guards self threads actor threads' actor' := by
  refine ⟨?_, fun _ _ => part⟩
  rw [lock, inside]
  exact .keep _ _

/-- An action that waits until the mutex is free. -/
theorem Guards.of_free {actor actor' : Actor} (free : threads.lock = none)
    (lock : threads'.lock = threads.lock) (inside : actor'.inside = actor.inside) :
    Guards self threads actor threads' actor' := by
  refine ⟨?_, fun _ taken => (taken free).elim⟩
  rw [lock, inside]
  exact .keep _ _

/-- An action of an actor inside that stays there. -/
theorem Guards.of_inside {actor actor' : Actor} (within : actor.inside = true)
    (lock : threads'.lock = threads.lock) (inside : actor'.inside = actor.inside) :
    Guards self threads actor threads' actor' := by
  refine ⟨?_, fun outside => by simp [within] at outside⟩
  rw [lock, inside]
  exact .keep _ _

/-- An action that takes the mutex. -/
theorem Guards.of_acquire {actor actor' : Actor} (free : threads.lock = none)
    (outside : actor.inside = false) (inside : actor'.inside = true)
    (held : threads'.lock = some self) : Guards self threads actor threads' actor' := by
  refine ⟨?_, fun _ taken => (taken free).elim⟩
  rw [free, outside, inside, held]
  exact .acquire

/-- An action that lets go of the mutex. -/
theorem Guards.of_release {actor actor' : Actor} (inside : actor.inside = true)
    (outside : actor'.inside = false) (free : threads'.lock = none) :
    Guards self threads actor threads' actor' := by
  refine ⟨?_, fun left => by simp [inside] at left⟩
  rw [inside, outside, free]
  exact .release _

theorem run_guards {thread boost : Nat} {phase phase' : RunPhase}
    (acted : Thread.run thread boost choice threads phase = some (threads', phase')) :
    Guards self threads (run thread boost phase) threads' (run thread boost phase') := by
  cases phase with
  | shutdown | quit =>
      simp only [Thread.run, Threads.guarded_eq_some, Prod.mk.injEq] at acted
      obtain ⟨free, rfl, rfl⟩ := acted
      exact .of_free free rfl rfl
  | done | interrupted => simp [Thread.run] at acted
  | loop | sleep =>
      simp only [Thread.run] at acted
      split at acted <;> obtain ⟨rfl, rfl⟩ := by simpa using acted
      · exact .of_eq rfl rfl (.of_same rfl)
      · exact .of_eq rfl rfl (.of_same rfl)
  | postWork =>
      obtain ⟨rfl, rfl⟩ := by simpa [Thread.run] using acted
      exact .of_eq (by simp) rfl ((Threads.apart_dereference _ _).post _ _)
  | exec =>
      have apart := Threads.apart_dereference thread threads
      simp only [Thread.run] at acted
      split at acted <;> obtain ⟨rfl, rfl⟩ := by simpa using acted
      · exact .of_eq (Threads.lock_dereference thread threads) rfl
          ⟨apart.listed, apart.deleted, apart.queue⟩
      · exact .of_eq (by simp) rfl apart
  | tick | shutdownWorker =>
      obtain ⟨rfl, rfl⟩ := by simpa [Thread.run] using acted
      exact .of_eq (by simp) rfl (Threads.apart_dereference _ _)
  | entry =>
      obtain ⟨rfl, rfl⟩ := by simpa [Thread.run] using acted
      exact .of_eq rfl rfl ((Threads.Apart.of_same rfl).post _ _)
  | tryLock | leave | testWorker | reset | terminate | clearReady =>
      obtain ⟨rfl, rfl⟩ := by simpa [Thread.run] using acted
      exact .of_eq rfl rfl (.of_same rfl)

/-- What the use of an accessor does to the mutex, and that it never changes what the mutex
guards. -/
theorem use_guards {query : Query} {functor : Functor} {phase phase' : AccessPhase}
    {launched : Option Nat}
    (acted : ThreadAccessor.use self query functor threads phase =
      some (threads', phase', launched)) :
    Guards self threads (access query functor phase) threads' (access query functor phase') ∧
      threads.Apart threads' := by
  cases phase with
  | lock =>
      simp only [ThreadAccessor.use, Option.map_eq_some_iff, Threads.acquire_eq_some] at acted
      obtain ⟨_, ⟨free, rfl⟩, acted⟩ := acted
      obtain ⟨rfl, rfl, rfl⟩ := by simpa using acted
      exact ⟨.of_acquire free rfl rfl rfl, .of_same rfl⟩
  | visit todo selected =>
      cases todo with
      | nil =>
          obtain ⟨rfl, rfl, rfl⟩ := by simpa [ThreadAccessor.use] using acted
          exact ⟨.of_inside rfl rfl rfl, .of_same rfl⟩
      | cons thread todo =>
          obtain ⟨rfl, rfl, rfl⟩ := by simpa [ThreadAccessor.use] using acted
          split
          · exact ⟨.of_inside rfl (by simp) rfl, Threads.apart_dereference _ _⟩
          · exact ⟨.of_inside rfl rfl rfl, .of_same rfl⟩
  | apply todo =>
      cases todo with
      | nil =>
          obtain ⟨rfl, rfl, rfl⟩ := by simpa [ThreadAccessor.use] using acted
          exact ⟨.of_release rfl rfl rfl, .of_same rfl⟩
      | cons thread todo =>
          cases functor with
          | startThread =>
              simp only [ThreadAccessor.use] at acted
              split at acted <;> obtain ⟨rfl, rfl, rfl⟩ := by simpa using acted
              · exact ⟨.of_inside rfl rfl rfl, .of_same rfl⟩
              · exact ⟨.of_inside rfl rfl rfl, .of_same rfl⟩
          | sendEvent event =>
              obtain ⟨rfl, rfl, rfl⟩ := by simpa [ThreadAccessor.use] using acted
              exact ⟨.of_inside rfl (by simp) rfl, Threads.apart_send thread event _⟩
          | terminate =>
              obtain ⟨rfl, rfl, rfl⟩ := by simpa [ThreadAccessor.use] using acted
              exact ⟨.of_inside rfl rfl rfl, .of_same rfl⟩
  | start thread todo =>
      simp only [ThreadAccessor.use] at acted
      split at acted <;> obtain ⟨rfl, rfl, rfl⟩ := by simpa using acted
      · exact ⟨.of_inside rfl rfl rfl, .of_same rfl⟩
      · exact ⟨.of_inside rfl rfl rfl, .of_same rfl⟩
  | launch thread todo =>
      obtain ⟨rfl, rfl, rfl⟩ := by simpa [ThreadAccessor.use] using acted
      exact ⟨.of_inside rfl rfl rfl, .of_same rfl⟩
  | done => simp [ThreadAccessor.use] at acted

theorem addThread_guards {thread : Nat} {startWork : Bool} {phase phase' : AddPhase}
    {launched : Option Nat}
    (acted : threads.addThread self thread startWork phase = some (threads', phase', launched)) :
    Guards self threads (addThread thread startWork phase) threads'
      (addThread thread startWork phase') := by
  cases phase with
  | lock =>
      simp only [Threads.addThread, Option.map_eq_some_iff, Threads.acquire_eq_some] at acted
      obtain ⟨_, ⟨free, rfl⟩, acted⟩ := acted
      obtain ⟨rfl, rfl, rfl⟩ := by simpa using acted
      exact .of_acquire free rfl rfl rfl
  | add =>
      obtain ⟨rfl, rfl, rfl⟩ := by simpa [Threads.addThread] using acted
      refine .of_inside rfl (by simp) ?_
      cases startWork <;> rfl
  | start =>
      simp only [Threads.addThread] at acted
      split at acted <;> obtain ⟨rfl, rfl, rfl⟩ := by simpa using acted
      · exact .of_inside rfl rfl rfl
      · exact .of_inside rfl rfl rfl
  | launch =>
      obtain ⟨rfl, rfl, rfl⟩ := by simpa [Threads.addThread] using acted
      exact .of_inside rfl rfl rfl
  | release =>
      obtain ⟨rfl, rfl, rfl⟩ := by simpa [Threads.addThread] using acted
      exact .of_release rfl rfl rfl
  | done => simp [Threads.addThread] at acted

theorem getStatus_guards {phase phase' : StatusPhase}
    (acted : threads.getStatus self phase = some (threads', phase')) :
    Guards self threads (getStatus phase) threads' (getStatus phase') := by
  cases phase with
  | lock =>
      simp only [Threads.getStatus, Option.map_eq_some_iff, Threads.acquire_eq_some] at acted
      obtain ⟨_, ⟨free, rfl⟩, acted⟩ := acted
      obtain ⟨rfl, rfl⟩ := by simpa using acted
      exact .of_acquire free rfl rfl rfl
  | writeToObject todo =>
      cases todo with
      | nil =>
          obtain ⟨rfl, rfl⟩ := by simpa [Threads.getStatus] using acted
          exact .of_release rfl rfl rfl
      | cons thread todo =>
          obtain ⟨rfl, rfl⟩ := by simpa [Threads.getStatus] using acted
          exact .of_inside rfl (by simp) rfl
  | getStatus thread todo =>
      obtain ⟨rfl, rfl⟩ := by simpa [Threads.getStatus] using acted
      exact .of_inside rfl (by simp) rfl
  | done => simp [Threads.getStatus] at acted

theorem stop_guards {first : Nat} {phase phase' : StopPhase}
    (acted : threads.stop self first phase = some (threads', phase')) :
    Guards self threads (stop first phase) threads' (stop first phase') := by
  cases phase with
  | round type =>
      simp only [Threads.stop] at acted
      split at acted
      · simp only [Option.map_eq_some_iff, Threads.acquire_eq_some] at acted
        obtain ⟨_, ⟨free, rfl⟩, acted⟩ := acted
        obtain ⟨rfl, rfl⟩ := by simpa using acted
        exact .of_acquire free rfl rfl rfl
      · obtain ⟨rfl, rfl⟩ := by simpa using acted
        exact .of_eq rfl rfl (.of_same rfl)
  | select type todo selected =>
      cases todo with
      | nil =>
          obtain ⟨rfl, rfl⟩ := by simpa [Threads.stop] using acted
          exact .of_inside rfl rfl rfl
      | cons thread todo =>
          simp only [Threads.stop] at acted
          split at acted <;> obtain ⟨rfl, rfl⟩ := by simpa using acted
          · exact .of_inside rfl rfl rfl
          · exact .of_inside rfl rfl rfl
  | compare type thread todo selected =>
      obtain ⟨rfl, rfl⟩ := by simpa [Threads.stop] using acted
      exact .of_inside rfl (by simp) rfl
  | terminate type todo selected =>
      cases todo with
      | nil =>
          obtain ⟨rfl, rfl⟩ := by simpa [Threads.stop] using acted
          exact .of_release rfl rfl rfl
      | cons thread todo =>
          obtain ⟨rfl, rfl⟩ := by simpa [Threads.stop] using acted
          exact .of_inside rfl rfl rfl
  | test type todo =>
      cases todo with
      | nil =>
          obtain ⟨rfl, rfl⟩ := by simpa [Threads.stop] using acted
          exact .of_eq rfl rfl (.of_same rfl)
      | cons thread todo =>
          simp only [Threads.stop] at acted
          split at acted <;> obtain ⟨rfl, rfl⟩ := by simpa using acted
          · exact .of_eq rfl rfl (.of_same rfl)
          · exact .of_eq rfl rfl (.of_same rfl)
  | quit type thread todo =>
      simp only [Threads.stop, Threads.guarded_eq_some, Prod.mk.injEq] at acted
      obtain ⟨free, rfl, rfl⟩ := acted
      exact .of_free free rfl rfl
  | wait type thread todo =>
      simp only [Threads.stop] at acted
      split at acted <;> obtain ⟨rfl, rfl⟩ := by simpa using acted
      · exact .of_eq rfl rfl (.of_same rfl)
      · exact .of_eq rfl rfl (.of_same rfl)
  | join type thread todo =>
      simp only [Threads.stop] at acted
      split at acted
      · simp at acted
      · obtain ⟨rfl, rfl⟩ := by simpa using acted
        exact .of_eq rfl rfl (.of_same rfl)
  | done => simp [Threads.stop] at acted

theorem exec_guards {phase phase' : ExecPhase}
    (acted : threads.exec self phase = some (threads', phase')) :
    Guards self threads (exec phase) threads' (exec phase') := by
  cases phase with
  | pull =>
      cases pending : threads.application.queue with
      | nil => simp [Threads.exec, pending] at acted
      | cons event queue =>
          have rest : queue <:+ threads.application.queue := by simp [pending]
          by_cases request : event.type = .threadRemove <;>
            obtain ⟨rfl, rfl⟩ := by simpa [Threads.exec, pending, request] using acted
          · exact .of_eq rfl rfl ⟨rfl, rfl, rest⟩
          · exact .of_eq rfl rfl ⟨rfl, rfl, rest⟩
  | lock thread =>
      simp only [Threads.exec, Option.map_eq_some_iff, Threads.acquire_eq_some] at acted
      obtain ⟨_, ⟨free, rfl⟩, acted⟩ := acted
      obtain ⟨rfl, rfl⟩ := by simpa using acted
      exact .of_acquire free rfl rfl rfl
  | testStarted | testTerminated =>
      obtain ⟨rfl, rfl⟩ := by simpa [Threads.exec] using acted
      exact .of_inside rfl rfl rfl
  | remove thread status =>
      obtain ⟨rfl, rfl⟩ := by simpa [Threads.exec] using acted
      exact .of_release rfl rfl rfl

/-- What one action of an actor does to the mutex and to what it guards. -/
theorem behave_guards {actor actor' : Actor} {spawned : List Actor}
    (acted : actor.behave self threads choice = some (threads', actor', spawned)) :
    Guards self threads actor threads' actor' ∧ ∀ other ∈ spawned, other.inside = false := by
  refine ⟨?_, fun other new => ?_⟩
  · cases behaves_of_behave acted with
    | run ran => exact run_guards ran
    | access used => exact (use_guards used).1
    | addThread added => exact addThread_guards added
    | getStatus read => exact getStatus_guards read
    | stop stopped => exact stop_guards stopped
    | exec pulled => exact exec_guards pulled
    | send thread event => exact .of_eq (by simp) rfl (Threads.apart_send thread event _)
  · obtain ⟨thread, boost, rfl⟩ := entry_of_spawned acted new
    rfl

end Actor

/-! ## Nothing changes under the holder -/

/-- The threads that the use of an accessor will come to. -/
def AccessPhase.ahead : AccessPhase → List Nat
  | .visit todo selected => todo ++ selected
  | .apply todo => todo
  | .start thread todo | .launch thread todo => thread :: todo
  | .lock | .done => []

theorem use_ahead {self : Nat} {threads threads' : Threads} {query : Query} {functor : Functor}
    {phase phase' : AccessPhase} {launched : Option Nat}
    (acted : ThreadAccessor.use self query functor threads phase =
      some (threads', phase', launched)) :
    ∀ thread ∈ phase'.ahead, thread ∈ phase.ahead ∨ thread ∈ threads.application.threads := by
  cases phase with
  | lock =>
      simp only [ThreadAccessor.use, Option.map_eq_some_iff, Threads.acquire_eq_some] at acted
      obtain ⟨_, ⟨-, rfl⟩, acted⟩ := acted
      obtain ⟨rfl, rfl, rfl⟩ := by simpa using acted
      exact fun thread member => .inr (by simpa [AccessPhase.ahead] using member)
  | visit todo selected =>
      cases todo with
      | nil =>
          obtain ⟨rfl, rfl, rfl⟩ := by simpa [ThreadAccessor.use] using acted
          exact fun thread member => .inl member
      | cons thread todo =>
          obtain ⟨rfl, rfl, rfl⟩ := by simpa [ThreadAccessor.use] using acted
          intro other member
          simp only [AccessPhase.ahead, List.mem_append, List.mem_cons] at member ⊢
          split at member
          · rw [List.mem_append, List.mem_singleton] at member
            tauto
          · tauto
  | apply todo =>
      cases todo with
      | nil =>
          obtain ⟨rfl, rfl, rfl⟩ := by simpa [ThreadAccessor.use] using acted
          simp [AccessPhase.ahead]
      | cons thread todo =>
          cases functor with
          | startThread =>
              simp only [ThreadAccessor.use] at acted
              split at acted <;> obtain ⟨rfl, rfl, rfl⟩ := by simpa using acted
              · exact fun other member => .inl (List.mem_cons_of_mem _ member)
              · exact fun other member => .inl member
          | sendEvent event =>
              obtain ⟨rfl, rfl, rfl⟩ := by simpa [ThreadAccessor.use] using acted
              exact fun other member => .inl (List.mem_cons_of_mem _ member)
          | terminate =>
              obtain ⟨rfl, rfl, rfl⟩ := by simpa [ThreadAccessor.use] using acted
              simp [AccessPhase.ahead]
  | start thread todo =>
      simp only [ThreadAccessor.use] at acted
      split at acted <;> obtain ⟨rfl, rfl, rfl⟩ := by simpa using acted
      · exact fun other member => .inl (List.mem_cons_of_mem _ member)
      · exact fun other member => .inl member
  | launch thread todo =>
      obtain ⟨rfl, rfl, rfl⟩ := by simpa [ThreadAccessor.use] using acted
      exact fun other member => .inl (List.mem_cons_of_mem _ member)
  | done => simp [ThreadAccessor.use] at acted

/-- Only the use of an accessor goes on as one, and none is spawned. -/
theorem Actor.behave_ahead {self : Nat} {threads threads' : Threads} {actor actor' : Actor}
    {choice : Choice} {spawned : List Actor}
    (acted : actor.behave self threads choice = some (threads', actor', spawned)) :
    (∀ query functor phase', actor' = .access query functor phase' → ∃ phase,
      actor = .access query functor phase ∧
      threads'.application.threads = threads.application.threads ∧
      ∀ thread ∈ phase'.ahead, thread ∈ phase.ahead ∨ thread ∈ threads.application.threads) ∧
    ∀ query functor phase, .access query functor phase ∉ spawned := by
  refine ⟨?_, fun _ _ _ new => ?_⟩
  · cases behaves_of_behave acted with
    | access used =>
        rintro _ _ _ ⟨⟩
        exact ⟨_, rfl, (use_guards used).2.listed, use_ahead used⟩
    | run | addThread | getStatus | stop | exec | send => simp
  · obtain ⟨thread, boost, begun⟩ := entry_of_spawned acted new
    simp at begun

namespace ThreadPool

variable {pool next later : ThreadPool} {self : Nat}

theorem keepsMutex : KeepsMutex Actor.behave Threads.lock Actor.inside :=
  fun _ _ _ _ _ _ _ acted =>
    ⟨(Actor.behave_guards acted).1.mutex, (Actor.behave_guards acted).2⟩

theorem Reached.exclusive (reached : pool.Reached) : Exclusive Threads.lock Actor.inside pool := by
  obtain ⟨task, worker, listed, clients, schedule, run⟩ := reached
  refine Exclusive.exec ?_ keepsMutex run
  refine exclusive_of_free rfl fun actor member => ?_
  obtain ⟨client, _, rfl⟩ := List.mem_map.mp member
  cases client <;> rfl

/-- While an accessor has the mutex, no actor does what needs it. -/
theorem apart_step {label : Nat × Choice} (exclusive : Exclusive Threads.lock Actor.inside pool)
    {query : Query} {functor : Functor} {phase : AccessPhase}
    (present : pool.actors[self]? = some (.access query functor phase))
    (inside : (Actor.access query functor phase).inside = true)
    (taken : pool.step label = some next) : pool.shared.Apart next.shared := by
  obtain ⟨actor, actor', spawned, acts, acted, -⟩ := ActorPool.actors_of_step taken
  have held := (exclusive self).mpr ⟨_, present, inside⟩
  by_cases mine : label.1 = self
  · rw [mine, present] at acts
    obtain rfl := Option.some.inj acts
    generalize next.shared = shared at acted ⊢
    cases Actor.behaves_of_behave acted with
    | access used => exact (Actor.use_guards used).2
  · have outside : actor.inside = false := by
      by_contra within
      have other := (exclusive label.1).mpr ⟨actor, acts, Bool.eq_true_of_not_eq_false within⟩
      exact mine (Option.some.inj (other.symm.trans held))
    exact (Actor.behave_guards acted).1.part outside (by simp [held])

/-- Every accessor comes only to threads that are listed. -/
def Ahead (pool : ThreadPool) : Prop :=
  ∀ (self : Nat) (query : Query) (functor : Functor) (phase : AccessPhase),
    pool.actors[self]? = some (.access query functor phase) →
    ∀ thread ∈ phase.ahead, thread ∈ pool.shared.application.threads

theorem Ahead.step {label : Nat × Choice} (ahead : pool.Ahead)
    (exclusive : Exclusive Threads.lock Actor.inside pool)
    (taken : pool.step label = some next) : next.Ahead := by
  obtain ⟨actor, actor', spawned, present, acted, actors⟩ := ActorPool.actors_of_step taken
  intro self query functor phase there thread member
  rw [actors] at there
  obtain ⟨goes, fresh⟩ := Actor.behave_ahead acted
  rcases getElem?_of_set_append present there with ⟨rfl, same⟩ | ⟨distinct, old⟩ | ⟨_, new⟩
  · obtain ⟨before, rfl, listed, came⟩ := goes query functor phase same.symm
    rw [listed]
    exact (came thread member).elim (ahead _ _ _ _ present thread) id
  · have inside : (Actor.access query functor phase).inside = true := by
      cases phase <;> simp [Actor.inside, AccessPhase.ahead] at member ⊢
    rw [(apart_step exclusive old inside taken).listed]
    exact ahead _ _ _ _ old thread member
  · exact (fresh query functor phase new).elim

theorem Reached.ahead (reached : pool.Reached) : pool.Ahead := by
  obtain ⟨task, worker, listed, clients, schedule, run⟩ := reached
  have preserved (pool : ThreadPool) (label : Nat × Choice) (next : ThreadPool)
      (before : pool.Reached ∧ pool.Ahead) (taken : pool.step label = some next) :
      next.Reached ∧ next.Ahead :=
    ⟨before.1.step taken, before.2.step before.1.exclusive taken⟩
  refine (Runs.exec_invariant_of_forall preserved ?_ run).2
  refine ⟨⟨task, worker, listed, clients, [], rfl⟩, ?_⟩
  intro self query functor phase there thread member
  obtain ⟨client, _, same⟩ := List.mem_map.mp (List.mem_of_getElem? there)
  cases client <;> simp [Client.actor] at same
  obtain ⟨-, -, rfl⟩ := same
  simp [AccessPhase.ahead] at member

end ThreadPool

end Drumlin
