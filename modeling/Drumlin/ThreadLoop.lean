import Drumlin.Library.ActorPool

/-!
# The loop of `Thread::run`

`Thread::run` (thread.cpp) tries to lock a mutex that all threads share, calls `exec` if it got the
mutex, and unlocks the mutex in any case.
-/

namespace Drumlin.ThreadLoop

open ActorPool

/-! ## Threads -/

/-- Where a thread is in `run`. -/
inductive Point
  /-- At the condition of the loop. -/
  | test
  /-- At `try_lock`. -/
  | trying
  /-- In `exec`. -/
  | executing
  /-- At `unlock`, with what `try_lock` returned. -/
  | unlocking (locked : Bool)
  /-- Handling the tick, and asleep. -/
  | ticking
  /-- After the loop. -/
  | finished
deriving DecidableEq, Repr

/-- The thread is between `try_lock` and `unlock`. -/
def Point.inside : Point → Bool
  | .executing | .unlocking _ => true
  | .test | .trying | .ticking | .finished => false

/-- What a thread does next. -/
inductive Action
  /-- Evaluate the condition of the loop, with this result. -/
  | test (holds : Bool)
  /-- Try to lock the mutex, which may fail though the mutex is free. -/
  | tryLock (spurious : Bool)
  /-- Return from `exec`. -/
  | returns
  | unlock
  /-- Handle the tick and sleep; the loop may break here. -/
  | tick (handled : Bool)
deriving DecidableEq, Repr

/-- One action of a thread.  The shared state is the thread that holds the mutex, which `unlock`
frees whoever calls it. -/
def behave : Behavior (Option Nat) Point Action := fun me holder point action =>
  match action, point with
  | .test holds, .test => some (holder, if holds then .trying else .finished, [])
  | .tryLock spurious, .trying =>
      if holder = none ∧ spurious = false then some (some me, .executing, [])
      else some (holder, .unlocking false, [])
  | .returns, .executing => some (holder, .unlocking true, [])
  | .unlock, .unlocking _ => some (none, .ticking, [])
  | .tick handled, .ticking => some (holder, if handled then .test else .finished, [])
  | _, _ => none

/-- Threads that come to the loop, and the mutex free. -/
def start (threads : Nat) : Pool (Option Nat) Point := ⟨none, List.replicate threads .test⟩

/-! ## What is asked of a run -/

/-- After the action at most one thread is in `exec`, and if it is an `unlock`, it is one by the
thread that holds the mutex. -/
structure Safe (pool : Pool (Option Nat) Point) (label : Nat × Action) : Prop where
  exclusive : ∀ next, step behave pool label = some next →
    ∀ first second : Nat, next.actors[first]? = some .executing →
      next.actors[second]? = some .executing → first = second
  owned : ∀ next, step behave pool label = some next → label.2 = .unlock →
    pool.shared = some label.1

/-- A thread that tries to lock the mutex finds it free, and gets it. -/
def FindsFree (pool : Pool (Option Nat) Point) (label : Nat × Action) : Prop :=
  ∀ spurious, label.2 = .tryLock spurious → pool.shared = none ∧ spurious = false

instance (pool : Pool (Option Nat) Point) (label : Nat × Action) :
    Decidable (FindsFree pool label) :=
  inferInstanceAs (Decidable (∀ spurious : Bool,
    label.2 = .tryLock spurious → pool.shared = none ∧ spurious = false))

/-- Every thread between `try_lock` and `unlock` holds the mutex. -/
def Guarded (pool : Pool (Option Nat) Point) : Prop :=
  ∀ thread point, pool.actors[thread]? = some point → point.inside → pool.shared = some thread

/-- The thread that holds the mutex got it and did not come to its `unlock`. -/
def HolderInside (pool : Pool (Option Nat) Point) : Prop :=
  ∀ thread, pool.shared = some thread →
    ∃ point, pool.actors[thread]? = some point ∧ point ∈ [.executing, .unlocking true]

/-! ## What one action does -/

/-- The actions, one by one. -/
inductive Moves (me : Nat) : Option Nat → Point → Action → Option Nat → Point → Prop
  | test (holder : Option Nat) (holds : Bool) :
      Moves me holder .test (.test holds) holder (if holds then .trying else .finished)
  | acquire : Moves me none .trying (.tryLock false) (some me) .executing
  | fail (holder : Option Nat) (spurious : Bool) (taken : ¬(holder = none ∧ spurious = false)) :
      Moves me holder .trying (.tryLock spurious) holder (.unlocking false)
  | returns (holder : Option Nat) : Moves me holder .executing .returns holder (.unlocking true)
  | unlock (holder : Option Nat) (locked : Bool) :
      Moves me holder (.unlocking locked) .unlock none .ticking
  | tick (holder : Option Nat) (handled : Bool) :
      Moves me holder .ticking (.tick handled) holder (if handled then .test else .finished)

theorem moves_of_behave {me : Nat} {holder holder' : Option Nat} {point point' : Point}
    {action : Action} {spawned : List Point}
    (acted : behave me holder point action = some (holder', point', spawned)) :
    Moves me holder point action holder' point' ∧ spawned = [] := by
  unfold behave at acted
  split at acted
  · obtain ⟨rfl, rfl, rfl⟩ := acted
    exact ⟨.test _ _, rfl⟩
  · split at acted
    · rename_i free
      obtain ⟨rfl, rfl⟩ := free
      obtain ⟨rfl, rfl, rfl⟩ := acted
      exact ⟨.acquire, rfl⟩
    · obtain ⟨rfl, rfl, rfl⟩ := acted
      exact ⟨.fail _ _ ‹_›, rfl⟩
  · obtain ⟨rfl, rfl, rfl⟩ := acted
    exact ⟨.returns _, rfl⟩
  · obtain ⟨rfl, rfl, rfl⟩ := acted
    exact ⟨.unlock _ _, rfl⟩
  · obtain ⟨rfl, rfl, rfl⟩ := acted
    exact ⟨.tick _ _, rfl⟩
  · simp at acted

variable {me : Nat} {holder holder' : Option Nat} {point point' : Point} {action : Action}

/-- A thread that gets the mutex when it tries holds it while it is inside. -/
theorem Moves.inside (moves : Moves me holder point action holder' point')
    (free : ∀ spurious, action = .tryLock spurious → holder = none ∧ spurious = false)
    (held : point.inside → holder = some me) (inside : point'.inside) : holder' = some me := by
  cases moves with
  | test _ holds => cases holds <;> exact Bool.noConfusion inside
  | acquire => rfl
  | fail _ spurious taken => exact (taken (free spurious rfl)).elim
  | returns => exact held rfl
  | unlock _ locked => exact Bool.noConfusion inside
  | tick _ handled => cases handled <;> exact Bool.noConfusion inside

/-- While another thread holds the mutex, nothing is taken or freed. -/
theorem Moves.held_other (moves : Moves me holder point action holder' point')
    (held : point.inside → holder = some me) {other : Nat} (distinct : other ≠ me)
    (taken : holder = some other) : holder' = some other := by
  cases moves with
  | acquire => simp at taken
  | unlock _ locked =>
      have mine := held rfl
      exact (distinct (Option.some.inj (taken.symm.trans mine))).elim
  | test _ holds => exact taken
  | fail _ spurious fails => exact taken
  | returns => exact taken
  | tick _ handled => exact taken

/-- The holder, if it is another thread after the action, was it before. -/
theorem Moves.held_before (moves : Moves me holder point action holder' point') {other : Nat}
    (distinct : other ≠ me) (taken : holder' = some other) : holder = some other := by
  cases moves with
  | acquire => exact (distinct (Option.some.inj taken).symm).elim
  | unlock _ locked => simp at taken
  | test _ holds => exact taken
  | fail _ spurious fails => exact taken
  | returns => exact taken
  | tick _ handled => exact taken

/-- The thread that holds the mutex moves on to its `unlock`. -/
theorem Moves.holder_inside (moves : Moves me holder point action holder' point')
    (before : holder = some me → point ∈ [.executing, .unlocking true])
    (mine : holder' = some me) : point' ∈ [.executing, .unlocking true] := by
  cases moves with
  | acquire => simp
  | returns => simp
  | unlock _ locked => simp at mine
  | test _ holds => simpa using before mine
  | fail _ spurious fails => simpa using before mine
  | tick _ handled => simpa using before mine

theorem Moves.action_of_waiting {locked : Bool}
    (moves : Moves me holder (.unlocking locked) action holder' point') : action = .unlock := by
  cases moves
  rfl

theorem Moves.inside_of_unlock (moves : Moves me holder point .unlock holder' point') :
    point.inside := by
  cases moves
  rfl

theorem Moves.waiting_of_fail {spurious : Bool}
    (moves : Moves me holder point (.tryLock spurious) holder' point')
    (taken : ¬(holder = none ∧ spurious = false)) : point' = .unlocking false := by
  cases moves with
  | acquire => exact (taken ⟨rfl, rfl⟩).elim
  | fail _ _ fails => rfl

variable {pool next : Pool (Option Nat) Point} {label : Nat × Action}

/-- One step: the thread of the label moves, and the others stay where they are. -/
theorem moves_of_step (taken : step behave pool label = some next) :
    ∃ point point', pool.actors[label.1]? = some point ∧
      Moves label.1 pool.shared point label.2 next.shared point' ∧
      next.actors[label.1]? = some point' ∧
      ∀ other, other ≠ label.1 → next.actors[other]? = pool.actors[other]? := by
  obtain ⟨point, point', present, acted, now, others⟩ :=
    step_eq_some_of_quiet (fun _ _ _ _ _ acted => (moves_of_behave acted).2) taken
  exact ⟨point, point', present, (moves_of_behave acted).1, now, others⟩

/-! ## Runs in which `try_lock` succeeds -/

theorem guarded_start (threads : Nat) : Guarded (start threads) := by
  intro thread point present inside
  rw [start, List.getElem?_replicate] at present
  split at present
  · obtain rfl := Option.some.inj present
    exact Bool.noConfusion inside
  · simp at present

theorem Guarded.exclusive (guarded : Guarded pool) {first second : Nat}
    (one : pool.actors[first]? = some .executing) (other : pool.actors[second]? = some .executing) :
    first = second :=
  Option.some.inj ((guarded first _ one rfl).symm.trans (guarded second _ other rfl))

theorem Guarded.step (guarded : Guarded pool) (free : FindsFree pool label)
    (taken : step behave pool label = some next) : Guarded next := by
  obtain ⟨point, point', present, moves, now, others⟩ := moves_of_step taken
  have held := guarded label.1 point present
  intro thread other place inside
  by_cases same : thread = label.1
  · subst same
    obtain rfl := Option.some.inj (now.symm.trans place)
    exact moves.inside free held inside
  · rw [others thread same] at place
    exact moves.held_other held same (guarded thread other place inside)

theorem Guarded.safe (guarded : Guarded pool) (free : FindsFree pool label) :
    Safe pool label := by
  refine ⟨fun next taken first second one other => ?_, fun next taken unlocks => ?_⟩
  · exact (guarded.step free taken).exclusive one other
  · obtain ⟨point, point', present, moves, -⟩ := moves_of_step taken
    rw [unlocks] at moves
    exact guarded label.1 point present moves.inside_of_unlock

/-! ## Runs in which `try_lock` fails -/

theorem holderInside_start (threads : Nat) : HolderInside (start threads) := by
  intro thread taken
  simp [start] at taken

theorem HolderInside.step (holds : HolderInside pool) (taken : step behave pool label = some next) :
    HolderInside next := by
  obtain ⟨point, point', present, moves, now, others⟩ := moves_of_step taken
  intro thread mine
  by_cases same : thread = label.1
  · subst same
    refine ⟨point', now, moves.holder_inside (fun before => ?_) mine⟩
    obtain ⟨other, place, inside⟩ := holds label.1 before
    obtain rfl := Option.some.inj (present.symm.trans place)
    exact inside
  · rw [others thread same]
    exact holds thread (moves.held_before same mine)

/-- A thread whose `try_lock` failed stays before its `unlock` as long as the run is safe. -/
theorem HolderInside.waits {thread : Nat} (holds : HolderInside pool)
    (waiting : pool.actors[thread]? = some (.unlocking false)) (safe : Safe pool label)
    (taken : ActorPool.step behave pool label = some next) :
    next.actors[thread]? = some (.unlocking false) := by
  obtain ⟨point, point', present, moves, now, others⟩ := moves_of_step taken
  by_cases same : thread = label.1
  · subst same
    obtain rfl := Option.some.inj (present.symm.trans waiting)
    obtain ⟨other, place, inside⟩ :=
      holds label.1 (safe.owned next taken moves.action_of_waiting)
    obtain rfl := Option.some.inj (present.symm.trans place)
    simp at inside
  · rw [others thread same, waiting]

/-- A safe run at whose end no thread stands before the `unlock` of a failed `try_lock`. -/
theorem HolderInside.along_findsFree {final : Pool (Option Nat) Point} (holds : HolderInside pool)
    {schedule : List (Nat × Action)}
    (run : Runs.exec (ActorPool.step behave) pool schedule = some final)
    (settled : ∀ point ∈ final.actors, point ≠ .unlocking false)
    (safe : Runs.Along (ActorPool.step behave) Safe pool schedule) :
    Runs.Along (ActorPool.step behave) FindsFree pool schedule := by
  induction schedule generalizing pool with
  | nil => trivial
  | cons label schedule induction =>
      obtain ⟨next, taken, rest⟩ := Runs.exec_cons_eq_some.mp run
      rw [Runs.along_cons_of_step taken] at safe ⊢
      refine ⟨fun spurious tries => ?_, induction (holds.step taken) rest safe.2⟩
      by_contra fails
      obtain ⟨point, point', present, moves, now, -⟩ := moves_of_step taken
      rw [tries] at moves
      rw [moves.waiting_of_fail fails] at now
      -- From here on the thread waits before its `unlock`, to the end of the run.
      have preserved : ∀ (pool : Pool (Option Nat) Point) other after,
          HolderInside pool ∧ pool.actors[label.1]? = some (.unlocking false) → Safe pool other →
          ActorPool.step behave pool other = some after →
          HolderInside after ∧ after.actors[label.1]? = some (.unlocking false) :=
        fun _ _ _ kept safe taken => ⟨kept.1.step taken, kept.1.waits kept.2 safe taken⟩
      have waiting := Runs.exec_invariant preserved ⟨holds.step taken, now⟩ safe.2 rest
      exact settled _ (List.mem_of_getElem? waiting.2) rfl

/-- In every run of any number of threads in which a thread that tries to lock the mutex finds it
free, at most one thread is in `exec` and only the holder of the mutex unlocks it; and no other run
is of this kind once every thread has passed its `unlock`. -/
theorem safe_of_findsFree (threads : Nat) (schedule : List (Nat × Action)) :
    (Runs.Along (ActorPool.step behave) FindsFree (start threads) schedule →
      Runs.Along (ActorPool.step behave) Safe (start threads) schedule) ∧
    ∀ final, Runs.exec (ActorPool.step behave) (start threads) schedule = some final →
      (∀ point ∈ final.actors, point ≠ .unlocking false) →
      Runs.Along (ActorPool.step behave) Safe (start threads) schedule →
      Runs.Along (ActorPool.step behave) FindsFree (start threads) schedule := by
  refine ⟨fun free => ?_, fun final run settled safe => ?_⟩
  · apply Runs.Along.of_invariant Guarded ?_ ?_ (guarded_start threads) free free
    · intro pool label next free _ guarded taken
      exact guarded.step free taken
    · intro pool label free guarded
      exact guarded.safe free
  · exact (holderInside_start threads).along_findsFree run settled safe

/-- Two threads, one after the other. -/
theorem safe_two :
    Runs.Along (ActorPool.step behave) Safe (start 2)
      [(0, .test true), (1, .test true), (0, .tryLock false), (0, .returns), (0, .unlock),
        (1, .tryLock false), (1, .returns), (1, .unlock)] ∧
    Runs.Along (ActorPool.step behave) FindsFree (start 2)
      [(0, .test true), (1, .test true), (0, .tryLock false), (0, .returns), (0, .unlock),
        (1, .tryLock false), (1, .returns), (1, .unlock)] := by
  have safe := (safe_of_findsFree 2 [(0, .test true), (1, .test true), (0, .tryLock false),
    (0, .returns), (0, .unlock), (1, .tryLock false), (1, .returns), (1, .unlock)]).1 (by decide)
  exact ⟨safe, (safe_of_findsFree 2 _).2 _ rfl (by decide) safe⟩

/-- A thread whose `try_lock` failed unlocks the mutex, and a third one enters `exec`. -/
theorem safe_fails :
    ¬Runs.Along (ActorPool.step behave) Safe (start 3)
      [(0, .test true), (1, .test true), (2, .test true), (0, .tryLock false),
        (1, .tryLock false), (1, .unlock), (2, .tryLock false)] := by
  intro safe
  have last := (((((safe.2 _ rfl).2 _ rfl).2 _ rfl).2 _ rfl).2 _ rfl).2 _ rfl
  exact absurd (last.1.exclusive _ rfl 0 2 rfl rfl) (by decide)

end Drumlin.ThreadLoop
