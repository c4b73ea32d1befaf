import Drumlin.Library.ActorPool

/-!
# Calls through `access::cache`

`access::cache` (buffer_cache.h) spins on `try_lock` of the cache mutex, runs the `CPS` object
(mutexcall.h), which calls the member function and then the continuation if there is one, and
releases the mutex by a plain statement.  What the member function, the acceptors it reaches and the
continuation do is up to the caller: at any time they may start another call, enter a `try` block,
return or throw.
-/

namespace Drumlin.CacheAccess

open ActorPool

/-! ## Threads -/

/-- What a thread is in the middle of. -/
inductive Frame
  /-- At `try_lock`. -/
  | acquiring (continuer : Bool)
  /-- In the member function, or in an acceptor it called. -/
  | member (continuer : Bool)
  /-- In the continuation. -/
  | continuation
  /-- At `unlock`. -/
  | releasing
  /-- In a `try` block, all of whose exceptions are caught. -/
  | attempt
deriving DecidableEq, Repr

/-- The frame is a call through `access::cache`. -/
def Frame.isCall (frame : Frame) : Bool := frame != .attempt

/-- The call has taken the mutex and not released it. -/
def Frame.holds : Frame → Bool
  | .member _ | .continuation | .releasing => true
  | .acquiring _ | .attempt => false

/-- The frames of a thread, the innermost first.  It runs the caller's code unless it is at
`try_lock` or `unlock`. -/
def runsUserCode : List Frame → Bool
  | .acquiring _ :: _ | .releasing :: _ => false
  | _ => true

/-- The frames an exception leaves behind. -/
def unwound (stack : List Frame) : List Frame := stack.takeWhile (· != .attempt)

/-- The frames left when it is caught; none if it is not. -/
def unwind (stack : List Frame) : List Frame := (stack.dropWhile (· != .attempt)).tail

/-- What a thread does next. -/
inductive Action
  /-- Call `access::cache`, with a continuation or without. -/
  | call (continuer : Bool)
  /-- Try to take the mutex, once. -/
  | tryLock
  /-- Return from the member function or the continuation, or leave a `try` block. -/
  | finish
  | unlock
  /-- Enter a `try` block. -/
  | attempt
  | throw
deriving DecidableEq, Repr

/-- One action of a thread.  The shared state is the thread that holds the mutex. -/
def behave : Behavior (Option Nat) (List Frame) Action := fun me holder stack action =>
  match action, stack with
  | .tryLock, .acquiring continuer :: rest =>
      if holder = none then some (some me, .member continuer :: rest, [])
      else some (holder, .acquiring continuer :: rest, [])
  | .finish, .member continuer :: rest =>
      some (holder, (if continuer then .continuation else .releasing) :: rest, [])
  | .finish, .continuation :: rest => some (holder, .releasing :: rest, [])
  | .finish, .attempt :: rest => some (holder, rest, [])
  | .unlock, .releasing :: rest => some (none, rest, [])
  | .call continuer, stack =>
      if runsUserCode stack then some (holder, .acquiring continuer :: stack, []) else none
  | .attempt, stack => if runsUserCode stack then some (holder, .attempt :: stack, []) else none
  | .throw, stack => if runsUserCode stack then some (holder, unwind stack, []) else none
  | _, _ => none

/-- Threads that are in no call, and the mutex free. -/
def start (threads : Nat) : Pool (Option Nat) (List Frame) := ⟨none, List.replicate threads []⟩

/-! ## What is asked of a thread -/

/-- The mutex is not left locked, and the thread does not wait for what it holds. -/
structure Sound (thread : Nat) (holder : Option Nat) (stack : List Frame) : Prop where
  /-- Outside of all calls the thread does not hold the mutex. -/
  released : (∀ frame ∈ stack, frame.isCall = false) → holder ≠ some thread
  /-- At `try_lock` it does not hold the mutex. -/
  waits : ∀ continuer rest, stack = .acquiring continuer :: rest → holder ≠ some thread

/-- The caller's code inside a call neither calls again nor lets an exception out of the call. -/
def StaysInside (stack : List Frame) : Action → Prop
  | .call _ => runsUserCode stack → ∀ frame ∈ stack, frame.isCall = false
  | .throw => runsUserCode stack → ∀ frame ∈ unwound stack, frame.isCall = false
  | .tryLock | .finish | .unlock | .attempt => True

/-- What every thread keeps: at most one call holds the mutex, and then the thread is its holder;
and a call at `try_lock` is the innermost frame. -/
structure Held (thread : Nat) (holder : Option Nat) (stack : List Frame) : Prop where
  holds : ∀ frame ∈ stack, frame.holds → holder = some thread
  once : stack.countP Frame.holds ≤ 1
  innermost : ∀ frame ∈ stack.tail, frame.isCall → frame.holds

/-- What an action does to the holder, as other threads see it. -/
inductive Passes (me : Nat) : Option Nat → Option Nat → Prop
  | keep (holder : Option Nat) : Passes me holder holder
  | take : Passes me none (some me)
  | release : Passes me (some me) none

variable {me : Nat} {holder holder' : Option Nat} {stack stack' : List Frame} {action : Action}
  {spawned : List (List Frame)}

theorem Passes.held_other (passes : Passes me holder holder') {other : Nat} {frames : List Frame}
    (distinct : other ≠ me) (held : Held other holder frames) : Held other holder' frames := by
  refine ⟨fun frame member holds => ?_, held.once, held.innermost⟩
  have before := held.holds frame member holds
  cases passes with
  | keep => exact before
  | take => simp at before
  | release => exact (distinct (Option.some.inj before).symm).elim

theorem Passes.sound_other (passes : Passes me holder holder') {other : Nat} {frames : List Frame}
    (distinct : other ≠ me) (sound : Sound other holder frames) : Sound other holder' frames := by
  have kept : holder ≠ some other → holder' ≠ some other := by
    cases passes with
    | keep => exact id
    | take => exact fun _ taken => distinct (Option.some.inj taken).symm
    | release => exact fun _ => by simp
  exact ⟨fun outside => kept (sound.released outside),
    fun continuer rest top => kept (sound.waits continuer rest top)⟩

/-! ## What one action does -/

/-- The actions, one by one. -/
inductive Moves (me : Nat) :
    Option Nat → List Frame → Action → Option Nat → List Frame → Prop
  | acquire (continuer : Bool) (rest : List Frame) :
      Moves me none (.acquiring continuer :: rest) .tryLock (some me) (.member continuer :: rest)
  | spin (other : Nat) (continuer : Bool) (rest : List Frame) :
      Moves me (some other) (.acquiring continuer :: rest) .tryLock (some other)
        (.acquiring continuer :: rest)
  | advance (holder : Option Nat) (frame next : Frame) (rest : List Frame)
      (held : frame.holds) (kept : next.holds) :
      Moves me holder (frame :: rest) .finish holder (next :: rest)
  | leave (holder : Option Nat) (rest : List Frame) :
      Moves me holder (.attempt :: rest) .finish holder rest
  | release (holder : Option Nat) (rest : List Frame) :
      Moves me holder (.releasing :: rest) .unlock none rest
  | call (holder : Option Nat) (continuer : Bool) (stack : List Frame)
      (user : runsUserCode stack) :
      Moves me holder stack (.call continuer) holder (.acquiring continuer :: stack)
  | attempt (holder : Option Nat) (stack : List Frame) (user : runsUserCode stack) :
      Moves me holder stack .attempt holder (.attempt :: stack)
  | throw (holder : Option Nat) (stack : List Frame) (user : runsUserCode stack) :
      Moves me holder stack .throw holder (unwind stack)

theorem moves_of_behave (acted : behave me holder stack action = some (holder', stack', spawned)) :
    Moves me holder stack action holder' stack' ∧ spawned = [] := by
  unfold behave at acted
  split at acted
  · split at acted
    · rename_i free
      subst free
      obtain ⟨rfl, rfl, rfl⟩ := acted
      exact ⟨.acquire _ _, rfl⟩
    · rename_i taken
      obtain ⟨other, rfl⟩ := Option.ne_none_iff_exists'.mp taken
      obtain ⟨rfl, rfl, rfl⟩ := acted
      exact ⟨.spin _ _ _, rfl⟩
  · rename_i continuer rest
    obtain ⟨rfl, rfl, rfl⟩ := acted
    exact ⟨.advance _ _ _ _ rfl (by cases continuer <;> rfl), rfl⟩
  · obtain ⟨rfl, rfl, rfl⟩ := acted
    exact ⟨.advance _ _ _ _ rfl rfl, rfl⟩
  · obtain ⟨rfl, rfl, rfl⟩ := acted
    exact ⟨.leave _ _, rfl⟩
  · obtain ⟨rfl, rfl, rfl⟩ := acted
    exact ⟨.release _ _, rfl⟩
  · split at acted
    · obtain ⟨rfl, rfl, rfl⟩ := acted
      exact ⟨.call _ _ _ ‹_›, rfl⟩
    · simp at acted
  · split at acted
    · obtain ⟨rfl, rfl, rfl⟩ := acted
      exact ⟨.attempt _ _ ‹_›, rfl⟩
    · simp at acted
  · split at acted
    · obtain ⟨rfl, rfl, rfl⟩ := acted
      exact ⟨.throw _ _ ‹_›, rfl⟩
    · simp at acted
  · simp at acted

/-! ## Frames below the innermost -/

theorem isCall_of_holds {frame : Frame} (holds : frame.holds) : frame.isCall := by
  cases frame <;> simp_all [Frame.holds, Frame.isCall]

/-- Where the caller's code runs, every call on the stack has taken the mutex. -/
theorem Held.holds_of_isCall (held : Held me holder stack) (user : runsUserCode stack)
    {frame : Frame} (member : frame ∈ stack) (call : frame.isCall) : frame.holds := by
  cases stack with
  | nil => simp at member
  | cons top rest =>
      rcases List.mem_cons.mp member with rfl | below
      · cases frame <;> simp_all [runsUserCode, Frame.holds, Frame.isCall]
      · exact held.innermost frame below call

/-- The caller's code may begin what does not hold the mutex. -/
theorem Held.push (held : Held me holder stack) (user : runsUserCode stack) {entry : Frame}
    (free : ¬entry.holds) : Held me holder (entry :: stack) := by
  refine ⟨fun frame member holds => ?_, ?_, fun frame member call => ?_⟩
  · rcases List.mem_cons.mp member with rfl | below
    · exact absurd holds free
    · exact held.holds frame below holds
  · rw [List.countP_cons_of_neg free]
    exact held.once
  · exact held.holds_of_isCall user member call

/-- Below a call that holds the mutex there is no other call. -/
theorem Held.outside {top : Frame} {rest : List Frame} (held : Held me holder (top :: rest))
    (holds : top.holds) {frame : Frame} (member : frame ∈ rest) : frame.isCall = false := by
  have once := held.once
  rw [List.countP_cons_of_pos holds, Nat.succ_le_succ_iff, Nat.le_zero, List.countP_eq_zero]
    at once
  by_contra call
  rw [Bool.not_eq_false] at call
  exact once frame member (held.innermost frame member call)

private theorem tail_suffix_tail {rest whole : List Frame} (below : rest <:+ whole) :
    rest.tail <:+ whole.tail := by
  obtain ⟨front, rfl⟩ := below
  cases front with
  | nil => exact List.suffix_rfl
  | cons top front => exact (List.tail_suffix rest).trans (List.suffix_append front rest)

theorem Held.suffix {rest : List Frame} (held : Held me holder stack) (below : rest <:+ stack) :
    Held me holder rest := by
  refine ⟨fun frame member => held.holds frame (below.subset member),
    below.sublist.countP_le.trans held.once, fun frame member => ?_⟩
  exact held.innermost frame ((tail_suffix_tail below).subset member)

theorem unwind_suffix_tail (stack : List Frame) : unwind stack <:+ stack.tail :=
  tail_suffix_tail (List.dropWhile_suffix _)

/-- A call is left behind by an exception or stays. -/
theorem mem_unwound_or_unwind {frame : Frame} (call : frame.isCall) (member : frame ∈ stack) :
    frame ∈ unwound stack ∨ frame ∈ unwind stack := by
  induction stack with
  | nil => simp at member
  | cons top rest induction =>
      by_cases caught : top = .attempt
      · subst caught
        rcases List.mem_cons.mp member with rfl | below
        · exact Bool.noConfusion call
        · exact .inr below
      · have left : unwound (top :: rest) = top :: unwound rest := by simp [unwound, caught]
        have kept : unwind (top :: rest) = unwind rest := by simp [unwind, caught]
        rw [left, kept]
        rcases List.mem_cons.mp member with rfl | below
        · exact .inl List.mem_cons_self
        · exact (induction below).imp_left (List.mem_cons_of_mem top)

/-- An exception that leaves a call that holds the mutex leaves no other call. -/
theorem Held.outside_unwind (held : Held me holder stack) {frame : Frame}
    (left : frame ∈ unwound stack) (holds : frame.holds) :
    ∀ other ∈ unwind stack, other.isCall = false := by
  have once := held.once
  have positive : 0 < (unwound stack).countP Frame.holds :=
    List.countP_pos_iff.mpr ⟨frame, left, holds⟩
  have split : (unwound stack).countP Frame.holds +
      (stack.dropWhile (· != .attempt)).countP Frame.holds = stack.countP Frame.holds := by
    rw [← List.countP_append, unwound, List.takeWhile_append_dropWhile]
  have none : (stack.dropWhile (· != .attempt)).countP Frame.holds = 0 := by omega
  intro other kept
  by_contra call
  rw [Bool.not_eq_false] at call
  have other_holds := held.innermost other ((unwind_suffix_tail stack).subset kept) call
  exact List.countP_eq_zero.mp none other (List.mem_of_mem_tail kept) other_holds

/-! ## Actions keep the invariant -/

theorem Held.moves (held : Held me holder stack)
    (moves : Moves me holder stack action holder' stack') : Held me holder' stack' := by
  cases moves with
  | acquire continuer rest =>
      have free : ∀ frame ∈ rest, ¬frame.holds := fun frame member holds => by
        simpa using held.holds frame (List.mem_cons_of_mem _ member) holds
      refine ⟨fun _ _ _ => rfl, ?_, held.innermost⟩
      rw [List.countP_cons_of_pos rfl, List.countP_eq_zero.mpr free]
  | spin other continuer rest => exact held
  | advance _ frame next rest holds kept =>
      have me_holds := held.holds frame List.mem_cons_self holds
      have once := held.once
      rw [List.countP_cons_of_pos holds] at once
      refine ⟨fun _ _ _ => me_holds, ?_, held.innermost⟩
      rwa [List.countP_cons_of_pos kept]
  | leave _ rest => exact held.suffix (List.suffix_cons _ _)
  | release _ rest =>
      have below := held.suffix (List.suffix_cons _ _)
      refine ⟨fun frame member holds => ?_, below.once, below.innermost⟩
      have outside := held.outside rfl member
      rw [isCall_of_holds holds] at outside
      exact Bool.noConfusion outside
  | call _ continuer stack user => exact held.push user (by simp [Frame.holds])
  | attempt _ stack user => exact held.push user (by simp [Frame.holds])
  | throw _ stack user =>
      exact held.suffix ((unwind_suffix_tail stack).trans (List.tail_suffix stack))

theorem Held.passes (held : Held me holder stack)
    (moves : Moves me holder stack action holder' stack') : Passes me holder holder' := by
  cases moves with
  | acquire continuer rest => exact .take
  | release _ rest =>
      obtain rfl := held.holds .releasing List.mem_cons_self rfl
      exact .release
  | spin other continuer rest => exact .keep _
  | advance _ frame next rest holds kept => exact .keep _
  | leave _ rest => exact .keep _
  | call _ continuer stack user => exact .keep _
  | attempt _ stack user => exact .keep _
  | throw _ stack user => exact .keep _

/-! ## Exactly when an action leaves its thread sound -/

/-- A thread that holds nothing is sound. -/
theorem sound_of_ne (free : holder ≠ some me) : Sound me holder stack :=
  ⟨fun _ => free, fun _ _ _ => free⟩

/-- A thread inside a call, and not at `try_lock`, is sound. -/
theorem sound_of_holds {top : Frame} {rest : List Frame} (holds : top.holds) :
    Sound me holder (top :: rest) := by
  refine ⟨fun outside => ?_, ?_⟩
  · have call := outside top List.mem_cons_self
    rw [isCall_of_holds holds] at call
    exact Bool.noConfusion call
  · intro continuer below same
    obtain ⟨rfl, rfl⟩ := List.cons.inj same
    exact Bool.noConfusion holds

/-- Below the innermost frame no call is at `try_lock`. -/
theorem Held.not_waiting (held : Held me holder stack) {rest : List Frame}
    (below : rest <:+ stack.tail) {continuer : Bool} {under : List Frame} :
    rest ≠ .acquiring continuer :: under := by
  rintro rfl
  exact Bool.noConfusion (held.innermost (.acquiring continuer)
    (below.subset List.mem_cons_self) rfl)

theorem Sound.call_iff (sound : Sound me holder stack) (held : Held me holder stack)
    (continuer : Bool) (user : runsUserCode stack) :
    Sound me holder (.acquiring continuer :: stack) ↔
      ∀ frame ∈ stack, frame.isCall = false := by
  constructor
  · intro after frame member
    by_contra call
    rw [Bool.not_eq_false] at call
    exact after.waits continuer stack rfl
      (held.holds frame member (held.holds_of_isCall user member call))
  · intro outside
    exact sound_of_ne (sound.released outside)

theorem Sound.throw_iff (sound : Sound me holder stack) (held : Held me holder stack)
    (user : runsUserCode stack) :
    Sound me holder (unwind stack) ↔ ∀ frame ∈ unwound stack, frame.isCall = false := by
  constructor
  · intro after frame left
    by_contra call
    rw [Bool.not_eq_false] at call
    have member : frame ∈ stack := (List.takeWhile_sublist _).subset left
    have holds := held.holds_of_isCall user member call
    exact after.released (held.outside_unwind left holds) (held.holds frame member holds)
  · intro outside
    refine ⟨fun kept => sound.released fun frame member => ?_, fun continuer rest top => ?_⟩
    · by_contra call
      rw [Bool.not_eq_false] at call
      rcases mem_unwound_or_unwind call member with left | stays
      · exact Bool.noConfusion (call.symm.trans (outside frame left))
      · exact Bool.noConfusion (call.symm.trans (kept frame stays))
    · exact (held.not_waiting (unwind_suffix_tail stack) top).elim

theorem Sound.moves_iff (sound : Sound me holder stack) (held : Held me holder stack)
    (moves : Moves me holder stack action holder' stack') :
    Sound me holder' stack' ↔ StaysInside stack action := by
  cases moves with
  | acquire continuer rest => exact iff_of_true (sound_of_holds rfl) trivial
  | spin other continuer rest => exact iff_of_true sound trivial
  | advance _ frame next rest holds kept => exact iff_of_true (sound_of_holds kept) trivial
  | leave _ rest =>
      refine iff_of_true ⟨fun outside => sound.released ?_, fun continuer under top => ?_⟩ trivial
      · exact List.forall_mem_cons.mpr ⟨rfl, outside⟩
      · exact (held.not_waiting List.suffix_rfl top).elim
  | release _ rest => exact iff_of_true (sound_of_ne (by simp)) trivial
  | call _ continuer stack user =>
      simpa [StaysInside, user] using sound.call_iff held continuer user
  | attempt _ stack user =>
      refine iff_of_true ⟨fun outside => sound.released ?_, fun _ _ top => ?_⟩ trivial
      · exact (List.forall_mem_cons.mp outside).2
      · exact Frame.noConfusion (List.cons.inj top).1
  | throw _ stack user => simpa [StaysInside, user] using sound.throw_iff held user

/-- What a thread cannot do next does no harm. -/
theorem staysInside_of_refused (refused : behave me holder stack action = none) :
    StaysInside stack action := by
  cases action with
  | call continuer =>
      intro user
      simp [behave, user] at refused
  | throw =>
      intro user
      simp [behave, user] at refused
  | tryLock | finish | unlock | attempt => trivial

/-! ## All threads -/

/-- Every thread is sound. -/
def AllSound (pool : Pool (Option Nat) (List Frame)) : Prop :=
  ∀ thread stack, pool.actors[thread]? = some stack → Sound thread pool.shared stack

/-- The invariant of all threads. -/
def AllHeld (pool : Pool (Option Nat) (List Frame)) : Prop :=
  ∀ thread stack, pool.actors[thread]? = some stack → Held thread pool.shared stack

/-- The thread that acts next neither calls again inside a call nor lets an exception out of it. -/
def ActsInside (pool : Pool (Option Nat) (List Frame)) (label : Nat × Action) : Prop :=
  ∀ stack, pool.actors[label.1]? = some stack → StaysInside stack label.2

variable {pool next : Pool (Option Nat) (List Frame)} {label : Nat × Action}

/-- A step moves one thread and leaves the others' frames alone. -/
theorem moves_of_step (taken : step behave pool label = some next) :
    ∃ stack stack', pool.actors[label.1]? = some stack ∧
      Moves label.1 pool.shared stack label.2 next.shared stack' ∧
      next.actors[label.1]? = some stack' ∧
      ∀ other, other ≠ label.1 → next.actors[other]? = pool.actors[other]? := by
  simp only [step, Option.bind_eq_some_iff, Option.map_eq_some_iff, Prod.exists] at taken
  obtain ⟨stack, present, holder, stack', spawned, acted, rfl⟩ := taken
  obtain ⟨moves, rfl⟩ := moves_of_behave acted
  have bound := (List.getElem?_eq_some_iff.mp present).1
  refine ⟨stack, stack', present, moves, ?_, fun other distinct => ?_⟩
  · simp [bound]
  · simp [List.getElem?_set_ne distinct.symm]

theorem AllHeld.step (held : AllHeld pool) (taken : step behave pool label = some next) :
    AllHeld next := by
  obtain ⟨stack, stack', present, moves, placed, others⟩ := moves_of_step taken
  have own := held label.1 stack present
  intro thread frames found
  by_cases same : thread = label.1
  · subst same
    obtain rfl := Option.some.inj (placed.symm.trans found)
    exact own.moves moves
  · exact (own.passes moves).held_other same (held thread frames (others thread same ▸ found))

/-- A step leaves all threads sound precisely when its thread stays inside its call. -/
theorem AllSound.step_iff (sound : AllSound pool) (held : AllHeld pool) :
    (∀ next, step behave pool label = some next → AllSound next) ↔ ActsInside pool label := by
  constructor
  · intro after stack present
    cases acted : behave label.1 pool.shared stack label.2 with
    | none => exact staysInside_of_refused acted
    | some result =>
        have taken : step behave pool label = some
            ⟨result.1, pool.actors.set label.1 result.2.1 ++ result.2.2⟩ := by
          simp [step, present, acted]
        obtain ⟨stack₀, stack', present₀, moves, placed, -⟩ := moves_of_step taken
        obtain rfl := Option.some.inj (present.symm.trans present₀)
        exact ((sound label.1 stack present).moves_iff (held label.1 stack present) moves).mp
          (after _ taken label.1 stack' placed)
  · intro inside next taken
    obtain ⟨stack, stack', present, moves, placed, others⟩ := moves_of_step taken
    have own := held label.1 stack present
    intro thread frames found
    by_cases same : thread = label.1
    · subst same
      obtain rfl := Option.some.inj (placed.symm.trans found)
      exact ((sound label.1 stack present).moves_iff own moves).mpr (inside stack present)
    · exact (own.passes moves).sound_other same
        (sound thread frames (others thread same ▸ found))

/-- In a run of any number of threads the mutex is never left locked after a call, and no thread
waits for it while holding it, exactly as long as no thread calls `access::cache` from within a call
or lets an exception out of one. -/
theorem sound_iff_actsInside (threads : Nat) (schedule : List (Nat × Action)) :
    Runs.Along (step behave)
        (fun pool label => ∀ next, step behave pool label = some next → AllSound next)
        (start threads) schedule ↔
      Runs.Along (step behave) ActsInside (start threads) schedule := by
  have idle : ∀ (thread : Nat) (stack : List Frame),
      (start threads).actors[thread]? = some stack → stack = [] := by
    intro thread stack found
    exact List.eq_of_mem_replicate (List.mem_of_getElem? found)
  refine Runs.along_good_iff_along AllHeld ?_ ?_ ?_ ?_ schedule
  · exact fun pool label next taken held => held.step taken
  · exact fun pool label held sound => sound.step_iff held
  · intro thread stack found
    obtain rfl := idle thread stack found
    exact ⟨by simp, by simp, by simp⟩
  · intro thread stack found
    exact sound_of_ne (by simp [start])

/-- The member function throws: the mutex stays locked. -/
theorem not_sound :
    ¬∀ (threads : Nat) (schedule : List (Nat × Action)),
      Runs.Along (step behave)
        (fun pool label => ∀ next, step behave pool label = some next → AllSound next)
        (start threads) schedule := by
  intro always
  have run := always 1 [(0, .call false), (0, .tryLock), (0, .throw)]
  have thrown := ((run.2 _ rfl).2 _ rfl).1 _ rfl
  exact (thrown 0 [] rfl).released (by simp) rfl

/-- An acceptor that is called from within `publish` subscribes: the thread waits for itself. -/
example :
    ∃ pool, Runs.exec (step behave) (start 1)
        [(0, .call false), (0, .tryLock), (0, .call false), (0, .tryLock)] = some pool ∧
      ¬AllSound pool :=
  ⟨_, rfl, fun sound => (sound 0 _ rfl).waits _ _ rfl rfl⟩

end Drumlin.CacheAccess
