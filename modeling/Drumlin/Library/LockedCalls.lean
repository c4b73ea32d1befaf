import Drumlin.Library.Turns

/-!
# Calls under a spin lock

A call is a resumption: it goes on in small steps, each of which reads and writes what the calls
share.  Callers that spin for a lock before their call and release it after have the effect of calls
made at once, in the order in which they took the lock.
-/

universe u v

/-- A call in small steps. -/
inductive Resumption (State : Type u) (Result : Type v)
  | done (result : Result)
  | more (write : State → State) (next : State → Resumption State Result)

namespace Resumption

variable {State : Type u} {Result Local : Type v} {Item : Type*}

/-- The call made at once: what it leaves, and what it returns. -/
def run : Resumption State Result → State → State × Result
  | .done result, state => (state, result)
  | .more write next, state => (next state).run (write state)

/-- One call after another. -/
def andThen : Resumption State Local → (Local → Resumption State Result) →
    Resumption State Result
  | .done result, continuer => continuer result
  | .more write next, continuer => .more write fun state => (next state).andThen continuer

/-- A single step. -/
def once (act : State → State × Result) : Resumption State Result :=
  .more (fun state => (act state).1) fun state => .done (act state).2

/-- A step that only looks. -/
def look (next : State → Resumption State Result) : Resumption State Result := .more id next

/-- A loop over the items of a list, with a variable of its own. -/
def forEach (body : Local → Item → Resumption State Local) :
    List Item → Local → Resumption State Local
  | [], sofar => .done sofar
  | item :: items, sofar => (body sofar item).andThen fun sofar => forEach body items sofar

@[simp] theorem run_done (result : Result) (state : State) :
    (done result : Resumption State Result).run state = (state, result) := rfl

@[simp] theorem run_more (write : State → State) (next : State → Resumption State Result)
    (state : State) : (more write next).run state = (next state).run (write state) := rfl

@[simp] theorem run_once (act : State → State × Result) (state : State) :
    (once act).run state = act state := rfl

@[simp] theorem run_andThen (call : Resumption State Local)
    (continuer : Local → Resumption State Result) (state : State) :
    (call.andThen continuer).run state = (continuer (call.run state).2).run (call.run state).1 := by
  induction call generalizing state with
  | done result => rfl
  | more write next induction => exact induction state (write state)

@[simp] theorem run_look (next : State → Resumption State Result) (state : State) :
    (look next).run state = (next state).run state := rfl

theorem run_forEach (body : Local → Item → Resumption State Local) (items : List Item)
    (sofar : Local) (state : State) :
    (forEach body items sofar).run state =
      items.foldl (fun progress item => (body progress.2 item).run progress.1) (state, sofar) := by
  induction items generalizing sofar state with
  | nil => rfl
  | cons item items induction =>
      rw [forEach, run_andThen, List.foldl_cons]
      exact induction _ _

end Resumption

namespace LockedCalls

open ActorPool

variable {State : Type u} {Result : Type v}

/-- What the calls share, and who has the lock. -/
structure Shared (State : Type u) where
  /-- The caller that has the lock. -/
  holder : Option Nat
  /-- What the lock guards. -/
  state : State

/-- A caller before, in and after its call. -/
inductive Caller (State : Type u) (Result : Type v)
  | ahead (call : Resumption State Result)
  | now (rest : Resumption State Result)
  | past (result : Result)

/-- A caller tries to take the lock until it has it, makes its call step by step and unlocks. -/
def behave : Behavior (Shared State) (Caller State Result) Unit := fun self shared caller _ =>
  match caller with
  | .ahead call =>
      if shared.holder = none then some ({ shared with holder := some self }, .now call, [])
      else some (shared, .ahead call, [])
  | .now (.more write next) =>
      some ({ shared with state := write shared.state }, .now (next shared.state), [])
  | .now (.done result) => some ({ shared with holder := none }, .past result, [])
  | .past _ => none

/-- Callers that have not begun. -/
def start (calls : List (Resumption State Result)) (state : State) :
    Pool (Shared State) (Caller State Result) :=
  ⟨⟨none, state⟩, calls.map .ahead⟩

/-- The caller is in its call. -/
def inside : Caller State Result → Bool
  | .now _ => true
  | .ahead _ | .past _ => false

/-- The turn of a caller is its call. -/
def turn : Caller State Result → Turn
  | .ahead _ => .ahead
  | .now _ => .now
  | .past _ => .past

/-- The callers in the order in which they took the lock. -/
def order (calls : List (Resumption State Result)) (state : State)
    (schedule : List (Nat × Unit)) : List Nat :=
  Runs.observed (step behave) (begins Shared.holder turn) (start calls state) schedule

/-- What the calls of some callers leave, made at once and one after another. -/
def after (calls : List (Resumption State Result)) (state : State) (callers : List Nat) : State :=
  callers.foldl (fun state self => (calls[self]?).elim state fun call => (call.run state).1) state

variable {calls : List (Resumption State Result)} {state : State} {self : Nat}
  {call : Resumption State Result}

theorem after_append (present : calls[self]? = some call) (callers : List Nat) :
    after calls state (callers ++ [self]) = (call.run (after calls state callers)).1 := by
  simp [after, present]

/-- What one action does, by the caller that makes it. -/
inductive Moves (self : Nat) (shared : Shared State) :
    Caller State Result → Shared State → Caller State Result → Prop
  | spin (call : Resumption State Result) (taken : shared.holder ≠ none) :
      Moves self shared (.ahead call) shared (.ahead call)
  | take (call : Resumption State Result) (free : shared.holder = none) :
      Moves self shared (.ahead call) { shared with holder := some self } (.now call)
  | goOn (write : State → State) (next : State → Resumption State Result) :
      Moves self shared (.now (.more write next)) { shared with state := write shared.state }
        (.now (next shared.state))
  | finish (result : Result) :
      Moves self shared (.now (.done result)) { shared with holder := none } (.past result)

theorem moves_of_behave {shared shared' : Shared State} {caller caller' : Caller State Result}
    {choice : Unit} {spawned : List (Caller State Result)}
    (acted : behave self shared caller choice = some (shared', caller', spawned)) :
    Moves self shared caller shared' caller' ∧ spawned = [] := by
  cases caller with
  | ahead call =>
      simp only [behave] at acted
      split at acted <;> rename_i holder <;> obtain ⟨rfl, rfl, rfl⟩ := by simpa using acted
      · exact ⟨.take call holder, rfl⟩
      · exact ⟨.spin call holder, rfl⟩
  | now rest =>
      cases rest with
      | done result =>
          obtain ⟨rfl, rfl, rfl⟩ := by simpa [behave] using acted
          exact ⟨.finish result, rfl⟩
      | more write next =>
          obtain ⟨rfl, rfl, rfl⟩ := by simpa [behave] using acted
          exact ⟨.goOn write next, rfl⟩
  | past result => simp [behave] at acted

theorem takesTurns :
    TakesTurns (@behave State Result) Shared.holder inside turn
      fun _ _ => ([] : List Unit) where
  keeps := by
    intro self shared caller choice shared' caller' spawned acted
    obtain ⟨moves, rfl⟩ := moves_of_behave acted
    refine ⟨?_, by simp⟩
    cases moves with
    | spin | goOn => exact .keep _ _
    | take call free => exact free ▸ .acquire
    | finish => exact .release _
  moves := by
    intro self shared caller choice shared' caller' spawned acted
    obtain ⟨moves, rfl⟩ := moves_of_behave acted
    refine ⟨?_, by simp⟩
    cases moves with
    | spin call taken => exact .wait _ taken
    | take call free => exact free ▸ .begin
    | goOn => exact .keep _ _ _ (by simp [turn])
    | finish => exact .finish _ _
  within := by
    intro caller its
    cases caller <;> simp [turn, inside] at its ⊢
  silent := fun _ _ _ => rfl

/-- The calls look as if made at once: what is shared is what the calls so far leave, and the
caller in its call has as much to do as it would have had if nobody else had come. -/
structure Linear (calls : List (Resumption State Result)) (state : State) (order : List Nat)
    (pool : Pool (Shared State) (Caller State Result)) : Prop where
  ahead : ∀ (self : Nat) (call : Resumption State Result),
    pool.actors[self]? = some (.ahead call) → calls[self]? = some call
  now : ∀ (self : Nat) (rest : Resumption State Result),
    pool.actors[self]? = some (.now rest) → ∃ before call, order = before ++ [self] ∧
      calls[self]? = some call ∧
      rest.run pool.shared.state = call.run (after calls state before)
  free : pool.shared.holder = none → pool.shared.state = after calls state order
  past : ∀ (self : Nat) (result : Result),
    pool.actors[self]? = some (.past result) → ∃ before rest call, order = before ++ self :: rest ∧
      calls[self]? = some call ∧ (call.run (after calls state before)).2 = result

variable {pool next final : Pool (Shared State) (Caller State Result)} {sofar : List Nat}

theorem linear_start : Linear calls state [] (start calls state) where
  ahead := by simp [start]
  now := by simp [start]
  free := fun _ => rfl
  past := by simp [start]

theorem Linear.step (linear : Linear calls state sofar pool)
    (exclusive : Exclusive Shared.holder inside pool) {label : Nat × Unit}
    (taken : step behave pool label = some next) :
    Linear calls state (sofar ++ begins Shared.holder turn pool label) next := by
  obtain ⟨caller, caller', spawned, present, acted, actors⟩ := actors_of_step taken
  obtain ⟨moves, rfl⟩ := moves_of_behave acted
  -- another caller is where it was, and in its call only while it has the lock
  have others (self : Nat) (someone : Caller State Result)
      (there : next.actors[self]? = some someone) :
      self = label.1 ∧ someone = caller' ∨
        self ≠ label.1 ∧ pool.actors[self]? = some someone := by
    rw [actors] at there
    rcases getElem?_of_set_append present there with acts | old | ⟨_, new⟩
    · exact .inl acts
    · exact .inr old
    · simp at new
  have holds (self : Nat) (rest : Resumption State Result)
      (there : pool.actors[self]? = some (.now rest)) : pool.shared.holder = some self :=
    (exclusive self).mpr ⟨_, there, rfl⟩
  simp only [begins, present]
  obtain ⟨shared', actors'⟩ := next
  dsimp only at actors others
  cases moves with
  | spin call busy =>
      rw [if_neg (by simp [busy]), List.append_nil]
      have same : actors' = pool.actors := by
        obtain ⟨bound, there⟩ := List.getElem?_eq_some_iff.mp present
        rw [actors, List.append_nil, ← there, List.set_getElem_self]
      exact same ▸ linear
  | take call free =>
      rw [if_pos ⟨free, rfl⟩]
      refine ⟨fun self other there => ?_, fun self rest there => ?_, by simp,
        fun self result there => ?_⟩
      · rcases others _ _ there with ⟨-, ⟨⟩⟩ | ⟨_, old⟩
        exact linear.ahead self other old
      · rcases others _ _ there with ⟨rfl, ⟨⟩⟩ | ⟨_, old⟩
        · exact ⟨sofar, call, rfl, linear.ahead _ call present, by rw [linear.free free]⟩
        · simp [free] at holds
          exact (holds self rest old).elim
      · rcases others _ _ there with ⟨-, ⟨⟩⟩ | ⟨_, old⟩
        obtain ⟨before, rest, call, split, its, returned⟩ := linear.past self result old
        exact ⟨before, rest ++ [label.1], call, by simp [split], its, returned⟩
  | goOn write next =>
      have held := holds _ _ present
      rw [if_neg (by simp [held]), List.append_nil]
      refine ⟨fun self other there => ?_, fun self rest there => ?_, by simp [held],
        fun self result there => ?_⟩
      · rcases others _ _ there with ⟨-, ⟨⟩⟩ | ⟨_, old⟩
        exact linear.ahead self other old
      · rcases others _ _ there with ⟨rfl, ⟨⟩⟩ | ⟨distinct, old⟩
        · exact linear.now _ _ present
        · exact (distinct (Option.some.inj ((holds self rest old).symm.trans held))).elim
      · rcases others _ _ there with ⟨-, ⟨⟩⟩ | ⟨_, old⟩
        exact linear.past self result old
  | finish result =>
      have held := holds _ _ present
      obtain ⟨before, call, last, its, ended⟩ := linear.now _ _ present
      rw [if_neg (by simp [held]), List.append_nil]
      refine ⟨fun self other there => ?_, fun self rest there => ?_, fun _ => ?_,
        fun self other there => ?_⟩
      · rcases others _ _ there with ⟨-, ⟨⟩⟩ | ⟨_, old⟩
        exact linear.ahead self other old
      · rcases others _ _ there with ⟨-, ⟨⟩⟩ | ⟨distinct, old⟩
        exact (distinct (Option.some.inj ((holds self rest old).symm.trans held))).elim
      · rw [last, after_append its, ← ended]
        rfl
      · rcases others _ _ there with ⟨rfl, ⟨⟩⟩ | ⟨_, old⟩
        · exact ⟨before, [], call, last, its, by rw [← ended]; rfl⟩
        · exact linear.past self other old

/-- However the callers take turns at spinning for the lock and at the steps of their calls: each of
them gets what its call returns, and leaves what its call leaves, if the calls are made at once, one
after another, in the order in which the callers took the lock. -/
theorem linear_of_exec {schedule : List (Nat × Unit)}
    (run : Runs.exec (ActorPool.step behave) (start calls state) schedule = some final) :
    (order calls state schedule).Nodup ∧ Linear calls state (order calls state schedule) final := by
  have outside : ∀ caller ∈ (start calls state).actors, inside caller = false := by
    intro caller member
    obtain ⟨call, _, rfl⟩ := List.mem_map.mp member
    rfl
  have exclusive : Exclusive Shared.holder inside (start calls state) :=
    exclusive_of_free rfl outside
  refine ⟨(turnsTo_of_exec takesTurns rfl outside run).inTurns.nodup, ?_⟩
  exact Runs.exec_observed (Linear calls state) (fun _ _ _ _ before linear taken =>
    linear.step (exclusive.exec takesTurns.keeps before) taken) linear_start run

end LockedCalls
