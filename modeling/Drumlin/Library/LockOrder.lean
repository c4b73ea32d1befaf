import Mathlib.Data.Fintype.Basic
import Mathlib.Logic.Function.Basic
import Mathlib.Logic.Relation
import Drumlin.Library.Runs

/-!
# Threads that lock in an order

A call is a nest of scopes, each of which holds a lock.  Threads make calls and take and release
the locks one at a time, in any order of turns; a thread that asks for a lock another one holds is
blocked until it gets it.  When the locks are ranked, a cycle of blocked threads contains a request
that goes down.
-/

namespace LockOrder

variable {Lock Thread Call Item : Type*}

/-! ## Scripts -/

/-- What a thread does to a lock. -/
inductive Action (Lock : Type*)
  | acquire (lock : Lock)
  | release (lock : Lock)
deriving DecidableEq, Repr

/-- Scopes that hold a lock, one after another. -/
inductive Script (Lock : Type*)
  | done
  | hold (lock : Lock) (body rest : Script Lock)

namespace Script

/-- One scope. -/
def scope (lock : Lock) (body : Script Lock) : Script Lock :=
  hold lock body done

/-- One script after another. -/
def andThen : Script Lock → Script Lock → Script Lock
  | done, next => next
  | hold lock body rest, next => hold lock body (rest.andThen next)

/-- The script, if the condition holds. -/
def onlyIf (condition : Bool) (script : Script Lock) : Script Lock :=
  if condition then script else done

/-- A script for each item in turn. -/
def forEach (script : Item → Script Lock) : List Item → Script Lock
  | [] => done
  | item :: items => (script item).andThen (forEach script items)

/-- The actions of a script: a lock is released where its scope ends. -/
def actions : Script Lock → List (Action Lock)
  | done => []
  | hold lock body rest => .acquire lock :: body.actions ++ .release lock :: rest.actions

/-- Every lock of the script is asked for as `ok` permits it to the holder of the locks. -/
def Orderly (ok : List Lock → Lock → Prop) : List Lock → Script Lock → Prop
  | _, done => True
  | held, hold lock body rest =>
      ok held lock ∧ Orderly ok (lock :: held) body ∧ Orderly ok held rest

section Orderly

variable {ok : List Lock → Lock → Prop} {held : List Lock}

@[simp] theorem orderly_done : Orderly ok held done := trivial

@[simp] theorem orderly_scope {lock : Lock} {body : Script Lock} :
    Orderly ok held (scope lock body) ↔ ok held lock ∧ Orderly ok (lock :: held) body := by
  simp [scope, Orderly]

@[simp] theorem orderly_andThen {script next : Script Lock} :
    Orderly ok held (script.andThen next) ↔ Orderly ok held script ∧ Orderly ok held next := by
  induction script with
  | done => simp [andThen]
  | hold lock body rest _ induction => simp [andThen, Orderly, induction, and_assoc]

@[simp] theorem orderly_onlyIf {condition : Bool} {script : Script Lock} :
    Orderly ok held (onlyIf condition script) ↔ (condition = true → Orderly ok held script) := by
  cases condition <;> simp [onlyIf]

@[simp] theorem orderly_forEach {script : Item → Script Lock} {items : List Item} :
    Orderly ok held (forEach script items) ↔ ∀ item ∈ items, Orderly ok held (script item) := by
  induction items with
  | nil => simp [forEach]
  | cons item items induction => simp [forEach, induction]

end Orderly

end Script

/-- The locks held are released in the opposite order, and further ones are asked for as `ok`
permits it. -/
def Respects (ok : List Lock → Lock → Prop) : List Lock → List (Action Lock) → Prop
  | held, [] => held = []
  | held, .acquire lock :: todo => ok held lock ∧ Respects ok (lock :: held) todo
  | held, .release lock :: todo => ∃ outer, held = lock :: outer ∧ Respects ok outer todo

theorem Script.Orderly.respects {ok : List Lock → Lock → Prop} {held : List Lock}
    {script : Script Lock} (orderly : script.Orderly ok held) {todo : List (Action Lock)}
    (rest : Respects ok held todo) : Respects ok held (script.actions ++ todo) := by
  induction script generalizing held todo with
  | done => exact rest
  | hold lock body next body_induction next_induction =>
      obtain ⟨permitted, inside, after⟩ := orderly
      simp only [actions, List.cons_append, List.append_assoc, Respects]
      exact ⟨permitted, body_induction inside ⟨held, rfl, next_induction after rest⟩⟩

/-! ## Threads -/

/-- Where a thread is in its call. -/
structure Progress (Lock : Type*) where
  /-- The locks it holds, the innermost first. -/
  held : List Lock := []
  /-- What is left of the call. -/
  todo : List (Action Lock) := []
  /-- It has asked for the next lock and did not get it. -/
  blocked : Bool := false

/-- The lock that the next action of a thread asks for. -/
def Progress.asking (progress : Progress Lock) : Option Lock :=
  match progress.todo with
  | .acquire lock :: _ => some lock
  | _ => none

/-- The lock for which a thread is blocked. -/
def Progress.waitingFor (progress : Progress Lock) : Option Lock :=
  match progress.blocked with
  | true => progress.asking
  | false => none

/-- All threads. -/
abbrev State (Thread Lock : Type*) := Thread → Progress Lock

/-- No thread is in a call. -/
def idle : State Thread Lock := fun _ => {}

/-- A thread without a call begins one, or a thread makes the next action of its call. -/
inductive Turn (Thread Call : Type*)
  | begin (thread : Thread) (call : Call)
  | act (thread : Thread)
deriving DecidableEq, Repr

/-- A thread can take a lock that no other one holds, and once more only a recursive one. -/
def Free (recursive : Lock → Bool) (state : State Thread Lock) (thread : Thread) (lock : Lock) :
    Prop :=
  (∀ other, other ≠ thread → lock ∉ (state other).held) ∧
    (lock ∈ (state thread).held → recursive lock = true)

instance [Fintype Thread] [DecidableEq Thread] [DecidableEq Lock] (recursive : Lock → Bool)
    (state : State Thread Lock) (thread : Thread) (lock : Lock) :
    Decidable (Free recursive state thread lock) :=
  inferInstanceAs (Decidable (_ ∧ _))

/-- One turn.  A thread that does not get its lock stays where it is, and may ask again. -/
def step [Fintype Thread] [DecidableEq Thread] [DecidableEq Lock] (recursive : Lock → Bool)
    (script : Call → Script Lock) (state : State Thread Lock) :
    Turn Thread Call → Option (State Thread Lock)
  | .begin thread call =>
      if (state thread).todo.isEmpty then
        some (Function.update state thread
          { held := (state thread).held, todo := (script call).actions })
      else none
  | .act thread =>
      match (state thread).todo with
      | [] => none
      | .release lock :: todo =>
          some (Function.update state thread { held := (state thread).held.erase lock, todo })
      | .acquire lock :: todo =>
          if Free recursive state thread lock then
            some (Function.update state thread { held := lock :: (state thread).held, todo })
          else some (Function.update state thread { state thread with blocked := true })

/-- What a turn of a thread makes of its progress. -/
inductive Moves (recursive : Lock → Bool) (script : Call → Script Lock)
    (state : State Thread Lock) : Turn Thread Call → Thread → Progress Lock → Prop
  | begin (thread : Thread) (call : Call) (finished : (state thread).todo = []) :
      Moves recursive script state (.begin thread call) thread
        { held := (state thread).held, todo := (script call).actions }
  | release (thread : Thread) (lock : Lock) (todo : List (Action Lock)) (held : List Lock)
      (next : (state thread).todo = .release lock :: todo)
      (erased : ∀ outer, (state thread).held = lock :: outer → held = outer) :
      Moves recursive script state (.act thread) thread { held, todo }
  | acquire (thread : Thread) (lock : Lock) (todo : List (Action Lock))
      (next : (state thread).todo = .acquire lock :: todo)
      (free : Free recursive state thread lock) :
      Moves recursive script state (.act thread) thread
        { held := lock :: (state thread).held, todo }
  | block (thread : Thread) (lock : Lock) (todo : List (Action Lock))
      (next : (state thread).todo = .acquire lock :: todo)
      (taken : ¬Free recursive state thread lock) :
      Moves recursive script state (.act thread) thread
        { held := (state thread).held, todo := .acquire lock :: todo, blocked := true }

theorem moves_of_step [Fintype Thread] [DecidableEq Thread] [DecidableEq Lock]
    {recursive : Lock → Bool} {script : Call → Script Lock} {state next : State Thread Lock}
    {turn : Turn Thread Call} (taken : step recursive script state turn = some next) :
    ∃ thread progress, Moves recursive script state turn thread progress ∧
      next = Function.update state thread progress := by
  cases turn with
  | begin thread call =>
      obtain ⟨finished, rfl⟩ := by simpa [step] using taken
      exact ⟨thread, _, .begin thread call finished, rfl⟩
  | act thread =>
      simp only [step] at taken
      split at taken
      · simp at taken
      · rename_i lock todo ahead
        obtain rfl := Option.some.inj taken
        refine ⟨thread, _, .release thread lock todo _ ahead ?_, rfl⟩
        intro outer split
        rw [split, List.erase_cons_head]
      · rename_i lock todo ahead
        split at taken
        · rename_i free
          obtain rfl := Option.some.inj taken
          exact ⟨thread, _, .acquire thread lock todo ahead free, rfl⟩
        · rename_i refused
          obtain rfl := Option.some.inj taken
          refine ⟨thread, _, .block thread lock todo ahead refused, ?_⟩
          rw [ahead]

/-! ## What holds in every state -/

/-- A lock is asked for again where it is recursive, and otherwise as `allowed` says. -/
def Permits (recursive : Lock → Bool) (allowed : List Lock → Lock → Prop) (held : List Lock)
    (lock : Lock) : Prop :=
  (lock ∈ held ∧ recursive lock = true) ∨ allowed held lock

/-- Every thread keeps to its script, no lock has two holders, and no thread is blocked for a lock
it may ask for again. -/
structure Sound (recursive : Lock → Bool) (allowed : List Lock → Lock → Prop)
    (state : State Thread Lock) : Prop where
  respects : ∀ thread,
    Respects (Permits recursive allowed) (state thread).held (state thread).todo
  exclusive : ∀ thread other, thread ≠ other →
    ∀ lock ∈ (state thread).held, lock ∉ (state other).held
  waits : ∀ thread lock,
    (state thread).waitingFor = some lock → allowed (state thread).held lock

section Sound

variable {recursive : Lock → Bool} {allowed : List Lock → Lock → Prop}
  {script : Call → Script Lock} {state : State Thread Lock}

theorem sound_idle : Sound recursive allowed (idle : State Thread Lock) where
  respects _ := rfl
  exclusive _ _ _ _ member := by simp [idle] at member
  waits _ _ waiting := by simp [idle, Progress.waitingFor] at waiting

/-- A thread that keeps to its script, and holds nothing that another one holds. -/
theorem Sound.update [DecidableEq Thread] (sound : Sound recursive allowed state)
    {thread : Thread} {progress : Progress Lock}
    (respects : Respects (Permits recursive allowed) progress.held progress.todo)
    (exclusive : ∀ other, other ≠ thread → ∀ lock ∈ progress.held, lock ∉ (state other).held)
    (waits : ∀ lock, progress.waitingFor = some lock → allowed progress.held lock) :
    Sound recursive allowed (Function.update state thread progress) where
  respects := by
    rw [Function.forall_update_iff state fun _ (progress : Progress Lock) =>
      Respects (Permits recursive allowed) progress.held progress.todo]
    exact ⟨respects, fun other _ => sound.respects other⟩
  exclusive := by
    intro first second distinct lock
    rcases eq_or_ne first thread with rfl | apart
    · rw [Function.update_self, Function.update_of_ne distinct.symm]
      exact exclusive second distinct.symm lock
    · rw [Function.update_of_ne apart]
      rcases eq_or_ne second thread with rfl | other_apart
      · rw [Function.update_self]
        exact fun holds taken => exclusive first apart lock taken holds
      · rw [Function.update_of_ne other_apart]
        exact sound.exclusive first second distinct lock
  waits := by
    rw [Function.forall_update_iff state fun _ (progress : Progress Lock) =>
      ∀ lock, progress.waitingFor = some lock → allowed progress.held lock]
    exact ⟨waits, fun other _ => sound.waits other⟩

/-- Every turn keeps a sound state sound, if every call is orderly. -/
theorem Sound.moves [DecidableEq Thread] (sound : Sound recursive allowed state)
    (orderly : ∀ call, (script call).Orderly (Permits recursive allowed) [])
    {turn : Turn Thread Call} {thread : Thread} {progress : Progress Lock}
    (moves : Moves recursive script state turn thread progress) :
    Sound recursive allowed (Function.update state thread progress) := by
  have respects := sound.respects thread
  have others : ∀ other, other ≠ thread → ∀ lock ∈ (state thread).held, lock ∉ (state other).held :=
    fun other distinct => sound.exclusive thread other distinct.symm
  cases moves with
  | begin _ call finished =>
      have nothing : (state thread).held = [] := by simpa [finished, Respects] using respects
      refine sound.update ?_ others (by simp [Progress.waitingFor])
      rw [nothing, ← List.append_nil (script call).actions]
      exact (orderly call).respects rfl
  | release _ lock todo held next erased =>
      rw [next] at respects
      obtain ⟨outer, split, rest⟩ := respects
      obtain rfl := erased outer split
      refine sound.update rest ?_ (by simp [Progress.waitingFor])
      intro other distinct lock member
      exact others other distinct lock (by simp [split, member])
  | acquire _ lock todo next free =>
      rw [next] at respects
      refine sound.update respects.2 (fun other distinct => ?_) (by simp [Progress.waitingFor])
      simpa using ⟨free.1 other distinct, others other distinct⟩
  | block _ lock todo next taken =>
      rw [next] at respects
      refine sound.update respects others ?_
      rintro _ ⟨⟩
      rcases respects.1 with ⟨member, again⟩ | asked
      · have free : Free recursive state thread lock :=
          ⟨fun other distinct => others other distinct lock member, fun _ => again⟩
        exact absurd free taken
      · exact asked

end Sound

/-! ## Who waits for whom -/

/-- A thread is blocked for a lock that another one holds. -/
def WaitsFor (state : State Thread Lock) (thread other : Thread) : Prop :=
  ∃ lock ∈ (state thread).waitingFor, lock ∈ (state other).held

instance [DecidableEq Lock] (state : State Thread Lock) (thread other : Thread) :
    Decidable (WaitsFor state thread other) :=
  Option.decidableExistsMem _

/-- There is a cycle of threads each of which waits for the next one. -/
def Deadlocked (state : State Thread Lock) : Prop :=
  ∃ thread, Relation.TransGen (WaitsFor state) thread thread

/-- There is no cycle if along every path, started at the holder of a lock, the awaited locks go
up. -/
theorem not_deadlocked {state : State Thread Lock} (rank : Lock → Nat)
    (ascends : ∀ {thread other third : Thread} {lock next further : Lock},
      (state thread).held ≠ [] →
      (state thread).waitingFor = some lock → lock ∈ (state other).held →
      (state other).waitingFor = some next → next ∈ (state third).held →
      (state third).waitingFor = some further → rank lock < rank next) :
    ¬Deadlocked state := by
  rintro ⟨start, cycle⟩
  have holds : ∀ {thread other}, WaitsFor state thread other → (state other).held ≠ [] := by
    rintro thread other ⟨lock, -, member⟩
    exact List.ne_nil_of_mem member
  obtain ⟨before, -, last⟩ := Relation.TransGen.tail'_iff.mp cycle
  obtain ⟨first, ⟨lock, waiting, member⟩, back⟩ := Relation.TransGen.head'_iff.mp cycle
  -- The first lock is below every later one that is awaited for a blocked holder.
  have above : ∀ {thread}, Relation.TransGen (WaitsFor state) start thread →
      ∀ {other next further}, (state thread).waitingFor = some next → next ∈ (state other).held →
        (state other).waitingFor = some further → rank lock < rank next := by
    intro thread path
    induction path with
    | single edge =>
        obtain ⟨_, asked, held⟩ := edge
        obtain rfl := Option.some.inj (waiting.symm.trans asked)
        exact ascends (holds last) waiting held
    | tail path edge induction =>
        obtain ⟨middle, asked, held⟩ := edge
        obtain ⟨previous, -, entering⟩ := Relation.TransGen.tail'_iff.mp path
        intro other next further waits member' blocked
        exact (induction asked held waits).trans
          (ascends (holds entering) asked held waits member' blocked)
  obtain ⟨_, ⟨_, blocked, _⟩, _⟩ :=
    Relation.TransGen.head'_iff.mp (Relation.TransGen.tail' back ⟨lock, waiting, member⟩)
  exact absurd (above cycle waiting member blocked) (Nat.lt_irrefl _)

/-! ## Exceptional requests -/

section Exceptional

variable (exceptional : List Lock → Lock → Prop)

/-- The thread is blocked in an exceptional request. -/
def Exposed (state : State Thread Lock) (thread : Thread) : Prop :=
  ∃ lock ∈ (state thread).waitingFor, exceptional (state thread).held lock

instance [∀ held lock, Decidable (exceptional held lock)] (state : State Thread Lock)
    (thread : Thread) : Decidable (Exposed exceptional state thread) :=
  Option.decidableExistsMem _

/-- No thread that holds a lock waits for one that is blocked in an exceptional request. -/
def Parted (state : State Thread Lock) : Prop :=
  ∀ thread other, (state thread).held ≠ [] → WaitsFor state thread other →
    ¬Exposed exceptional state other

/-- A turn keeps such threads apart: a thread that gets blocked and holds a lock does not ask for a
lock of a thread blocked in an exceptional request, and one whose own request is exceptional does
not hold a lock for which a thread is blocked that holds one. -/
def Apart (recursive : Lock → Bool) (state : State Thread Lock) : Turn Thread Call → Prop
  | .begin _ _ => True
  | .act thread => ∀ lock ∈ (state thread).asking, ¬Free recursive state thread lock →
      ((state thread).held ≠ [] →
        ∀ other, lock ∈ (state other).held → ¬Exposed exceptional state other) ∧
      (exceptional (state thread).held lock →
        ∀ other, (state other).held ≠ [] → ¬WaitsFor state other thread)

instance [Fintype Thread] [DecidableEq Thread] [DecidableEq Lock]
    [∀ held lock, Decidable (exceptional held lock)] (recursive : Lock → Bool)
    (state : State Thread Lock) : (turn : Turn Thread Call) →
      Decidable (Apart exceptional recursive state turn)
  | .begin _ _ => inferInstanceAs (Decidable True)
  | .act _ => Option.decidableForallMem _

variable {exceptional} {recursive : Lock → Bool} {allowed : List Lock → Lock → Prop}
  {script : Call → Script Lock} {state : State Thread Lock}

theorem parted_idle : Parted exceptional (idle : State Thread Lock) := by
  intro thread other holds
  exact absurd rfl holds

/-- A thread that is not blocked changes nothing. -/
theorem Parted.update [DecidableEq Thread] (parted : Parted exceptional state) {thread : Thread}
    {progress : Progress Lock} (running : progress.waitingFor = none) :
    Parted exceptional (Function.update state thread progress) := by
  intro first second holds
  rintro ⟨lock, waiting, member⟩ ⟨next, blocked, asked⟩
  have first_apart : first ≠ thread := by
    rintro rfl
    simp [running] at waiting
  have second_apart : second ≠ thread := by
    rintro rfl
    simp [running] at blocked
  rw [Function.update_of_ne first_apart] at holds waiting
  rw [Function.update_of_ne second_apart] at member blocked asked
  exact parted first second holds ⟨lock, waiting, member⟩ ⟨next, blocked, asked⟩

/-- A turn that keeps the threads apart. -/
theorem Parted.moves [DecidableEq Thread] (parted : Parted exceptional state)
    (fresh : ∀ held lock, exceptional held lock → lock ∉ held)
    {turn : Turn Thread Call} {thread : Thread} {progress : Progress Lock}
    (moves : Moves recursive script state turn thread progress)
    (apart : Apart exceptional recursive state turn) :
    Parted exceptional (Function.update state thread progress) := by
  cases moves with
  | begin _ call finished => exact parted.update rfl
  | release _ lock todo held next erased => exact parted.update rfl
  | acquire _ lock todo next free => exact parted.update rfl
  | block _ lock todo next taken =>
      obtain ⟨asks, holds⟩ := apart lock (by simp [Progress.asking, next]) taken
      rintro first second has ⟨wanted, waiting, member⟩ ⟨other, blocked, odd⟩
      rcases eq_or_ne second thread with rfl | second_apart
      · rw [Function.update_self] at member blocked odd
        obtain rfl : lock = other := Option.some.inj blocked
        rcases eq_or_ne first second with rfl | first_apart
        · rw [Function.update_self] at waiting
          obtain rfl : lock = wanted := Option.some.inj waiting
          exact fresh _ lock odd member
        · rw [Function.update_of_ne first_apart] at has waiting
          exact holds odd first has ⟨wanted, waiting, member⟩
      · rw [Function.update_of_ne second_apart] at member blocked odd
        rcases eq_or_ne first thread with rfl | first_apart
        · rw [Function.update_self] at has waiting
          obtain rfl : lock = wanted := Option.some.inj waiting
          exact asks has second member ⟨other, blocked, odd⟩
        · rw [Function.update_of_ne first_apart] at has waiting
          exact parted first second has ⟨wanted, waiting, member⟩ ⟨other, blocked, odd⟩

/-- What holds after a run whose turns keep the threads apart. -/
theorem sound_and_parted_of_exec [Fintype Thread] [DecidableEq Thread] [DecidableEq Lock]
    (orderly : ∀ call, (script call).Orderly (Permits recursive allowed) [])
    (fresh : ∀ held lock, exceptional held lock → lock ∉ held)
    {turns : List (Turn Thread Call)} {final : State Thread Lock}
    (apart : Runs.Along (step recursive script) (Apart exceptional recursive) idle turns)
    (run : Runs.exec (step recursive script) idle turns = some final) :
    Sound recursive allowed final ∧ Parted exceptional final := by
  have preserved : ∀ (state : State Thread Lock) turn next,
      Sound recursive allowed state ∧ Parted exceptional state →
      Apart exceptional recursive state turn → step recursive script state turn = some next →
      Sound recursive allowed next ∧ Parted exceptional next := by
    rintro state turn next ⟨sound, parted⟩ met taken
    obtain ⟨thread, progress, moves, rfl⟩ := moves_of_step taken
    exact ⟨sound.moves orderly moves, parted.moves fresh moves met⟩
  exact Runs.exec_invariant preserved ⟨sound_idle, parted_idle⟩ apart run

end Exceptional

end LockOrder
