import Drumlin.StringList
import Drumlin.Library.Turns

/-!
# Lines of the log

A line of the log is a temporary `logger`, whose constructor, operators and destructor write to the
stream one after another (logger.cpp).  Most lines are logged with `LOGLOCK` taken, but some are
not, such as those of `heap_t::alloc`, `heap_t::free` and `handle_accept`, and may come in between.
Here every byte that is written is a step of its own.
-/

namespace Drumlin

open ActorPool

namespace LogLines

/-! ## The code -/

/-- A statement that logs. -/
structure Line where
  /-- `LOGLOCK` is taken before. -/
  guarded : Bool
  /-- It is logged by `Critical()`, not by `Debug()`. -/
  critical : Bool
  /-- How the id of the thread is written. -/
  id : Str
  /-- What is inserted, each as it is written. -/
  items : List Str

/-- `operator<<` of `logger`. -/
def insert (str : Str) : Str := 32 :: str

/-- `Critical()` inserts this first. -/
def stars : Str := List.replicate 8 42

/-- What the constructor, the operators and the destructor of a `logger` write. -/
def logger (id : Str) (items : List Str) : Str :=
  id ++ [58, 58] ++ items.flatMap insert ++ [10]

/-- What a statement writes, by the flag `debug`. -/
def Line.text (debug : Bool) (line : Line) : Str :=
  if line.critical then logger line.id (stars :: line.items)
  else if debug then logger line.id line.items
  else []

/-- The mutex of `LOGLOCK`, and the stream. -/
structure Log where
  /-- The thread that has `logger::s_critical_section`. -/
  holder : Option Nat
  /-- What was written, each byte with the statement that wrote it. -/
  stream : List (Nat × UInt8)

/-- A statement that is waiting for `LOGLOCK`, is writing with it or without it, or is done. -/
inductive Statement
  | ahead (text : Str)
  | locked (rest : Str)
  | past
  | unlocked (rest : Str)
deriving DecidableEq

/-- One byte is written, or the lock is taken or given back. -/
def behave : Behavior Log Statement Unit := fun self log statement _ =>
  match statement with
  | .ahead text =>
      match log.holder with
      | none => some ({ log with holder := some self }, .locked text, [])
      | some _ => none
  | .locked (byte :: rest) =>
      some ({ log with stream := log.stream ++ [(self, byte)] }, .locked rest, [])
  | .locked [] => some ({ log with holder := none }, .past, [])
  | .unlocked (byte :: rest) =>
      some ({ log with stream := log.stream ++ [(self, byte)] }, .unlocked rest, [])
  | .unlocked [] => none
  | .past => none

/-- A statement that has not begun. -/
def Line.statement (debug : Bool) (line : Line) : Statement :=
  if line.guarded then .ahead (line.text debug) else .unlocked (line.text debug)

/-- Statements that have not begun. -/
def start (debug : Bool) (lines : List Line) : Pool Log Statement :=
  ⟨⟨none, []⟩, lines.map (Line.statement debug)⟩

/-! ## What is asked of the log -/

/-- The text of the line of a number. -/
def textAt (debug : Bool) (lines : List Line) (self : Nat) : Str :=
  (lines[self]?).elim [] (Line.text debug)

/-- What a statement has written. -/
def written (log : Log) (self : Nat) : Str := (log.stream.filter (·.1 = self)).map Prod.snd

/-- What was written by statements that take `LOGLOCK`. -/
def guardedText (lines : List Line) (log : Log) : Str :=
  (log.stream.filter fun entry => (lines[entry.1]?).any Line.guarded).map Prod.snd

/-! ## Turns -/

/-- The statement has the lock. -/
def inside : Statement → Bool
  | .locked _ => true
  | .ahead _ | .past | .unlocked _ => false

/-- A statement that takes no lock has no turn. -/
def turn : Statement → Turn
  | .ahead _ => .ahead
  | .locked _ => .now
  | .past => .past
  | .unlocked _ => .none

/-- The byte that is written next with the lock. -/
def shows (_ : Log) : Statement → List UInt8
  | .locked (byte :: _) => [byte]
  | .locked [] | .ahead _ | .past | .unlocked _ => []

/-- The statements in the order in which they took the lock. -/
def order (debug : Bool) (lines : List Line) (schedule : List (Nat × Unit)) : List Nat :=
  Runs.observed (step behave) (begins Log.holder turn) (start debug lines) schedule

/-- What an action does. -/
inductive Moves (self : Nat) (log : Log) : Statement → Log → Statement → Prop
  | lock (text : Str) (free : log.holder = none) :
      Moves self log (.ahead text) { log with holder := some self } (.locked text)
  | put (byte : UInt8) (rest : Str) :
      Moves self log (.locked (byte :: rest)) { log with stream := log.stream ++ [(self, byte)] }
        (.locked rest)
  | unlock : Moves self log (.locked []) { log with holder := none } .past
  | cut (byte : UInt8) (rest : Str) :
      Moves self log (.unlocked (byte :: rest))
        { log with stream := log.stream ++ [(self, byte)] } (.unlocked rest)

theorem moves_of_behave {self : Nat} {log log' : Log} {statement statement' : Statement}
    {choice : Unit} {spawned : List Statement}
    (acted : behave self log statement choice = some (log', statement', spawned)) :
    Moves self log statement log' statement' ∧ spawned = [] := by
  cases statement with
  | ahead text =>
      simp only [behave] at acted
      split at acted
      · rename_i free
        obtain ⟨rfl, rfl, rfl⟩ := by simpa using acted
        exact ⟨.lock text free, rfl⟩
      · simp at acted
  | locked rest =>
      cases rest with
      | nil =>
          obtain ⟨rfl, rfl, rfl⟩ := by simpa [behave] using acted
          exact ⟨.unlock, rfl⟩
      | cons byte rest =>
          obtain ⟨rfl, rfl, rfl⟩ := by simpa [behave] using acted
          exact ⟨.put byte rest, rfl⟩
  | past => simp [behave] at acted
  | unlocked rest =>
      cases rest with
      | nil => simp [behave] at acted
      | cons byte rest =>
          obtain ⟨rfl, rfl, rfl⟩ := by simpa [behave] using acted
          exact ⟨.cut byte rest, rfl⟩

theorem takesTurns : TakesTurns behave Log.holder inside turn shows where
  keeps := by
    intro self log statement choice log' statement' spawned acted
    obtain ⟨moves, rfl⟩ := moves_of_behave acted
    refine ⟨?_, by simp⟩
    cases moves with
    | lock text free => exact free ▸ .acquire
    | put | cut => exact .keep _ _
    | unlock => exact .release _
  moves := by
    intro self log statement choice log' statement' spawned acted
    obtain ⟨moves, rfl⟩ := moves_of_behave acted
    refine ⟨?_, by simp⟩
    cases moves with
    | lock text free => exact free ▸ .begin
    | put => exact .keep _ _ .now (by simp)
    | cut => exact .keep _ _ .none (by simp)
    | unlock => exact .finish _ _
  within := by
    intro statement its
    cases statement <;> simp [turn, inside] at its ⊢
  silent := by
    intro log statement its
    cases statement <;> simp [turn, shows] at its ⊢

/-! ## What is written -/

/-- What the statement of a number has written and has still to write is its line. -/
inductive Writes (debug : Bool) (line : Line) (sofar : Str) : Statement → Prop
  | ahead (guarded : line.guarded = true) (none : sofar = []) :
      Writes debug line sofar (.ahead (line.text debug))
  | locked (guarded : line.guarded = true) (rest : Str) (whole : sofar ++ rest = line.text debug) :
      Writes debug line sofar (.locked rest)
  | past (guarded : line.guarded = true) (whole : sofar = line.text debug) :
      Writes debug line sofar .past
  | unlocked (free : line.guarded = false) (rest : Str) :
      Writes debug line sofar (.unlocked rest)

/-- Every statement writes its line, and only what takes its turn is written by guarded ones. -/
structure Sound (debug : Bool) (lines : List Line) (record : List (Nat × UInt8))
    (pool : Pool Log Statement) : Prop where
  writes : ∀ (self : Nat) (statement : Statement), pool.actors[self]? = some statement →
    ∃ line, lines[self]? = some line ∧ Writes debug line (written pool.shared self) statement
  guarded : pool.shared.stream.filter (fun entry => (lines[entry.1]?).any Line.guarded) = record

variable {debug : Bool} {lines : List Line} {pool next final : Pool Log Statement}
  {record : List (Nat × UInt8)}

theorem sound_start (debug : Bool) (lines : List Line) :
    Sound debug lines [] (start debug lines) where
  writes := by
    intro self statement present
    obtain ⟨line, there, rfl⟩ := by simpa [start] using present
    refine ⟨line, there, ?_⟩
    cases guarded : line.guarded with
    | true =>
        rw [Line.statement, if_pos guarded]
        exact .ahead guarded rfl
    | false =>
        rw [Line.statement, if_neg (by simp [guarded])]
        exact .unlocked guarded _
  guarded := rfl

theorem written_append (log : Log) (self other : Nat) (byte : UInt8) :
    written { log with stream := log.stream ++ [(other, byte)] } self =
      if other = self then written log self ++ [byte] else written log self := by
  by_cases same : other = self <;> simp [written, same]

/-- One action writes at most the byte that comes next. -/
theorem Writes.moves {line : Line} {self : Nat} {log log' : Log}
    {statement statement' : Statement} (writes : Writes debug line (written log self) statement)
    (moves : Moves self log statement log' statement') :
    Writes debug line (written log' self) statement' := by
  cases moves with
  | lock text free =>
      cases writes with
      | ahead guarded none => exact .locked guarded _ (by simpa [written] using none)
  | put byte rest =>
      cases writes with
      | locked guarded _ whole =>
          refine .locked guarded rest ?_
          rw [written_append, if_pos rfl, ← whole, List.append_assoc, List.singleton_append]
  | unlock =>
      cases writes with
      | locked guarded _ whole =>
          refine .past guarded ?_
          rwa [List.append_nil] at whole
  | cut byte rest =>
      cases writes with
      | unlocked free _ => exact .unlocked free rest

/-- What others have written stays. -/
theorem written_of_ne {self other : Nat} {log log' : Log} {statement statement' : Statement}
    (moves : Moves self log statement log' statement') (distinct : other ≠ self) :
    written log' other = written log other := by
  cases moves with
  | lock | unlock => rfl
  | put byte rest => rw [written_append, if_neg (Ne.symm distinct)]
  | cut byte rest => rw [written_append, if_neg (Ne.symm distinct)]

theorem Sound.step (sound : Sound debug lines record pool) {label : Nat × Unit}
    (taken : step behave pool label = some next) :
    Sound debug lines (record ++ shown shows pool label) next := by
  obtain ⟨statement, statement', spawned, present, acted, actors⟩ := actors_of_step taken
  obtain ⟨moves, rfl⟩ := moves_of_behave acted
  obtain ⟨line, there, writes⟩ := sound.writes _ _ present
  refine ⟨fun self someone found => ?_, ?_⟩
  · rw [actors] at found
    rcases getElem?_of_set_append present found with ⟨rfl, rfl⟩ | ⟨distinct, old⟩ | ⟨_, new⟩
    · exact ⟨line, there, writes.moves moves⟩
    · obtain ⟨other, its, kept⟩ := sound.writes self someone old
      exact ⟨other, its, by rwa [written_of_ne moves distinct]⟩
    · simp at new
  · simp only [shown, present]
    generalize next.shared = log' at moves
    cases moves with
    | lock | unlock => simpa [shows] using sound.guarded
    | put byte rest =>
        cases writes with
        | locked guarded _ _ => simp [shows, sound.guarded, there, guarded]
    | cut byte rest =>
        cases writes with
        | unlocked free _ => simpa [shows, there, free] using sound.guarded

theorem sound_of_exec {schedule : List (Nat × Unit)}
    (run : Runs.exec (ActorPool.step behave) (start debug lines) schedule = some final) :
    Sound debug lines
      (Runs.observed (ActorPool.step behave) (shown shows) (start debug lines) schedule) final :=
  Runs.exec_observed (Sound debug lines) (fun _ _ _ _ _ sound taken => sound.step taken)
    (sound_start debug lines) run

/-- However the statements of all threads interleave, byte by byte: what those write that take
`LOGLOCK` is one line after another, in the order in which they took the lock; whoever has taken and
given back the lock has written its whole line, and whoever has it a beginning of its line. -/
theorem lines_whole {schedule : List (Nat × Unit)}
    (run : Runs.exec (ActorPool.step behave) (start debug lines) schedule = some final) :
    (order debug lines schedule).Nodup ∧
      guardedText lines final.shared =
        (order debug lines schedule).flatMap (written final.shared) ∧
      ∀ self ∈ order debug lines schedule, written final.shared self <+: textAt debug lines self ∧
        (final.shared.holder ≠ some self →
          written final.shared self = textAt debug lines self) := by
  have outside : ∀ statement ∈ (start debug lines).actors, inside statement = false := by
    intro statement member
    obtain ⟨line, _, rfl⟩ := List.mem_map.mp member
    rw [Line.statement]
    split <;> rfl
  have exclusive : Exclusive Log.holder inside (start debug lines) :=
    exclusive_of_free rfl outside
  have turns := turnsTo_of_exec takesTurns rfl outside run
  have begun := begun_of_exec takesTurns run
  have sound := sound_of_exec run
  -- who took the lock has a line, and has written all of it unless it has the lock
  have its (self : Nat) (member : self ∈ order debug lines schedule) :
      ∃ line, lines[self]? = some line ∧ line.guarded = true ∧
        written final.shared self <+: line.text debug ∧
          (final.shared.holder ≠ some self → written final.shared self = line.text debug) := by
    obtain ⟨statement, present, began⟩ := begun self member
    obtain ⟨line, there, writes⟩ := sound.writes self statement present
    refine ⟨line, there, ?_⟩
    cases writes with
    | ahead | unlocked => simp [turn] at began
    | locked guarded rest whole =>
        refine ⟨guarded, ⟨rest, whole⟩, fun other => (other ?_).elim⟩
        exact (exclusive.exec takesTurns.keeps run self).mpr ⟨_, present, rfl⟩
    | past guarded whole => exact ⟨guarded, whole ▸ List.prefix_rfl, fun _ => whole⟩
  refine ⟨turns.inTurns.nodup, ?_, fun self member => ?_⟩
  · rw [guardedText, sound.guarded, turns.inTurns.grouped, List.map_flatMap]
    refine List.flatMap_congr fun self member => ?_
    obtain ⟨line, there, guarded, -⟩ := its self member
    rw [← sound.guarded, List.filter_filter, written]
    congr 1
    refine List.filter_congr fun entry _ => ?_
    by_cases own : entry.1 = self <;> simp [own, there, guarded]
  · obtain ⟨line, there, -, begins, whole⟩ := its self member
    rw [textAt, there]
    exact ⟨begins, whole⟩

/-- Two lines with `LOGLOCK`, the second of which is first, and between their bytes one of a line
without it. -/
theorem lines_whole_cut :
    ∃ lines schedule final,
      Runs.exec (ActorPool.step behave) (start true lines) schedule = some final ∧
        final.shared.stream.map Prod.snd = [98, 58, 99, 58, 10, 97] ∧
        guardedText lines final.shared =
          (order true lines schedule).flatMap (written final.shared) := by
  have run : Runs.exec (ActorPool.step behave)
      (start true [⟨true, false, [97], []⟩, ⟨true, false, [98], []⟩, ⟨false, true, [99], []⟩])
      [(1, ()), (1, ()), (1, ()), (2, ()), (1, ()), (1, ()), (1, ()), (0, ()), (0, ())] =
        some _ := rfl
  exact ⟨_, _, _, run, rfl, (lines_whole run).2.1⟩

end LogLines

end Drumlin
