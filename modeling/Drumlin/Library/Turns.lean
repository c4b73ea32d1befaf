import Drumlin.Library.PoolMutex

/-!
# Turns

Actors that take a mutex once, and do something to be recorded only while they have it, act in
turns: the record of all of them is what one did and then what another did, in the order in which
they took the mutex, whatever the actors do that have no turn.
-/

namespace ActorPool

/-! ## Records in turns -/

section Records

variable {Output : Type*}

/-- What was recorded of the actors is what they did one after another, each of them once. -/
structure InTurns (order : List Nat) (record : List (Nat × Output)) : Prop where
  nodup : order.Nodup
  grouped : record = order.flatMap fun self => record.filter (·.1 = self)

variable {order : List Nat} {record : List (Nat × Output)} {self : Nat}

theorem inTurns_nil : InTurns [] ([] : List (Nat × Output)) := ⟨List.nodup_nil, rfl⟩

/-- Only actors that had a turn are recorded. -/
theorem InTurns.mem_order (turns : InTurns order record) {entry : Nat × Output}
    (member : entry ∈ record) : entry.1 ∈ order := by
  rw [turns.grouped] at member
  obtain ⟨self, turn, own⟩ := List.mem_flatMap.mp member
  simp only [List.mem_filter, decide_eq_true_eq] at own
  exact own.2 ▸ turn

theorem InTurns.filter_eq_nil (turns : InTurns order record) (absent : self ∉ order) :
    record.filter (·.1 = self) = [] := by
  refine List.filter_eq_nil_iff.mpr fun entry member own => absent ?_
  simp only [decide_eq_true_eq] at own
  exact own ▸ turns.mem_order member

/-- An actor begins its turn. -/
theorem InTurns.begin (turns : InTurns order record) (absent : self ∉ order) :
    InTurns (order ++ [self]) record := by
  refine ⟨?_, ?_⟩
  · exact List.nodup_append.mpr ⟨turns.nodup, List.nodup_singleton _, by grind⟩
  · rw [List.flatMap_append, List.flatMap_singleton, turns.filter_eq_nil absent, List.append_nil]
    exact turns.grouped

/-- The actor whose turn it is does something. -/
theorem InTurns.add (turns : InTurns order record) (last : order.getLast? = some self)
    (outputs : List Output) : InTurns order (record ++ outputs.map (self, ·)) := by
  refine ⟨turns.nodup, ?_⟩
  obtain ⟨before, rfl⟩ := List.getLast?_eq_some_iff.mp last
  have apart := (List.nodup_append.mp turns.nodup).2.2
  have mine : (outputs.map (self, ·)).filter (·.1 = self) = outputs.map (self, ·) := by
    simp
  have others : before.flatMap (fun other =>
        (record ++ outputs.map (self, ·)).filter (·.1 = other)) =
      before.flatMap fun other => record.filter (·.1 = other) := by
    refine List.flatMap_congr fun other member => ?_
    have distinct : self ≠ other := fun same => apart other member self (by simp) same.symm
    simp [distinct]
  have grouped := turns.grouped
  rw [List.flatMap_append, List.flatMap_singleton] at grouped ⊢
  rw [others, List.filter_append, mine, ← List.append_assoc, ← grouped]

/-- Two elements of a list of parts are of one part, or of one part and a later one. -/
theorem sublist_flatMap_cases {Part Element : Type*} (part : Part → List Element)
    {first second : Element} {parts : List Part}
    (within : [first, second].Sublist (parts.flatMap part)) :
    (∃ one ∈ parts, first ∈ part one ∧ second ∈ part one) ∨
      ∃ one other, [one, other].Sublist parts ∧ first ∈ part one ∧ second ∈ part other := by
  induction parts with
  | nil => simp at within
  | cons head tail induction =>
      rw [List.flatMap_cons, List.sublist_append_iff] at within
      obtain ⟨front, back, split, early, late⟩ := within
      rcases front with _ | ⟨one, _ | ⟨other, more⟩⟩
      · obtain rfl : [first, second] = back := by simpa using split
        rcases induction late with ⟨one, member, both⟩ | ⟨one, other, order, both⟩
        · exact .inl ⟨one, .tail _ member, both⟩
        · exact .inr ⟨one, other, order.cons _, both⟩
      · obtain ⟨rfl, rfl⟩ : first = one ∧ [second] = back := by simpa using split
        obtain ⟨other, member, its⟩ := List.mem_flatMap.mp (List.singleton_sublist.mp late)
        exact .inr ⟨head, other, (List.singleton_sublist.mpr member).cons_cons _,
          List.singleton_sublist.mp early, its⟩
      · obtain ⟨rfl, rfl, -⟩ : first = one ∧ second = other ∧ _ := by simpa using split
        exact .inl ⟨head, .head _, early.subset (by simp), early.subset (by simp)⟩

/-- Actors that are recorded one after the other had their turns in that order. -/
theorem InTurns.order_of_sublist (turns : InTurns order record) {first second : Nat × Output}
    (within : [first, second].Sublist record) (distinct : first.1 ≠ second.1) :
    [first.1, second.1].Sublist order := by
  rw [turns.grouped] at within
  rcases sublist_flatMap_cases _ within with
    ⟨one, _, here, there⟩ | ⟨one, other, early, here, there⟩
  · simp only [List.mem_filter, decide_eq_true_eq] at here there
    exact (distinct (here.2.trans there.2.symm)).elim
  · simp only [List.mem_filter, decide_eq_true_eq] at here there
    rwa [here.2, there.2]

/-- No two elements of a list without duplicates are in both orders. -/
theorem not_sublist_swap {Element : Type*} {list : List Element} (distinct : list.Nodup)
    {one other : Element} (early : [one, other].Sublist list) :
    ¬[other, one].Sublist list := by
  induction list with
  | nil => simp at early
  | cons head tail induction =>
      obtain ⟨absent, rest⟩ := List.nodup_cons.mp distinct
      intro late
      rw [List.cons_sublist_cons'] at early late
      rcases early with early | ⟨rfl, early⟩
      · rcases late with late | ⟨rfl, late⟩
        · exact induction rest early late
        · exact absent (early.subset (by simp))
      · rcases late with late | ⟨rfl, late⟩
        · exact absent (late.subset (by simp))
        · exact absent (late.subset (by simp))

/-- What two actors did is recorded in one order only. -/
theorem InTurns.agree (turns : InTurns order record) {first second third fourth : Nat × Output}
    (early : [first, second].Sublist record) (late : [third, fourth].Sublist record)
    (one : first.1 = fourth.1) (other : second.1 = third.1) : first.1 = second.1 := by
  by_contra distinct
  have forward := turns.order_of_sublist early distinct
  have back := turns.order_of_sublist late (other ▸ one ▸ Ne.symm distinct)
  rw [← one, ← other] at back
  exact not_sublist_swap turns.nodup forward back

end Records

/-! ## Actors that take turns -/

/-- Where an actor is with its turn; it may have none. -/
inductive Turn
  | none
  | ahead
  | now
  | past
deriving DecidableEq, Repr

/-- What an action does to the turn of its actor.  Who waits for the mutex may find it taken. -/
inductive TurnStep (self : Nat) : Option Nat → Turn → Option Nat → Turn → Prop
  | wait (holder : Option Nat) (taken : holder ≠ none) :
      TurnStep self holder .ahead holder .ahead
  | begin : TurnStep self none .ahead (some self) .now
  | finish (holder holder' : Option Nat) : TurnStep self holder .now holder' .past
  | keep (holder holder' : Option Nat) (turn : Turn) (begun : turn ≠ .ahead) :
      TurnStep self holder turn holder' turn

variable {Shared Actor Choice Output : Type*}

/-- Every action keeps to the turns, what actors show is shown in their turn, and who is in a turn
is inside the section that the mutex guards. -/
structure TakesTurns (behave : Behavior Shared Actor Choice) (holder : Shared → Option Nat)
    (inside : Actor → Bool) (turn : Actor → Turn) (shows : Shared → Actor → List Output) :
    Prop where
  keeps : KeepsMutex behave holder inside
  moves : ∀ self shared actor choice shared' actor' spawned,
    behave self shared actor choice = some (shared', actor', spawned) →
      TurnStep self (holder shared) (turn actor) (holder shared') (turn actor') ∧
        ∀ other ∈ spawned, turn other = .none
  within : ∀ actor, turn actor = .now → inside actor = true
  silent : ∀ shared actor, turn actor ≠ .now → shows shared actor = []

/-- The actor whose turn begins with a step. -/
def begins (holder : Shared → Option Nat) (turn : Actor → Turn) (pool : Pool Shared Actor)
    (label : Nat × Choice) : List Nat :=
  match pool.actors[label.1]? with
  | some actor =>
      if holder pool.shared = none ∧ turn actor = .ahead then [label.1] else []
  | none => []

/-- What the actor of a step shows, under its number. -/
def shown (shows : Shared → Actor → List Output) (pool : Pool Shared Actor)
    (label : Nat × Choice) : List (Nat × Output) :=
  match pool.actors[label.1]? with
  | some actor => (shows pool.shared actor).map (label.1, ·)
  | none => []

variable {behave : Behavior Shared Actor Choice} {holder : Shared → Option Nat}
  {inside : Actor → Bool} {turn : Actor → Turn} {shows : Shared → Actor → List Output}
  {pool next final : Pool Shared Actor} {order : List Nat} {record : List (Nat × Output)}

/-- The turns so far: the actor whose turn it is had the last, and no actor that waits for one had
any. -/
structure TurnsTo (turn : Actor → Turn) (order : List Nat) (record : List (Nat × Output))
    (pool : Pool Shared Actor) : Prop where
  inTurns : InTurns order record
  now : ∀ (self : Nat) (actor : Actor), pool.actors[self]? = some actor → turn actor = .now →
    order.getLast? = some self
  ahead : ∀ (self : Nat) (actor : Actor), pool.actors[self]? = some actor →
    turn actor = .ahead → self ∉ order

theorem turnsTo_start (waiting : ∀ actor ∈ pool.actors, turn actor ≠ .now) :
    TurnsTo turn [] ([] : List (Nat × Output)) pool :=
  ⟨inTurns_nil, fun _ actor there now => (waiting actor (List.mem_of_getElem? there) now).elim,
    by simp⟩

/-- An action that begins no turn. -/
theorem TurnsTo.goOn (turns : TurnsTo turn order record pool) {label : Nat × Choice}
    {actor actor' : Actor} (present : pool.actors[label.1]? = some actor)
    (came : ∀ (self : Nat) (someone : Actor), next.actors[self]? = some someone →
      turn someone ≠ .none →
        self = label.1 ∧ someone = actor' ∨ self ≠ label.1 ∧ pool.actors[self]? = some someone)
    (now : turn actor' = .now → turn actor = .now)
    (ahead : turn actor' = .ahead → turn actor = .ahead) {outputs : List Output}
    (mute : turn actor ≠ .now → outputs = []) :
    TurnsTo turn order (record ++ outputs.map (label.1, ·)) next := by
  refine ⟨?_, fun self someone there its => ?_, fun self someone there its => ?_⟩
  · by_cases mine : turn actor = .now
    · exact turns.inTurns.add (turns.now _ _ present mine) outputs
    · simpa [mute mine] using turns.inTurns
  · rcases came self someone there (by simp [its]) with ⟨rfl, rfl⟩ | ⟨_, old⟩
    · exact turns.now _ _ present (now its)
    · exact turns.now _ _ old its
  · rcases came self someone there (by simp [its]) with ⟨rfl, rfl⟩ | ⟨_, old⟩
    · exact turns.ahead _ _ present (ahead its)
    · exact turns.ahead _ _ old its

theorem TurnsTo.step (turns : TurnsTo turn order record pool)
    (takes : TakesTurns behave holder inside turn shows)
    (exclusive : Exclusive holder inside pool) {label : Nat × Choice}
    (taken : step behave pool label = some next) :
    TurnsTo turn (order ++ begins holder turn pool label) (record ++ shown shows pool label)
      next := by
  obtain ⟨actor, actor', spawned, present, acted, actors⟩ := actors_of_step taken
  obtain ⟨effect, fresh⟩ := takes.moves _ _ _ _ _ _ _ acted
  have came (self : Nat) (someone : Actor) (there : next.actors[self]? = some someone)
      (concerned : turn someone ≠ .none) :
      self = label.1 ∧ someone = actor' ∨ self ≠ label.1 ∧ pool.actors[self]? = some someone := by
    rw [actors] at there
    rcases getElem?_of_set_append present there with acts | old | ⟨_, new⟩
    · exact .inl acts
    · exact .inr old
    · exact (concerned (fresh someone new)).elim
  have mute : turn actor ≠ .now → shows pool.shared actor = [] := takes.silent _ _
  simp only [begins, shown, present]
  generalize before_eq : turn actor = before, after_eq : turn actor' = after,
    held_eq : holder pool.shared = held, held_eq' : holder next.shared = held' at effect
  cases effect with
  | wait _ busy =>
      rw [if_neg (by simp [busy]), List.append_nil]
      exact turns.goOn present came (by simp [after_eq]) (by simp [before_eq]) mute
  | begin =>
      rw [if_pos ⟨rfl, rfl⟩, mute (by simp [before_eq]), List.map_nil, List.append_nil]
      refine ⟨turns.inTurns.begin (turns.ahead _ _ present before_eq), ?_, ?_⟩
      · intro self someone there its
        rcases came self someone there (by simp [its]) with ⟨rfl, -⟩ | ⟨_, old⟩
        · simp
        · have held := (exclusive self).mpr ⟨someone, old, takes.within someone its⟩
          simp [held_eq] at held
      · intro self someone there its
        rcases came self someone there (by simp [its]) with ⟨-, rfl⟩ | ⟨distinct, old⟩
        · simp [after_eq] at its
        · simpa [distinct] using turns.ahead _ _ old its
  | finish =>
      rw [if_neg (by simp), List.append_nil]
      exact turns.goOn present came (by simp [after_eq]) (by simp [after_eq]) mute
  | keep _ _ turn' begun =>
      rw [if_neg (by simp [begun]), List.append_nil]
      exact turns.goOn present came (by simp [after_eq, before_eq]) (by simp [after_eq, before_eq])
        mute

/-- In every run the actors act in turns, in the order in which they took the mutex. -/
theorem turnsTo_of_exec (takes : TakesTurns behave holder inside turn shows)
    (free : holder pool.shared = none)
    (outside : ∀ actor ∈ pool.actors, inside actor = false) {schedule : List (Nat × Choice)}
    (run : Runs.exec (step behave) pool schedule = some final) :
    TurnsTo turn (Runs.observed (step behave) (begins holder turn) pool schedule)
      (Runs.observed (step behave) (shown shows) pool schedule) final := by
  have exclusive := exclusive_of_free free outside
  have preserved (sofar : List (Nat × Choice)) (pool' : Pool Shared Actor) (label : Nat × Choice)
      (next : Pool Shared Actor) (before : Runs.exec (step behave) pool sofar = some pool')
      (turns : TurnsTo turn (Runs.observed (step behave) (begins holder turn) pool sofar)
        (Runs.observed (step behave) (shown shows) pool sofar) pool')
      (taken : step behave pool' label = some next) :
      TurnsTo turn (Runs.observed (step behave) (begins holder turn) pool (sofar ++ [label]))
        (Runs.observed (step behave) (shown shows) pool (sofar ++ [label])) next := by
    rw [Runs.observed_concat _ before, Runs.observed_concat _ before]
    exact turns.step takes (exclusive.exec takes.keeps before) taken
  refine Runs.exec_history preserved (turnsTo_start fun actor member now => ?_) run
  simpa [outside actor member] using takes.within actor now

/-- Who has begun its turn is in it, or is done with it. -/
theorem begun_of_exec (takes : TakesTurns behave holder inside turn shows)
    {schedule : List (Nat × Choice)}
    (run : Runs.exec (step behave) pool schedule = some final) :
    ∀ self ∈ Runs.observed (step behave) (begins holder turn) pool schedule,
      ∃ actor, final.actors[self]? = some actor ∧ (turn actor = .now ∨ turn actor = .past) := by
  refine Runs.exec_observed (fun order (pool : Pool Shared Actor) => ∀ self ∈ order, ∃ actor,
    pool.actors[self]? = some actor ∧ (turn actor = .now ∨ turn actor = .past)) ?_ (by simp) run
  intro sofar pool' label next _ begun taken self member
  obtain ⟨actor, actor', spawned, present, acted, actors⟩ := actors_of_step taken
  obtain ⟨effect, -⟩ := takes.moves _ _ _ _ _ _ _ acted
  have here : next.actors[label.1]? = some actor' := actors ▸ getElem?_set_append_self present
  rw [begins, present] at member
  rcases List.mem_append.mp member with old | new
  · obtain ⟨someone, there, its⟩ := begun self old
    by_cases same : self = label.1
    · subst same
      obtain rfl := Option.some.inj (there.symm.trans present)
      refine ⟨actor', here, ?_⟩
      generalize turn someone = before, turn actor' = after, holder pool'.shared = held,
        holder next.shared = held' at effect its
      cases effect with
      | wait | begin => simp at its
      | finish => exact .inr rfl
      | keep => exact its
    · exact ⟨someone, actors ▸ getElem?_set_append_of_ne same there, its⟩
  · dsimp only at new
    split at new
    · rename_i begins
      obtain rfl := List.mem_singleton.mp new
      refine ⟨actor', here, .inl ?_⟩
      generalize turn actor = before, turn actor' = after, holder pool'.shared = held,
        holder next.shared = held' at effect begins
      cases effect with
      | wait _ busy => exact (busy begins.1).elim
      | begin => rfl
      | finish => simp at begins
      | keep _ _ _ begun => exact (begun begins.2).elim
    · simp at new

end ActorPool
