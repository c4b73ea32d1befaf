import Mathlib
import Drumlin.Library.Runs

/-!
# Actors over a shared state

A pool is a shared state and a list of actors, each of which is known by its place in the list and
keeps its own program counter.  A step of the pool is one atomic action of one actor, which may
spawn further actors.  A schedule says which actor acts next, and how it chooses; every interleaving
is the run of a schedule.
-/

namespace ActorPool

variable {Shared Actor Choice : Type*}

/-- A shared state and the actors that work on it. -/
structure Pool (Shared Actor : Type*) where
  /-- What all actors see. -/
  shared : Shared
  /-- The actors, in the order in which they came. -/
  actors : List Actor

/-- What the next action of an actor does to the shared state and to the actor, and which actors it
spawns; none if it has to wait.  The actor is given its own number. -/
abbrev Behavior (Shared Actor Choice : Type*) :=
  Nat → Shared → Actor → Choice → Option (Shared × Actor × List Actor)

/-- One action of the actor of a number. -/
def step (behave : Behavior Shared Actor Choice) (pool : Pool Shared Actor)
    (label : Nat × Choice) : Option (Pool Shared Actor) :=
  pool.actors[label.1]?.bind fun actor =>
    (behave label.1 pool.shared actor label.2).map fun (shared, next, spawned) =>
      ⟨shared, pool.actors.set label.1 next ++ spawned⟩

/-- The action behind a step. -/
theorem step_eq_some {behave : Behavior Shared Actor Choice} {pool next : Pool Shared Actor}
    {label : Nat × Choice} (taken : step behave pool label = some next) :
    ∃ front actor back shared actor' spawned,
      pool.actors = front ++ actor :: back ∧ front.length = label.1 ∧
      behave label.1 pool.shared actor label.2 = some (shared, actor', spawned) ∧
      next = ⟨shared, front ++ actor' :: back ++ spawned⟩ := by
  simp only [step, Option.bind_eq_some_iff, Option.map_eq_some_iff, Prod.exists] at taken
  obtain ⟨actor, present, shared, actor', spawned, acted, rfl⟩ := taken
  obtain ⟨bound, rfl⟩ := List.getElem?_eq_some_iff.mp present
  refine ⟨pool.actors.take label.1, pool.actors[label.1], pool.actors.drop (label.1 + 1), shared,
    actor', spawned, ?_, List.length_take_of_le (Nat.le_of_lt bound), acted, ?_⟩
  · rw [List.cons_getElem_drop_succ, List.take_append_drop]
  · rw [List.set_eq_take_append_cons_drop, if_pos bound]

/-- The action behind a step of actors that spawn no others, and where the actors are after it. -/
theorem step_eq_some_of_quiet {behave : Behavior Shared Actor Choice}
    {pool next : Pool Shared Actor} {label : Nat × Choice}
    (quiet : ∀ shared actor shared' actor' spawned,
      behave label.1 shared actor label.2 = some (shared', actor', spawned) → spawned = [])
    (taken : step behave pool label = some next) :
    ∃ actor actor', pool.actors[label.1]? = some actor ∧
      behave label.1 pool.shared actor label.2 = some (next.shared, actor', []) ∧
      next.actors[label.1]? = some actor' ∧
      ∀ other, other ≠ label.1 → next.actors[other]? = pool.actors[other]? := by
  simp only [step, Option.bind_eq_some_iff, Option.map_eq_some_iff, Prod.exists] at taken
  obtain ⟨actor, present, shared, actor', spawned, acted, rfl⟩ := taken
  obtain rfl := quiet _ _ _ _ _ acted
  obtain ⟨bound, -⟩ := List.getElem?_eq_some_iff.mp present
  refine ⟨actor, actor', present, acted, ?_, fun other distinct => ?_⟩
  · simp [bound]
  · simp [List.getElem?_set_ne (Ne.symm distinct)]

/-- The actor that a label names. -/
theorem getElem?_of_split {pool : Pool Shared Actor} {front back : List Actor} {actor : Actor}
    (split : pool.actors = front ++ actor :: back) :
    pool.actors[front.length]? = some actor := by
  rw [split, List.getElem?_append_right (Nat.le_refl _), Nat.sub_self]
  rfl

/-- What holds of all actors holds of one, of the others, and of those it spawned. -/
theorem forall_mem_iff {good : Actor → Prop} {front back spawned : List Actor} {actor : Actor} :
    (∀ other ∈ front ++ actor :: back ++ spawned, good other) ↔
      good actor ∧ (∀ other ∈ front ++ back, good other) ∧ ∀ other ∈ spawned, good other := by
  simp only [List.forall_mem_append, List.forall_mem_cons]
  tauto

theorem forall_mem_iff_of_split {good : Actor → Prop} {pool : Pool Shared Actor}
    {front back : List Actor} {actor : Actor} (split : pool.actors = front ++ actor :: back) :
    (∀ other ∈ pool.actors, good other) ↔
      good actor ∧ ∀ other ∈ front ++ back, good other := by
  rw [split]
  simp only [List.forall_mem_append, List.forall_mem_cons]
  tauto

/-! ## Where the actors are -/

/-- The action behind a step, and the list of the actors after it. -/
theorem actors_of_step {behave : Behavior Shared Actor Choice} {pool next : Pool Shared Actor}
    {label : Nat × Choice} (taken : step behave pool label = some next) :
    ∃ actor actor' spawned, pool.actors[label.1]? = some actor ∧
      behave label.1 pool.shared actor label.2 = some (next.shared, actor', spawned) ∧
      next.actors = pool.actors.set label.1 actor' ++ spawned := by
  simp only [step, Option.bind_eq_some_iff, Option.map_eq_some_iff, Prod.exists] at taken
  obtain ⟨actor, present, shared, actor', spawned, acted, rfl⟩ := taken
  exact ⟨actor, actor', spawned, present, acted, rfl⟩

/-- An actor after a step is the one that acted, one of the others, or new. -/
theorem getElem?_of_set_append {actors spawned : List Actor} {self other : Nat}
    {actor actor' someone : Actor} (present : actors[self]? = some actor)
    (there : (actors.set self actor' ++ spawned)[other]? = some someone) :
    other = self ∧ someone = actor' ∨ other ≠ self ∧ actors[other]? = some someone ∨
      other ≠ self ∧ someone ∈ spawned := by
  have bound := (List.getElem?_eq_some_iff.mp present).1
  by_cases same : other = self
  · subst same
    rw [List.getElem?_append_left (by simpa using bound), List.getElem?_set_self bound] at there
    exact .inl ⟨rfl, (Option.some.inj there).symm⟩
  · by_cases old : other < actors.length
    · rw [List.getElem?_append_left (by simpa using old),
        List.getElem?_set_ne (Ne.symm same)] at there
      exact .inr (.inl ⟨same, there⟩)
    · rw [List.getElem?_append_right (by simpa using old)] at there
      exact .inr (.inr ⟨same, List.mem_of_getElem? there⟩)

/-- The actor that acted is still in its place. -/
theorem getElem?_set_append_self {actors spawned : List Actor} {self : Nat}
    {actor actor' : Actor} (present : actors[self]? = some actor) :
    (actors.set self actor' ++ spawned)[self]? = some actor' := by
  have bound := (List.getElem?_eq_some_iff.mp present).1
  rw [List.getElem?_append_left (by simpa using bound), List.getElem?_set_self bound]

/-- The other actors stay as they were. -/
theorem getElem?_set_append_of_ne {actors spawned : List Actor} {self other : Nat}
    {actor' someone : Actor} (distinct : other ≠ self) (there : actors[other]? = some someone) :
    (actors.set self actor' ++ spawned)[other]? = some someone := by
  have bound := (List.getElem?_eq_some_iff.mp there).1
  rw [List.getElem?_append_left (by simpa using bound), List.getElem?_set_ne (Ne.symm distinct),
    there]

/-! ## Weights -/

/-- The sum of the weights of the actors. -/
def load (weight : Actor → Nat) (pool : Pool Shared Actor) : Nat :=
  (pool.actors.map weight).sum

/-- A step exchanges the weight of one actor for that of its next state and of what it spawns. -/
theorem load_step (weight : Actor → Nat) {pool : Pool Shared Actor}
    {front back : List Actor} {actor : Actor} (split : pool.actors = front ++ actor :: back)
    (shared : Shared) (actor' : Actor) (spawned : List Actor) :
    load weight ⟨shared, front ++ actor' :: back ++ spawned⟩ + weight actor =
      load weight pool + weight actor' + (spawned.map weight).sum := by
  simp only [load, split, List.map_append, List.map_cons, List.sum_append, List.sum_cons]
  omega

/-- Two actors in different places are counted both. -/
theorem two_le_load {weight : Actor → Nat} {pool : Pool Shared Actor} {first second : Nat}
    {one other : Actor} (distinct : first ≠ second) (here : pool.actors[first]? = some one)
    (there : pool.actors[second]? = some other) (heavy : 1 ≤ weight one)
    (heavy' : 1 ≤ weight other) : 2 ≤ load weight pool := by
  wlog order : first < second generalizing first second one other
  · exact this (Ne.symm distinct) there here heavy' heavy
      (Nat.lt_of_le_of_ne (Nat.le_of_not_lt order) (Ne.symm distinct))
  have split : pool.actors.take second ++ pool.actors.drop second = pool.actors :=
    List.take_append_drop _ _
  have early : one ∈ pool.actors.take second :=
    List.mem_of_getElem? ((List.getElem?_take_of_lt order).trans here)
  have late : other ∈ pool.actors.drop second := by
    refine List.mem_of_getElem? (i := 0) ?_
    rw [List.getElem?_drop, Nat.add_zero, there]
  have left := List.single_le_sum (l := (pool.actors.take second).map weight)
    (fun _ _ => Nat.zero_le _) _ (List.mem_map_of_mem early)
  have right := List.single_le_sum (l := (pool.actors.drop second).map weight)
    (fun _ _ => Nat.zero_le _) _ (List.mem_map_of_mem late)
  rw [load, ← split, List.map_append, List.sum_append]
  omega

end ActorPool
