import Drumlin.Library.ActorPool

/-!
# A mutex in a pool

The shared state names the actor that holds a mutex, and the state of an actor tells whether it is
inside the section that the mutex guards.  If every action keeps the two in step, then the holder is
inside and no other actor is.
-/

namespace ActorPool

variable {Shared Actor Choice : Type*}

/-- What an action does to the mutex, and to whether its actor is inside. -/
inductive MutexStep (self : Nat) : Option Nat → Bool → Option Nat → Bool → Prop
  | keep (holder : Option Nat) (inside : Bool) : MutexStep self holder inside holder inside
  | acquire : MutexStep self none false (some self) true
  | release (holder : Option Nat) : MutexStep self holder true none false

/-- Every action keeps the mutex and the insides in step. -/
def KeepsMutex (behave : Behavior Shared Actor Choice) (holder : Shared → Option Nat)
    (inside : Actor → Bool) : Prop :=
  ∀ self shared actor choice shared' actor' spawned,
    behave self shared actor choice = some (shared', actor', spawned) →
      MutexStep self (holder shared) (inside actor) (holder shared') (inside actor') ∧
        ∀ other ∈ spawned, inside other = false

/-- The holder of the mutex is inside, and no other actor is. -/
def Exclusive (holder : Shared → Option Nat) (inside : Actor → Bool)
    (pool : Pool Shared Actor) : Prop :=
  ∀ self, holder pool.shared = some self ↔
    ∃ actor, pool.actors[self]? = some actor ∧ inside actor = true

variable {behave : Behavior Shared Actor Choice} {holder : Shared → Option Nat}
  {inside : Actor → Bool} {pool next : Pool Shared Actor}

/-- No actor is inside while nobody holds the mutex. -/
theorem exclusive_of_free (free : holder pool.shared = none)
    (outside : ∀ actor ∈ pool.actors, inside actor = false) : Exclusive holder inside pool := by
  intro self
  rw [free]
  refine iff_of_false (by simp) ?_
  rintro ⟨actor, present, within⟩
  simp [outside actor (List.mem_of_getElem? present)] at within

theorem Exclusive.step (exclusive : Exclusive holder inside pool)
    (keeps : KeepsMutex behave holder inside) {label : Nat × Choice}
    (taken : step behave pool label = some next) : Exclusive holder inside next := by
  obtain ⟨actor, actor', spawned, present, acted, actors⟩ := actors_of_step taken
  obtain ⟨effect, fresh⟩ := keeps _ _ _ _ _ _ _ acted
  have here : next.actors[label.1]? = some actor' := actors ▸ getElem?_set_append_self present
  -- whoever is inside after the step acted, or was inside before
  have came (self : Nat) (someone : Actor) (there : next.actors[self]? = some someone)
      (within : inside someone = true) :
      self = label.1 ∧ someone = actor' ∨ self ≠ label.1 ∧ holder pool.shared = some self := by
    rw [actors] at there
    rcases getElem?_of_set_append present there with acts | ⟨distinct, old⟩ | ⟨_, new⟩
    · exact .inl acts
    · exact .inr ⟨distinct, (exclusive self).mpr ⟨someone, old, within⟩⟩
    · simp [fresh someone new] at within
  have stays (self : Nat) (distinct : self ≠ label.1) (held : holder pool.shared = some self) :
      ∃ someone, next.actors[self]? = some someone ∧ inside someone = true := by
    obtain ⟨someone, old, within⟩ := (exclusive self).mp held
    exact ⟨someone, actors ▸ getElem?_set_append_of_ne distinct old, within⟩
  have mine : inside actor = true → holder pool.shared = some label.1 :=
    fun within => (exclusive label.1).mpr ⟨actor, present, within⟩
  have mine' (held : holder pool.shared = some label.1) : inside actor = true := by
    obtain ⟨someone, there, within⟩ := (exclusive label.1).mp held
    exact Option.some.inj (present.symm.trans there) ▸ within
  intro self
  generalize before_eq : holder pool.shared = before, after_eq : holder next.shared = after,
    inside_eq : inside actor = within, inside_eq' : inside actor' = within'
    at effect came stays mine mine'
  cases effect with
  | keep =>
      constructor
      · intro held
        by_cases same : self = label.1
        · subst same
          exact ⟨actor', here, inside_eq'.trans (mine' held)⟩
        · exact stays self same held
      · rintro ⟨someone, there, member⟩
        rcases came self someone there member with ⟨rfl, rfl⟩ | ⟨_, held⟩
        · exact mine (inside_eq'.symm.trans member)
        · exact held
  | acquire =>
      constructor
      · intro held
        obtain rfl := Option.some.inj held
        exact ⟨actor', here, inside_eq'⟩
      · rintro ⟨someone, there, member⟩
        rcases came self someone there member with ⟨rfl, -⟩ | ⟨_, held⟩
        · rfl
        · simp at held
  | release =>
      refine iff_of_false (by simp) ?_
      rintro ⟨someone, there, member⟩
      rcases came self someone there member with ⟨-, rfl⟩ | ⟨distinct, held⟩
      · simp [inside_eq'] at member
      · exact distinct (Option.some.inj (held.symm.trans (mine rfl)))

/-- In every run the holder of the mutex is inside, and no other actor is. -/
theorem Exclusive.exec (exclusive : Exclusive holder inside pool)
    (keeps : KeepsMutex behave holder inside) {schedule : List (Nat × Choice)}
    (run : Runs.exec (ActorPool.step behave) pool schedule = some next) :
    Exclusive holder inside next :=
  Runs.exec_invariant_of_forall (fun _ _ _ before taken => before.step keeps taken) exclusive run

end ActorPool
