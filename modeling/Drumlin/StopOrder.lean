import Drumlin.ThreadLifecycle

/-!
# The order in which `stop` ends threads

`Application::stop` goes through the types of workers from the last to the first.  In each round it
terminates the threads of the type and waits for them, one after the other: it joins a thread unless
it finds that the thread is not started, was not made or is deleting itself.  In each of these cases
the loop of the thread is over.
-/

namespace Drumlin

open ActorPool

/-! ## Rounds -/

/-- The type of the round `stop` is in. -/
def StopPhase.type : StopPhase → Option Nat
  | .round type | .select type _ _ | .compare type _ _ _ | .terminate type _ _ | .test type _
  | .quit type _ _ | .wait type _ _ | .join type _ _ => some type
  | .done => none

/-- In the round of a type `stop` has still to terminate the thread or to wait for it. -/
def StopPhase.Pending (type thread : Nat) (isTerminated : Bool) : StopPhase → Prop
  | .terminate other todo selected =>
      other = type ∧ thread ∈ selected ∧ (thread ∈ todo ∨ isTerminated = true)
  | .test other todo => other = type ∧ isTerminated = true ∧ thread ∈ todo
  | .quit other _ todo => other = type ∧ isTerminated = true ∧ thread ∈ todo
  | .wait other waited todo | .join other waited todo =>
      other = type ∧ isTerminated = true ∧ (thread = waited ∨ thread ∈ todo)
  | .round _ | .select _ _ _ | .compare _ _ _ _ | .done => False

theorem StopPhase.Pending.type_eq {type thread : Nat} {isTerminated : Bool} {phase : StopPhase}
    (pending : phase.Pending type thread isTerminated) : phase.type = some type := by
  cases phase <;> simp [Pending] at pending <;> simp [StopPhase.type, pending.1]

theorem StopPhase.Pending.mono {type thread : Nat} {before after : Bool} {phase : StopPhase}
    (pending : phase.Pending type thread before) (grows : before = true → after = true) :
    phase.Pending type thread after := by
  cases phase <;> simp only [Pending] at pending ⊢ <;> tauto

/-- The reasons for which `stop` does not wait any longer for a thread. -/
def Lifecycle.Over (lifecycle : Lifecycle) (thread : Nat) : Prop :=
  lifecycle.isReady thread = false ∨ lifecycle.boostThread thread = none ∨
    lifecycle.isDeleting thread = true ∨
    ∃ boost ∈ lifecycle.returned, lifecycle.boostThread thread = some boost

/-- An action of `stop` leaves a thread pending, or finds its loop over. -/
theorem stop_pending {self first type thread : Nat} {threads threads' : Threads}
    {phase phase' : StopPhase}
    (acted : threads.stop self first phase = some (threads', phase'))
    (pending : phase.Pending type thread (threads.lifecycle.isTerminated thread)) :
    phase'.Pending type thread (threads'.lifecycle.isTerminated thread) ∨
      threads.lifecycle.isTerminated thread = true ∧ threads.lifecycle.Over thread := by
  cases phase with
  | round | select | compare | done => exact pending.elim
  | terminate other todo selected =>
      obtain ⟨same, chosen, todo_or_done⟩ := pending
      cases todo with
      | nil =>
          obtain ⟨rfl, rfl⟩ := by simpa [Threads.stop] using acted
          have terminated : threads.lifecycle.isTerminated thread = true := by
            simpa using todo_or_done
          exact .inl ⟨same, terminated, chosen⟩
      | cons next todo =>
          obtain ⟨rfl, rfl⟩ := by simpa [Threads.stop] using acted
          refine .inl ⟨same, chosen, ?_⟩
          by_cases here : thread = next
          · simp [here]
          · simpa [here] using todo_or_done
  | test other todo =>
      obtain ⟨same, terminated, waits⟩ := pending
      cases todo with
      | nil => simp at waits
      | cons next todo =>
          simp only [Threads.stop] at acted
          split at acted <;> obtain ⟨rfl, rfl⟩ := by simpa using acted
          · exact .inl ⟨same, terminated, List.mem_cons.mp waits⟩
          · rename_i idle
            by_cases here : thread = next
            · subst here
              exact .inr ⟨terminated, .inl (Bool.eq_false_of_not_eq_true idle)⟩
            · exact .inl ⟨same, terminated, (List.mem_cons.mp waits).resolve_left here⟩
  | quit other next todo =>
      obtain ⟨same, terminated, waits⟩ := pending
      simp only [Threads.stop, Threads.guarded_eq_some, Prod.mk.injEq] at acted
      obtain ⟨-, rfl, rfl⟩ := acted
      exact .inl ⟨same, terminated, waits⟩
  | wait other next todo =>
      obtain ⟨same, terminated, waits⟩ := pending
      simp only [Threads.stop] at acted
      split at acted <;> obtain ⟨rfl, rfl⟩ := by simpa using acted
      · exact .inl ⟨same, terminated, waits⟩
      · rename_i passes
        rcases waits with rfl | later
        · refine .inr ⟨terminated, ?_⟩
          simp only [Bool.and_eq_true, Bool.not_eq_true', not_and, Bool.not_eq_false] at passes
          cases made : (threads.threadAt thread).boostThread with
          | some boost => exact .inr (.inr (.inl (passes (by simp [made]))))
          | none => exact .inr (.inl made)
        · exact .inl ⟨same, terminated, later⟩
  | join other next todo =>
      obtain ⟨same, terminated, waits⟩ := pending
      simp only [Threads.stop] at acted
      split at acted
      · simp at acted
      · rename_i returned
        obtain ⟨rfl, rfl⟩ := by simpa using acted
        rcases waits with rfl | later
        · refine .inr ⟨terminated, ?_⟩
          cases made : (threads.threadAt thread).boostThread with
          | some boost =>
              have present : boost ∈ threads.returned := by simpa [made] using returned
              exact .inr (.inr (.inr ⟨boost, present, made⟩))
          | none => exact .inr (.inl made)
        · exact .inl ⟨same, terminated, later⟩

namespace ThreadPool

variable {pool next later : ThreadPool} {thread : Nat}

/-! ## Threads whose loop is over -/

/-- The thread was terminated, and nobody serves its loop. -/
structure Silent (pool : ThreadPool) (thread : Nat) : Prop where
  terminated : (pool.shared.threadAt thread).isTerminated = true
  unserved : ∀ actor ∈ pool.actors, ∀ boost, actor.stage ≠ .serving thread boost

/-- A thread is silent if it is terminated and its loop is over. -/
theorem Lives.silent (lives : pool.Lives)
    (terminated : pool.shared.lifecycle.isTerminated thread = true)
    (ended : pool.shared.lifecycle.Over thread) : pool.Silent thread := by
  refine ⟨terminated, fun actor member boost serves => ?_⟩
  have active : actor.stage.active thread = true := by simp [serves, Stage.active]
  have runs : actor.stage.runs boost = true := by simp [serves, Stage.runs]
  have current := lives.current actor member thread boost (by simp [serves, Stage.holds])
  rcases ended with idle | unmade | deleting | ⟨other, returned, made⟩
  · simp [lives.isReady member active] at idle
  · simp [current] at unmade
  · simp [lives.stays actor member thread boost serves] at deleting
  · obtain rfl : boost = other := Option.some.inj (current.symm.trans made)
    exact lives.not_mem_returned member runs returned

/-- A silent thread stays silent, also when it is started again. -/
theorem Silent.step (silent : pool.Silent thread) {label : Nat × Choice}
    (taken : pool.step label = some next) : next.Silent thread := by
  obtain ⟨actor, actor', spawned, present, acted, actors⟩ := ActorPool.actors_of_step taken
  have effect := Actor.behave_lifecycle acted
  refine ⟨effect.grows thread silent.terminated, fun other member boost serves => ?_⟩
  obtain ⟨place, there⟩ := List.getElem?_of_mem member
  rw [actors] at there
  rcases getElem?_of_set_append present there with ⟨rfl, rfl⟩ | ⟨_, old⟩ | ⟨_, new⟩
  · have unserved := silent.unserved actor (List.mem_of_getElem? present) boost
    have terminated : pool.shared.lifecycle.isTerminated thread = true := silent.terminated
    rw [serves] at effect
    generalize actor.stage = stage, next.shared.lifecycle = after,
      spawned.map Actor.stage = begun at effect unserved
    cases effect with
    | keep => exact unserved rfl
    | terminate => exact unserved rfl
    | serve _ _ stays goes => simp [terminated] at goes
  · exact silent.unserved other (List.mem_of_getElem? old) boost serves
  · obtain ⟨thread', boost', rfl⟩ := Actor.entry_of_spawned acted new
    simp [Actor.stage] at serves

/-! ## Rounds that `stop` has done -/

/-- The actor `self` is `stop` and has still to wait for the thread, or the thread is silent. -/
def Stopping (first self type thread : Nat) (pool : ThreadPool) : Prop :=
  (∃ phase, pool.actors[self]? = some (.stop first phase) ∧
    phase.Pending type thread (pool.shared.lifecycle.isTerminated thread)) ∨ pool.Silent thread

theorem Stopping.step {first self type : Nat} (stopping : pool.Stopping first self type thread)
    (lives : pool.Lives) {label : Nat × Choice} (taken : pool.step label = some next) :
    next.Stopping first self type thread := by
  rcases stopping with ⟨phase, present, pending⟩ | silent
  · obtain ⟨actor, actor', spawned, acts, acted, actors⟩ := ActorPool.actors_of_step taken
    by_cases mine : self = label.1
    · subst mine
      obtain rfl := Option.some.inj (acts.symm.trans present)
      have here : next.actors[label.1]? = some actor' := actors ▸ getElem?_set_append_self acts
      obtain ⟨phase', stopped, rfl⟩ : ∃ phase', pool.shared.stop label.1 first phase =
          some (next.shared, phase') ∧ actor' = .stop first phase' := by
        generalize next.shared = shared at acted ⊢
        cases Actor.behaves_of_behave acted with
        | stop stopped => exact ⟨_, stopped, rfl⟩
      rcases stop_pending stopped pending with after | ⟨terminated, ended⟩
      · exact .inl ⟨phase', here, after⟩
      · exact .inr ((lives.silent terminated ended).step taken)
    · have effect := Actor.behave_lifecycle acted
      refine .inl ⟨phase, ?_, pending.mono (effect.grows thread)⟩
      rw [actors]
      exact getElem?_set_append_of_ne mine present
  · exact .inr (silent.step taken)

/-- Whom `stop` terminates it has selected. -/
def Selects (pool : ThreadPool) : Prop :=
  ∀ (self first type : Nat) (todo selected : List Nat),
    pool.actors[self]? = some (.stop first (.terminate type todo selected)) → todo ⊆ selected

theorem Selects.step (selects : pool.Selects) {label : Nat × Choice}
    (taken : pool.step label = some next) : next.Selects := by
  obtain ⟨actor, actor', spawned, present, acted, actors⟩ := ActorPool.actors_of_step taken
  intro self first type todo selected there
  rw [actors] at there
  rcases getElem?_of_set_append present there with ⟨rfl, same⟩ | ⟨_, old⟩ | ⟨_, new⟩
  · subst same
    generalize next.shared = shared at acted
    cases Actor.behaves_of_behave acted with
    | stop stopped =>
        rename_i phase
        cases phase with
        | select other todo selected' =>
            cases todo with
            | nil =>
                obtain ⟨-, rfl, rfl, rfl⟩ := by simpa [Threads.stop] using stopped
                exact List.Subset.refl _
            | cons thread todo =>
                simp only [Threads.stop] at stopped
                split at stopped <;> simp at stopped
        | terminate other todo' selected' =>
            cases todo' with
            | nil => simp [Threads.stop] at stopped
            | cons thread todo' =>
                obtain ⟨-, rfl, rfl, rfl⟩ := by simpa [Threads.stop] using stopped
                exact fun other member =>
                  selects _ _ _ _ _ present (List.mem_cons_of_mem _ member)
        | round other =>
            simp only [Threads.stop] at stopped
            split at stopped <;> simp at stopped
        | test other todo' =>
            cases todo' with
            | nil => simp [Threads.stop] at stopped
            | cons thread todo' =>
                simp only [Threads.stop] at stopped
                split at stopped <;> simp at stopped
        | quit other thread todo' => simp [Threads.stop, Threads.guarded_eq_some] at stopped
        | compare other thread todo' selected' => simp [Threads.stop] at stopped
        | wait other thread todo' =>
            simp only [Threads.stop] at stopped
            split at stopped <;> simp at stopped
        | join other thread todo' => simp [Threads.stop] at stopped
        | done => simp [Threads.stop] at stopped
  · exact selects self first type todo selected old
  · obtain ⟨thread, boost, begun⟩ := Actor.entry_of_spawned acted new
    simp at begun

theorem Reached.selects (reached : pool.Reached) : pool.Selects := by
  obtain ⟨task, worker, listed, clients, schedule, run⟩ := reached
  refine Runs.exec_invariant_of_forall (fun _ _ _ before taken => before.step taken) ?_ run
  intro self first type todo selected there
  obtain ⟨client, _, same⟩ := List.mem_map.mp (List.mem_of_getElem? there)
  cases client <;> simp [Client.actor] at same

/-- A thread that `stop` terminates in the round of one type has left its loop for good by the time
`stop` comes to a round of another type or returns, whatever the threads and other callers do. -/
theorem stop_silences (reached : pool.Reached) {self first type : Nat} {todo selected : List Nat}
    (terminates : pool.actors[self]? = some (.stop first (.terminate type todo selected)))
    (member : thread ∈ todo) {schedule : List (Nat × Choice)}
    (run : Runs.exec step pool schedule = some later) {phase : StopPhase}
    (there : later.actors[self]? = some (.stop first phase)) (another : phase.type ≠ some type) :
    later.Silent thread := by
  have preserved (pool : ThreadPool) (label : Nat × Choice) (next : ThreadPool)
      (before : pool.Reached ∧ pool.Stopping first self type thread)
      (taken : pool.step label = some next) :
      next.Reached ∧ next.Stopping first self type thread :=
    ⟨before.1.step taken, before.2.step before.1.lives taken⟩
  have selected : pool.Stopping first self type thread :=
    .inl ⟨_, terminates, rfl, reached.selects _ _ _ _ _ terminates member, .inl member⟩
  have stopping := Runs.exec_invariant_of_forall preserved ⟨reached, selected⟩ run
  rcases stopping.2 with ⟨phase', there', pending⟩ | silent
  · obtain rfl : phase' = phase := by simpa using there'.symm.trans there
    exact (another pending.type_eq).elim
  · exact silent

/-- A started thread is terminated and joined, and `stop` goes on. -/
theorem stop_silences_joined :
    ∃ pool later : ThreadPool,
      Runs.exec step
        (initial (fun _ => "worker") (fun _ => some 1) [1]
          [.access (.named "worker") .startThread, .stop 0 1])
        (List.replicate 7 (0, .usual) ++ List.replicate 4 (1, .usual)) = some pool ∧
      Runs.exec step pool
        (List.replicate 4 (1, .usual) ++ List.replicate 7 (2, .usual) ++
          List.replicate 2 (1, .usual)) = some later ∧
      later.Silent 1 := by
  have selected : Runs.exec step
      (initial (fun _ => "worker") (fun _ => some 1) [1]
        [.access (.named "worker") .startThread, .stop 0 1])
      (List.replicate 7 (0, .usual) ++ List.replicate 4 (1, .usual)) = some _ := rfl
  refine ⟨_, _, selected, rfl, ?_⟩
  exact @stop_silences _ _ 1 ⟨_, _, _, _, _, selected⟩ 1 0 1 [1] [1] rfl (by simp)
    (List.replicate 4 (1, .usual) ++ List.replicate 7 (2, .usual) ++ List.replicate 2 (1, .usual))
    rfl (.round 0) rfl (by simp [StopPhase.type])

end ThreadPool

end Drumlin
