import Drumlin.ApplicationLoop
import Drumlin.Library.StableSort

/-!
# The rounds of stop

`Application::stop` (application.cpp) goes through the types of workers from the last down, and
terminates the threads of each type before it waits for them.
-/

namespace Drumlin
namespace ApplicationLoop

variable {first last : Nat} {app next later : ApplicationLoop} {act : Act}
  {worker : Nat → Option Nat}

/-- `exec` is in `stop`. -/
def InStop (app : ApplicationLoop) : Prop :=
  (∃ type, app.point = .stop type) ∨ ∃ type todo, app.point = .settle type todo

/-- The type of a thread's worker, with 0 for a thread that has none. -/
def typeOf (worker : Nat → Option Nat) (thread : Nat) : Nat := (worker thread).getD 0

/-- No thread is added, and the workers are these, but for threads whose `run` has reset them in its
end. -/
def Act.IsSteady (worker : Nat → Option Nat) (ended : List Nat) : Act → Prop
  | .exec reading => ∀ thread,
      reading.worker thread = worker thread ∨ thread ∈ ended ∧ reading.worker thread = none
  | .addThread _ _ => False
  | _ => True

/-- The threads terminated in this `stop`, beside those that were `already`, had workers of the
types whose rounds it has begun. -/
structure Descends (first : Nat) (worker : Nat → Option Nat) (already : List Nat)
    (app : ApplicationLoop) : Prop where
  grown : already <+: app.terminated
  behind : ∀ type, app.point = .stop type →
    ∀ thread ∈ app.terminated.drop already.length, type < typeOf worker thread
  within : ∀ type todo, app.point = .settle type todo → first < type ∧
    ∀ thread ∈ app.terminated.drop already.length, type ≤ typeOf worker thread

/-- The threads `stop` terminates from here on. -/
def stopLeft (first : Nat) (worker : Nat → Option Nat) (app : ApplicationLoop) : List Nat :=
  match app.point with
  | .stop type => StableSort.rounds (typeOf worker) first type app.application.threads
  | .settle type _ =>
      StableSort.rounds (typeOf worker) first (type - 1) app.application.threads
  | _ => []

/-- The threads a round selects are those of its type: the ones terminated before are of others. -/
theorem selected_eq {reading : Reading} {ended : List Nat} {type : Nat}
    (steady : (Act.exec reading).IsSteady worker ended)
    (behind : ∀ thread ∈ ended, type < typeOf worker thread) (more : first < type)
    (threads : List Nat) :
    (threads.filter fun thread => reading.worker thread = some type) =
      threads.filter (typeOf worker · = type) := by
  refine List.filter_congr fun thread _ => ?_
  have some_type : type ≠ 0 := by omega
  rcases steady thread with same | ⟨member, reset⟩
  · rw [same]
    cases known : worker thread with
    | none => simp [typeOf, known, some_type.symm]
    | some other => simp [typeOf, known]
  · have later := behind thread member
    simp [reset, later.ne']

theorem rounds_of_lt (key : Nat → Nat) {type : Nat} (more : first < type) (threads : List Nat) :
    StableSort.rounds key first type threads =
      threads.filter (key · = type) ++ StableSort.rounds key first (type - 1) threads := by
  obtain ⟨type, rfl⟩ := Nat.exists_eq_succ_of_ne_zero (by omega : type ≠ 0)
  rw [Nat.succ_eq_add_one] at more ⊢
  rw [StableSort.rounds, if_pos more, Nat.add_sub_cancel]

theorem rounds_of_not_lt (key : Nat → Nat) {type : Nat} (ended : ¬first < type)
    (threads : List Nat) : StableSort.rounds key first type threads = [] := by
  cases type with
  | zero => rfl
  | succ type => rw [StableSort.rounds, if_neg ended]

/-- What was terminated and what `stop` still terminates is the same after each step of it. -/
theorem stopLeft_moves {already : List Nat} (stops : app.InStop)
    (descends : app.Descends first worker already)
    (steady : act.IsSteady worker (app.terminated.drop already.length))
    (moves : app.Moves first last act next) :
    next.terminated ++ next.stopLeft first worker =
        app.terminated ++ app.stopLeft first worker ∧
      next.Descends first worker already := by
  have outside {point : ExecPoint} (place : app.point = point)
      (other : (∀ type, point ≠ .stop type) ∧ ∀ type todo, point ≠ .settle type todo) : False := by
    rcases stops with ⟨type, same⟩ | ⟨type, todo, same⟩
    · exact other.1 type (place.symm.trans same)
    · exact other.2 type todo (place.symm.trans same)
  cases moves with
  | post | interrupt | startTrace =>
      exact ⟨rfl, descends.grown, descends.behind, descends.within⟩
  | addThread => exact steady.elim
  | enter place | leave place | come place | idle place | wake place | handle place =>
      exact (outside place (by simp)).elim
  | interrupted place =>
      rcases place with place | place <;> exact (outside place (by simp)).elim
  | @round reading type place more selected selects =>
      have behind := descends.behind type place
      rw [selected_eq steady behind more] at selects
      refine ⟨?_, descends.grown.trans (List.prefix_append _ _), by simp, ?_⟩
      · simp only [stopLeft, place]
        rw [rounds_of_lt _ more, ← selects, List.append_assoc]
      · rintro other todo ⟨⟩
        refine ⟨more, fun thread member => ?_⟩
        rw [List.drop_append_of_le_length descends.grown.length_le] at member
        rcases List.mem_append.mp member with before | now
        · exact (behind thread before).le
        · rw [selects] at now
          exact (of_decide_eq_true (List.mem_filter.mp now).2).ge
  | rounded type place ended =>
      refine ⟨?_, descends.grown, by simp, by simp⟩
      simp only [stopLeft, place]
      rw [rounds_of_not_lt _ ended]
  | settled type place =>
      obtain ⟨more, within⟩ := descends.within type [] place
      refine ⟨by simp only [stopLeft, place], descends.grown, ?_, by simp⟩
      rintro other ⟨⟩ thread member
      exact (Nat.sub_lt (by omega) Nat.one_pos).trans_le (within thread member)
  | settleQuit type thread todo place =>
      obtain ⟨more, within⟩ := descends.within type (thread :: todo) place
      refine ⟨by simp [stopLeft, place], descends.grown, by simp, ?_⟩
      rintro other later ⟨⟩
      exact ⟨more, within⟩
  | settleWait type thread todo place =>
      obtain ⟨more, within⟩ := descends.within type (thread :: todo) place
      refine ⟨by simp only [stopLeft, place], descends.grown, by simp, ?_⟩
      rintro other later ⟨⟩
      exact ⟨more, within⟩

/-- `stop` terminates the threads in the order of a stable sort by the types of their workers, the
last type first, even if threads that it has terminated reset their workers meanwhile. -/
theorem stop_sorts (place : app.point = .stop last) {acts : List Act}
    (stops : Runs.Along (step first last)
      (fun state act =>
        state.InStop ∧ act.IsSteady worker (state.terminated.drop app.terminated.length)) app acts)
    (run : Runs.exec (step first last) app acts = some later) (ended : later.point = .sleep) :
    later.terminated = app.terminated ++
      (app.application.threads.filter fun thread =>
        first < typeOf worker thread ∧ typeOf worker thread ≤ last).mergeSort
          fun left right => typeOf worker right ≤ typeOf worker left := by
  have preserved (state : ApplicationLoop) (act : Act) (next : ApplicationLoop)
      (before : state.terminated ++ state.stopLeft first worker =
        app.terminated ++ app.stopLeft first worker ∧ state.Descends first worker app.terminated)
      (allowed : state.InStop ∧
        act.IsSteady worker (state.terminated.drop app.terminated.length))
      (taken : state.step first last act = some next) :
      next.terminated ++ next.stopLeft first worker =
        app.terminated ++ app.stopLeft first worker ∧
          next.Descends first worker app.terminated := by
    obtain ⟨same, descends⟩ :=
      stopLeft_moves allowed.1 before.2 allowed.2 (moves_of_step taken)
    exact ⟨same.trans before.1, descends⟩
  have begins : app.Descends first worker app.terminated := by
    refine ⟨List.prefix_rfl, by simp, ?_⟩
    rw [place]
    simp
  have all := (Runs.exec_invariant preserved ⟨rfl, begins⟩ stops run).1
  simpa [stopLeft, place, ended, StableSort.rounds_eq_mergeSort] using all

/-- Of three threads the second has a worker of the last type, and has reset it when the others are
terminated. -/
theorem stop_sorts_three :
    ∃ (worker : Nat → Option Nat) (acts : List Act) (later : ApplicationLoop),
      Runs.exec (step 0 2) { start [1, 2, 3] with point := .stop 2 } acts = some later ∧
        later.terminated = [2, 1, 3] ∧
        later.terminated =
          ([1, 2, 3].filter fun thread =>
            0 < typeOf worker thread ∧ typeOf worker thread ≤ 2).mergeSort
              fun left right => typeOf worker right ≤ typeOf worker left := by
  let worker (thread : Nat) : Option Nat := if thread = 2 then some 2 else some 1
  let reset (thread : Nat) : Option Nat := if thread = 2 then none else some 1
  let first : Act := .exec ⟨⟨true, true, ""⟩, worker⟩
  let onward : Act := .exec ⟨⟨true, true, ""⟩, reset⟩
  have run : Runs.exec (step 0 2) { start [1, 2, 3] with point := .stop 2 }
      (first :: List.replicate 7 onward) = some _ := rfl
  have stops : Runs.Along (step 0 2)
      (fun state act => state.InStop ∧ act.IsSteady worker (state.terminated.drop 0))
      { start [1, 2, 3] with point := .stop 2 } (first :: List.replicate 7 onward) := by
    simp [List.replicate, Runs.Along, step, exec, InStop, Act.IsSteady, first, onward, start,
      worker, reset, Application.start]
    constructor <;> intro thread <;> by_cases same : thread = 2 <;> simp [same]
  exact ⟨worker, _, _, run, rfl, stop_sorts rfl stops run rfl⟩

end ApplicationLoop

end Drumlin
