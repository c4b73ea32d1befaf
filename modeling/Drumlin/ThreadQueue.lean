import Drumlin.ThreadShutdown

/-!
# The queue of a thread

What is posted to a thread waits in `m_queue` (thread.cpp) until `exec` pulls it.  `run` posts two
events to itself before its loop, and a tick is handled without being posted.
-/

namespace Drumlin
namespace StartedThread

variable {thread next final : StartedThread} {act : Act}

/-! ## In the order in which they were posted -/

/-- What an act posts to the thread: what `run` posts itself, or what anyone else does. -/
def posts (thread : StartedThread) : Act → List Event
  | .post event => [event]
  | .run _ =>
      match thread.point with
      | .entry => [⟨.threadNotify, "beforeWork", Cxx.nullptr⟩]
      | .postWork => [⟨.threadWork, "work", Cxx.nullptr⟩]
      | _ => []
  | _ => []

/-- What an act hands to `event` from the queue. -/
def hands (thread : StartedThread) : Act → List Event
  | .run _ => if thread.point = .exec then thread.queue.head?.toList else []
  | _ => []

/-- What `event` is called with, the ticks included. -/
def sees (thread : StartedThread) : Act → List Event
  | .run choice => thread.hands (.run choice) ++ if thread.point = .tick then [tickEvent] else []
  | _ => []

theorem run_queue {choice : Bool} (ran : thread.run choice = some next) :
    thread.hands (.run choice) ++ next.queue = thread.queue ++ thread.posts (.run choice) := by
  cases point : thread.point with
  | exec =>
      simp only [run, point, Option.map_eq_some_iff] at ran
      obtain ⟨executed, executes, rfl⟩ := ran
      obtain ⟨-, ⟨empty, rfl⟩ | ⟨event, queue, split, rfl⟩⟩ := exec_cases executes
      · simp [hands, posts, point, empty]
      · rw [event_frame]
        simp [hands, posts, point, split]
  | tick =>
      simp only [run, point, (event_tickEvent choice thread).1, if_true, Option.some.injEq] at ran
      subst ran
      rw [event_frame]
      simp [hands, posts, point]
  | sleep =>
      simp only [run, point] at ran
      split at ran <;> cases ran <;> simp [hands, posts, point]
  | done | interrupted => simp [run, point] at ran
  | entry | postWork | loop | tryLock | leave | reset | clearReady | quit =>
      simp only [run, point, Option.some.injEq] at ran
      subst ran
      simp [hands, posts, point, post, StartedThread.quit]

/-- `event` calls the worker at most with the event it handles. -/
theorem event_works (choice : Bool) (event : Event) (thread : StartedThread) :
    ∃ part, part.Sublist [event] ∧
      (thread.event choice event).1.works = thread.works ++ part := by
  by_cases works : (thread.event choice event).1.works = thread.works
  · exact ⟨[], by simp, by simp [works]⟩
  · have called : event.type = .threadWork ∧ choice = false := by
      simpa [event_works_iff] using works
    exact ⟨[event], .refl _, by simp [StartedThread.event, consumes, called]⟩

theorem run_sees {choice : Bool} (ran : thread.run choice = some next) :
    ∃ part, part.Sublist (thread.sees (.run choice)) ∧ next.works = thread.works ++ part := by
  rcases run_cases ran with ⟨point, executed, executes, rfl⟩ | ⟨point, rfl⟩ | ⟨-, same, -⟩
  · obtain ⟨-, ⟨empty, rfl⟩ | ⟨event, queue, split, rfl⟩⟩ := exec_cases executes
    · exact ⟨[], by simp, by simp⟩
    · obtain ⟨part, within, works⟩ := event_works choice event { thread with queue }
      exact ⟨part, by simpa [sees, hands, point, split] using within, works⟩
  · obtain ⟨part, within, works⟩ := event_works choice tickEvent thread
    exact ⟨part, by simpa [sees, hands, point] using within, works⟩
  · exact ⟨[], by simp, by simp [same]⟩

theorem queue_step (taken : thread.step act = some next) :
    thread.hands act ++ next.queue = thread.queue ++ thread.posts act := by
  have alive : thread.number ∉ thread.application.deleted := (step_cases taken).1
  simp only [step, if_neg alive] at taken
  cases act with
  | run choice => exact run_queue taken
  | pull =>
      rw [(pull_cases taken).1]
      simp [hands, posts]
  | post | terminate | interrupt =>
      obtain rfl := Option.some.inj taken
      simp [hands, posts, post]
  | punt event =>
      obtain ⟨-, same⟩ := Option.ite_none_left_eq_some.mp taken
      obtain rfl := Option.some.inj same
      simp [hands, posts]

theorem works_step (taken : thread.step act = some next) :
    ∃ part, part.Sublist (thread.sees act) ∧ next.works = thread.works ++ part := by
  obtain ⟨-, ⟨choice, rfl, ran⟩ | ⟨rfl, pulled⟩ | ⟨same, -, -⟩⟩ := step_cases taken
  · exact run_sees ran
  · exact ⟨[], by simp, by rw [(pull_cases pulled).1]; simp⟩
  · exact ⟨[], by simp, by rw [same]; simp⟩

/-- What is posted to a thread is handed to `event` in order, none lost and none twice, and `work`
is called only with what `event` was called with, in that order, whatever is posted, interrupted,
terminated or removed in between. -/
theorem exec_hands {number : Nat} {task : String} {worker : Nat} {queue : List Event}
    {application : Application} {acts : List Act}
    (run : Runs.exec step (start number task worker queue application) acts = some final) :
    Runs.observed step hands (start number task worker queue application) acts ++ final.queue =
        queue ++ Runs.observed step posts (start number task worker queue application) acts ∧
      final.works.Sublist
        (Runs.observed step sees (start number task worker queue application) acts) := by
  constructor
  · exact Runs.observed_append_eq StartedThread.queue (fun _ _ _ taken => queue_step taken) run
  · exact Runs.sublist_observed StartedThread.works (fun _ _ _ taken => works_step taken) run

/-- The first turn of a thread that was told something before it started. -/
theorem exec_hands_turn :
    ∃ acts final,
      Runs.exec step
          (start 1 "worker" 1 [⟨.threadNotify, "beforeStart", Cxx.nullptr⟩] .start) acts =
        some final ∧
      Runs.observed step hands
          (start 1 "worker" 1 [⟨.threadNotify, "beforeStart", Cxx.nullptr⟩] .start) acts ++
            final.queue =
        [⟨.threadNotify, "beforeStart", Cxx.nullptr⟩, ⟨.threadNotify, "beforeWork", Cxx.nullptr⟩,
          ⟨.threadWork, "work", Cxx.nullptr⟩] ∧
      final.works = [tickEvent] := by
  have run : Runs.exec step
      (start 1 "worker" 1 [⟨.threadNotify, "beforeStart", Cxx.nullptr⟩] .start)
      [.run false, .run false, .run false, .run true, .run false, .run false] = some _ := rfl
  exact ⟨_, _, run, (exec_hands run).1, rfl⟩

end StartedThread

end Drumlin
