import Drumlin.ApplicationLoop

/-!
# The end of the application

`Application::removeThread` tells the loop that the threads are gone, the loop answers with a
shutdown, and the shutdown ends it (application.cpp).  Unless someone else posts one of these two
events, the loop does not end before the last thread is deleted; and once there is a shutdown in the
queue it returns soon.
-/

namespace Drumlin

/-- The event is one of those on which the application ends. -/
def Event.Ends (event : Event) : Prop :=
  event.type = .applicationThreadsGone ∨ event.type = .applicationShutdown

namespace ApplicationLoop

variable {first last : Nat} {app next later final : ApplicationLoop} {act : Act}
  {threads : List Nat}

/-! ## Not before the last thread is gone -/

/-- The act does not post what only the application says to itself. -/
def Act.IsInside : Act → Prop
  | .post event => ¬event.Ends
  | _ => True

/-- All these threads are deleted. -/
def Gone (threads : List Nat) (app : ApplicationLoop) : Prop :=
  ∀ thread ∈ threads, thread ∈ app.application.deleted

/-- Each of these threads is still listed or deleted, and the application is told to end, or ended,
only when all are deleted or the loop was interrupted. -/
structure Accounted (threads : List Nat) (app : ApplicationLoop) : Prop where
  kept : ∀ thread ∈ threads,
    thread ∈ app.application.threads ∨ thread ∈ app.application.deleted
  told : ∀ event ∈ app.application.queue, event.Ends →
    app.Gone threads ∨ ∃ code, app.point = .returned code
  ended : app.isTerminated = true → app.Gone threads

theorem accounted_start (threads : List Nat) : (start threads).Accounted threads :=
  ⟨fun _ member => .inl member, by simp [start, Application.start], by simp [start]⟩

/-- Something is posted that does not end the application, or does so with reason. -/
theorem Accounted.post (accounted : app.Accounted threads) (event : Event)
    (reason : event.Ends → app.Gone threads ∨ ∃ code, app.point = .returned code) :
    (app.post event).Accounted threads := by
  refine ⟨accounted.kept, fun other member ends => ?_, accounted.ended⟩
  rcases List.mem_append.mp member with before | new
  · exact accounted.told other before ends
  · obtain rfl := List.mem_singleton.mp new
    exact reason ends

/-- Only the point changes, and the loop had not returned. -/
theorem Accounted.move (accounted : app.Accounted threads) (point : ExecPoint)
    (inside : ∀ code, app.point ≠ .returned code) : { app with point }.Accounted threads := by
  refine ⟨accounted.kept, fun event member ends => ?_, accounted.ended⟩
  rcases accounted.told event member ends with gone | ⟨code, returned⟩
  · exact .inl gone
  · exact (inside code returned).elim

/-- An event is pulled. -/
theorem Accounted.pulled (accounted : app.Accounted threads) (place : app.point = .pull)
    {event : Event} {queue : List Event} (waiting : app.application.queue = event :: queue) :
    (app.pulled event queue).Accounted threads ∧ (event.Ends → app.Gone threads) := by
  have told (other : Event) (member : other ∈ app.application.queue) (ends : other.Ends) :
      app.Gone threads := by
    simpa [place] using accounted.told other member ends
  rw [waiting] at told
  exact ⟨⟨accounted.kept, fun other member ends => .inl (told other (.tail _ member) ends),
    accounted.ended⟩, told event (.head _)⟩

/-- A thread is taken from the list and deleted. -/
theorem Accounted.remove (accounted : app.Accounted threads) (thread : Nat) :
    { app with
      application :=
        { app.application with
          threads := (Cxx.remove thread app.application.threads).1
          deleted := app.application.deleted ++ [thread] } }.Accounted threads := by
  have more (gone : app.Gone threads) (other : Nat) (member : other ∈ threads) :
      other ∈ app.application.deleted ++ [thread] :=
    List.mem_append_left _ (gone other member)
  refine ⟨fun other member => ?_, fun event queued ends => ?_, fun ended => ?_⟩
  · rcases accounted.kept other member with listed | deleted
    · by_cases same : other = thread
      · exact .inr (by simp [same])
      · exact .inl (Cxx.mem_remove_of_ne listed same)
    · exact .inr (List.mem_append_left _ deleted)
  · exact (accounted.told event queued ends).imp_left more
  · exact more (accounted.ended ended)

theorem Accounted.handles (accounted : app.Accounted threads) (place : app.point = .pull)
    {event : Event} {queue : List Event} (waiting : app.application.queue = event :: queue)
    (handles : (app.pulled event queue).Handles last event next) : next.Accounted threads := by
  obtain ⟨after, gone⟩ := accounted.pulled place waiting
  have inside (code : Nat) : (app.pulled event queue).point ≠ .returned code := by
    simp [ApplicationLoop.pulled]
  cases handles with
  | ignore => exact ⟨after.kept, after.told, after.ended⟩
  | removeLast _ status idle none_left =>
      refine (after.remove event.pointer).post _ fun _ => .inl fun thread member => ?_
      rcases accounted.kept thread member with listed | deleted
      · simp [none_left thread listed]
      · exact List.mem_append_left _ deleted
  | remove => exact after.remove event.pointer
  | close => exact after.move _ inside
  | gone type => exact after.post _ fun _ => .inl (gone (.inl type))
  | shutdown type => exact ⟨after.kept, after.told, fun _ => gone (.inr type)⟩

theorem Accounted.moves (accounted : app.Accounted threads) (inside : act.IsInside)
    (moves : app.Moves first last act next) : next.Accounted threads := by
  cases moves with
  | post event => exact accounted.post event fun ends => (inside ends).elim
  | interrupt | startTrace => exact ⟨accounted.kept, accounted.told, accounted.ended⟩
  | addThread thread startWork =>
      have same : (app.application.addThread thread startWork).queue = app.application.queue ∧
          (app.application.addThread thread startWork).deleted = app.application.deleted ∧
          (app.application.addThread thread startWork).threads =
            app.application.threads ++ [thread] := by
        unfold Application.addThread
        split <;> simp
      obtain ⟨queue, deleted, listed⟩ := same
      refine ⟨fun other member => ?_, fun event queued => ?_, fun ended => ?_⟩
      · rw [listed, deleted]
        exact (accounted.kept other member).imp_left (List.mem_append_left _)
      · simpa only [Gone, deleted] using accounted.told event (queue ▸ queued)
      · simpa only [Gone, deleted] using accounted.ended ended
  | interrupted place =>
      refine Accounted.post ?_ _ fun _ => .inr ⟨1, rfl⟩
      exact ⟨accounted.kept, fun _ _ _ => .inr ⟨1, rfl⟩, accounted.ended⟩
  | leave place | enter place | come place | idle place | wake place =>
      exact accounted.move _ (by simp [place])
  | rounded type place | settled type place => exact accounted.move _ (by simp [place])
  | settleWait type thread todo place => exact accounted.move _ (by simp [place])
  | handle place event queue waiting next handles =>
      exact accounted.handles place waiting handles
  | round type place more selected selects =>
      have moved := accounted.move (.settle type selected) (by simp [place])
      exact ⟨moved.kept, moved.told, moved.ended⟩
  | settleQuit type thread todo place =>
      have removal : ¬(Threads.removeEvent thread).Ends := by simp [Event.Ends, Threads.removeEvent]
      have posted := accounted.post (Threads.removeEvent thread) fun ends => (removal ends).elim
      exact posted.move _ (by simp [place])

/-- Unless someone posts a shutdown or says that the threads are gone, the loop is terminated only
when every thread the application began with is deleted, whatever else is posted, whichever threads
are added and whatever the threads report. -/
theorem ends_after_last (first last : Nat) (threads : List Nat) {acts : List Act}
    (inside : ∀ act ∈ acts, act.IsInside)
    (run : Runs.exec (step first last) (start threads) acts = some final)
    (ends : final.isTerminated = true) : final.Gone threads := by
  have preserved (app : ApplicationLoop) (act : Act) (next : ApplicationLoop)
      (before : app.Accounted threads) (quiet : act.IsInside)
      (taken : app.step first last act = some next) : next.Accounted threads :=
    before.moves quiet (moves_of_step taken)
  have allowed := Runs.along_of_forall_mem (step first last) inside (start threads)
  exact (Runs.exec_invariant preserved (accounted_start threads) allowed run).ended ends

/-- The only thread is removed and the loop ends. -/
theorem ends_after_last_removal :
    ∃ acts final, (∀ act ∈ acts, act.IsInside) ∧
      Runs.exec (step 0 2) (start [7]) acts = some final ∧ final.Gone [7] := by
  let acts : List Act :=
    .post (Threads.removeEvent 7) :: List.replicate 12 (.exec ⟨⟨true, true, ""⟩, fun _ => none⟩)
  have inside : ∀ act ∈ acts, act.IsInside := by
    simp [acts, Act.IsInside, Event.Ends, Threads.removeEvent]
  have run : Runs.exec (step 0 2) (start [7]) acts = some _ := rfl
  exact ⟨_, _, inside, run, ends_after_last 0 2 [7] inside run rfl⟩

/-! ## Soon after the shutdown -/

/-- The steps from the round of a type on, when that many types are left. -/
def roundSteps (count rounds : Nat) : Nat := rounds * (count + 2) + 1

/-- The steps that handling an event adds. -/
def eventSteps (first last count : Nat) (event : Event) : Nat :=
  if event.type = .applicationClose then roundSteps count (last - first) else 0

/-- The steps from a `try_pull` until the loop is left, with a shutdown in the queue. -/
def pullSteps (first last count : Nat) : List Event → Nat
  | [] => 0
  | event :: queue =>
      if event.type = .applicationShutdown then 3
      else 4 + eventSteps first last count event + pullSteps first last count queue

/-- The steps from the end of a turn until the loop is left. -/
def sleepSteps (first last count : Nat) (isTerminated : Bool) (queue : List Event) : Nat :=
  if isTerminated then 2 else 3 + pullSteps first last count queue

/-- The steps that `exec` has left if it lists no more than `count` threads. -/
def stepsLeft (first last count : Nat) (app : ApplicationLoop) : Nat :=
  let sleepSteps := sleepSteps first last count app.isTerminated app.application.queue
  match app.point with
  | .test => sleepSteps - 1
  | .interruptionPoint => 1 + pullSteps first last count app.application.queue
  | .pull => pullSteps first last count app.application.queue
  | .stop type => roundSteps count (type - first) + sleepSteps
  | .settle type todo => todo.length + 1 + roundSteps count (type - 1 - first) + sleepSteps
  | .sleep => sleepSteps
  | .returned _ => 0

/-- The act is a step of `exec`. -/
def Act.isExec : Act → Bool
  | .exec _ => true
  | _ => false

/-- There is a shutdown in the queue, or the loop is terminated. -/
structure Ending (app : ApplicationLoop) : Prop where
  inTime : app.InTime
  comes : app.isTerminated = false →
    ∃ event ∈ app.application.queue, event.type = .applicationShutdown

variable {count : Nat}

theorem pullSteps_append {queue : List Event}
    (comes : ∃ event ∈ queue, event.type = .applicationShutdown) (further : List Event) :
    pullSteps first last count (queue ++ further) = pullSteps first last count queue := by
  induction queue with
  | nil => simp at comes
  | cons event queue induction =>
      rw [List.cons_append, pullSteps, pullSteps]
      split
      · rfl
      · rename_i type
        have later : ∃ event ∈ queue, event.type = .applicationShutdown := by
          simpa [type] using comes
        rw [induction later]

theorem pullSteps_pos {queue : List Event}
    (comes : ∃ event ∈ queue, event.type = .applicationShutdown) :
    3 ≤ pullSteps first last count queue := by
  induction queue with
  | nil => simp at comes
  | cons event queue induction =>
      rw [pullSteps]
      split
      · exact le_rfl
      · omega

theorem roundSteps_sub (type : Nat) (more : first < type) :
    roundSteps count (type - first) = count + 2 + roundSteps count (type - 1 - first) := by
  obtain ⟨rounds, rfl⟩ := Nat.exists_eq_add_of_lt more
  have now : first + rounds + 1 - first = rounds + 1 := by omega
  have then_left : first + rounds + 1 - 1 - first = rounds := by omega
  rw [now, then_left, roundSteps, roundSteps, Nat.succ_mul]
  omega

theorem two_le_sleepSteps (isTerminated : Bool) (queue : List Event) :
    2 ≤ sleepSteps first last count isTerminated queue := by
  unfold sleepSteps
  split <;> omega

theorem Ending.post (ending : app.Ending) (event : Event) : (app.post event).Ending :=
  ⟨ending.inTime, fun goes => by
    obtain ⟨shutdown, member, type⟩ := ending.comes goes
    exact ⟨shutdown, List.mem_append_left _ member, type⟩⟩

theorem Ending.sleepSteps_append (ending : app.Ending) (further : List Event) :
    sleepSteps first last count app.isTerminated (app.application.queue ++ further) =
      sleepSteps first last count app.isTerminated app.application.queue := by
  cases goes : app.isTerminated with
  | true => rfl
  | false => simp [sleepSteps, pullSteps_append (ending.comes goes)]

/-- Nothing that is posted delays the end. -/
theorem Ending.stepsLeft_post (ending : app.Ending) (event : Event) :
    (app.post event).stepsLeft first last count = app.stepsLeft first last count := by
  simp only [stepsLeft, post_point, post_queue, post_isTerminated, ending.sleepSteps_append]
  split
  · rfl
  · rw [pullSteps_append (ending.comes (ending.inTime (.inl ‹_›)))]
  · rw [pullSteps_append (ending.comes (ending.inTime (.inr ‹_›)))]
  all_goals rfl

/-- Neither the threads nor the records of what was done change what is left. -/
theorem Ending.of_eq (ending : app.Ending) (point : next.point = app.point)
    (terminated : next.isTerminated = app.isTerminated)
    (queue : next.application.queue = app.application.queue) :
    next.Ending ∧ next.stepsLeft first last count = app.stepsLeft first last count := by
  refine ⟨⟨?_, ?_⟩, ?_⟩
  · simpa only [InTime, point, terminated] using ending.inTime
  · simpa only [terminated, queue] using ending.comes
  · simp only [stepsLeft, sleepSteps, point, terminated, queue]

theorem Ending.of_eq_le {bound : Nat} (ending : app.Ending) (point : next.point = app.point)
    (terminated : next.isTerminated = app.isTerminated)
    (queue : next.application.queue = app.application.queue)
    (within : 1 + app.stepsLeft first last count ≤ bound) :
    next.Ending ∧ 1 + next.stepsLeft first last count ≤ bound := by
  obtain ⟨after, same⟩ : next.Ending ∧
      next.stepsLeft first last count = app.stepsLeft first last count :=
    ending.of_eq point terminated queue
  exact ⟨after, same ▸ within⟩

/-- What is posted at the end of a step leaves the bound as it is. -/
theorem Ending.post_le {bound : Nat}
    (ended : app.Ending ∧ 1 + app.stepsLeft first last count ≤ bound) (event : Event) :
    (app.post event).Ending ∧ 1 + (app.post event).stepsLeft first last count ≤ bound :=
  ⟨ended.1.post event, by rw [ended.1.stepsLeft_post]; exact ended.2⟩

/-- A turn is over without the shutdown having come. -/
theorem Ending.pulled (ending : app.Ending) (goes : app.isTerminated = false) {event : Event}
    {queue : List Event} (waiting : app.application.queue = event :: queue)
    (type : event.type ≠ .applicationShutdown) : (app.pulled event queue).Ending := by
  refine ⟨by simp [InTime, ApplicationLoop.pulled], fun _ => ?_⟩
  obtain ⟨shutdown, member, shuts⟩ := ending.comes goes
  rw [waiting] at member
  rcases List.mem_cons.mp member with rfl | later
  · exact (type shuts).elim
  · exact ⟨shutdown, later, shuts⟩

theorem Ending.handles (ending : app.Ending) (place : app.point = .pull) {event : Event}
    {queue : List Event} (waiting : app.application.queue = event :: queue)
    (handles : (app.pulled event queue).Handles last event next) :
    next.Ending ∧ 1 + next.stepsLeft first last count ≤ app.stepsLeft first last count := by
  have goes := ending.inTime (.inr place)
  have now : app.stepsLeft first last count =
      if event.type = .applicationShutdown then 3
      else 4 + eventSteps first last count event + pullSteps first last count queue := by
    rw [stepsLeft, place, waiting, pullSteps]
  by_cases type : event.type = .applicationShutdown
  · rw [now, if_pos type]
    cases handles with
    | shutdown => exact ⟨⟨by simp [InTime, ApplicationLoop.pulled], by simp⟩, le_rfl⟩
    | ignore _ other => exact (other type).elim
    | removeLast other | remove other | close other | gone other => simp [type] at other
  · have after := ending.pulled goes waiting type
    have slept : (app.pulled event queue).stepsLeft first last count =
        3 + pullSteps first last count queue := by
      simp [stepsLeft, sleepSteps, ApplicationLoop.pulled, goes]
    rw [now, if_neg type]
    have bound : 1 + (3 + pullSteps first last count queue) ≤
        4 + eventSteps first last count event + pullSteps first last count queue := by omega
    rw [← slept] at bound
    cases handles with
    | ignore | remove => exact after.of_eq_le rfl rfl rfl bound
    | removeLast =>
        refine Ending.post_le ?_ _
        exact after.of_eq_le rfl rfl rfl bound
    | gone => exact Ending.post_le ⟨after, bound⟩ _
    | close closes =>
        refine ⟨⟨by simp [InTime], after.comes⟩, ?_⟩
        simp only [eventSteps, closes, if_true, stepsLeft, sleepSteps, ApplicationLoop.pulled, goes]
        simp
        omega
    | shutdown shuts => exact (type shuts).elim

theorem Moves.length_le (moves : app.Moves first last act next) :
    app.application.threads.length ≤ next.application.threads.length := by
  cases moves with
  | addThread thread startWork => simp [Application.addThread]; split <;> simp
  | handle place event queue waiting next handles =>
      cases handles <;> simp [pulled, shutdown, Cxx.length_remove]
  | _ => simp [shutdown]

theorem Ending.moves (ending : app.Ending) (moves : app.Moves first last act next)
    (few : app.application.threads.length ≤ count) :
    next.Ending ∧
      act.isExec.toNat + next.stepsLeft first last count ≤ app.stepsLeft first last count := by
  have inTime := ending.inTime.moves moves
  have waits : 2 ≤ sleepSteps first last count app.isTerminated app.application.queue :=
    two_le_sleepSteps _ _
  cases moves with
  | post event =>
      exact ⟨ending.post event, by simp [Act.isExec, ending.stepsLeft_post]⟩
  | interrupt | startTrace =>
      exact And.imp_right (fun same => (Nat.zero_add _).trans_le same.le) (ending.of_eq rfl rfl rfl)
  | addThread thread startWork =>
      have queue : (app.application.addThread thread startWork).queue = app.application.queue := by
        unfold Application.addThread
        split <;> rfl
      exact And.imp_right (fun same => (Nat.zero_add _).trans_le same.le)
        (ending.of_eq rfl rfl queue)
  | enter place goes =>
      refine ⟨⟨inTime, ending.comes⟩, ?_⟩
      simp [Act.isExec, stepsLeft, sleepSteps, place, goes]
      omega
  | leave place ends =>
      refine ⟨⟨inTime, ending.comes⟩, ?_⟩
      simp [Act.isExec, stepsLeft, place]
      omega
  | interrupted place =>
      refine ⟨⟨inTime, (ending.post shutdownEvent).comes⟩, ?_⟩
      rcases place with place | place <;> simp [Act.isExec, shutdown, stepsLeft, place]
      omega
  | come place =>
      refine ⟨⟨inTime, ending.comes⟩, ?_⟩
      simp [Act.isExec, stepsLeft, place]
  | idle place empty =>
      obtain ⟨shutdown, member, -⟩ := ending.comes (ending.inTime (.inr place))
      simp [empty] at member
  | handle place event queue waiting next handles => exact ending.handles place waiting handles
  | round type place more selected selects =>
      refine ⟨⟨inTime, ending.comes⟩, ?_⟩
      have fewer : selected.length ≤ count :=
        (selects ▸ List.length_filter_le _ _).trans few
      simp [Act.isExec, stepsLeft, place, roundSteps_sub type more]
      omega
  | rounded type place ended =>
      refine ⟨⟨inTime, ending.comes⟩, ?_⟩
      simp [Act.isExec, stepsLeft, place, roundSteps]
  | settled type place =>
      refine ⟨⟨inTime, ending.comes⟩, ?_⟩
      simp [Act.isExec, stepsLeft, place]
      omega
  | settleQuit type thread todo place =>
      refine ⟨⟨inTime, (ending.post _).comes⟩, ?_⟩
      simp [Act.isExec, stepsLeft, place, ending.sleepSteps_append]
      omega
  | settleWait type thread todo place =>
      refine ⟨⟨inTime, ending.comes⟩, ?_⟩
      simp [Act.isExec, stepsLeft, place]
      omega
  | wake place =>
      refine ⟨⟨inTime, ending.comes⟩, ?_⟩
      simp [Act.isExec, stepsLeft, place]
      omega

/-- Nothing is left to do only for a loop that has returned. -/
theorem Ending.returned (ending : app.Ending) (done : app.stepsLeft first last count = 0) :
    ∃ code, app.point = .returned code := by
  have waits : 2 ≤ sleepSteps first last count app.isTerminated app.application.queue :=
    two_le_sleepSteps _ _
  cases place : app.point with
  | returned code => exact ⟨code, rfl⟩
  | pull =>
      have shuts := ending.comes (ending.inTime (.inr place))
      have left : 3 ≤ pullSteps first last count app.application.queue := pullSteps_pos shuts
      simp [stepsLeft, place] at done
      omega
  | interruptionPoint | settle => simp [stepsLeft, place] at done
  | test | stop | sleep =>
      simp [stepsLeft, place] at done
      omega

/-- Until it has returned, `exec` can make a step, whatever it reads. -/
theorem exec_isSome_iff (reading : Reading) :
    (app.exec first last reading).isSome ↔ ∀ code, app.point ≠ .returned code := by
  unfold exec
  cases place : app.point with
  | returned code => simp
  | pull => cases app.application.queue <;> simp
  | settle type todo =>
      cases todo with
      | nil => simp
      | cons thread todo => cases reading.status.isStarted <;> simp
  | test => cases app.isTerminated <;> cases app.isInterrupted <;> simp
  | interruptionPoint | sleep => cases app.isInterrupted <;> simp
  | stop type => by_cases more : first < type <;> simp [more]

/-- From an ending loop on, a run has no more steps of `exec` than are left, and with as many the
loop has returned. -/
theorem Ending.returns (ending : app.Ending) {acts : List Act}
    (run : Runs.exec (step first last) app acts = some later) :
    acts.countP Act.isExec ≤ app.stepsLeft first last later.application.threads.length ∧
      (acts.countP Act.isExec = app.stepsLeft first last later.application.threads.length →
        ∃ code, later.point = .returned code) := by
  obtain ⟨count, limit⟩ : ∃ count, later.application.threads.length = count := ⟨_, rfl⟩
  rw [limit]
  have earlier (app : ApplicationLoop) (act : Act) (next : ApplicationLoop)
      (taken : app.step first last act = some next)
      (few : next.application.threads.length ≤ count) : app.application.threads.length ≤ count :=
    (moves_of_step taken).length_le.trans few
  have lowers (app : ApplicationLoop) (act : Act) (next : ApplicationLoop) (ending : app.Ending)
      (few : app.application.threads.length ≤ count)
      (taken : app.step first last act = some next) :=
    ending.moves (moves_of_step taken) few
  obtain ⟨atEnd, lowered⟩ := Runs.countP_add_measure_le (stepsLeft first last count) Act.isExec
    earlier lowers ending run limit.le
  refine ⟨by omega, fun all => ?_⟩
  have nothing : later.stepsLeft first last count = 0 := by omega
  exact atEnd.returned nothing

end ApplicationLoop

end Drumlin
