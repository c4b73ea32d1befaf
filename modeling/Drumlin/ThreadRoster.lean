import Drumlin.Library.Runs
import Drumlin.ThreadAccessor

/-!
# The threads that are there

The roster is what `m_threads` is meant to hold: the threads added and not yet removed.
`std::remove` without `erase` loses none of them, but leaves other pointers behind.
-/

namespace Drumlin

/-- An application with the threads added to it so far, and those of them not yet removed. -/
structure Session where
  /-- The application. -/
  application : Application
  /-- The threads added. -/
  added : List Nat
  /-- The threads added and not yet removed. -/
  roster : List Nat
deriving DecidableEq, Repr

namespace Session

/-- Nothing was added yet. -/
def start : Session := ⟨.start, [], []⟩

/-- A call made on the application. -/
inductive Call
  | addThread (thread : Nat) (startWork : Bool)
  | removeThread (thread : Nat) (status : ThreadStatus)
deriving DecidableEq, Repr

/-- The thread the call removes, if it does not throw. -/
def Call.removed : Call → Option Nat
  | .addThread .. => none
  | .removeThread thread status => if status.isRunning then none else some thread

/-- One call. -/
def call (session : Session) : Call → Session
  | .addThread thread startWork =>
      { application := session.application.addThread thread startWork
        added := session.added ++ [thread]
        roster := session.roster ++ [thread] }
  | .removeThread thread status =>
      let (application, exception) := session.application.removeThread thread status
      { session with
        application
        roster := if exception.isSome then session.roster else session.roster.erase thread }

/-- Threads are distinct: a thread is added once, and removed only while it is on the roster. -/
def Allows (session : Session) : Call → Prop
  | .addThread thread _ => thread ∉ session.added
  | .removeThread thread _ => thread ∈ session.roster

/-- The two outcomes of `removeThread`: the thread goes from the roster, or the call throws and
changes nothing. -/
theorem removeThread_cases (session : Session) (thread : Nat) (status : ThreadStatus) :
    status.isRunning = false ∧
      (session.call (.removeThread thread status)).application.threads =
        (Cxx.remove thread session.application.threads).1 ∧
      (session.call (.removeThread thread status)).application.deleted =
        session.application.deleted ++ [thread] ∧
      (session.call (.removeThread thread status)).application.queue =
        session.application.queue ++
          (if ∀ other ∈ session.application.threads, other = thread then
            [Application.threadsGone] else []) ∧
      (session.call (.removeThread thread status)).roster = session.roster.erase thread ∧
      (session.call (.removeThread thread status)).added = session.added ∨
    status.isRunning = true ∧ session.call (.removeThread thread status) = session := by
  rcases session.application.removeThread_cases thread status with
    ⟨running, result⟩ | ⟨stopped, result⟩
  · exact .inr ⟨running, by simp [call, result]⟩
  · exact .inl ⟨stopped, by simp [call, result]⟩

/-- What every call keeps: no thread of the roster is lost, and nothing is ever forgotten. -/
structure Tracked (session : Session) : Prop where
  distinct : session.roster.Nodup
  listed : session.roster ⊆ session.application.threads
  known : session.application.threads ⊆ session.added
  size : session.application.threads.length = session.added.length
  total : session.application.threads.length =
    session.roster.length + session.application.deleted.length
  untouched : session.application.deleted = [] → session.application.threads = session.roster

theorem Tracked.start : Session.start.Tracked := by
  refine ⟨?_, ?_, ?_, ?_, ?_, ?_⟩ <;> simp [Session.start, Application.start]

theorem Tracked.call {session : Session} (tracked : session.Tracked) {request : Call}
    (allowed : session.Allows request) : (session.call request).Tracked := by
  cases request with
  | addThread thread startWork =>
      have new : thread ∉ session.roster := fun member =>
        allowed (tracked.known (tracked.listed member))
      have threads : (session.application.addThread thread startWork).threads =
          session.application.threads ++ [thread] := by
        cases startWork <;> rfl
      have deleted : (session.application.addThread thread startWork).deleted =
          session.application.deleted := by
        cases startWork <;> rfl
      refine ⟨?_, ?_, ?_, ?_, ?_, ?_⟩ <;> simp only [Session.call, threads, deleted]
      · simpa [List.nodup_append, tracked.distinct] using
          fun other member => ne_of_mem_of_not_mem member new
      · simpa using List.subset_append_of_subset_left _ tracked.listed
      · simpa using List.subset_append_of_subset_left _ tracked.known
      · simp [tracked.size]
      · have total := tracked.total
        simp only [List.length_append]
        omega
      · intro none
        rw [tracked.untouched none]
  | removeThread thread status =>
      rcases removeThread_cases session thread status with
        ⟨_, threads, deleted, _, roster, added⟩ | ⟨_, unchanged⟩
      · refine ⟨?_, ?_, ?_, ?_, ?_, ?_⟩
        · rw [roster]
          exact tracked.distinct.erase thread
        · rw [roster, threads]
          intro other member
          obtain ⟨distinct, before⟩ := tracked.distinct.mem_erase_iff.mp member
          exact Cxx.mem_remove_of_ne (tracked.listed before) distinct
        · rw [threads, added]
          exact fun other member => tracked.known (Cxx.mem_of_mem_remove member)
        · rw [threads, added, Cxx.length_remove, tracked.size]
        · have total := tracked.total
          have present := List.length_pos_of_mem allowed
          rw [roster, threads, deleted, Cxx.length_remove, List.length_erase_of_mem allowed,
            List.length_append, List.length_singleton]
          omega
        · simp [deleted]
      · rw [unchanged]
        exact tracked

/-! ## What `m_threads` holds -/

/-- `m_threads` holds the threads of the roster, each once, and no selection dereferences a deleted
thread. -/
structure Faithful (session : Session) : Prop where
  /-- The threads listed are those added and not yet removed. -/
  listed : session.application.threads.Perm session.roster
  /-- No thread listed was deleted. -/
  live : ∀ thread ∈ session.application.threads, thread ∉ session.application.deleted
  /-- No selection meets a thread that was. -/
  visited : ∀ (attributes : ThreadAttributes) (access : ThreadAccessor)
    (selection : ThreadAccessor.Selection),
    ∀ thread ∈ (access.select attributes session.application selection).2,
      thread ∉ session.application.deleted

/-- The vector is faithful exactly as long as no thread was deleted. -/
theorem Tracked.faithful_iff_undeleted {session : Session} (tracked : session.Tracked) :
    session.Faithful ↔ session.application.deleted = [] := by
  constructor
  · intro faithful
    have total := tracked.total
    rw [faithful.listed.length_eq] at total
    exact List.length_eq_zero_iff.mp (by omega)
  · intro none
    refine ⟨?_, ?_, ?_⟩
    · rw [tracked.untouched none]
    · simp [none]
    · simp [none]

theorem call_deleted_eq_nil_iff (session : Session) (request : Call) :
    (session.call request).application.deleted = [] ↔
      session.application.deleted = [] ∧ request.removed = none := by
  cases request with
  | addThread thread startWork =>
      cases startWork <;> simp [call, Application.addThread, Call.removed]
  | removeThread thread status =>
      rcases removeThread_cases session thread status with
        ⟨stopped, _, deleted, _⟩ | ⟨running, unchanged⟩
      · simp [deleted, Call.removed, stopped]
      · simp [unchanged, Call.removed, running]

theorem foldl_deleted_eq_nil_iff (calls : List Call) (session : Session) :
    (calls.foldl call session).application.deleted = [] ↔
      session.application.deleted = [] ∧ ∀ request ∈ calls, request.removed = none := by
  induction calls generalizing session with
  | nil => simp
  | cons request calls induction =>
      rw [List.foldl_cons, induction, call_deleted_eq_nil_iff, List.forall_mem_cons, and_assoc]

/-- What all calls keep holds after every run on distinct threads. -/
theorem Tracked.foldl {session : Session} (tracked : session.Tracked) {calls : List Call}
    (allowed : Runs.Along (Runs.total Session.call) Allows session calls) :
    (calls.foldl Session.call session).Tracked := by
  refine Runs.exec_invariant ?_ tracked allowed (Runs.exec_total ..)
  rintro session request _ before valid ⟨⟩
  exact before.call valid

/-- `m_threads` is faithful exactly until the first thread is removed. -/
theorem faithful_iff {calls : List Call}
    (distinct : Runs.Along (Runs.total call) Allows start calls) :
    (calls.foldl call start).Faithful ↔
      ∀ request ∈ calls, request.removed = none := by
  rw [(Tracked.start.foldl distinct).faithful_iff_undeleted, foldl_deleted_eq_nil_iff]
  exact and_iff_right rfl

/-- Two threads are added and started, and `m_threads` holds both. -/
theorem faithful_two :
    ([Call.addThread 1 true, .addThread 2 true].foldl call start).Faithful := by
  refine (faithful_iff ?_).mpr ?_
  · simp [Allows, call, start]
  · simp [Call.removed]

/-- Of two threads the second is removed: the pointer to it stays. -/
theorem faithful_fails :
    ¬∀ calls : List Call, Runs.Along (Runs.total call) Allows start calls →
      (calls.foldl call start).Faithful := by
  intro faithful
  let status : ThreadStatus := ⟨false, false, ""⟩
  let calls : List Call := [.addThread 1 false, .addThread 2 false, .removeThread 2 status]
  have distinct : Runs.Along (Runs.total call) Allows start calls := by
    simp [calls, Allows, call, start, Application.removeThread, status, ThreadStatus.isRunning]
  have live := (faithful calls distinct).live
  exact live 2 (by decide) (by decide)

/-! ## The last thread -/

/-- The call posts that there are no threads left exactly if it removes the last of the roster. -/
def PostsExactly (session : Session) (request : Call) : Prop :=
  (session.call request).application.queue =
    session.application.queue ++
      match request.removed with
      | some thread => if session.roster = [thread] then [Application.threadsGone] else []
      | none => []

/-- The call leaves no pointer behind that matters later: it adds no thread after all were removed,
and a thread it removes while others are left has none of the last places of `m_threads`, as many
of them as `m_threads` has entries for it. -/
def LeavesNoneBehind (session : Session) : Call → Prop
  | .addThread _ _ => session.roster = [] → session.added = []
  | .removeThread thread status =>
      status.isRunning = false → session.roster ≠ [thread] →
        thread ∉ session.application.threads.drop
          (session.application.threads.length - session.application.threads.count thread)

/-- As long as threads are left, nothing else is listed. -/
def Clean (session : Session) : Prop :=
  session.roster ≠ [] → session.application.threads ⊆ session.roster

private theorem eq_singleton_of_nodup {roster : List Nat} {thread : Nat}
    (distinct : roster.Nodup) (member : thread ∈ roster)
    (only : ∀ other ∈ roster, other = thread) : roster = [thread] := by
  cases roster with
  | nil => simp at member
  | cons head rest =>
      obtain rfl := only head List.mem_cons_self
      have rest_empty : rest = [] := by
        refine List.eq_nil_iff_forall_not_mem.mpr fun other present => ?_
        obtain rfl := only other (List.mem_cons_of_mem _ present)
        exact (List.nodup_cons.mp distinct).1 present
      rw [rest_empty]

/-- If only the removed thread is listed, it is the last. -/
theorem Tracked.roster_eq_of_forall {session : Session} (tracked : session.Tracked)
    {thread : Nat} (member : thread ∈ session.roster)
    (only : ∀ other ∈ session.application.threads, other = thread) :
    session.roster = [thread] :=
  eq_singleton_of_nodup tracked.distinct member fun other present =>
    only other (tracked.listed present)

/-- From a clean state every removal posts exactly. -/
theorem Tracked.postsExactly {session : Session} (tracked : session.Tracked)
    (clean : session.Clean) {request : Call} (allowed : session.Allows request) :
    session.PostsExactly request := by
  cases request with
  | addThread thread startWork =>
      cases startWork <;> simp [PostsExactly, Session.call, Call.removed, Application.addThread]
  | removeThread thread status =>
      rcases removeThread_cases session thread status with
        ⟨stopped, _, _, queue, _⟩ | ⟨running, unchanged⟩
      · have last : (∀ other ∈ session.application.threads, other = thread) ↔
            session.roster = [thread] := by
          refine ⟨tracked.roster_eq_of_forall allowed, fun only other member => ?_⟩
          have listed := clean (List.ne_nil_of_mem allowed) member
          simpa [only] using listed
        simp [PostsExactly, queue, Call.removed, stopped, last]
      · simp [PostsExactly, unchanged, Call.removed, running]

/-- A clean state stays clean precisely through the calls that leave no pointer behind. -/
theorem Tracked.clean_call_iff {session : Session} (tracked : session.Tracked)
    (clean : session.Clean) {request : Call} (allowed : session.Allows request) :
    (session.call request).Clean ↔ session.LeavesNoneBehind request := by
  cases request with
  | addThread thread startWork =>
      have threads : (session.call (.addThread thread startWork)).application.threads =
          session.application.threads ++ [thread] := by
        cases startWork <;> rfl
      have roster : (session.call (.addThread thread startWork)).roster =
          session.roster ++ [thread] := rfl
      rw [Clean, roster, threads]
      simp only [LeavesNoneBehind, ne_eq, List.append_eq_nil_iff, List.cons_ne_nil, and_false,
        not_false_eq_true, forall_true_left]
      constructor
      · intro kept none
        have empty : session.application.threads = [] := by
          refine List.eq_nil_iff_forall_not_mem.mpr fun other member => ?_
          have same : other = thread := by
            simpa [none] using kept (List.mem_append_left _ member)
          exact allowed (same ▸ tracked.known member)
        have size := tracked.size
        rw [empty] at size
        exact List.length_eq_zero_iff.mp size.symm
      · intro first
        by_cases none : session.roster = []
        · have size := tracked.size
          rw [first none, List.length_nil, List.length_eq_zero_iff] at size
          simp [none, size]
        · simpa using List.subset_append_of_subset_left _ (clean none)
  | removeThread thread status =>
      rcases removeThread_cases session thread status with
        ⟨stopped, threads, _, _, roster, _⟩ | ⟨running, unchanged⟩
      · have listed := clean (List.ne_nil_of_mem allowed)
        have others : session.roster.erase thread ≠ [] ↔ session.roster ≠ [thread] := by
          simp [List.erase_eq_nil_iff, List.ne_nil_of_mem allowed]
        rw [Clean, roster, others, threads]
        simp only [LeavesNoneBehind, stopped, forall_true_left, ← Cxx.self_mem_remove_iff]
        refine forall_congr' fun more => ⟨fun kept left => ?_, fun gone other member => ?_⟩
        · exact (tracked.distinct.mem_erase_iff.mp (kept left)).1 rfl
        · have distinct : other ≠ thread := fun same => gone (same ▸ member)
          exact tracked.distinct.mem_erase_iff.mpr
            ⟨distinct, listed (Cxx.mem_of_mem_remove member)⟩
      · rw [unchanged]
        exact iff_of_true clean (by simp [LeavesNoneBehind, running])

/-- A pointer left behind stays, and hides the removal of the last thread. -/
private theorem Tracked.stale_call {session : Session} (tracked : session.Tracked)
    (stale : ¬session.Clean) {request : Call} (allowed : session.Allows request) :
    ¬(session.call request).Clean ∨ ¬session.PostsExactly request := by
  obtain ⟨left, more⟩ := Classical.not_imp.mp stale
  obtain ⟨other, listed, gone⟩ : ∃ other ∈ session.application.threads, other ∉ session.roster := by
    simpa [List.subset_def] using more
  cases request with
  | addThread thread startWork =>
      refine .inl fun clean => ?_
      have kept : other ∈ (session.call (.addThread thread startWork)).application.threads := by
        cases startWork <;> exact List.mem_append_left _ listed
      rcases List.mem_append.mp (clean (by simp [Session.call]) kept) with before | new
      · exact gone before
      · exact allowed (List.mem_singleton.mp new ▸ tracked.known listed)
  | removeThread thread status =>
      rcases removeThread_cases session thread status with
        ⟨stopped, threads, _, queue, roster, _⟩ | ⟨_, unchanged⟩
      · have distinct : other ≠ thread := fun same => gone (same ▸ allowed)
        by_cases last : session.roster = [thread]
        · refine .inr fun posts => ?_
          have hidden : ¬∀ other ∈ session.application.threads, other = thread :=
            fun only => distinct (only other listed)
          simp [PostsExactly, queue, hidden, Call.removed, stopped, last] at posts
        · refine .inl fun clean => gone ?_
          have others : (session.call (.removeThread thread status)).roster ≠ [] := by
            simp [roster, List.erase_eq_nil_iff, left, last]
          have member := clean others (threads ▸ Cxx.mem_remove_of_ne listed distinct)
          exact List.mem_of_mem_erase (roster ▸ member)
      · rw [unchanged]
        exact .inl stale

private theorem Tracked.stale_foldl {session : Session} (tracked : session.Tracked)
    (stale : ¬session.Clean) {calls : List Call}
    (allowed : Runs.Along (Runs.total Session.call) Allows session calls)
    (gone : (calls.foldl Session.call session).roster = []) :
    ¬Runs.Along (Runs.total Session.call) PostsExactly session calls := by
  induction calls generalizing session with
  | nil => exact fun _ => stale fun left => (left gone).elim
  | cons request calls induction =>
      rw [Runs.along_total_cons] at allowed ⊢
      rintro ⟨posts, later⟩
      rcases tracked.stale_call stale allowed.1 with still | missed
      · exact induction (tracked.call allowed.1) still allowed.2 gone later
      · exact missed posts

private theorem Tracked.leavesNoneBehind {session : Session} (tracked : session.Tracked)
    (clean : session.Clean) {calls : List Call}
    (allowed : Runs.Along (Runs.total Session.call) Allows session calls)
    (gone : (calls.foldl Session.call session).roster = [])
    (posts : Runs.Along (Runs.total Session.call) PostsExactly session calls) :
    Runs.Along (Runs.total Session.call) LeavesNoneBehind session calls := by
  induction calls generalizing session with
  | nil => trivial
  | cons request calls induction =>
      rw [Runs.along_total_cons] at allowed posts ⊢
      by_cases next : (session.call request).Clean
      · exact ⟨(tracked.clean_call_iff clean allowed.1).mp next,
          induction (tracked.call allowed.1) next allowed.2 gone posts.2⟩
      · exact ((tracked.call allowed.1).stale_foldl next allowed.2 gone posts.2).elim

/-- Every removal posts that the threads are gone exactly when it removes the last one, in the runs
in which no call leaves a pointer behind; and only in these, if all threads are removed. -/
theorem postsExactly_of_leavesNoneBehind {calls : List Call}
    (distinct : Runs.Along (Runs.total call) Allows start calls) :
    (Runs.Along (Runs.total call) LeavesNoneBehind start calls →
      Runs.Along (Runs.total call) PostsExactly start calls) ∧
    ((calls.foldl call start).roster = [] →
      Runs.Along (Runs.total call) PostsExactly start calls →
      Runs.Along (Runs.total call) LeavesNoneBehind start calls) := by
  have clean : start.Clean := fun left => (left rfl).elim
  refine ⟨fun none => ?_, Tracked.start.leavesNoneBehind clean distinct⟩
  refine Runs.Along.of_invariant (fun session => session.Tracked ∧ session.Clean) ?_ ?_
    ⟨Tracked.start, clean⟩ distinct none
  · rintro session request _ allowed none ⟨tracked, clean⟩ ⟨⟩
    exact ⟨tracked.call allowed, (tracked.clean_call_iff clean allowed).mpr none⟩
  · rintro session request allowed ⟨tracked, clean⟩
    exact tracked.postsExactly clean allowed

/-- Two threads removed in the order in which they were added. -/
theorem postsExactly_two :
    Runs.Along (Runs.total call) PostsExactly start
      [.addThread 1 false, .addThread 2 false, .removeThread 1 ⟨false, false, ""⟩,
        .removeThread 2 ⟨false, false, ""⟩] := by
  refine (postsExactly_of_leavesNoneBehind ?_).1 ?_
  · simp [Allows, call, start, Application.removeThread, ThreadStatus.isRunning]
  · simp [LeavesNoneBehind, call, start, Application.removeThread, ThreadStatus.isRunning,
      Application.addThread, Application.start, Cxx.remove]

/-- Two threads removed in the opposite order: nothing says that they are gone. -/
theorem postsExactly_fails :
    ¬∀ calls : List Call, Runs.Along (Runs.total call) Allows start calls →
      Runs.Along (Runs.total call) PostsExactly start calls := by
  intro posts
  let status : ThreadStatus := ⟨false, false, ""⟩
  have missed := posts
    [.addThread 1 false, .addThread 2 false, .removeThread 2 status, .removeThread 1 status]
    (by simp [Allows, call, start, Application.removeThread, status, ThreadStatus.isRunning])
  simp only [Runs.along_total_cons] at missed
  exact absurd missed.2.2.2.1 (by unfold PostsExactly; decide)

end Session

end Drumlin
