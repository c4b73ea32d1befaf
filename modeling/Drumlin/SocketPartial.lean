import Drumlin.Socket

/-!
# Sends that are cut short

A completion may report fewer bytes than were passed to the send.  `bytesWritten` then returns
without another send, so that the rest of the buffer is never sent.
-/

namespace Drumlin.Socket

variable {socket : WriteSide} {payloads : List Str}

/-! ## Completions of any count -/

/-- The completion of a send, by its place, that reports a count of at most what was passed. -/
def report (socket : WriteSide) (completion : Nat × Nat) : Option WriteSide :=
  match socket.sends[completion.1]? with
  | none => some socket
  | some buffer =>
      if completion.2 ≤ buffer.bytes.length then complete completion.1 completion.2 socket
      else some socket

/-- The bytes that the transport accepted. -/
def accepted (socket : WriteSide) : Str :=
  socket.log.flatMap fun entry => entry.1.bytes.take entry.2

/-- A socket to which the payloads were written, one after another. -/
def fill (finished : Bool) (payloads : List Str) : WriteSide :=
  payloads.foldl (fun socket bytes => (write bytes false socket).1) (start finished)

/-- Where the bytes of a buffer begin in the concatenation of the payloads. -/
def startOf (payloads : List Str) (buffer : Buffer) : Nat :=
  (payloads.take buffer.number).flatten.length

/-- What was accepted is the beginning of the payloads, and if there is more, then one send is
outstanding, of a buffer that begins there. -/
structure InOrder (payloads : List Str) (socket : WriteSide) : Prop where
  accepted : accepted socket <+: payloads.flatten
  resumes : Socket.accepted socket ≠ payloads.flatten →
    ∃ send, socket.sends = [send] ∧ payloads[send.number]? = some send.bytes ∧
      startOf payloads send = (Socket.accepted socket).length

/-- After one call of `writing` the payloads are delivered in order. -/
def Delivers (finished : Bool) (payloads : List Str) (completions : List (Nat × Nat)) : Prop :=
  ∃ begun, writing (fill finished payloads) = some begun ∧ InOrder payloads begun ∧
    Runs.Along report
      (fun socket completion => ∃ next, report socket completion = some next ∧
        InOrder payloads next) begun completions

/-- The completion reports all that was passed to the send. -/
def Full (socket : WriteSide) (completion : Nat × Nat) : Prop :=
  ∀ buffer ∈ socket.sends[completion.1]?, buffer.bytes.length ≤ completion.2

/-! ## The queue as it was filled -/

/-- Payloads as buffers, numbered from a number on. -/
def numbered (first : Nat) (payloads : List Str) : List Buffer :=
  (payloads.zipIdx first).map fun entry => ⟨entry.2, entry.1⟩

@[simp] theorem numbered_nil (first : Nat) : numbered first [] = [] := rfl

@[simp] theorem numbered_cons (first : Nat) (bytes : Str) (payloads : List Str) :
    numbered first (bytes :: payloads) = ⟨first, bytes⟩ :: numbered (first + 1) payloads := rfl

theorem fill_eq (finished : Bool) (payloads : List Str) :
    (fill finished payloads).writeBuffers = numbered 0 payloads ∧
      (fill finished payloads).made = payloads ∧ (fill finished payloads).sends = [] ∧
      (fill finished payloads).log = [] ∧ (fill finished payloads).closing = false := by
  induction payloads using List.reverseRecOn with
  | nil => exact ⟨rfl, rfl, rfl, rfl, rfl⟩
  | append_singleton payloads bytes induction =>
      obtain ⟨queue, made, sends, log, opened⟩ := induction
      have last : fill finished (payloads ++ [bytes]) =
          (write bytes false (fill finished payloads)).1 := by simp [fill]
      rw [last]
      refine ⟨?_, ?_, sends, log, opened⟩
      · simp [write, queue, made, numbered, List.zipIdx_append]
      · simp [write, made]

/-- Some payloads are sent, the first of the others is in flight, and all others are queued. -/
structure Progress (payloads sent waiting : List Str) (socket : WriteSide) : Prop where
  split : payloads = sent ++ waiting
  queue : socket.writeBuffers = numbered sent.length waiting
  accepted : accepted socket = sent.flatten
  sends : socket.sends = (numbered sent.length waiting).head?.toList
  opened : socket.closing = false

variable {sent waiting : List Str} {bytes : Str}

theorem Progress.inOrder (progress : Progress payloads sent waiting socket) :
    InOrder payloads socket := by
  refine ⟨?_, fun more => ?_⟩
  · rw [progress.accepted, progress.split, List.flatten_append]
    exact List.prefix_append _ _
  · rw [progress.accepted, progress.split] at more ⊢
    cases waiting with
    | nil => simp at more
    | cons bytes waiting =>
        exact ⟨⟨sent.length, bytes⟩, by simp [progress.sends], by simp, by simp [startOf]⟩

theorem report_of_sends {buffer : Buffer} (sends : socket.sends = [buffer]) {sz : Nat}
    (allowed : sz ≤ buffer.bytes.length) :
    report socket (0, sz) = bytesWritten false sz (settle 0 buffer sz socket) := by
  simp [report, complete, sends, allowed]

theorem accepted_settle (send : Nat) (buffer : Buffer) (sz : Nat) (socket : WriteSide) :
    accepted (settle send buffer sz socket) = accepted socket ++ buffer.bytes.take sz := by
  simp [accepted, settle]

/-- A full completion. -/
theorem Progress.report_full (progress : Progress payloads sent (bytes :: waiting) socket) :
    ∃ next, report socket (0, bytes.length) = some next ∧
      Progress payloads (sent ++ [bytes]) waiting next := by
  have sends : socket.sends = [⟨sent.length, bytes⟩] := progress.sends
  have queue : (settle 0 ⟨sent.length, bytes⟩ bytes.length socket).writeBuffers =
      ⟨sent.length, bytes⟩ :: numbered (sent.length + 1) waiting := progress.queue
  have opened : (settle 0 ⟨sent.length, bytes⟩ bytes.length socket).closing = false :=
    progress.opened
  obtain ⟨completing, taken⟩ := bytesWritten_of_full opened queue (Nat.le_refl _)
  refine ⟨_, (report_of_sends sends (Nat.le_refl _)).trans taken, ?_, ?_, ?_, ?_, progress.opened⟩
  · simp [progress.split]
  · simp
  · refine (accepted_settle 0 ⟨sent.length, bytes⟩ bytes.length socket).trans ?_
    simp [progress.accepted]
  · simp [settle, sends]

/-- After a completion that is cut short nothing is in flight, though bytes are left. -/
theorem Progress.report_short (progress : Progress payloads sent (bytes :: waiting) socket)
    {sz : Nat} (short : sz < bytes.length) :
    ∃ next, report socket (0, sz) = some next ∧ next.sends = [] ∧ ¬InOrder payloads next := by
  have sends : socket.sends = [⟨sent.length, bytes⟩] := progress.sends
  have queue : (settle 0 ⟨sent.length, bytes⟩ sz socket).writeBuffers =
      ⟨sent.length, bytes⟩ :: numbered (sent.length + 1) waiting := progress.queue
  have taken := bytesWritten_of_short queue short
  have idle : (settle 0 ⟨sent.length, bytes⟩ sz socket).sends = [] := by simp [settle, sends]
  refine ⟨_, (report_of_sends sends (Nat.le_of_lt short)).trans taken, idle, fun inOrder => ?_⟩
  obtain ⟨send, outstanding, -⟩ := inOrder.resumes fun all => by
    have total := congrArg List.length
      ((accepted_settle 0 ⟨sent.length, bytes⟩ sz socket).symm.trans all)
    simp only [progress.accepted, progress.split, List.flatten_append, List.flatten_cons,
      List.length_append, List.length_take] at total
    omega
  simp [idle] at outstanding

theorem Progress.report_cases (progress : Progress payloads sent waiting socket)
    (completion : Nat × Nat) :
    (report socket completion = some socket ∧ Full socket completion) ∨
      ∃ bytes rest, waiting = bytes :: rest ∧ completion.1 = 0 ∧ completion.2 ≤ bytes.length ∧
        (Full socket completion ↔ bytes.length ≤ completion.2) := by
  obtain ⟨send, sz⟩ := completion
  cases found : socket.sends[send]? with
  | none => exact .inl ⟨by simp [report, found], by simp [Full, found]⟩
  | some buffer =>
      cases waiting with
      | nil => simp [progress.sends] at found
      | cons bytes rest =>
          have sends : socket.sends = [⟨sent.length, bytes⟩] := progress.sends
          have first : send = 0 := by
            have bound := (List.getElem?_eq_some_iff.mp found).1
            rw [sends] at bound
            exact Nat.lt_one_iff.mp bound
          subst first
          obtain rfl : ⟨sent.length, bytes⟩ = buffer := by simpa [sends] using found
          by_cases allowed : sz ≤ bytes.length
          · exact .inr ⟨bytes, rest, rfl, rfl, allowed, by simp [Full, found]⟩
          · refine .inl ⟨by simp [report, found, allowed], ?_⟩
            simpa [Full, found] using Nat.le_of_not_le allowed

/-- The payloads are on their way, or nothing is in flight. -/
def Underway (payloads : List Str) (socket : WriteSide) : Prop :=
  (∃ sent waiting, Progress payloads sent waiting socket) ∨ socket.sends = []

theorem Underway.report_iff (underway : Underway payloads socket)
    (inOrder : InOrder payloads socket) (completion : Nat × Nat) :
    (∃ next, report socket completion = some next ∧ InOrder payloads next) ↔
      Full socket completion := by
  rcases underway with ⟨sent, waiting, progress⟩ | idle
  · rcases progress.report_cases completion with ⟨same, full⟩ | other
    · exact iff_of_true ⟨socket, same, inOrder⟩ full
    · obtain ⟨send, sz⟩ := completion
      obtain ⟨bytes, rest, rfl, rfl, allowed, full⟩ := other
      rw [full]
      rcases Nat.lt_or_eq_of_le allowed with short | rfl
      · obtain ⟨next, taken, -, fails⟩ := progress.report_short short
        refine iff_of_false ?_ (Nat.not_le_of_lt short)
        rintro ⟨next', taken', inOrder'⟩
        obtain rfl := Option.some.inj (taken.symm.trans taken')
        exact fails inOrder'
      · obtain ⟨next, taken, further⟩ := progress.report_full
        exact iff_of_true ⟨next, taken, further.inOrder⟩ (Nat.le_refl _)
  · refine iff_of_true ⟨socket, by simp [report, idle], inOrder⟩ (by simp [Full, idle])

theorem Underway.report (underway : Underway payloads socket) {completion : Nat × Nat}
    {next : WriteSide} (taken : report socket completion = some next) :
    Underway payloads next := by
  rcases underway with ⟨sent, waiting, progress⟩ | idle
  · rcases progress.report_cases completion with ⟨same, -⟩ | other
    · obtain rfl := Option.some.inj (same.symm.trans taken)
      exact .inl ⟨sent, waiting, progress⟩
    · obtain ⟨send, sz⟩ := completion
      obtain ⟨bytes, rest, rfl, rfl, allowed, -⟩ := other
      rcases Nat.lt_or_eq_of_le allowed with short | rfl
      · obtain ⟨next', taken', idle, -⟩ := progress.report_short short
        obtain rfl := Option.some.inj (taken'.symm.trans taken)
        exact .inr idle
      · obtain ⟨next', taken', further⟩ := progress.report_full
        obtain rfl := Option.some.inj (taken'.symm.trans taken)
        exact .inl ⟨_, _, further⟩
  · rw [Socket.report, idle] at taken
    obtain rfl := Option.some.inj taken
    exact .inr idle

/-- The first call of `writing`. -/
theorem writing_fill (finished : Bool) (bytes : Str) (waiting : List Str) :
    ∃ begun, writing (fill finished (bytes :: waiting)) = some begun ∧
      Progress (bytes :: waiting) [] (bytes :: waiting) begun := by
  obtain ⟨queue, made, sends, log, opened⟩ := fill_eq finished (bytes :: waiting)
  refine ⟨_, writing_of_cons opened queue, rfl, queue, ?_, ?_, opened⟩
  · simp [accepted, log]
  · simp [sends]

/-- One call of `writing` delivers the payloads in order precisely if there are some, and every
completion reports all that was passed to its send. -/
theorem delivers_iff (finished : Bool) (payloads : List Str) (completions : List (Nat × Nat)) :
    Delivers finished payloads completions ↔
      payloads ≠ [] ∧ ∀ begun, writing (fill finished payloads) = some begun →
        Runs.Along report Full begun completions := by
  cases payloads with
  | nil =>
      refine iff_of_false ?_ fun nonempty => nonempty.1 rfl
      rintro ⟨begun, taken, -⟩
      obtain ⟨queue, -, -, -, opened⟩ := fill_eq finished []
      simp [writing_of_nil opened queue] at taken
  | cons bytes waiting =>
      obtain ⟨begun, taken, progress⟩ := writing_fill finished bytes waiting
      have same : Runs.Along report
          (fun socket completion => ∃ next, report socket completion = some next ∧
            InOrder (bytes :: waiting) next) begun completions ↔
          Runs.Along report Full begun completions := by
        apply Runs.along_answered_iff_along (Underway (bytes :: waiting))
        · exact fun socket completion next taken underway => underway.report taken
        · exact fun socket completion underway inOrder => underway.report_iff inOrder completion
        · exact .inl ⟨_, _, progress⟩
        · exact progress.inOrder
      simp only [Delivers, taken, Option.some.injEq, exists_eq_left', forall_eq', same,
        progress.inOrder, true_and, ne_eq, reduceCtorEq, not_false_eq_true]

/-- Of two bytes one is accepted: the other one is never sent. -/
theorem delivers_fails : ¬Delivers false [[97, 98]] [(0, 1)] := by
  rintro ⟨begun, taken, -, along⟩
  obtain rfl := Option.some.inj taken
  obtain ⟨next, reported, inOrder⟩ := along.1
  obtain rfl := Option.some.inj reported
  obtain ⟨send, outstanding, -⟩ := inOrder.resumes (by decide)
  exact List.cons_ne_nil _ _ outstanding.symm

end Drumlin.Socket
