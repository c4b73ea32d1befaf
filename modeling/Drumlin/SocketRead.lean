import Mathlib
import Drumlin.StringList
import Drumlin.Library.Runs

/-!
# The read queue of a socket

`bytesRead` (socket.h) queues what was received, and `peekData` returns the buffer at the front of
the queue, or all of them together, and may clear the queue.  The flags say which of this is done,
and whether the handler sorts the queue before.
-/

namespace Drumlin.Socket

/-! ## The code -/

/-- The bits of `SocketFlushBehaviours`: concatenate the buffers. -/
def coalesce : UInt8 := 1

/-- Remove buffers after processing. -/
def flush : UInt8 := 2

/-- Apply the handler's sort function. -/
def sort : UInt8 := 4

/-- A handler, by its `sort`, which puts the buffers in another order. -/
structure Handler where
  /-- `sort`. -/
  sort : List Str → List Str
  perm : ∀ buffers, (sort buffers).Perm buffers

/-- The members of `Socket` that the read side uses, and what went through. -/
structure ReadSide where
  /-- `m_readBuffers`, which own their bytes. -/
  readBuffers : List Str
  /-- `m_bytes_transferred`. -/
  bytesTransferred : UInt64
  /-- What was received, in order. -/
  received : List Str
  /-- What the calls of `peekData` returned that flush, in order. -/
  flushed : List Str
  /-- A handler has sorted the queue. -/
  sorted : Bool
deriving DecidableEq, Repr

/-- A socket that received nothing. -/
def idle : ReadSide := ⟨[], 0, [], [], false⟩

/-- `Socket::bytesRead`, for the bytes in the receive buffer, up to its calls of the handler and of
`reading`. -/
def bytesRead (ec : Bool) (bytes : Str) (socket : ReadSide) : ReadSide :=
  if ec then socket
  else
    { socket with
      readBuffers := socket.readBuffers ++ [bytes]
      bytesTransferred := socket.bytesTransferred + UInt64.ofNat bytes.length
      received := socket.received ++ [bytes] }

/-- The handler sorts the queue, if there is one and the flag is set. -/
def applySort (flushBehaviours : UInt8) (handler : Option Handler) (socket : ReadSide) : ReadSide :=
  match handler with
  | some handler =>
      if flushBehaviours &&& sort ≠ 0 then
        { socket with readBuffers := handler.sort socket.readBuffers, sorted := true }
      else socket
  | none => socket

/-- The queue is cleared, if the flag is set. -/
def applyFlush (flushBehaviours : UInt8) (socket : ReadSide) : ReadSide :=
  if flushBehaviours &&& flush ≠ 0 then { socket with readBuffers := [] } else socket

/-- `Socket::peekData`, with memory enough; none if it takes the front of an empty queue. -/
def peekData (flushBehaviours : UInt8) (handler : Option Handler) (socket : ReadSide) :
    Option (ReadSide × Str) :=
  let peeked := applySort flushBehaviours handler socket
  if flushBehaviours &&& coalesce ≠ 0 then
    some (applyFlush flushBehaviours peeked, peeked.readBuffers.flatten)
  else
    match peeked.readBuffers with
    | [] => none
    | buf :: _ => some (applyFlush flushBehaviours peeked, buf)

/-- A completed read, or a call of `peekData` with the handler as it is then. -/
inductive ReadCall
  | bytesRead (bytes : Str)
  | peekData (flushBehaviours : UInt8) (handler : Option Handler)

/-- The socket after a call, with what was returned by one that flushes; none if it took the front
of an empty queue. -/
def readCall (socket : ReadSide) : ReadCall → Option ReadSide
  | .bytesRead bytes => some (bytesRead false bytes socket)
  | .peekData flushBehaviours handler =>
      (peekData flushBehaviours handler socket).map fun (next, returned) =>
        if flushBehaviours &&& flush ≠ 0 then { next with flushed := next.flushed ++ [returned] }
        else next

/-! ## What is asked of a call -/

/-- The bytes returned by flushing calls and those in the queue are the bytes received, in order if
no handler has sorted the queue. -/
structure Conserved (socket : ReadSide) : Prop where
  perm : (socket.flushed.flatten ++ socket.readBuffers.flatten).Perm socket.received.flatten
  inOrder : socket.sorted = false →
    socket.flushed.flatten ++ socket.readBuffers.flatten = socket.received.flatten

/-- A call that does not flush leaves the buffers in the queue, in order unless they are sorted. -/
def KeepsBuffers (socket : ReadSide) : ReadCall → Prop
  | .bytesRead _ => True
  | .peekData flushBehaviours handler => flushBehaviours &&& flush = 0 →
      ∀ next, readCall socket (.peekData flushBehaviours handler) = some next →
        next.readBuffers.Perm socket.readBuffers ∧
          (flushBehaviours &&& sort = 0 ∨ handler.isNone →
            next.readBuffers = socket.readBuffers)

/-- The call coalesces, or there is a buffer at the front, and if it flushes there are no bytes
behind. -/
def NothingBehind (socket : ReadSide) : ReadCall → Prop
  | .bytesRead _ => True
  | .peekData flushBehaviours handler => flushBehaviours &&& coalesce ≠ 0 ∨
      ∃ front rest, (applySort flushBehaviours handler socket).readBuffers = front :: rest ∧
        (flushBehaviours &&& flush ≠ 0 → rest.flatten = [])

variable {socket : ReadSide}

/-! ## What the parts of a call do -/

/-- Sorting permutes the queue and leaves the rest. -/
theorem applySort_spec (flushBehaviours : UInt8) (handler : Option Handler) (socket : ReadSide) :
    (applySort flushBehaviours handler socket).readBuffers.Perm socket.readBuffers ∧
      (applySort flushBehaviours handler socket).flushed = socket.flushed ∧
      (applySort flushBehaviours handler socket).received = socket.received ∧
      ((applySort flushBehaviours handler socket).sorted = false →
        applySort flushBehaviours handler socket = socket) := by
  cases handler with
  | none => exact ⟨.refl _, rfl, rfl, fun _ => rfl⟩
  | some handler =>
      rw [applySort]
      split
      · exact ⟨handler.perm _, rfl, rfl, fun unsorted => Bool.noConfusion unsorted⟩
      · exact ⟨.refl _, rfl, rfl, fun _ => rfl⟩

theorem applySort_of_unset {flushBehaviours : UInt8} {handler : Option Handler}
    (unset : flushBehaviours &&& sort = 0 ∨ handler.isNone) :
    applySort flushBehaviours handler socket = socket := by
  cases handler with
  | none => rfl
  | some handler =>
      rcases unset with unset | missing
      · simp [applySort, unset]
      · simp at missing

/-- Sorting loses nothing. -/
theorem Conserved.after_sort (conserved : Conserved socket) (flushBehaviours : UInt8)
    (handler : Option Handler) : Conserved (applySort flushBehaviours handler socket) := by
  obtain ⟨perm, flushed, received, unsorted⟩ := applySort_spec flushBehaviours handler socket
  refine ⟨?_, fun still => ?_⟩
  · rw [flushed, received]
    exact (perm.flatten.append_left _).trans conserved.perm
  · have same := unsorted still
    rw [same] at still ⊢
    exact conserved.inOrder still

theorem Conserved.after_bytesRead (conserved : Conserved socket) (bytes : Str) :
    Conserved (bytesRead false bytes socket) := by
  refine ⟨?_, fun unsorted => ?_⟩
  · simpa [Socket.bytesRead, List.append_assoc] using conserved.perm.append_right bytes
  · simpa [Socket.bytesRead, List.append_assoc] using
      congrArg (· ++ bytes) (conserved.inOrder unsorted)

/-- The queue is cleared, and some bytes are returned. -/
theorem Conserved.flush_iff (conserved : Conserved socket) (returned : Str) {behind : Str}
    (queue : socket.readBuffers.flatten = returned ++ behind) :
    Conserved { socket with readBuffers := [], flushed := socket.flushed ++ [returned] } ↔
      behind = [] := by
  constructor
  · intro after
    have before := conserved.perm.length_eq
    have now := after.perm.length_eq
    simp only [queue, List.length_append, List.flatten_append, List.flatten_cons, List.flatten_nil,
      List.append_nil] at before now
    exact List.eq_nil_of_length_eq_zero (by omega)
  · rintro rfl
    rw [List.append_nil] at queue
    refine ⟨?_, fun unsorted => ?_⟩
    · simpa [queue] using conserved.perm
    · simpa [queue] using conserved.inOrder unsorted

theorem peekData_eq_some {flushBehaviours : UInt8} {handler : Option Handler} {peeked : ReadSide}
    {returned : Str} (peek : peekData flushBehaviours handler socket = some (peeked, returned)) :
    peeked = applyFlush flushBehaviours (applySort flushBehaviours handler socket) := by
  simp only [peekData] at peek
  split at peek
  · exact (congrArg Prod.fst (Option.some.inj peek)).symm
  · split at peek
    · simp at peek
    · exact (congrArg Prod.fst (Option.some.inj peek)).symm

theorem readCall_of_peekData {flushBehaviours : UInt8} {handler : Option Handler} {returned : Str}
    (peek : peekData flushBehaviours handler socket =
      some (applyFlush flushBehaviours (applySort flushBehaviours handler socket), returned)) :
    readCall socket (.peekData flushBehaviours handler) =
      some (if flushBehaviours &&& flush ≠ 0 then
        { applySort flushBehaviours handler socket with
          readBuffers := []
          flushed := (applySort flushBehaviours handler socket).flushed ++ [returned] }
      else applySort flushBehaviours handler socket) := by
  by_cases flushes : flushBehaviours &&& flush = 0 <;> simp [readCall, peek, applyFlush, flushes]

/-- A call that returns the bytes in front of some others. -/
theorem Conserved.peekData_iff (conserved : Conserved socket) {flushBehaviours : UInt8}
    {handler : Option Handler} (returned behind : Str)
    (peek : peekData flushBehaviours handler socket =
      some (applyFlush flushBehaviours (applySort flushBehaviours handler socket), returned))
    (queue : (applySort flushBehaviours handler socket).readBuffers.flatten =
      returned ++ behind) :
    (∃ next, readCall socket (.peekData flushBehaviours handler) = some next ∧ Conserved next) ↔
      (flushBehaviours &&& flush ≠ 0 → behind = []) := by
  have peeked := conserved.after_sort flushBehaviours handler
  rw [readCall_of_peekData peek]
  simp only [Option.some.injEq, exists_eq_left']
  by_cases flushes : flushBehaviours &&& flush = 0
  · rw [if_neg (fun set => set flushes)]
    exact iff_of_true peeked fun set => (set flushes).elim
  · rw [if_pos flushes, peeked.flush_iff returned queue]
    exact ⟨fun empty _ => empty, fun empty => empty flushes⟩

/-- Exactly when a call is answered and loses nothing. -/
theorem Conserved.readCall_iff (conserved : Conserved socket) (request : ReadCall) :
    (∃ next, readCall socket request = some next ∧ Conserved next) ↔
      NothingBehind socket request := by
  cases request with
  | bytesRead bytes => exact iff_of_true ⟨_, rfl, conserved.after_bytesRead bytes⟩ trivial
  | peekData flushBehaviours handler =>
      rw [NothingBehind]
      by_cases coalesces : flushBehaviours &&& coalesce = 0
      · rw [or_iff_right (fun set => set coalesces)]
        cases queue : (applySort flushBehaviours handler socket).readBuffers with
        | nil => simp [readCall, peekData, coalesces, queue]
        | cons front rest =>
            rw [conserved.peekData_iff front rest.flatten (by simp [peekData, coalesces, queue])
              (by simp [queue])]
            simp
      · rw [conserved.peekData_iff (applySort flushBehaviours handler socket).readBuffers.flatten []
          (by simp [peekData, coalesces]) (by simp)]
        exact iff_of_true (fun _ => rfl) (.inl coalesces)

/-! ## Calls that do not flush -/

theorem keepsBuffers (socket : ReadSide) (request : ReadCall) : KeepsBuffers socket request := by
  cases request with
  | bytesRead bytes => trivial
  | peekData flushBehaviours handler =>
      intro keeps next taken
      obtain ⟨⟨peeked, returned⟩, peek, -⟩ := Option.map_eq_some_iff.mp taken
      obtain rfl := peekData_eq_some peek
      rw [readCall_of_peekData peek, if_neg (fun set => set keeps)] at taken
      obtain rfl := Option.some.inj taken
      exact ⟨(applySort_spec flushBehaviours handler socket).1, fun unset => by
        rw [applySort_of_unset unset]⟩

/-- Received bytes are conserved throughout a run, and none is taken from an empty queue, precisely
if every `peekData` coalesces, or finds a buffer and flushes no bytes behind it. -/
theorem peekData_conserves_iff (calls : List ReadCall) :
    Runs.Along readCall
        (fun socket request => (∃ next, readCall socket request = some next ∧ Conserved next) ∧
          KeepsBuffers socket request) idle calls ↔
      Runs.Along readCall NothingBehind idle calls := by
  have answered : Runs.Along readCall
      (fun socket request => ∃ next, readCall socket request = some next ∧ Conserved next)
      idle calls ↔ Runs.Along readCall NothingBehind idle calls := by
    apply Runs.along_answered_iff_along (fun _ => True)
    · exact fun _ _ _ _ _ => trivial
    · exact fun socket request _ conserved => conserved.readCall_iff request
    · trivial
    · exact ⟨.refl _, fun _ => rfl⟩
  rw [← answered]
  apply Runs.along_congr (fun _ => True)
  · exact fun _ _ _ _ _ => trivial
  · exact fun socket request _ => and_iff_left (keepsBuffers socket request)
  · trivial

/-- The flag `Flush` alone: the first buffer is returned, and the second one is gone. -/
theorem peekData_conserves_fails :
    ¬Runs.Along readCall
        (fun socket request => (∃ next, readCall socket request = some next ∧ Conserved next) ∧
          KeepsBuffers socket request) idle
        [.bytesRead [97], .bytesRead [98], .peekData flush none] := by
  intro conserves
  obtain ⟨next, taken, after⟩ := ((conserves.2 _ rfl).2 _ rfl).1.1
  obtain rfl := Option.some.inj taken
  exact absurd (after.inOrder rfl) (by decide)

end Drumlin.Socket
