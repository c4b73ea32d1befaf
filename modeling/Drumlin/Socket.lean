import Mathlib
import Drumlin.StringList
import Drumlin.Library.Runs

/-!
# The write queue of a socket

`Socket` (socket.h, socket.cpp) queues copies of what is written.  `writing` starts an asynchronous
send of the buffer at the front of the queue, and `bytesWritten` is called when a send completes: it
takes the buffer at the front, whatever was sent, and starts the next send.  This is the write side
of a socket without synchronous writes; buffers are numbered in the order of the calls of `write`.
-/

namespace Drumlin.Socket

/-! ## The code -/

/-- An element of `m_writeBuffers`. -/
structure Buffer where
  /-- Which `write` made it. -/
  number : Nat
  /-- Its own copy of the bytes. -/
  bytes : Str
deriving DecidableEq, Repr

/-- The members of `Socket` that the write side uses, and what the transport was given. -/
structure WriteSide where
  /-- `m_writeBuffers`. -/
  writeBuffers : List Buffer
  /-- `m_numBytes`. -/
  numBytes : Int
  /-- `m_bytes_written`. -/
  bytesWritten : UInt64
  /-- `m_closing`. -/
  closing : Bool
  /-- `m_finished`. -/
  finished : Bool
  /-- How often `completing` of the handler was called. -/
  completing : Nat
  /-- What was written, in order. -/
  made : List Str
  /-- The buffers passed to the sends that are outstanding. -/
  sends : List Buffer
  /-- The sends that completed, with the count that each reported. -/
  log : List (Buffer × Nat)
deriving DecidableEq, Repr

/-- A socket to which nothing was written. -/
def start (finished : Bool) : WriteSide := ⟨[], 0, 0, false, finished, 0, [], [], []⟩

/-- `Socket::write`, which returns `m_numBytes`. -/
def write (bytes : Str) (prepend : Bool) (socket : WriteSide) : WriteSide × Int :=
  let buffer : Buffer := ⟨socket.made.length, bytes⟩
  let numBytes := socket.numBytes + bytes.length
  ({ socket with
      writeBuffers :=
        if prepend then buffer :: socket.writeBuffers else socket.writeBuffers ++ [buffer]
      numBytes := numBytes
      made := socket.made ++ [bytes] }, numBytes)

/-- `Socket::writing`; none if it takes the front of an empty queue. -/
def writing (socket : WriteSide) : Option WriteSide :=
  if socket.closing then some socket
  else
    match socket.writeBuffers with
    | [] => none
    | buffer :: _ => some { socket with sends := socket.sends ++ [buffer] }

/-- `Socket::bytesWritten`.  For an empty queue `d-->0` is false and leaves `d` at its largest
value. -/
def bytesWritten (ec : Bool) (sz : Nat) (socket : WriteSide) : Option WriteSide :=
  if ec then some socket
  else
    match socket.writeBuffers with
    | [] => if socket.closing then some socket else writing socket
    | front :: rest =>
        if sz < front.bytes.length then
          some { socket with bytesWritten := socket.bytesWritten + UInt64.ofNat sz }
        else
          let popped := { socket with writeBuffers := rest }
          if rest.length ≠ 0 then
            if popped.closing then some popped else writing popped
          else if popped.finished then some { popped with completing := popped.completing + 1 }
          else some popped

/-- The transport is done with a send. -/
def settle (send : Nat) (buffer : Buffer) (sz : Nat) (socket : WriteSide) : WriteSide :=
  { socket with sends := socket.sends.eraseIdx send, log := socket.log ++ [(buffer, sz)] }

/-- An outstanding send completes without an error. -/
def complete (send sz : Nat) (socket : WriteSide) : Option WriteSide :=
  match socket.sends[send]? with
  | none => some socket
  | some buffer => bytesWritten false sz (settle send buffer sz socket)

/-- `Socket::bytesToWrite`, what `getStatus` reports as buffered. -/
def bytesToWrite (socket : WriteSide) : Int := socket.numBytes

/-- A call on the socket, or the completion of a send that reports the full length. -/
inductive Call
  | write (bytes : Str) (prepend : Bool)
  | writing
  | complete (send : Nat)
deriving DecidableEq, Repr

/-- The socket after a call; none if it took the front of an empty queue. -/
def call (socket : WriteSide) : Call → Option WriteSide
  | .write bytes prepend => some (write bytes prepend socket).1
  | .writing => writing socket
  | .complete send =>
      match socket.sends[send]? with
      | none => some socket
      | some buffer => complete send buffer.bytes.length socket

variable {socket next : WriteSide} {send sz : Nat} {buffer front : Buffer} {rest : List Buffer}

/-! ## What a call does -/

theorem writing_of_nil (opened : socket.closing = false) (queue : socket.writeBuffers = []) :
    writing socket = none := by
  simp [writing, opened, queue]

theorem writing_of_cons (opened : socket.closing = false)
    (queue : socket.writeBuffers = front :: rest) :
    writing socket = some { socket with sends := socket.sends ++ [front] } := by
  simp [writing, opened, queue]

theorem bytesWritten_of_nil (opened : socket.closing = false)
    (queue : socket.writeBuffers = []) (sz : Nat) : bytesWritten false sz socket = none := by
  simp [bytesWritten, queue, opened, writing_of_nil opened queue]

theorem bytesWritten_of_short (queue : socket.writeBuffers = front :: rest)
    (short : sz < front.bytes.length) :
    bytesWritten false sz socket =
      some { socket with bytesWritten := socket.bytesWritten + UInt64.ofNat sz } := by
  simp [bytesWritten, queue, short]

/-- The buffer at the front is taken, and the one behind it is sent. -/
theorem bytesWritten_of_full (opened : socket.closing = false)
    (queue : socket.writeBuffers = front :: rest) (full : front.bytes.length ≤ sz) :
    ∃ completing, bytesWritten false sz socket =
      some { socket with
        writeBuffers := rest
        sends := socket.sends ++ rest.head?.toList
        completing := completing } := by
  simp only [bytesWritten, queue, Bool.false_eq_true, if_false, if_neg (Nat.not_lt.mpr full)]
  cases rest with
  | nil =>
      cases socket.finished with
      | true => exact ⟨socket.completing + 1, by simp⟩
      | false => exact ⟨socket.completing, by simp⟩
  | cons following rest => exact ⟨socket.completing, by simp [opened, writing]⟩

theorem call_complete_of_none (missing : socket.sends[send]? = none) :
    call socket (.complete send) = some socket := by
  simp [call, missing]

theorem call_complete (found : socket.sends[send]? = some buffer) :
    call socket (.complete send) =
      bytesWritten false buffer.bytes.length (settle send buffer buffer.bytes.length socket) := by
  simp [call, complete, found]

@[simp] theorem settle_writeBuffers (send : Nat) (buffer : Buffer) (sz : Nat)
    (socket : WriteSide) : (settle send buffer sz socket).writeBuffers = socket.writeBuffers := rfl

@[simp] theorem settle_closing (send : Nat) (buffer : Buffer) (sz : Nat) (socket : WriteSide) :
    (settle send buffer sz socket).closing = socket.closing := rfl

/-- A completion that is shorter than the buffer at the front. -/
theorem call_complete_of_short (found : socket.sends[send]? = some buffer)
    (queue : socket.writeBuffers = front :: rest)
    (short : buffer.bytes.length < front.bytes.length) :
    ∃ bytesWritten, call socket (.complete send) =
      some { settle send buffer buffer.bytes.length socket with bytesWritten := bytesWritten } :=
  ⟨_, (call_complete found).trans (bytesWritten_of_short queue short)⟩

/-- A completion that takes the buffer at the front. -/
theorem call_complete_of_full (opened : socket.closing = false)
    (found : socket.sends[send]? = some buffer) (queue : socket.writeBuffers = front :: rest)
    (full : front.bytes.length ≤ buffer.bytes.length) :
    ∃ completing, call socket (.complete send) =
      some { settle send buffer buffer.bytes.length socket with
        writeBuffers := rest
        sends := socket.sends.eraseIdx send ++ rest.head?.toList
        completing := completing } := by
  obtain ⟨completing, taken⟩ :=
    @bytesWritten_of_full (settle send buffer buffer.bytes.length socket) _ _ _ opened queue full
  exact ⟨completing, (call_complete found).trans taken⟩

theorem call_complete_of_nil (opened : socket.closing = false)
    (found : socket.sends[send]? = some buffer) (queue : socket.writeBuffers = []) :
    call socket (.complete send) = none := by
  rw [call_complete found]
  exact @bytesWritten_of_nil (settle send buffer buffer.bytes.length socket) opened queue _

/-- What a call does to a socket that is not closing, if it does not take the front of an empty
queue. -/
inductive Takes (socket : WriteSide) : Call → WriteSide → Prop
  | write (bytes : Str) (prepend : Bool) :
      Takes socket (.write bytes prepend) (write bytes prepend socket).1
  | writing (front : Buffer) (rest : List Buffer) (queue : socket.writeBuffers = front :: rest) :
      Takes socket .writing { socket with sends := socket.sends ++ [front] }
  | missing (send : Nat) (missing : socket.sends[send]? = none) :
      Takes socket (.complete send) socket
  | short (send : Nat) (buffer front : Buffer) (rest : List Buffer) (bytesWritten : UInt64)
      (found : socket.sends[send]? = some buffer) (queue : socket.writeBuffers = front :: rest)
      (short : buffer.bytes.length < front.bytes.length) :
      Takes socket (.complete send)
        { settle send buffer buffer.bytes.length socket with bytesWritten := bytesWritten }
  | full (send : Nat) (buffer front : Buffer) (rest : List Buffer) (completing : Nat)
      (found : socket.sends[send]? = some buffer) (queue : socket.writeBuffers = front :: rest)
      (full : front.bytes.length ≤ buffer.bytes.length) :
      Takes socket (.complete send)
        { settle send buffer buffer.bytes.length socket with
          writeBuffers := rest
          sends := socket.sends.eraseIdx send ++ rest.head?.toList
          completing := completing }

theorem takes_of_call {request : Call} (opened : socket.closing = false)
    (taken : call socket request = some next) : Takes socket request next := by
  cases request with
  | write bytes prepend =>
      obtain rfl := Option.some.inj taken
      exact .write bytes prepend
  | writing =>
      rw [call] at taken
      cases queue : socket.writeBuffers with
      | nil => simp [writing_of_nil opened queue] at taken
      | cons front rest =>
          rw [writing_of_cons opened queue] at taken
          obtain rfl := Option.some.inj taken
          exact .writing front rest queue
  | complete send =>
      cases found : socket.sends[send]? with
      | none =>
          rw [call_complete_of_none found] at taken
          obtain rfl := Option.some.inj taken
          exact .missing send found
      | some buffer =>
          cases queue : socket.writeBuffers with
          | nil => simp [call_complete_of_nil opened found queue] at taken
          | cons front rest =>
              by_cases short : buffer.bytes.length < front.bytes.length
              · obtain ⟨bytesWritten, after⟩ := call_complete_of_short found queue short
                obtain rfl := Option.some.inj (after.symm.trans taken)
                exact .short send buffer front rest bytesWritten found queue short
              · have full := Nat.le_of_not_lt short
                obtain ⟨completing, after⟩ := call_complete_of_full opened found queue full
                obtain rfl := Option.some.inj (after.symm.trans taken)
                exact .full send buffer front rest completing found queue full

/-- A socket that is not closing stays so. -/
theorem opened_call {request : Call} (opened : socket.closing = false)
    (taken : call socket request = some next) : next.closing = false := by
  cases takes_of_call opened taken with
  | write bytes prepend => exact opened
  | writing front rest queue => exact opened
  | missing send missing => exact opened
  | short send buffer front rest bytesWritten found queue short => exact opened
  | full send buffer front rest completing found queue full => exact opened

/-! ## The bytes that are counted -/

/-- The counter is the number of bytes in the queue. -/
def CountsQueue (socket : WriteSide) : Prop :=
  bytesToWrite socket = ((socket.writeBuffers.map fun buffer => buffer.bytes.length).sum : Nat)

instance (socket : WriteSide) : Decidable (CountsQueue socket) :=
  inferInstanceAs (Decidable (bytesToWrite socket = _))

/-- A completed send is shorter than the buffer at the front, or that buffer is empty. -/
def TakesNoBytes (socket : WriteSide) : Call → Prop
  | .write _ _ | .writing => True
  | .complete send => ∀ buffer ∈ socket.sends[send]?, ∀ front ∈ socket.writeBuffers.head?,
      buffer.bytes.length < front.bytes.length ∨ front.bytes = []

theorem countsQueue_write (counts : CountsQueue socket) (bytes : Str) (prepend : Bool) :
    CountsQueue (write bytes prepend socket).1 := by
  rw [CountsQueue, bytesToWrite] at counts ⊢
  cases prepend with
  | true => simp [write, counts, Int.add_comm]
  | false => simp [write, counts]

/-- A call keeps the counter right precisely if it takes no bytes. -/
theorem countsQueue_iff {request : Call} (counts : CountsQueue socket)
    (takes : Takes socket request next) :
    CountsQueue next ↔ TakesNoBytes socket request := by
  cases takes with
  | write bytes prepend => exact iff_of_true (countsQueue_write counts bytes prepend) trivial
  | writing front rest queue => exact iff_of_true counts trivial
  | missing send missing => exact iff_of_true counts (by simp [TakesNoBytes, missing])
  | short send buffer front rest bytesWritten found queue short =>
      exact iff_of_true counts (by simp [TakesNoBytes, found, queue, short])
  | full send buffer front rest completing found queue full =>
      rw [CountsQueue, bytesToWrite, queue, List.map_cons, List.sum_cons] at counts
      simp only [TakesNoBytes, found, queue, Option.mem_def, Option.some.injEq, forall_eq',
        List.head?_cons, or_iff_right (Nat.not_lt.mpr full), ← List.length_eq_zero_iff,
        CountsQueue, bytesToWrite, settle]
      omega

theorem takesNoBytes_of_none {request : Call} (opened : socket.closing = false)
    (undefined : call socket request = none) : TakesNoBytes socket request := by
  cases request with
  | write bytes prepend => trivial
  | writing => trivial
  | complete send =>
      intro buffer found front first
      obtain ⟨rest, queue⟩ := List.head?_eq_some_iff.mp first
      by_cases short : buffer.bytes.length < front.bytes.length
      · exact .inl short
      · obtain ⟨_, taken⟩ := call_complete_of_full opened found queue (Nat.le_of_not_lt short)
        simp [undefined] at taken

/-- `bytesToWrite` is the number of bytes in the queue throughout a run precisely if no completion
takes bytes from the queue. -/
theorem bytesToWrite_iff (finished : Bool) (calls : List Call) :
    Runs.Along call (fun socket request => ∀ next, call socket request = some next →
        CountsQueue next) (start finished) calls ↔
      Runs.Along call TakesNoBytes (start finished) calls := by
  apply Runs.along_good_iff_along (fun socket => socket.closing = false)
  · exact fun socket request next taken opened => opened_call opened taken
  · intro socket request opened counts
    cases taken : call socket request with
    | none => simpa using takesNoBytes_of_none opened taken
    | some next => simpa using countsQueue_iff counts (takes_of_call opened taken)
  · rfl
  · rfl

/-- One buffer is written and sent: the queue is empty, and its bytes are still counted. -/
theorem bytesToWrite_fails :
    ¬Runs.Along call (fun socket request => ∀ next, call socket request = some next →
        CountsQueue next) (start false) [.write [97, 98] false, .writing, .complete 0] := by
  intro counts
  have last := ((counts.2 _ rfl).2 _ rfl).1 _ rfl
  exact absurd last (by decide)

end Drumlin.Socket
