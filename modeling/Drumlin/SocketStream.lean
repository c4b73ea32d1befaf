import Drumlin.SocketRead
import Drumlin.SocketSends

/-!
# From one socket to another

What a socket sends is what the socket at the other end of the connection receives.  The connection
is a stream: it takes the bytes of a send a few at a time, all of them by the time the send
completes, keeps them in order, and hands them on in pieces that need not be those of the sends.  A
piece fits into the receive buffer.
-/

namespace Drumlin.Socket

/-! ## The code -/

/-- A socket that writes, the socket at the other end, and what is between them. -/
structure Connected where
  /-- The socket that writes. -/
  writer : WriteSide
  /-- The number of bytes of the first outstanding send that are on their way already. -/
  taken : Nat
  /-- The bytes on their way. -/
  wire : Str
  /-- The socket that reads. -/
  reader : ReadSide
deriving DecidableEq, Repr

/-- A connection that nothing went through. -/
def connected (finished : Bool) : Connected := ⟨start finished, 0, [], idle⟩

/-- The size of `m_recv_buf`. -/
def recvBufSize : Nat := 1024

/-- The bytes of a send that completes are on their way. -/
def passOn (link : Connected) : Call → Connected
  | .write _ _ | .writing => link
  | .complete send =>
      match send, link.writer.sends[send]? with
      | _, none => link
      | 0, some buffer =>
          { link with taken := 0, wire := link.wire ++ buffer.bytes.drop link.taken }
      | _ + 1, some buffer => { link with wire := link.wire ++ buffer.bytes }

/-- Some bytes of the first outstanding send get on their way before it completes. -/
def carry (count : Nat) (link : Connected) : Connected :=
  match link.writer.sends with
  | [] => link
  | buffer :: _ =>
      { link with
        taken := min (link.taken + count) buffer.bytes.length
        wire := link.wire ++ (buffer.bytes.drop link.taken).take count }

/-- `async_receive` completes with some of the bytes that arrived, if there are any. -/
def receive (count : Nat) (link : Connected) : Connected :=
  let piece := link.wire.take (min count recvBufSize)
  if piece = [] then link
  else
    { link with
      wire := link.wire.drop (min count recvBufSize)
      reader := bytesRead false piece link.reader }

/-- What happens at the two sockets and between them. -/
inductive Act
  | call (request : Call)
  | carry (count : Nat)
  | receive (count : Nat)
  | peekData (flushBehaviours : UInt8) (handler : Option Handler)

/-- The connection after an act; none if a socket took the front of an empty queue. -/
def act (link : Connected) : Act → Option Connected
  | .call request =>
      (call link.writer request).map fun writer => { passOn link request with writer }
  | .carry count => some (carry count link)
  | .receive count => some (receive count link)
  | .peekData flushBehaviours handler =>
      (readCall link.reader (.peekData flushBehaviours handler)).map fun reader =>
        { link with reader }

/-! ## What is asked of a connection -/

/-- The bytes that were written and are not on their way. -/
def unsent (link : Connected) : Str :=
  (link.writer.writeBuffers.flatMap Buffer.bytes).drop link.taken

/-- The bytes written and not returned by a call that flushes. -/
def underway (link : Connected) : Str :=
  link.reader.readBuffers.flatten ++ link.wire ++ unsent link

/-- What was returned by calls that flush and what is under way is what was written, in order if no
handler has sorted the queue. -/
structure Intact (link : Connected) : Prop where
  perm : (link.reader.flushed.flatten ++ underway link).Perm link.writer.made.flatten
  inOrder : link.reader.sorted = false →
    link.reader.flushed.flatten ++ underway link = link.writer.made.flatten

/-- Those who write take turns with the sends and write at the end of the queue, and those who read
leave no bytes behind. -/
def Proper (link : Connected) : Act → Prop
  | .call request => TakesTurns link.writer request ∧ ∀ bytes, request ≠ .write bytes true
  | .carry _ | .receive _ => True
  | .peekData flushBehaviours handler =>
      NothingBehind link.reader (.peekData flushBehaviours handler)

/-! ## One act -/

/-- No more is on its way of the outstanding send than it has, what was received comes before what
is on its way and that before what is not, and the reader has what it received. -/
structure Streams (link : Connected) : Prop where
  opened : link.writer.closing = false
  chained : Chained link.writer
  partly : ∀ buffer ∈ link.writer.sends.head?, link.taken ≤ buffer.bytes.length
  rested : link.writer.sends = [] → link.taken = 0
  stream : link.reader.received.flatten ++ link.wire ++ unsent link = link.writer.made.flatten
  conserved : Conserved link.reader

variable {link next : Connected} {front : Buffer} {rest : List Buffer}

theorem streams_connected (finished : Bool) : Streams (connected finished) where
  opened := rfl
  chained := .inl rfl
  partly := by simp [connected, start]
  rested := fun _ => rfl
  stream := rfl
  conserved := ⟨.refl _, fun _ => rfl⟩

theorem Streams.intact (streams : Streams link) : Intact link := by
  have parts : link.reader.flushed.flatten ++ underway link =
      link.reader.flushed.flatten ++ link.reader.readBuffers.flatten ++
        (link.wire ++ unsent link) := by
    simp [underway]
  refine ⟨?_, fun unsorted => ?_⟩
  · rw [parts, ← streams.stream, List.append_assoc link.reader.received.flatten]
    exact streams.conserved.perm.append_right _
  · rw [parts, ← streams.stream, streams.conserved.inOrder unsorted, ← List.append_assoc]

/-- What is not on its way begins in the buffer at the front. -/
theorem unsent_of_cons (queue : link.writer.writeBuffers = front :: rest)
    (partly : link.taken ≤ front.bytes.length) :
    unsent link = front.bytes.drop link.taken ++ rest.flatMap Buffer.bytes := by
  rw [unsent, queue, List.flatMap_cons, List.drop_append_of_le_length partly]

/-- The transport has not taken more than the queue has. -/
theorem Streams.taken_le (streams : Streams link) :
    link.taken ≤ (link.writer.writeBuffers.flatMap Buffer.bytes).length := by
  rcases streams.chained with idle | ⟨front, rest, queue, sends⟩
  · simp [streams.rested idle]
  · have partly := streams.partly front (by simp [sends])
    rw [queue, List.flatMap_cons, List.length_append]
    omega

/-- `write` at the end of the queue. -/
theorem Streams.write (streams : Streams link) (bytes : Str) :
    Streams { link with writer := (Socket.write bytes false link.writer).1 } := by
  refine ⟨streams.opened, ?_, streams.partly, streams.rested, ?_, streams.conserved⟩
  · exact streams.chained.takes Bool.noConfusion (.write bytes false)
  · have longer : unsent { link with writer := (Socket.write bytes false link.writer).1 } =
        unsent link ++ bytes := by
      rw [unsent, unsent, ← List.drop_append_of_le_length streams.taken_le]
      simp [Socket.write]
    rw [longer, ← List.append_assoc, streams.stream]
    simp [Socket.write]

/-- `writing` while no send is outstanding. -/
theorem Streams.writing (streams : Streams link) (idle : link.writer.sends = [])
    (queue : link.writer.writeBuffers = front :: rest) :
    Streams
      { link with writer := { link.writer with sends := link.writer.sends ++ [front] } } := by
  refine ⟨streams.opened, .inr ⟨front, rest, queue, by simp [idle]⟩, ?_, ?_, streams.stream,
    streams.conserved⟩
  · simp [idle, streams.rested idle]
  · simp

/-- The outstanding send completes, and the next one begins. -/
theorem Streams.full (streams : Streams link)
    (queue : link.writer.writeBuffers = front :: rest) (sends : link.writer.sends = [front])
    (completing : Nat) :
    Streams { link with
      taken := 0
      wire := link.wire ++ front.bytes.drop link.taken
      writer := { settle 0 front front.bytes.length link.writer with
        writeBuffers := rest
        sends := rest.head?.toList
        completing := completing } } := by
  refine ⟨streams.opened, ?_, by simp, fun _ => rfl, ?_, streams.conserved⟩
  · cases rest with
    | nil => exact .inl rfl
    | cons following rest => exact .inr ⟨following, rest, rfl, rfl⟩
  · have partly := streams.partly front (by simp [sends])
    have stream := streams.stream
    rw [unsent_of_cons queue partly] at stream
    simpa [unsent, settle] using stream

/-- The completion of the outstanding send. -/
theorem act_complete (opened : link.writer.closing = false)
    (queue : link.writer.writeBuffers = front :: rest) (sends : link.writer.sends = [front]) :
    ∃ completing, act link (.call (.complete 0)) = some { link with
      taken := 0
      wire := link.wire ++ front.bytes.drop link.taken
      writer := { settle 0 front front.bytes.length link.writer with
        writeBuffers := rest
        sends := rest.head?.toList
        completing := completing } } := by
  have found : link.writer.sends[0]? = some front := by simp [sends]
  obtain ⟨completing, answered⟩ := call_complete_of_full opened found queue le_rfl
  exact ⟨completing, by simp [act, answered, passOn, sends]⟩

/-- A call that takes its turn is answered, and nothing is lost. -/
theorem Streams.call (streams : Streams link) {request : Call}
    (turns : TakesTurns link.writer request) (atEnd : ∀ bytes, request ≠ .write bytes true) :
    ∃ next, act link (.call request) = some next ∧ Streams next := by
  cases request with
  | write bytes prepend =>
      cases prepend with
      | true => exact (atEnd bytes rfl).elim
      | false => exact ⟨_, rfl, streams.write bytes⟩
  | writing =>
      obtain ⟨idle, nonempty⟩ := turns
      obtain ⟨front, rest, queue⟩ := List.exists_cons_of_ne_nil nonempty
      refine ⟨_, ?_, streams.writing idle queue⟩
      simp [act, Socket.call, writing_of_cons streams.opened queue, passOn]
  | complete send =>
      cases found : link.writer.sends[send]? with
      | none =>
          refine ⟨link, ?_, streams⟩
          cases send <;> simp [act, call_complete_of_none found, passOn, found]
      | some buffer =>
          rcases streams.chained with idle | ⟨front, rest, queue, sends⟩
          · simp [idle] at found
          · obtain ⟨rfl, rfl⟩ : send = 0 ∧ front = buffer := by
              simpa [sends, List.getElem?_singleton] using found
            obtain ⟨completing, answered⟩ := act_complete streams.opened queue sends
            exact ⟨_, answered, streams.full queue sends completing⟩

/-- More of the outstanding send is on its way, and less is not. -/
theorem Streams.carry (streams : Streams link) (count : Nat) :
    Streams (Socket.carry count link) := by
  rcases streams.chained with idle | ⟨front, rest, queue, sends⟩
  · simpa [Socket.carry, idle] using streams
  · have partly := streams.partly front (by simp [sends])
    rw [Socket.carry, sends]
    refine ⟨streams.opened, streams.chained, ?_, ?_, ?_, streams.conserved⟩
    · simp [sends]
    · simp [sends]
    · have stream := streams.stream
      rw [unsent_of_cons queue partly] at stream
      rw [@unsent_of_cons { link with
        taken := min (link.taken + count) front.bytes.length
        wire := link.wire ++ (front.bytes.drop link.taken).take count } front rest queue
        (Nat.min_le_right _ _)]
      have split : (front.bytes.drop link.taken).take count ++
          front.bytes.drop (min (link.taken + count) front.bytes.length) =
            front.bytes.drop link.taken := by
        rcases Nat.le_total (link.taken + count) front.bytes.length with less | more
        · rw [Nat.min_eq_left less, ← List.drop_drop, List.take_append_drop]
        · rw [Nat.min_eq_right more, List.drop_length, List.append_nil]
          exact List.take_of_length_le (by rw [List.length_drop]; omega)
      rw [← stream, ← split]
      simp

/-- A piece of what was on its way is received. -/
theorem Streams.receive (streams : Streams link) (count : Nat) :
    Streams (Socket.receive count link) := by
  rw [Socket.receive]
  split
  · exact streams
  · refine ⟨streams.opened, streams.chained, streams.partly, streams.rested, ?_,
      streams.conserved.after_bytesRead _⟩
    have stream := streams.stream
    rw [← List.take_append_drop (min count recvBufSize) link.wire] at stream
    simpa [bytesRead, unsent] using stream

/-- Reading changes the queue of the reader only. -/
theorem received_of_peekData {reader after : ReadSide} {flushBehaviours : UInt8}
    {handler : Option Handler}
    (peek : readCall reader (.peekData flushBehaviours handler) = some after) :
    after.received = reader.received := by
  obtain ⟨⟨peeked, returned⟩, found, rfl⟩ := Option.map_eq_some_iff.mp peek
  obtain rfl := peekData_eq_some found
  obtain ⟨-, -, received, -⟩ := applySort_spec flushBehaviours handler reader
  simp only [applyFlush]
  split <;> simp [received]

theorem Streams.peekData (streams : Streams link) {flushBehaviours : UInt8}
    {handler : Option Handler}
    (behind : NothingBehind link.reader (.peekData flushBehaviours handler)) :
    ∃ next, act link (.peekData flushBehaviours handler) = some next ∧ Streams next := by
  obtain ⟨after, answered, conserved⟩ := (streams.conserved.readCall_iff _).mpr behind
  refine ⟨{ link with reader := after }, by simp [act, answered], streams.opened,
    streams.chained, streams.partly, streams.rested, ?_, conserved⟩
  have stream := streams.stream
  rwa [← received_of_peekData answered] at stream

/-- A proper act is answered, and nothing is lost. -/
theorem Streams.act (streams : Streams link) {request : Act} (proper : Proper link request) :
    ∃ next, act link request = some next ∧ Streams next := by
  cases request with
  | call request => exact streams.call proper.1 proper.2
  | carry count => exact ⟨_, rfl, streams.carry count⟩
  | receive count => exact ⟨_, rfl, streams.receive count⟩
  | peekData flushBehaviours handler => exact streams.peekData proper

theorem Streams.of_act (streams : Streams link) {request : Act} (proper : Proper link request)
    (taken : Socket.act link request = some next) : Streams next := by
  obtain ⟨other, answered, kept⟩ := streams.act proper
  obtain rfl := Option.some.inj (taken.symm.trans answered)
  exact kept

/-! ## A whole connection -/

/-- However the bytes are cut up on their way and however writing, sending, receiving and reading
interleave: no socket takes the front of an empty queue, and at every moment what was read and what
is under way is what was written, in order. -/
theorem stream_intact (finished : Bool) (acts : List Act)
    (proper : Runs.Along act Proper (connected finished) acts) :
    Runs.Along act (fun link request => ∃ next, act link request = some next ∧ Intact next)
      (connected finished) acts := by
  refine Runs.Along.of_invariant Streams ?_ ?_ (streams_connected finished) proper proper
  · exact fun link request next allowed _ streams taken => streams.of_act allowed taken
  · intro link request allowed streams
    obtain ⟨next, answered, kept⟩ := streams.act allowed
    exact ⟨next, answered, kept.intact⟩

/-- Two buffers, of which the second is written while the first is being sent; they are received in
other pieces and returned as one. -/
theorem stream_intact_pieces :
    ∃ acts final, Runs.exec act (connected false) acts = some final ∧
      final.reader.flushed = [[97, 98, 99]] ∧
      Runs.Along act (fun link request => ∃ next, act link request = some next ∧ Intact next)
        (connected false) acts := by
  let acts : List Act :=
    [.call (.write [97, 98] false), .call .writing, .carry 1, .receive 5,
      .call (.write [99] false), .call (.complete 0), .call (.complete 0), .receive 5,
      .peekData (coalesce ||| flush) none]
  have proper : Runs.Along act Proper (connected false) acts := by
    refine ⟨⟨Bool.noConfusion, by simp⟩, ?_⟩
    rintro _ ⟨⟩
    refine ⟨⟨⟨rfl, by decide⟩, by simp⟩, ?_⟩
    rintro _ ⟨⟩
    refine ⟨trivial, ?_⟩
    rintro _ ⟨⟩
    refine ⟨trivial, ?_⟩
    rintro _ ⟨⟩
    refine ⟨⟨Bool.noConfusion, by simp⟩, ?_⟩
    rintro _ ⟨⟩
    refine ⟨⟨trivial, by simp⟩, ?_⟩
    rintro _ ⟨⟩
    refine ⟨⟨trivial, by simp⟩, ?_⟩
    rintro _ ⟨⟩
    refine ⟨trivial, ?_⟩
    rintro _ ⟨⟩
    exact ⟨.inl (by decide), fun _ _ => trivial⟩
  exact ⟨acts, _, rfl, rfl, stream_intact false acts proper⟩

/-! ## What is left to the connection -/

/-- A send or a receive completes, or what was received is read in order. -/
def Act.delivers : Act → Bool
  | .call (.complete _) | .receive _ | .peekData _ none => true
  | .call (.write _ _) | .call .writing | .carry _ | .peekData _ (some _) => false

/-- Deliveries lead from one state to another. -/
def LeadsTo (link final : Connected) : Prop :=
  ∃ acts, (∀ request ∈ acts, request.delivers = true) ∧ Runs.exec act link acts = some final

theorem LeadsTo.refl (link : Connected) : LeadsTo link link := ⟨[], by simp, rfl⟩

theorem LeadsTo.cons {final : Connected} {request : Act} (delivers : request.delivers = true)
    (answered : act link request = some next) (leads : LeadsTo next final) :
    LeadsTo link final := by
  obtain ⟨acts, all, run⟩ := leads
  refine ⟨request :: acts, ?_, Runs.exec_cons_eq_some.mpr ⟨next, answered, run⟩⟩
  simpa [delivers] using all

theorem LeadsTo.trans {final : Connected} (first : LeadsTo link next)
    (second : LeadsTo next final) : LeadsTo link final := by
  obtain ⟨acts, all, run⟩ := first
  induction acts generalizing link with
  | nil =>
      obtain rfl : link = next := by simpa using run
      exact second
  | cons request acts induction =>
      obtain ⟨between, answered, rest⟩ := Runs.exec_cons_eq_some.mp run
      exact .cons (all request (.head _)) answered
        (induction (fun other member => all other (.tail _ member)) rest)

/-- Once a send is outstanding, completions alone send the whole queue: each of them begins the next
send. -/
theorem Streams.sends_all (streams : Streams link)
    (sending : link.writer.sends = [] → link.writer.writeBuffers = []) :
    ∃ next, LeadsTo link next ∧ Streams next ∧ next.writer.writeBuffers = [] ∧
      next.writer.made = link.writer.made ∧ next.reader = link.reader := by
  generalize queue : link.writer.writeBuffers = waiting at sending
  induction waiting generalizing link with
  | nil => exact ⟨link, .refl link, streams, queue, rfl, rfl⟩
  | cons front rest induction =>
      have sends : link.writer.sends = [front] := by
        rcases streams.chained with idle | ⟨first, others, its, sends⟩
        · exact absurd (sending idle) (by simp)
        · obtain ⟨rfl, -⟩ := List.cons.inj (queue.symm.trans its)
          exact sends
      obtain ⟨completing, answered⟩ := act_complete streams.opened queue sends
      obtain ⟨next, leads, kept, empty, made, reader⟩ :=
        induction (streams.full queue sends completing) rfl (by cases rest <;> simp)
      exact ⟨next, .cons rfl answered leads, kept, empty, made, reader⟩

/-- Receives take all that is on its way. -/
theorem Streams.receives_all (streams : Streams link) :
    ∃ next, LeadsTo link next ∧ Streams next ∧ next.wire = [] ∧ next.writer = link.writer ∧
      next.reader.sorted = link.reader.sorted := by
  generalize bound : link.wire.length = length
  induction length using Nat.strong_induction_on generalizing link with
  | _ length induction =>
      by_cases arrived : link.wire = []
      · exact ⟨link, .refl link, streams, arrived, rfl, rfl⟩
      · have nonempty : link.wire.take (min recvBufSize recvBufSize) ≠ [] := by
          simp [recvBufSize, arrived]
        have less : (Socket.receive recvBufSize link).wire.length < length := by
          rw [Socket.receive, if_neg nonempty, ← bound]
          have := List.length_pos_of_ne_nil arrived
          simp only [recvBufSize, List.length_drop]
          omega
        have same : (Socket.receive recvBufSize link).writer = link.writer ∧
            (Socket.receive recvBufSize link).reader.sorted = link.reader.sorted := by
          rw [Socket.receive, if_neg nonempty]
          exact ⟨rfl, rfl⟩
        obtain ⟨next, leads, kept, empty, writer, sorted⟩ :=
          induction _ less (streams.receive recvBufSize) rfl
        have answered : Socket.act link (.receive recvBufSize) =
            some (Socket.receive recvBufSize link) := rfl
        exact ⟨next, .cons rfl answered leads, kept, empty, writer.trans same.1,
          sorted.trans same.2⟩

/-- What was received is read at once. -/
theorem Streams.reads_all (streams : Streams link) :
    ∃ next, LeadsTo link next ∧ Streams next ∧ next.reader.readBuffers = [] ∧
      next.wire = link.wire ∧ next.writer = link.writer ∧
        next.reader.sorted = link.reader.sorted := by
  obtain ⟨next, answered, kept⟩ :=
    @Streams.peekData link streams (coalesce ||| flush) none (.inl (by decide))
  refine ⟨next, .cons rfl answered (.refl next), kept, ?_⟩
  have sets : (coalesce ||| flush) &&& coalesce ≠ 0 ∧ (coalesce ||| flush) &&& flush ≠ 0 := by
    decide
  obtain rfl := by
    simpa [Socket.act, readCall, Socket.peekData, applySort, applyFlush, sets] using answered
  exact ⟨rfl, rfl, rfl, rfl⟩

/-- Wherever a connection is while a send is outstanding or the queue is empty: completions,
receives and readings alone, without any more calls at the socket that writes, can lead to a state
in which nothing is under way, and what was read is what was written, in order unless a handler has
sorted the queue. -/
theorem stream_delivers (finished : Bool) (acts : List Act)
    (proper : Runs.Along act Proper (connected finished) acts)
    (run : Runs.exec act (connected finished) acts = some link)
    (sending : link.writer.sends = [] → link.writer.writeBuffers = []) :
    ∃ final, LeadsTo link final ∧ underway final = [] ∧
      final.reader.flushed.flatten.Perm link.writer.made.flatten ∧
      (link.reader.sorted = false → final.reader.flushed.flatten = link.writer.made.flatten) := by
  have streams : Streams link :=
    Runs.exec_invariant (fun _ _ _ streams allowed taken => streams.of_act allowed taken)
      (streams_connected finished) proper run
  obtain ⟨sent, sends, streams_sent, queue, made, reader⟩ := streams.sends_all sending
  obtain ⟨received, receives, streams_received, wire, writer, sorted⟩ :=
    streams_sent.receives_all
  obtain ⟨final, reads, streams_final, empty, wire_final, writer_final, sorted_final⟩ :=
    streams_received.reads_all
  have nothing : underway final = [] := by
    simp [underway, unsent, empty, wire_final, wire, writer_final, writer, queue]
  have same : final.writer.made = link.writer.made := by rw [writer_final, writer, made]
  obtain ⟨perm, inOrder⟩ := streams_final.intact
  rw [nothing, List.append_nil, same] at perm inOrder
  refine ⟨final, sends.trans (receives.trans reads), nothing, perm, fun unsorted => inOrder ?_⟩
  rw [sorted_final, sorted, reader, unsorted]

/-- Two buffers in the queue, of which the first is being sent. -/
theorem stream_delivers_two :
    ∃ acts link, Runs.exec act (connected true) acts = some link ∧
      underway link = [97, 98, 99] ∧
      ∃ final, LeadsTo link final ∧ underway final = [] ∧
        final.reader.flushed.flatten.Perm link.writer.made.flatten ∧
        (link.reader.sorted = false →
          final.reader.flushed.flatten = link.writer.made.flatten) := by
  let acts : List Act :=
    [.call (.write [97, 98] false), .call (.write [99] false), .call .writing, .carry 1]
  have proper : Runs.Along act Proper (connected true) acts := by
    refine ⟨⟨Bool.noConfusion, by simp⟩, ?_⟩
    rintro _ ⟨⟩
    refine ⟨⟨Bool.noConfusion, by simp⟩, ?_⟩
    rintro _ ⟨⟩
    refine ⟨⟨⟨rfl, by decide⟩, by simp⟩, ?_⟩
    rintro _ ⟨⟩
    exact ⟨trivial, fun _ _ => trivial⟩
  have run : Runs.exec act (connected true) acts = some _ := rfl
  exact ⟨acts, _, run, rfl, stream_delivers true acts proper run (by decide)⟩

end Drumlin.Socket
