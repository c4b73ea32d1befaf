import Drumlin.Socket

/-!
# Synchronous writes

With `m_synchronousWrite` set, `writing` (socket.h) sends the buffer at the front of the queue and
calls `bytesWritten` itself, which calls `writing` again.  Without it `bytesWritten` is called when
the send completes.
-/

namespace Drumlin.Socket

/-! ## The code -/

/-- What comes of a send: the count that it reports, or an error. -/
inductive Outcome
  | sent (sz : Nat)
  | failed
deriving DecidableEq, Repr

/-- The count that is reported. -/
def Outcome.count : Outcome → Nat
  | .sent sz => sz
  | .failed => 0

/-- `Socket::bytesWritten` without an error, with what happens where it calls `writing` and where it
returns. -/
def bytesWrittenThen {Result : Type*} (writing returns : WriteSide → Result) (sz : Nat)
    (socket : WriteSide) : Result :=
  match socket.writeBuffers with
  | [] => if socket.closing then returns socket else writing socket
  | front :: rest =>
      if sz < front.bytes.length then
        returns { socket with bytesWritten := socket.bytesWritten + UInt64.ofNat sz }
      else
        let popped := { socket with writeBuffers := rest }
        if rest.length ≠ 0 then
          if popped.closing then returns popped else writing popped
        else if popped.finished then
          returns { popped with completing := popped.completing + 1 }
        else returns popped

/-- `Socket::writing` with `m_synchronousWrite`, for what comes of its sends, and how often an error
is passed on.  A send of which nothing comes is outstanding; none if the front of an empty queue is
taken. -/
def writingSync (outcomes : List Outcome) (socket : WriteSide) : Option (WriteSide × Nat) :=
  if socket.closing then some (socket, 0)
  else
    match socket.writeBuffers, outcomes with
    | [], _ => none
    | front :: _, [] => some ({ socket with sends := socket.sends ++ [front] }, 0)
    | _ :: _, .failed :: _ => some (socket, 1)
    | front :: _, .sent sz :: outcomes =>
        bytesWrittenThen (writingSync outcomes) (fun socket => some (socket, 0)) sz
          { socket with log := socket.log ++ [(front, sz)] }

/-- The first outstanding send completes. -/
def completeWith (outcome : Outcome) (socket : WriteSide) (errors : Nat) :
    Option (WriteSide × Nat) :=
  match outcome with
  | .sent sz => (complete 0 sz socket).map fun next => (next, errors)
  | .failed =>
      (bytesWritten true 0 { socket with sends := socket.sends.tail }).map fun next =>
        (next, errors + 1)

/-- The sends complete one after another, as long as one is outstanding. -/
def drain : List Outcome → WriteSide × Nat → Option (WriteSide × Nat)
  | [], state => some state
  | outcome :: outcomes, (socket, errors) =>
      match socket.sends with
      | [] => some (socket, errors)
      | _ :: _ => completeWith outcome socket errors >>= drain outcomes

variable {socket : WriteSide} {outcomes : List Outcome} {front : Buffer} {rest : List Buffer}

/-! ## One send -/

theorem writingSync_of_closing (outcomes : List Outcome) (closing : socket.closing = true) :
    writingSync outcomes socket = some (socket, 0) := by
  rw [writingSync.eq_def, if_pos closing]

theorem writingSync_of_nil (outcomes : List Outcome) (opened : socket.closing = false)
    (queue : socket.writeBuffers = []) : writingSync outcomes socket = none := by
  rw [writingSync.eq_def]
  simp [opened, queue]

theorem writingSync_outstanding (opened : socket.closing = false)
    (queue : socket.writeBuffers = front :: rest) :
    writingSync [] socket = some ({ socket with sends := socket.sends ++ [front] }, 0) := by
  rw [writingSync.eq_def]
  simp [opened, queue]

theorem writingSync_failed (opened : socket.closing = false)
    (queue : socket.writeBuffers = front :: rest) (outcomes : List Outcome) :
    writingSync (.failed :: outcomes) socket = some (socket, 1) := by
  rw [writingSync.eq_def]
  simp [opened, queue]

theorem writingSync_sent (opened : socket.closing = false)
    (queue : socket.writeBuffers = front :: rest) (sz : Nat) (outcomes : List Outcome) :
    writingSync (.sent sz :: outcomes) socket =
      bytesWrittenThen (writingSync outcomes) (fun next => some (next, 0)) sz
        { socket with log := socket.log ++ [(front, sz)] } := by
  rw [writingSync.eq_def]
  simp [opened, queue]

/-! ## The same as asynchronous writes -/

theorem bytesWritten_eq_then (sz : Nat) (socket : WriteSide) :
    bytesWritten false sz socket = bytesWrittenThen writing some sz socket := by
  unfold bytesWritten bytesWrittenThen
  rfl

/-- What is done with the result may be done where `bytesWritten` calls and returns. -/
theorem apply_bytesWrittenThen {Result Other : Type*} (apply : Result → Other)
    (writing returns : WriteSide → Result) (sz : Nat) (socket : WriteSide) :
    apply (bytesWrittenThen writing returns sz socket) =
      bytesWrittenThen (apply ∘ writing) (apply ∘ returns) sz socket := by
  unfold bytesWrittenThen
  split
  · split <;> rfl
  · dsimp only
    split_ifs <;> rfl

/-- `bytesWritten` leaves the outstanding sends to `writing`. -/
theorem bytesWrittenThen_congr {Result : Type*} {writing writing' returns returns' :
    WriteSide → Result} (sz : Nat) (socket : WriteSide)
    (writes : ∀ next : WriteSide, next.sends = socket.sends → writing next = writing' next)
    (ends : ∀ next : WriteSide, next.sends = socket.sends → returns next = returns' next) :
    bytesWrittenThen writing returns sz socket = bytesWrittenThen writing' returns' sz socket := by
  unfold bytesWrittenThen
  split
  · rw [writes socket rfl, ends socket rfl]
  · dsimp only
    split_ifs
    · exact ends _ rfl
    · exact ends _ rfl
    · exact writes _ rfl
    · exact ends _ rfl
    · exact ends _ rfl

theorem drain_of_nil (idle : socket.sends = []) (errors : Nat) :
    drain outcomes (socket, errors) = some (socket, errors) := by
  cases outcomes <;> simp [drain, idle]

/-- The send that is outstanding fails. -/
theorem drain_failed (front : Buffer) (idle : socket.sends = []) :
    drain (.failed :: outcomes) ({ socket with sends := [front] }, 0) = some (socket, 1) := by
  have ends : drain outcomes (socket, 1) = some (socket, 1) := drain_of_nil idle 1
  cases socket
  simp_all [drain, completeWith, bytesWritten]

/-- The send that is outstanding reports a count. -/
theorem drain_sent (front : Buffer) (sz : Nat) (idle : socket.sends = []) :
    drain (.sent sz :: outcomes) ({ socket with sends := [front] }, 0) =
      bytesWrittenThen (fun next => writing next >>= fun begun => drain outcomes (begun, 0))
        (fun next => some (next, 0)) sz { socket with log := socket.log ++ [(front, sz)] } := by
  have settled : settle 0 front sz { socket with sends := [front] } =
      { socket with log := socket.log ++ [(front, sz)] } := by simp [settle, idle]
  have completed : complete 0 sz { socket with sends := [front] } =
      bytesWrittenThen writing some sz { socket with log := socket.log ++ [(front, sz)] } := by
    rw [← settled, ← bytesWritten_eq_then]
    rfl
  have drained : drain (.sent sz :: outcomes) ({ socket with sends := [front] }, 0) =
      bytesWrittenThen writing some sz { socket with log := socket.log ++ [(front, sz)] } >>=
        fun next => drain outcomes (next, 0) := by
    rw [← completed]
    simp [drain, completeWith, Option.bind_map]
  rw [drained, apply_bytesWrittenThen (· >>= fun next => drain outcomes (next, 0))]
  exact bytesWrittenThen_congr sz _ (fun next _ => rfl)
    fun next kept => drain_of_nil (kept.trans idle) 0

/-- Synchronous writes do what asynchronous writes do if each send completes before anything else
happens: the same buffers in the same order, the same counters and the same errors. -/
theorem writingSync_eq_drain (outcomes : List Outcome) (idle : socket.sends = []) :
    writingSync outcomes socket =
      writing socket >>= fun begun => drain outcomes (begun, 0) := by
  induction outcomes generalizing socket with
  | nil =>
      cases closing : socket.closing with
      | true => simp [writingSync_of_closing, writing, closing, drain]
      | false =>
          cases queue : socket.writeBuffers with
          | nil => simp [writingSync_of_nil, writing_of_nil, closing, queue]
          | cons front rest =>
              simp [writingSync_outstanding closing queue, writing_of_cons closing queue, drain]
  | cons outcome outcomes induction =>
      cases closing : socket.closing with
      | true => simp [writingSync_of_closing, writing, closing, drain_of_nil idle]
      | false =>
          cases queue : socket.writeBuffers with
          | nil => simp [writingSync_of_nil, writing_of_nil, closing, queue]
          | cons front rest =>
              rw [writing_of_cons closing queue, idle, List.nil_append]
              cases outcome with
              | failed =>
                  rw [writingSync_failed closing queue]
                  exact (drain_failed front idle).symm
              | sent sz =>
                  rw [writingSync_sent closing queue]
                  refine Eq.trans ?_ (drain_sent front sz idle).symm
                  exact bytesWrittenThen_congr sz _
                    (fun next kept => induction (kept.trans idle)) fun _ _ => rfl

/-- The second send of two fails. -/
theorem writingSync_eq_drain_two :
    writingSync [.sent 2, .failed] { start true with writeBuffers := [⟨0, [97, 98]⟩, ⟨1, [99]⟩] } =
      writing { start true with writeBuffers := [⟨0, [97, 98]⟩, ⟨1, [99]⟩] } >>= fun begun =>
        drain [.sent 2, .failed] (begun, 0) :=
  writingSync_eq_drain [.sent 2, .failed] rfl

/-! ## What one call sends -/

/-- How many buffers are sent in full before anything else comes of a send. -/
def sentInFull : List Buffer → List Outcome → Nat
  | front :: rest, .sent sz :: outcomes =>
      if sz < front.bytes.length then 0 else sentInFull rest outcomes + 1
  | _, _ => 0

/-- The socket after the buffers that are sent in full and what comes of the next one, if there is
one, and how often an error is passed on. -/
def afterSends (outcomes : List Outcome) (socket : WriteSide) : WriteSide × Nat :=
  let count := sentInFull socket.writeBuffers outcomes
  let sent := { socket with
    writeBuffers := socket.writeBuffers.drop count
    log := socket.log ++ (socket.writeBuffers.zip (outcomes.map Outcome.count)).take count }
  match socket.writeBuffers.drop count, outcomes[count]? with
  | [], _ =>
      ({ sent with
          completing := if socket.finished then socket.completing + 1 else socket.completing }, 0)
  | front :: _, none => ({ sent with sends := sent.sends ++ [front] }, 0)
  | _ :: _, some .failed => (sent, 1)
  | front :: _, some (.sent sz) =>
      ({ sent with
          log := sent.log ++ [(front, sz)]
          bytesWritten := sent.bytesWritten + UInt64.ofNat sz }, 0)

/-- A buffer is sent in full, and the rest of the queue is left. -/
theorem afterSends_sent (queue : socket.writeBuffers = front :: rest) {sz : Nat}
    (full : front.bytes.length ≤ sz) (outcomes : List Outcome) :
    afterSends (.sent sz :: outcomes) socket =
      afterSends outcomes
        { socket with writeBuffers := rest, log := socket.log ++ [(front, sz)] } := by
  have count :
      sentInFull (front :: rest) (.sent sz :: outcomes) = sentInFull rest outcomes + 1 := by
    rw [sentInFull, if_neg (Nat.not_lt.mpr full)]
  simp [afterSends, queue, count, Outcome.count]

/-- One synchronous `writing` of a socket that is open sends the buffers of the queue in order, each
once, up to the first that is not sent in full, and calls `completing` of the handler exactly if it
sent them all for a socket that is finished. -/
theorem writingSync_eq_afterSends (outcomes : List Outcome) (opened : socket.closing = false)
    (waiting : socket.writeBuffers ≠ []) :
    writingSync outcomes socket = some (afterSends outcomes socket) := by
  induction outcomes generalizing socket with
  | nil =>
      obtain ⟨front, rest, queue⟩ := List.exists_cons_of_ne_nil waiting
      rw [writingSync_outstanding opened queue]
      simp [afterSends, queue, sentInFull]
  | cons outcome outcomes induction =>
      obtain ⟨front, rest, queue⟩ := List.exists_cons_of_ne_nil waiting
      cases outcome with
      | failed =>
          rw [writingSync_failed opened queue]
          cases socket
          simp_all [afterSends, sentInFull]
      | sent sz =>
          rw [writingSync_sent opened queue]
          by_cases short : sz < front.bytes.length
          · simp [afterSends, queue, sentInFull, bytesWrittenThen, short]
          · rw [afterSends_sent queue (Nat.le_of_not_lt short)]
            cases rest with
            | nil =>
                simp only [bytesWrittenThen, queue, if_neg short, List.length_nil, ne_eq,
                  not_true_eq_false, if_false, afterSends, sentInFull]
                split <;> simp
            | cons following rest =>
                have later := @induction
                  { socket with
                    writeBuffers := following :: rest
                    log := socket.log ++ [(front, sz)] } opened (List.cons_ne_nil following rest)
                rw [← later]
                simp [bytesWrittenThen, queue, short, opened]

/-- Two buffers are sent for a socket that is finished. -/
theorem writingSync_eq_afterSends_two :
    writingSync [.sent 2, .sent 1]
        { start true with writeBuffers := [⟨0, [97, 98]⟩, ⟨1, [99]⟩] } =
      some (afterSends [.sent 2, .sent 1]
        { start true with writeBuffers := [⟨0, [97, 98]⟩, ⟨1, [99]⟩] }) :=
  writingSync_eq_afterSends [.sent 2, .sent 1] rfl (by simp)

end Drumlin.Socket
