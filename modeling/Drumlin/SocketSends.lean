import Drumlin.Socket

/-!
# What is sent

Each buffer that was written is meant to be sent once.  That depends on the completions: each one
takes whatever is at the front of the queue, and sends whatever comes next.
-/

namespace Drumlin.Socket

variable {socket next : WriteSide} {send : Nat} {buffer front : Buffer} {rest : List Buffer}

/-! ## Each buffer once -/

/-- The buffers in the queue. -/
def queued (socket : WriteSide) : List Nat := socket.writeBuffers.map Buffer.number

/-- The buffers in flight. -/
def inFlight (socket : WriteSide) : List Nat := socket.sends.map Buffer.number

/-- The buffers sent in full, one for each send. -/
def sent (socket : WriteSide) : List Nat := socket.log.map fun entry => entry.1.number

/-- Every buffer written was either sent once or is still in the queue, and none was passed to two
sends. -/
structure SentOnce (socket : WriteSide) : Prop where
  accounted : (sent socket ++ queued socket).Perm (List.range socket.made.length)
  once : (sent socket ++ inFlight socket).Nodup

/-- The call finds what it expects: `writing` a buffer at the front that is not in flight; and a
completion its own buffer there, with none behind it that is in flight. -/
def InStep (socket : WriteSide) : Call → Prop
  | .write _ _ => True
  | .writing => ∃ front ∈ socket.writeBuffers.head?, front.number ∉ inFlight socket
  | .complete send => ∀ buffer ∈ socket.sends[send]?, ∃ front rest,
      socket.writeBuffers = front :: rest ∧ front.number = buffer.number ∧
        ∀ following ∈ rest.head?, following.number ∉ inFlight socket

/-- The socket is not closing, and the buffers have the bytes that were written. -/
structure Known (socket : WriteSide) : Prop where
  opened : socket.closing = false
  queued : ∀ buffer ∈ socket.writeBuffers, socket.made[buffer.number]? = some buffer.bytes
  sends : ∀ buffer ∈ socket.sends, socket.made[buffer.number]? = some buffer.bytes

theorem known_start (finished : Bool) : Known (start finished) :=
  ⟨rfl, by simp [start], by simp [start]⟩

theorem Known.write (known : Known socket) (bytes : Str) (prepend : Bool) :
    Known (write bytes prepend socket).1 := by
  have older : ∀ buffer : Buffer, socket.made[buffer.number]? = some buffer.bytes →
      (socket.made ++ [bytes])[buffer.number]? = some buffer.bytes := by
    intro buffer there
    rw [List.getElem?_append_left (List.getElem?_eq_some_iff.mp there).1, there]
  refine ⟨known.opened, fun buffer member => ?_, fun buffer member => ?_⟩
  · have new_or_old : buffer = ⟨socket.made.length, bytes⟩ ∨ buffer ∈ socket.writeBuffers := by
      cases prepend with
      | true => exact List.mem_cons.mp member
      | false => simpa [or_comm] using List.mem_append.mp member
    rcases new_or_old with rfl | old
    · simp [Socket.write]
    · exact older buffer (known.queued buffer old)
  · exact older buffer (known.sends buffer member)

theorem Known.call {request : Call} (known : Known socket)
    (taken : call socket request = some next) : Known next := by
  cases takes_of_call known.opened taken with
  | write bytes prepend => exact known.write bytes prepend
  | writing front rest queue =>
      refine ⟨known.opened, known.queued, fun buffer member => ?_⟩
      rcases List.mem_append.mp member with old | new
      · exact known.sends buffer old
      · rw [List.mem_singleton.mp new]
        exact known.queued front (by simp [queue])
  | missing send missing => exact known
  | short send buffer front rest bytesWritten found queue short =>
      exact ⟨known.opened, known.queued, fun buffer member =>
        known.sends buffer (List.mem_of_mem_eraseIdx member)⟩
  | full send buffer front rest completing found queue full =>
      have behind : ∀ buffer ∈ rest, socket.made[buffer.number]? = some buffer.bytes :=
        fun buffer member => known.queued buffer (by simp [queue, member])
      refine ⟨known.opened, behind, fun buffer member => ?_⟩
      rcases List.mem_append.mp member with old | new
      · exact known.sends buffer (List.mem_of_mem_eraseIdx old)
      · exact behind buffer (List.mem_of_mem_head? (Option.mem_toList.mp new))

/-! ## One call -/

theorem SentOnce.nodup (sentOnce : SentOnce socket) : (sent socket ++ queued socket).Nodup :=
  sentOnce.accounted.nodup_iff.mpr List.nodup_range

theorem nodup_append_singleton {numbers : List Nat} {number : Nat} (distinct : numbers.Nodup) :
    (numbers ++ [number]).Nodup ↔ number ∉ numbers := by
  rw [List.nodup_append_comm, List.singleton_append, List.nodup_cons, and_iff_left distinct]

/-- A completed send is no longer in flight but sent. -/
theorem settle_perm (found : socket.sends[send]? = some buffer) :
    (sent socket ++ [buffer.number] ++ (socket.sends.eraseIdx send).map Buffer.number).Perm
      (sent socket ++ inFlight socket) := by
  obtain ⟨bound, rfl⟩ := List.getElem?_eq_some_iff.mp found
  rw [List.append_assoc]
  exact List.Perm.append_left _
    ((List.getElem_cons_eraseIdx_perm bound).map Buffer.number)

theorem SentOnce.write (sentOnce : SentOnce socket) (bytes : Str) (prepend : Bool) :
    SentOnce (write bytes prepend socket).1 := by
  refine ⟨?_, sentOnce.once⟩
  have numbers : (sent socket ++ queued (Socket.write bytes prepend socket).1).Perm
      (sent socket ++ queued socket ++ [socket.made.length]) := by
    cases prepend with
    | true =>
        refine List.perm_middle.trans ?_
        rw [← List.singleton_append]
        exact List.perm_append_comm
    | false => simp [Socket.write, queued]
  refine numbers.trans ?_
  simpa [Socket.write, List.range_succ] using sentOnce.accounted.append_right [socket.made.length]

theorem SentOnce.writing_iff (sentOnce : SentOnce socket)
    (queue : socket.writeBuffers = front :: rest) :
    SentOnce { socket with sends := socket.sends ++ [front] } ↔ front.number ∉ inFlight socket := by
  have unsent : front.number ∉ sent socket := by
    intro member
    refine List.disjoint_of_nodup_append sentOnce.nodup member ?_
    simp [queued, queue]
  have flights : (sent socket ++ (socket.sends ++ [front]).map Buffer.number).Nodup ↔
      front.number ∉ sent socket ++ inFlight socket := by
    rw [List.map_append, ← List.append_assoc]
    exact nodup_append_singleton sentOnce.once
  constructor
  · exact fun after member => flights.mp after.once (List.mem_append_right _ member)
  · intro landed
    refine ⟨sentOnce.accounted, flights.mpr fun member => ?_⟩
    exact (List.mem_append.mp member).elim unsent landed

/-- A completion that takes nothing is one too many. -/
theorem SentOnce.not_short (sentOnce : SentOnce socket) (bytesWritten : UInt64) :
    ¬SentOnce
      { settle send buffer buffer.bytes.length socket with bytesWritten := bytesWritten } := by
  intro after
  have before := sentOnce.accounted.length_eq
  have now := after.accounted.length_eq
  simp only [sent, queued, settle, List.map_append, List.length_append, List.length_range,
    List.length_map, List.length_singleton] at before now
  omega

theorem cons_perm_cons_iff {first second : Nat} {numbers : List Nat} :
    (first :: numbers).Perm (second :: numbers) ↔ first = second := by
  rw [← Multiset.coe_eq_coe, ← Multiset.cons_coe, ← Multiset.cons_coe, Multiset.cons_inj_left]

/-- All buffers are accounted for when a completion takes its own. -/
theorem SentOnce.accounted_iff (sentOnce : SentOnce socket)
    (queue : socket.writeBuffers = front :: rest) :
    (sent socket ++ [buffer.number] ++ rest.map Buffer.number).Perm
        (List.range socket.made.length) ↔
      front.number = buffer.number := by
  have before := sentOnce.accounted
  rw [queued, queue, List.map_cons] at before
  rw [List.append_assoc, List.singleton_append]
  constructor
  · intro after
    have same := (List.perm_append_left_iff _).mp (before.trans after.symm)
    exact cons_perm_cons_iff.mp same
  · intro own
    rwa [← own]

/-- The next buffer is sent once if it is not in flight. -/
theorem SentOnce.once_iff (sentOnce : SentOnce socket) (found : socket.sends[send]? = some buffer)
    (queue : socket.writeBuffers = front :: rest) :
    (sent socket ++ [buffer.number] ++
        (socket.sends.eraseIdx send ++ rest.head?.toList).map Buffer.number).Nodup ↔
      ∀ following ∈ rest.head?, following.number ∉ inFlight socket := by
  have perm := settle_perm found
  have settled := perm.nodup_iff.mpr sentOnce.once
  cases rest with
  | nil => simpa using settled
  | cons following rest =>
      have unsent : following.number ∉ sent socket := by
        intro member
        refine List.disjoint_of_nodup_append sentOnce.nodup member ?_
        simp [queued, queue]
      rw [List.map_append, ← List.append_assoc]
      refine (nodup_append_singleton settled).trans ?_
      rw [perm.mem_iff, List.mem_append, or_iff_right unsent]
      simp

/-- A completion that takes the front of the queue and sends the next buffer. -/
theorem SentOnce.full_iff (sentOnce : SentOnce socket) (found : socket.sends[send]? = some buffer)
    (queue : socket.writeBuffers = front :: rest) (completing : Nat) :
    SentOnce
        { settle send buffer buffer.bytes.length socket with
          writeBuffers := rest
          sends := socket.sends.eraseIdx send ++ rest.head?.toList
          completing := completing } ↔
      front.number = buffer.number ∧
        ∀ following ∈ rest.head?, following.number ∉ inFlight socket := by
  have sent_after : (socket.log ++ [(buffer, buffer.bytes.length)]).map
      (fun entry => entry.1.number) = sent socket ++ [buffer.number] := by simp [sent]
  rw [← sentOnce.accounted_iff queue, ← sentOnce.once_iff found queue, ← sent_after]
  exact ⟨fun after => ⟨after.accounted, after.once⟩, fun ⟨accounted, once⟩ => ⟨accounted, once⟩⟩

/-- Exactly when a call is answered and leaves every buffer sent at most once. -/
theorem SentOnce.call_iff (sentOnce : SentOnce socket) (known : Known socket) (request : Call) :
    (∃ next, call socket request = some next ∧ SentOnce next) ↔ InStep socket request := by
  cases request with
  | write bytes prepend => exact iff_of_true ⟨_, rfl, sentOnce.write bytes prepend⟩ trivial
  | writing =>
      rw [call]
      cases queue : socket.writeBuffers with
      | nil => simp [writing_of_nil known.opened queue, InStep, queue]
      | cons front rest =>
          rw [writing_of_cons known.opened queue]
          simp only [Option.some.injEq, exists_eq_left', sentOnce.writing_iff queue]
          simp [InStep, queue]
  | complete send =>
      cases found : socket.sends[send]? with
      | none =>
          refine iff_of_true ⟨socket, call_complete_of_none found, sentOnce⟩ ?_
          simp [InStep, found]
      | some buffer =>
          cases queue : socket.writeBuffers with
          | nil => simp [call_complete_of_nil known.opened found queue, InStep, found, queue]
          | cons front rest =>
              by_cases short : buffer.bytes.length < front.bytes.length
              · obtain ⟨_, taken⟩ := call_complete_of_short found queue short
                have others : front.number ≠ buffer.number := by
                  intro own
                  have bytes := known.queued front (by simp [queue])
                  rw [own, known.sends buffer (List.mem_of_getElem? found)] at bytes
                  rw [Option.some.inj bytes] at short
                  exact Nat.lt_irrefl _ short
                simp only [taken, Option.some.injEq, exists_eq_left', sentOnce.not_short _]
                simp [InStep, found, queue, others]
              · obtain ⟨completing, taken⟩ :=
                  call_complete_of_full known.opened found queue (Nat.le_of_not_lt short)
                simp only [taken, Option.some.injEq, exists_eq_left', sentOnce.full_iff found queue]
                simp [InStep, found, queue]

theorem sentOnce_start (finished : Bool) : SentOnce (start finished) :=
  ⟨by simp [sent, queued, start], by simp [sent, inFlight, start]⟩

/-- Each buffer is sent once throughout a run, and none is taken from an empty queue, precisely if
every call finds what it expects. -/
theorem sentOnce_iff (finished : Bool) (calls : List Call) :
    Runs.Along call
        (fun socket request => ∃ next, call socket request = some next ∧ SentOnce next)
        (start finished) calls ↔
      Runs.Along call InStep (start finished) calls := by
  apply Runs.along_answered_iff_along Known
  · exact fun socket request next taken known => known.call taken
  · exact fun socket request known sentOnce => sentOnce.call_iff known request
  · exact known_start finished
  · exact sentOnce_start finished

/-- A buffer is put in front of the one in flight: the completion takes it unsent. -/
theorem sentOnce_fails :
    ¬Runs.Along call
        (fun socket request => ∃ next, call socket request = some next ∧ SentOnce next)
        (start false)
        [.write [97] false, .writing, .write [98] true, .complete 0] := by
  intro sends
  obtain ⟨next, taken, after⟩ := (((sends.2 _ rfl).2 _ rfl).2 _ rfl).1
  obtain rfl := Option.some.inj taken
  exact absurd after.once (by decide)

/-! ## A rule for callers -/

/-- `writing` is called for a queue that is not empty, and neither it nor a `write` that prepends
while a send is outstanding. -/
def TakesTurns (socket : WriteSide) : Call → Prop
  | .write _ prepend => prepend → socket.sends = []
  | .writing => socket.sends = [] ∧ socket.writeBuffers ≠ []
  | .complete _ => True

/-- At most one send is outstanding, and it is that of the buffer at the front. -/
def Chained (socket : WriteSide) : Prop :=
  socket.sends = [] ∨ ∃ front rest, socket.writeBuffers = front :: rest ∧ socket.sends = [front]

theorem Chained.takes {request : Call} (chained : Chained socket)
    (turns : TakesTurns socket request) (takes : Takes socket request next) : Chained next := by
  cases takes with
  | write bytes prepend =>
      cases prepend with
      | true => exact .inl (turns rfl)
      | false =>
          rcases chained with idle | ⟨front, rest, queue, sends⟩
          · exact .inl idle
          · exact .inr ⟨front, rest ++ [⟨socket.made.length, bytes⟩], by simp [write, queue], sends⟩
  | writing front rest queue => exact .inr ⟨front, rest, queue, by simp [turns.1]⟩
  | missing send missing => exact chained
  | short send buffer front rest bytesWritten found queue short =>
      rcases chained with idle | ⟨first, others, first_queue, sends⟩
      · simp [idle] at found
      · obtain ⟨rfl, -⟩ := List.cons.inj (queue.symm.trans first_queue)
        obtain rfl : buffer = front := by
          simpa [sends] using List.mem_of_getElem? found
        exact (Nat.lt_irrefl _ short).elim
  | full send buffer front rest completing found queue full =>
      rcases chained with idle | ⟨first, others, first_queue, sends⟩
      · simp [idle] at found
      · have only : send = 0 := by
          have bound := (List.getElem?_eq_some_iff.mp found).1
          rw [sends] at bound
          exact Nat.lt_one_iff.mp bound
        subst only
        cases rest with
        | nil => exact .inl (by simp [sends])
        | cons following rest => exact .inr ⟨following, rest, rfl, by simp [sends]⟩

theorem Chained.inStep {request : Call} (chained : Chained socket) (sentOnce : SentOnce socket)
    (turns : TakesTurns socket request) : InStep socket request := by
  cases request with
  | write bytes prepend => trivial
  | writing =>
      obtain ⟨front, rest, queue⟩ := List.exists_cons_of_ne_nil turns.2
      exact ⟨front, by simp [queue], by simp [inFlight, turns.1]⟩
  | complete send =>
      intro buffer found
      rcases chained with idle | ⟨front, rest, queue, sends⟩
      · simp [idle] at found
      · obtain rfl : buffer = front := by
          simpa [sends] using List.mem_of_getElem? found
        refine ⟨buffer, rest, queue, rfl, fun following behind => ?_⟩
        have distinct := (List.nodup_append.mp sentOnce.nodup).2.1
        rw [queued, queue, List.map_cons, List.nodup_cons] at distinct
        have member := List.mem_map_of_mem (f := Buffer.number) (List.mem_of_mem_head? behind)
        simpa [inFlight, sends] using ne_of_mem_of_not_mem member distinct.1

/-- Callers that follow the rule find what they expect. -/
theorem inStep_of_takesTurns (finished : Bool) (calls : List Call)
    (turns : Runs.Along call TakesTurns (start finished) calls) :
    Runs.Along call InStep (start finished) calls := by
  apply Runs.Along.of_invariant
    (fun socket => Known socket ∧ SentOnce socket ∧ Chained socket) ?_ ?_
    ⟨known_start finished, sentOnce_start finished, .inl rfl⟩ turns turns
  · rintro socket request next turns _ ⟨known, sentOnce, chained⟩ taken
    have inStep := chained.inStep sentOnce turns
    obtain ⟨next', taken', after⟩ := (sentOnce.call_iff known request).mpr inStep
    obtain rfl := Option.some.inj (taken.symm.trans taken')
    exact ⟨known.call taken, after, chained.takes turns (takes_of_call known.opened taken)⟩
  · rintro socket request turns ⟨known, sentOnce, chained⟩
    exact chained.inStep sentOnce turns

end Drumlin.Socket
