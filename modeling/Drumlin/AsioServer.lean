import Mathlib.Data.List.Range
import Mathlib.Data.List.Perm.Basic
import Drumlin.Library.Runs

/-!
# Accepting connections

`AsioServer::start` (connection.h) makes a connection and waits for a peer, and `handle_accept`
starts the connection and calls `start` again, or deletes it.  Whoever owns the server may call
`start` more than once, and `stop`, which closes the acceptor.
-/

namespace Drumlin

/-! ## The code -/

/-- `AsioServer`, and what became of its connections, which are numbered as they are made. -/
structure AsioServer where
  /-- How many connections were made. -/
  made : Nat
  /-- The connections with an `async_accept` outstanding. -/
  accepting : List Nat
  /-- The connections whose `connection_start` was called, in order. -/
  started : List Nat
  /-- The connections deleted, in order. -/
  deleted : List Nat
  /-- `m_acceptor` is open. -/
  isOpen : Bool
  /-- How often `listen` threw. -/
  thrown : Nat
deriving DecidableEq, Repr

namespace AsioServer

/-- A server with its acceptor open. -/
def opened : AsioServer := ⟨0, [], [], [], true, 0⟩

/-- `AsioServer::start`.  For an acceptor that is closed, `listen` throws. -/
def start (server : AsioServer) : AsioServer :=
  if server.isOpen then
    { server with made := server.made + 1, accepting := server.accepting ++ [server.made] }
  else { server with thrown := server.thrown + 1 }

/-- `AsioServer::handle_accept`. -/
def handleAccept (newConnection : Nat) (error : Bool) (server : AsioServer) : AsioServer :=
  if !error then { server with started := server.started ++ [newConnection] }.start
  else { server with deleted := server.deleted ++ [newConnection] }

/-- `AsioServer::stop`. -/
def stop (server : AsioServer) : AsioServer := { server with isOpen := false }

/-- What happens next: the owner calls `start` or `stop`, or an outstanding accept completes. -/
inductive Act
  | start
  | stop
  | complete (newConnection : Nat) (error : Bool)
deriving DecidableEq, Repr

/-- One act.  Nothing completes that is not outstanding. -/
def step (server : AsioServer) : Act → Option AsioServer
  | .start => some server.start
  | .stop => some server.stop
  | .complete newConnection error =>
      if newConnection ∈ server.accepting then
        some ({ server with accepting := server.accepting.erase newConnection }.handleAccept
          newConnection error)
      else none

/-- How often the owner called `start`. -/
def starts (acts : List Act) : Nat := acts.count .start

/-! ## What becomes of the connections -/

/-- Every connection made is in one place, once: it waits, was started or was deleted.  Each call of
`start` by the owner has an accept outstanding, unless that ended with an error or `listen`
threw. -/
structure Accounts (server : AsioServer) (calls : Nat) : Prop where
  places : (server.accepting ++ server.started ++ server.deleted).Perm (List.range server.made)
  chains : server.accepting.length + server.deleted.length + server.thrown = calls

variable {server next : AsioServer} {act : Act} {calls : Nat}

theorem accounts_opened : opened.Accounts 0 := ⟨by simp [opened], rfl⟩

/-- The owner calls `start`, or `handle_accept` does in place of an accept that is over. -/
theorem Accounts.start (accounts : server.Accounts calls) : server.start.Accounts (calls + 1) := by
  obtain ⟨places, chains⟩ := accounts
  rw [AsioServer.start]
  split
  · constructor
    · refine List.perm_iff_count.mpr fun connection => ?_
      have before := places.count_eq connection
      simp only [List.range_succ, List.count_append] at before ⊢
      omega
    · simp only [List.length_append, List.length_singleton]
      omega
  · exact ⟨places, by dsimp only; omega⟩

/-- An accept is over, and its connection in one of the other places. -/
theorem Accounts.settled (accounts : server.Accounts calls) {newConnection : Nat}
    (waits : newConnection ∈ server.accepting) :
    (server.accepting.erase newConnection ++ (server.started ++ [newConnection]) ++
        server.deleted).Perm (List.range server.made) ∧
      (server.accepting.erase newConnection ++ server.started ++
        (server.deleted ++ [newConnection])).Perm (List.range server.made) ∧
      (server.accepting.erase newConnection).length + 1 = server.accepting.length := by
  have counted (connection : Nat) :
      (server.accepting.erase newConnection).count connection +
          [newConnection].count connection = server.accepting.count connection := by
    have split := (List.perm_cons_erase waits).count_eq connection
    rw [List.count_cons] at split
    rw [List.count_singleton]
    omega
  refine ⟨List.perm_iff_count.mpr fun connection => ?_,
    List.perm_iff_count.mpr fun connection => ?_, List.length_erase_add_one waits⟩
  all_goals
    have before := accounts.places.count_eq connection
    have now := counted connection
    simp only [List.count_append] at before ⊢
    omega

theorem Accounts.step (accounts : server.Accounts calls) (taken : server.step act = some next) :
    next.Accounts (calls + starts [act]) := by
  cases act with
  | start =>
      obtain rfl := Option.some.inj taken
      exact accounts.start
  | stop =>
      obtain rfl := Option.some.inj taken
      exact ⟨accounts.places, accounts.chains⟩
  | complete newConnection error =>
      rw [AsioServer.step] at taken
      split at taken
      · rename_i waits
        obtain rfl := Option.some.inj taken
        obtain ⟨asStarted, asDeleted, fewer⟩ := accounts.settled waits
        have chains := accounts.chains
        cases error with
        | true => exact ⟨asDeleted, by simp [handleAccept, starts]; omega⟩
        | false =>
            obtain ⟨earlier, rfl⟩ : ∃ earlier, calls = earlier + 1 := ⟨calls - 1, by omega⟩
            refine Accounts.start ⟨asStarted, ?_⟩
            dsimp only
            omega
      · simp at taken

theorem Accounts.exec {final : AsioServer} {acts : List Act} (accounts : server.Accounts calls)
    (run : Runs.exec AsioServer.step server acts = some final) :
    final.Accounts (calls + starts acts) := by
  induction acts generalizing server calls with
  | nil =>
      obtain rfl : server = final := by simpa using run
      exact accounts
  | cons act acts induction =>
      obtain ⟨next, taken, rest⟩ := Runs.exec_cons_eq_some.mp run
      have sum : starts (act :: acts) = starts [act] + starts acts := by
        rw [starts, starts, starts, ← List.count_append]
        rfl
      rw [sum, ← Nat.add_assoc]
      exact induction (accounts.step taken) rest

/-- Whatever the owner does and however the accepts end: every connection that the server made
waits, was started once or was deleted once, and no two of these; and as many accepts wait as
`start` was called by the owner, less those that failed. -/
theorem exec_accounts {acts : List Act} (run : Runs.exec step opened acts = some server) :
    server.Accounts (starts acts) := by
  simpa using accounts_opened.exec run

/-- One peer is accepted, and the server stopped. -/
theorem exec_accounts_stopped :
    ∃ acts server, Runs.exec step opened acts = some server ∧ server.Accounts 1 ∧
      server.started = [0] ∧ server.deleted = [1] := by
  have run : Runs.exec step opened [.start, .complete 0 false, .stop, .complete 1 true] =
      some _ := rfl
  exact ⟨_, _, run, exec_accounts run, rfl, rfl⟩

end AsioServer

end Drumlin
