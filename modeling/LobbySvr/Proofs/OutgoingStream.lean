/-
Module: LobbySvr.Proofs.OutgoingStream
Layer: Proofs
Purpose: The outgoing byte stream of a connection.  `send`, `sendRaw` and `sendPacket` start an `async_write`
  each, without a queue, and nothing in the class orders the pieces of two writes that are outstanding
  together.  The stream keeps its frames whole in runs where a call is made only when the writes before it
  are over.
Imports: LobbySvr.Proofs.ConnectionSteps, LobbySvr.Lobby.PacketParserJson
Trusted boundary: none
Main exports: oneAtATime, OneStream, oneStream_step, outgoing_stream_intact
Open obligations: none
-/
import LobbySvr.Proofs.ConnectionSteps
import LobbySvr.Lobby.PacketParserJson

namespace LobbySvr.Proofs

open LobbySvr.Foundation
open LobbySvr.Net
open LobbySvr.Lobby

variable {κ ε : Type} {procedure : MessageProcedure κ ε}

/-- A frame is handed over only when no earlier write is outstanding. -/
def oneAtATime (conn : ConnectionImpl κ) : Label ε → Bool
  | .send _ => conn.writes.isEmpty
  | .sendRaw _ => conn.writes.isEmpty
  | .sendPacket _ => conn.writes.isEmpty
  | _ => true

/-- At most one write is outstanding, and it holds what the socket still lacks of the frames. -/
structure OneStream (conn : ConnectionImpl κ) : Prop where
  single : conn.writes.length ≤ 1
  lacking : conn.broken = false → conn.frames.flatten = conn.wire ++ conn.writes.flatten
  initial : conn.wire <+: conn.frames.flatten

/-- The sending side of two connections is the same. -/
structure SameSending (conn later : ConnectionImpl κ) : Prop where
  writes : later.writes = conn.writes
  broken : later.broken = conn.broken
  wire : later.wire = conn.wire
  frames : later.frames = conn.frames

theorem OnlyTimers.sameSending {conn later : ConnectionImpl κ} (timers : OnlyTimers conn later) :
    SameSending conn later :=
  ⟨timers.same.writes, timers.same.broken, timers.same.wire, timers.same.frames⟩

theorem OneStream.congr {conn later : ConnectionImpl κ} (stream : OneStream conn)
    (same : SameSending conn later) : OneStream later := by
  constructor
  · rw [same.writes]
    exact stream.single
  · rw [same.writes, same.broken, same.wire, same.frames]
    exact stream.lacking
  · rw [same.wire, same.frames]
    exact stream.initial

/-- No handler of the strand touches the sending side. -/
theorem ran_sameSending {shutdownOk : Bool} {surroundings : ε} {handler : Handler}
    {conn later : ConnectionImpl κ} (ran : Ran procedure shutdownOk surroundings handler conn later) :
    SameSending conn later := by
  cases ran with
  | reads isRead filled timers =>
      have same := timers.sameSending
      exact ⟨same.writes, same.broken, same.wire, same.frames⟩
  | beginsClosing failed shutdown opened timers =>
      have same := timers.sameSending
      exact ⟨same.writes, same.broken, same.wire, same.frames⟩
  | closes asked shutdown timers =>
      have same := timers.sameSending
      exact ⟨same.writes, same.broken, same.wire, same.frames⟩
  | staysAsItWas failed reason timers => exact timers.sameSending
  | idles idle timers => exact timers.sameSending
  | _ => exact ⟨rfl, rfl, rfl, rfl⟩

/-- A guarded call finds no write outstanding. -/
theorem oneAtATime_writes {conn : ConnectionImpl κ} {label : Label ε} (isSend : IsSend label)
    (allowed : oneAtATime conn label = true) : conn.writes = [] := by
  rcases isSend with ⟨msg, rfl⟩ | ⟨sendBuffer, rfl⟩ | ⟨sendBuffer, rfl⟩
  · exact List.isEmpty_iff.mp allowed
  · exact List.isEmpty_iff.mp allowed
  · exact List.isEmpty_iff.mp allowed

/-- A write that is picked from at most one was the only one. -/
theorem OneStream.only {conn : ConnectionImpl κ} (stream : OneStream conn) {index : Nat}
    {remaining : List UInt8} {others : List (List UInt8)}
    (picked : pick index conn.writes = some (remaining, others)) :
    conn.writes = [remaining] ∧ others = [] := by
  obtain ⟨before, behind, writes, rest⟩ := pick_split picked
  have single := stream.single
  rw [writes, List.length_append, List.length_cons] at single
  have noBefore : before = [] := List.length_eq_zero_iff.mp (by omega)
  have noBehind : behind = [] := List.length_eq_zero_iff.mp (by omega)
  rw [writes, rest, noBefore, noBehind]
  exact ⟨rfl, rfl⟩

/-- A write that is found among at most one is the only one. -/
theorem OneStream.only_at {conn : ConnectionImpl κ} (stream : OneStream conn) {index : Nat}
    {remaining : List UInt8} (outstanding : conn.writes[index]? = some remaining) :
    index = 0 ∧ conn.writes = [remaining] := by
  have single := stream.single
  cases writes : conn.writes with
  | nil =>
      rw [writes] at outstanding
      cases outstanding
  | cons first rest =>
      rw [writes, List.length_cons] at single
      have noRest : rest = [] := List.length_eq_zero_iff.mp (by omega)
      subst noRest
      rw [writes] at outstanding
      cases index with
      | zero =>
          cases outstanding
          exact ⟨rfl, rfl⟩
      | succ index => cases outstanding

theorem oneStream_step {conn later : ConnectionImpl κ} {label : Label ε} (stream : OneStream conn)
    (allowed : oneAtATime conn label = true) (taken : conn.step procedure label = some later) :
    OneStream later := by
  cases (step_took taken).2 with
  | @sends frame isSend =>
      have noWrites := oneAtATime_writes isSend allowed
      have flattened : (conn.frames ++ [frame]).flatten = conn.frames.flatten ++ frame := by simp
      constructor
      · simp [noWrites]
      · intro usable
        rw [flattened, stream.lacking usable, noWrites]
        simp
      · change conn.wire <+: (conn.frames ++ [frame]).flatten
        rw [flattened]
        exact stream.initial.trans (List.prefix_append _ _)
  | @transfers index count remaining isTransfer outstanding usable =>
      obtain ⟨rfl, writes⟩ := stream.only_at outstanding
      have lacking := stream.lacking usable
      rw [writes] at lacking
      have moved : conn.frames.flatten =
          (conn.wire ++ remaining.take count) ++ [remaining.drop count].flatten := by
        rw [lacking]
        simp
      constructor
      · simp [writes]
      · intro _
        rw [moved, writes]
        rfl
      · change conn.wire ++ remaining.take count <+: conn.frames.flatten
        rw [moved]
        exact List.prefix_append _ _
  | finishes isDone picked =>
      obtain ⟨writes, rfl⟩ := stream.only picked
      constructor
      · exact Nat.zero_le 1
      · intro usable
        have lacking := stream.lacking usable
        rw [writes] at lacking
        simpa using lacking
      · exact stream.initial
  | gives isFailure picked error =>
      obtain ⟨_, rfl⟩ := stream.only picked
      constructor
      · exact Nat.zero_le 1
      · intro usable
        cases usable
      · exact stream.initial
  | reserves isReserve timers => exact stream.congr timers.sameSending
  | expires isExpiry timers =>
      have same := timers.sameSending
      exact stream.congr ⟨same.writes, same.broken, same.wire, same.frames⟩
  | reserveExpires isExpiry timers =>
      have same := timers.sameSending
      exact stream.congr ⟨same.writes, same.broken, same.wire, same.frames⟩
  | runs isRun picked ran =>
      have same := ran_sameSending ran
      exact stream.congr ⟨same.writes, same.broken, same.wire, same.frames⟩
  | _ => exact stream.congr ⟨rfl, rfl, rfl, rfl⟩

/-- The outgoing stream keeps its frames whole and in call order in every run that hands over a frame only
    when the writes before it are over: the bytes on the socket are an initial part of the frames. -/
theorem outgoing_stream_intact (procedure : MessageProcedure κ ε) (keepAliveTime : Nat) (expired : Bool)
    {conn : ConnectionImpl κ}
    (reached : Reaches (ConnectionImpl.step procedure) oneAtATime
      (ConnectionImpl.started procedure keepAliveTime expired) conn) :
    conn.wire <+: conn.frames.flatten := by
  have just := started_justStarted procedure keepAliveTime expired
  have stream : OneStream conn := by
    refine Reaches.invariant (motive := OneStream) ?_ ?_ reached
    · constructor
      · rw [just.writes]
        exact Nat.zero_le 1
      · intro _
        rw [just.writes, just.wire, just.frames]
        rfl
      · rw [just.wire]
        exact List.nil_prefix
    · intro state later label _ invariant allowed taken
      exact oneStream_step invariant allowed taken
  exact stream.initial

/-- A packet, and a second one after the first has left: the socket has all of the first and the front of
    the second. -/
theorem outgoing_stream_intact_two_packets :
    ∃ conn, Reaches (ConnectionImpl.step (lobbyProcedure fun _ => some ())) oneAtATime
        (ConnectionImpl.started (lobbyProcedure fun _ => some ()) 0 false) conn ∧
      conn.frames = [[5, 0, 0, 0, 1, 0, 0, 0, 65], [5, 0, 0, 0, 1, 0, 0, 0, 66]] ∧
      conn.wire = [5, 0, 0, 0, 1, 0, 0, 0, 65, 5, 0] ∧ conn.wire <+: conn.frames.flatten := by
  obtain ⟨conn, reached, facts⟩ := exists_reaches
    (fun conn : ConnectionImpl LobbyHandler => (conn.frames, conn.wire))
    (show (runGuarded (ConnectionImpl.step (lobbyProcedure fun _ => some ())) oneAtATime
      (ConnectionImpl.started (lobbyProcedure fun _ => some ()) 0 false)
      [.sendPacket [65], .transfer 0 4, .transfer 0 5, .writeDone 0, .sendPacket [66],
        .transfer 0 2]).map (fun conn => (conn.frames, conn.wire)) =
      some ([[5, 0, 0, 0, 1, 0, 0, 0, 65], [5, 0, 0, 0, 1, 0, 0, 0, 66]],
        [5, 0, 0, 0, 1, 0, 0, 0, 65, 5, 0]) by decide)
  obtain ⟨frames, wire⟩ := Prod.mk.inj facts
  exact ⟨conn, reached, frames, wire, outgoing_stream_intact _ 0 false reached⟩

/-- Two packets handed over at once: the second write gets its turn after four bytes of the first. -/
theorem overlapping_writes_interleave :
    ∃ conn, Reaches (ConnectionImpl.step (lobbyProcedure fun _ => some ())) anyStep
        (ConnectionImpl.started (lobbyProcedure fun _ => some ()) 0 false) conn ∧
      conn.frames = [[5, 0, 0, 0, 1, 0, 0, 0, 65], [5, 0, 0, 0, 1, 0, 0, 0, 66]] ∧
      conn.wire = [5, 0, 0, 0, 5, 0, 0, 0, 1, 0, 0, 0, 66] ∧ ¬ conn.wire <+: conn.frames.flatten := by
  obtain ⟨conn, reached, facts⟩ := exists_reaches
    (fun conn : ConnectionImpl LobbyHandler => (conn.frames, conn.wire))
    (show (runGuarded (ConnectionImpl.step (lobbyProcedure fun _ => some ())) anyStep
      (ConnectionImpl.started (lobbyProcedure fun _ => some ()) 0 false)
      [.sendPacket [65], .sendPacket [66], .transfer 0 4, .transfer 1 9]).map
        (fun conn => (conn.frames, conn.wire)) =
      some ([[5, 0, 0, 0, 1, 0, 0, 0, 65], [5, 0, 0, 0, 1, 0, 0, 0, 66]],
        [5, 0, 0, 0, 5, 0, 0, 0, 1, 0, 0, 0, 66]) by decide)
  obtain ⟨frames, wire⟩ := Prod.mk.inj facts
  refine ⟨conn, reached, frames, wire, ?_⟩
  rw [frames, wire]
  decide

end LobbySvr.Proofs
