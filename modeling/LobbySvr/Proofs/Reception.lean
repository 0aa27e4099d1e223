/-
Module: LobbySvr.Proofs.Reception
Layer: Proofs
Purpose: Reception of a packet stream that the network cuts into chunks.  Every chunk is parsed on its own:
  the receive buffer is replaced on each read, so what the parser left of a chunk is gone.  Where the cuts
  fall between packets nothing is left, and the packet handlers see the same bodies however the stream
  was cut; a packet that a cut divides is lost.
Imports: LobbySvr.Proofs.ReadSide, LobbySvr.Proofs.FrameRoundTrip
Trusted boundary: none
Main exports: handedOn, HandsOn, handsOn_step, whole_packets_handed_on, reception_chunking
Open obligations: none
-/
import LobbySvr.Proofs.ReadSide
import LobbySvr.Proofs.FrameRoundTrip

namespace LobbySvr.Proofs

open LobbySvr.Foundation
open LobbySvr.Net
open LobbySvr.Spec
open LobbySvr.Lobby

/-- The part bodies handed to packet handlers, in order. -/
def handedOn {κ : Type} (log : List (Event κ)) : List (List UInt8) :=
  log.filterMap fun
    | .call (.handler _ _ body) => some body
    | _ => none

theorem handedOn_append {κ : Type} (log more : List (Event κ)) :
    handedOn (log ++ more) = handedOn log ++ handedOn more := List.filterMap_append ..

/-- Calls that deliver bodies hand on exactly these. -/
theorem handedOn_delivered {κ : Type} {parser : FrameParser κ} {calls : List (Call κ)}
    {bodies : List (List UInt8)} (delivered : List.Forall₂ (Delivers parser) calls bodies)
    (bytes : List UInt8) : handedOn (Event.parsed bytes :: calls.map Event.call) = bodies := by
  change handedOn (calls.map Event.call) = bodies
  induction delivered with
  | nil => rfl
  | cons delivers _ inductionHypothesis =>
      obtain ⟨kind, size, _, rfl, _⟩ := delivers
      exact congrArg (List.cons _) inductionHypothesis

section

variable {J : Type} {parseJson : List UInt8 → Option J}

/-- The lobby's parser on a message of whole packets. -/
theorem lobbyProcedure_whole (surroundings : Bool × List UInt8) {msg : MessageBuffer}
    {packets : List (List (List UInt8))} (valid : msg.Valid)
    (content : msg.bytes = encodeStream plainCodec packets)
    (recognised : AllRecognised packetParserNotUseEncTest packets) :
    ((lobbyProcedure parseJson).packetParsingFunction surroundings msg).ending = .returned true ∧
      List.Forall₂ (Delivers packetParserNotUseEncTest)
        ((lobbyProcedure parseJson).packetParsingFunction surroundings msg).calls packets.flatten := by
  have returns : AllReturn (behaviourOf (lobbyHandlers parseJson surroundings.1 surroundings.2)) :=
    fun kind body fits => lobbyHandlers_return parseJson _ _ kind fits
  obtain ⟨ending, _, delivered⟩ := parse_roundTrips rfl returns valid content recognised
  exact ⟨ending, delivered⟩

/-- As long as every message was of whole packets, the bodies of these packets have been handed on. -/
def HandsOn (log : List (Event LobbyHandler)) : Prop :=
  ∀ groups : List (List (List (List UInt8))), (∀ group ∈ groups, AllRecognised packetParserNotUseEncTest group) →
    parsedOf log = groups.map (encodeStream plainCodec) → handedOn log = groups.flatten.flatten

theorem HandsOn.append {log more : List (Event LobbyHandler)} (handsOn : HandsOn log)
    (notParsed : parsedOf more = []) (notHanded : handedOn more = []) : HandsOn (log ++ more) := by
  intro groups recognised parsed
  rw [parsedOf_append, notParsed, List.append_nil] at parsed
  rw [handedOn_append, notHanded, List.append_nil]
  exact handsOn groups recognised parsed

/-- One more message passed to the parser. -/
theorem HandsOn.parsed {log : List (Event LobbyHandler)} (handsOn : HandsOn log)
    (surroundings : Bool × List UInt8) {msg : MessageBuffer} (valid : msg.Valid) :
    HandsOn (log ++ (Event.parsed msg.bytes ::
      ((lobbyProcedure parseJson).packetParsingFunction surroundings msg).calls.map Event.call)) := by
  intro groups recognised parsed
  rw [parsedOf_append, parsedOf_parsed] at parsed
  obtain ⟨earlier, last, rfl, before, single⟩ := List.append_eq_map_iff.mp parsed
  obtain ⟨group, rfl⟩ : ∃ group, last = [group] := by
    apply List.length_eq_one_iff.mp
    rw [← List.length_map (encodeStream plainCodec), single]
    rfl
  have content : msg.bytes = encodeStream plainCodec group := (List.cons.inj single).1.symm
  have recognisedGroup := recognised group (by simp)
  obtain ⟨_, delivered⟩ := lobbyProcedure_whole surroundings valid content recognisedGroup
  have recognisedEarlier : ∀ other ∈ earlier, AllRecognised packetParserNotUseEncTest other :=
    fun other member => recognised other (List.mem_append_left _ member)
  rw [handedOn_append, handedOn_delivered delivered, handsOn earlier recognisedEarlier before.symm]
  simp

/-- One handler, taken from the front of the strand. -/
theorem handsOn_ran {shutdownOk : Bool} {surroundings : Bool × List UInt8}
    {conn later : ConnectionImpl LobbyHandler} {handler : Handler} {others : List Handler}
    (handsOn : HandsOn conn.log) (expected : Expected handler)
    (ran : Ran (lobbyProcedure parseJson) shutdownOk surroundings handler
      { conn with strand := others } later) : HandsOn later.log := by
  cases ran with
  | reads isRead filled timers =>
      rw [timers.same.log]
      exact handsOn.append rfl rfl
  | parses isDispatch opened returned =>
      exact handsOn.parsed surroundings (expected.2.2 _ isDispatch)
  | raises isDispatch opened raised =>
      exact handsOn.parsed surroundings (expected.2.2 _ isDispatch)
  | closes asked shutdown timers =>
      rw [timers.same.log]
      exact handsOn.append rfl rfl
  | expires isExpiry opened => exact handsOn.append rfl rfl
  | beginsClosing failed shutdown opened timers =>
      rw [timers.same.log]
      exact handsOn
  | staysAsItWas failed reason timers =>
      rw [timers.same.log]
      exact handsOn
  | idles idle timers =>
      rw [timers.same.log]
      exact handsOn
  | _ => exact handsOn

theorem handsOn_step {conn later : ConnectionImpl LobbyHandler} {label : Label (Bool × List UInt8)}
    {queued : List (List UInt8)} {chain : List Waiting} (side : ReadSide conn queued chain)
    (handsOn : HandsOn conn.log) (allowed : readSideOnly conn label = true)
    (taken : conn.step (lobbyProcedure parseJson) label = some later) : HandsOn later.log := by
  cases (step_took taken).2 with
  | reserves isReserve timers =>
      rw [timers.same.log]
      exact handsOn
  | expires isExpiry timers =>
      rw [timers.same.log]
      exact handsOn
  | reserveExpires isExpiry timers =>
      rw [timers.same.log]
      exact handsOn
  | @runs index _ _ handler others _ isRun picked ran =>
      subst isRun
      have first : index = 0 := by simpa [readSideOnly] using allowed
      subst first
      have front : conn.strand = handler :: others := pick_zero picked
      exact handsOn_ran handsOn (side.expected handler (front ▸ List.mem_cons_self ..)) ran
  | _ => exact handsOn

/-- In a run in posting order whose reads all delivered whole packets, the bodies of all packets have been
    handed on, in order and once, when no dispatch is queued any more. -/
theorem whole_packets_handed_on {start conn : ConnectionImpl LobbyHandler} (just : JustStarted start)
    (reached : Reaches (ConnectionImpl.step (lobbyProcedure parseJson)) readSideOnly start conn)
    {groups : List (List (List (List UInt8)))}
    (recognised : ∀ group ∈ groups, AllRecognised packetParserNotUseEncTest group)
    (reads : receivedOf conn.log = groups.map (encodeStream plainCodec))
    (drained : queuedOf conn.strand = []) : handedOn conn.log = groups.flatten.flatten := by
  have handsOn : HandsOn conn.log := by
    refine Reaches.invariant (motive := fun conn => HandsOn conn.log) ?_ ?_ reached
    · intro groups _ parsed
      rw [just.log] at parsed ⊢
      rw [List.map_eq_nil_iff.mp parsed.symm]
      rfl
    · intro state later label earlier invariant allowed taken
      obtain ⟨queued, chain, side⟩ := reaches_readSide just earlier
      exact handsOn_step side invariant allowed taken
  obtain ⟨queued, chain, side⟩ := reaches_readSide just reached
  refine handsOn groups recognised ?_
  rw [← reads, side.accounted, ← side.queuedOf_strand, drained, List.append_nil]

/-- Reception does not depend on how the stream is cut, as long as every chunk holds whole packets: the
    bodies handed on are those of the same stream delivered packet by packet. -/
theorem reception_chunking (parseJson : List UInt8 → Option J) {packets : List (List (List UInt8))}
    {groups : List (List (List (List UInt8)))}
    (recognised : AllRecognised packetParserNotUseEncTest packets) (cut : groups.flatten = packets)
    {keepAliveTime otherKeepAliveTime : Nat} {expired otherExpired : Bool}
    {chunked whole : ConnectionImpl LobbyHandler}
    (chunkedRun : Reaches (ConnectionImpl.step (lobbyProcedure parseJson)) readSideOnly
      (ConnectionImpl.started (lobbyProcedure parseJson) keepAliveTime expired) chunked)
    (wholeRun : Reaches (ConnectionImpl.step (lobbyProcedure parseJson)) readSideOnly
      (ConnectionImpl.started (lobbyProcedure parseJson) otherKeepAliveTime otherExpired) whole)
    (chunkedReads : receivedOf chunked.log = groups.map (encodeStream plainCodec))
    (wholeReads : receivedOf whole.log = packets.map (encodePacket plainCodec))
    (chunkedDrained : queuedOf chunked.strand = []) (wholeDrained : queuedOf whole.strand = []) :
    handedOn chunked.log = handedOn whole.log ∧ handedOn chunked.log = packets.flatten := by
  subst cut
  have inGroups : ∀ group ∈ groups, AllRecognised packetParserNotUseEncTest group := by
    intro group member parts packet
    exact recognised parts (List.mem_flatten.mpr ⟨group, member, packet⟩)
  have chunkedBodies : handedOn chunked.log = groups.flatten.flatten :=
    whole_packets_handed_on (started_justStarted _ _ _) chunkedRun inGroups chunkedReads chunkedDrained
  -- The other run is the same with one packet in every chunk.
  have single : ∀ group ∈ groups.flatten.map fun packet => [packet],
      AllRecognised packetParserNotUseEncTest group := by
    intro group member parts packet
    obtain ⟨only, inStream, rfl⟩ := List.mem_map.mp member
    rw [List.mem_singleton] at packet
    subst packet
    exact recognised parts inStream
  have singleReads : receivedOf whole.log =
      (groups.flatten.map fun packet => [packet]).map (encodeStream plainCodec) := by
    rw [wholeReads, List.map_map]
    congr 1
    funext packet
    simp [encodeStream]
  have wholeBodies : handedOn whole.log =
      (groups.flatten.map fun packet => [packet]).flatten.flatten :=
    whole_packets_handed_on (started_justStarted _ _ _) wholeRun single singleReads wholeDrained
  have same : (groups.flatten.map fun packet => [packet]).flatten = groups.flatten := by
    rw [← List.flatMap_def]
    exact List.flatMap_singleton' _
  rw [same] at wholeBodies
  exact ⟨chunkedBodies.trans wholeBodies.symm, chunkedBodies⟩

end

/-- Two heartbeats in one chunk, and the same two in two chunks. -/
theorem reception_chunking_heartBeats :
    ∃ chunked whole : ConnectionImpl LobbyHandler,
      receivedOf chunked.log = [[5, 0, 0, 0, 1, 0, 0, 0, 3, 5, 0, 0, 0, 1, 0, 0, 0, 3]] ∧
      receivedOf whole.log = [[5, 0, 0, 0, 1, 0, 0, 0, 3], [5, 0, 0, 0, 1, 0, 0, 0, 3]] ∧
      handedOn chunked.log = handedOn whole.log ∧ handedOn chunked.log = [[3], [3]] := by
  obtain ⟨chunked, chunkedRun, chunkedFacts⟩ := exists_reaches
    (fun conn : ConnectionImpl LobbyHandler => (receivedOf conn.log, queuedOf conn.strand))
    (show (runGuarded (ConnectionImpl.step (lobbyProcedure fun _ => some ())) readSideOnly
      (ConnectionImpl.started (lobbyProcedure fun _ => some ()) 0 false)
      [.readSome [5, 0, 0, 0, 1, 0, 0, 0, 3, 5, 0, 0, 0, 1, 0, 0, 0, 3], .run 0 true (true, []),
        .run 0 true (true, [])]).map (fun conn => (receivedOf conn.log, queuedOf conn.strand)) =
      some ([[5, 0, 0, 0, 1, 0, 0, 0, 3, 5, 0, 0, 0, 1, 0, 0, 0, 3]], []) by decide)
  obtain ⟨whole, wholeRun, wholeFacts⟩ := exists_reaches
    (fun conn : ConnectionImpl LobbyHandler => (receivedOf conn.log, queuedOf conn.strand))
    (show (runGuarded (ConnectionImpl.step (lobbyProcedure fun _ => some ())) readSideOnly
      (ConnectionImpl.started (lobbyProcedure fun _ => some ()) 0 false)
      [.readSome [5, 0, 0, 0, 1, 0, 0, 0, 3], .run 0 true (true, []),
        .readSome [5, 0, 0, 0, 1, 0, 0, 0, 3], .run 0 true (true, []), .run 0 true (true, []),
        .run 0 true (true, [])]).map (fun conn => (receivedOf conn.log, queuedOf conn.strand)) =
      some ([[5, 0, 0, 0, 1, 0, 0, 0, 3], [5, 0, 0, 0, 1, 0, 0, 0, 3]], []) by decide)
  obtain ⟨chunkedReads, chunkedDrained⟩ := Prod.mk.inj chunkedFacts
  obtain ⟨wholeReads, wholeDrained⟩ := Prod.mk.inj wholeFacts
  have recognised : AllRecognised packetParserNotUseEncTest [[[3]], [[3]]] := by
    unfold AllRecognised Recognised
    decide
  have cut : [[[[3]], [[3]]]].flatten = ([[[3]], [[3]]] : List (List (List UInt8))) := rfl
  obtain ⟨same, bodies⟩ := reception_chunking (fun _ => some ()) recognised cut chunkedRun wholeRun
    (chunkedReads.trans (by decide)) (wholeReads.trans (by decide)) chunkedDrained wholeDrained
  exact ⟨chunked, whole, chunkedReads, wholeReads, same, bodies⟩

/-- A heartbeat that arrives in two chunks is not delivered at all: the parser leaves the first four bytes
    for later, and there is no later for that buffer. -/
theorem split_packet_lost :
    ∃ chunked whole : ConnectionImpl LobbyHandler,
      Reaches (ConnectionImpl.step (lobbyProcedure fun _ => some ())) readSideOnly
        (ConnectionImpl.started (lobbyProcedure fun _ => some ()) 0 false) chunked ∧
      Reaches (ConnectionImpl.step (lobbyProcedure fun _ => some ())) readSideOnly
        (ConnectionImpl.started (lobbyProcedure fun _ => some ()) 0 false) whole ∧
      (receivedOf chunked.log = [[5, 0, 0, 0], [1, 0, 0, 0, 3]] ∧ queuedOf chunked.strand = [] ∧
        handedOn chunked.log = []) ∧
      receivedOf whole.log = [encodePacket plainCodec [[3]]] ∧ queuedOf whole.strand = [] ∧
        handedOn whole.log = [[3]] := by
  obtain ⟨chunked, chunkedRun, chunkedFacts⟩ := exists_reaches
    (fun conn : ConnectionImpl LobbyHandler => decide (receivedOf conn.log = [[5, 0, 0, 0],
      [1, 0, 0, 0, 3]] ∧ queuedOf conn.strand = [] ∧ handedOn conn.log = []))
    (show (runGuarded (ConnectionImpl.step (lobbyProcedure fun _ => some ())) readSideOnly
      (ConnectionImpl.started (lobbyProcedure fun _ => some ()) 0 false)
      [.readSome [5, 0, 0, 0], .run 0 true (true, []), .run 0 true (true, []),
        .readSome [1, 0, 0, 0, 3], .run 0 true (true, []), .run 0 true (true, [])]).map _ =
      some true by decide)
  obtain ⟨whole, wholeRun, wholeFacts⟩ := exists_reaches
    (fun conn : ConnectionImpl LobbyHandler => decide (receivedOf conn.log =
      [encodePacket plainCodec [[3]]] ∧ queuedOf conn.strand = [] ∧ handedOn conn.log = [[3]]))
    (show (runGuarded (ConnectionImpl.step (lobbyProcedure fun _ => some ())) readSideOnly
      (ConnectionImpl.started (lobbyProcedure fun _ => some ()) 0 false)
      [.readSome [5, 0, 0, 0, 1, 0, 0, 0, 3], .run 0 true (true, []), .run 0 true (true, [])]).map _ =
      some true by decide)
  exact ⟨chunked, whole, chunkedRun, wholeRun, of_decide_eq_true chunkedFacts,
    of_decide_eq_true wholeFacts⟩

end LobbySvr.Proofs
