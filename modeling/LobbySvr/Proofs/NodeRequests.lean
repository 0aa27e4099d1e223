/-
Module: LobbySvr.Proofs.NodeRequests
Layer: Proofs
Purpose: Where the requests of the clients come from.  In every run of the process, whatever the order in which
  the strands run their handlers, the calls of the server for a connection are the events of that
  connection, each once and in order; what the parser calls is what it makes of the chunks it is given; and
  every chunk it is given has been received and is given to it once at most.
Imports: LobbySvr.Proofs.NodeRuns, LobbySvr.Proofs.ReadSide
Trusted boundary: none
Main exports: parsedCalls, HandedOver, reaches_handled, reactions, node_reacts, isRequest,
  node_requests
Open obligations: none
-/
import Mathlib.Data.List.Perm.Subperm
import LobbySvr.Proofs.NodeRuns
import LobbySvr.Proofs.ReadSide

namespace LobbySvr.Proofs

open LobbySvr.Foundation
open LobbySvr.Net
open LobbySvr.Spec
open LobbySvr.Lobby

/-! ### What a connection parses was received -/

/-- What the lobby's parser makes of a chunk. -/
def parsedCalls (bytes : List UInt8) : List (Call LobbyHandler) :=
  (runFrames packetParserNotUseEncTest (behaviourOf fun _ _ _ => none) bytes).calls

/-- The calls follow from the messages that were parsed, and these, those in hand and those in the strand have
    all been received. -/
structure HandedOver (inHand : List (List UInt8)) (conn : ConnectionImpl LobbyHandler) : Prop where
  buffer : conn.msg = newMessageBuffer conn.msgManipulator
  valid : ∀ msg, .dispatch msg ∈ conn.strand → msg.Valid
  calls : callsOf conn.log = (parsedOf conn.log).flatMap parsedCalls
  once : List.Subperm (parsedOf conn.log ++ (inHand ++ queuedOf conn.strand)) (receivedOf conn.log)

theorem queuedOf_append (strand more : List Handler) :
    queuedOf (strand ++ more) = queuedOf strand ++ queuedOf more := List.filterMap_append

theorem queuedOf_aborted {cancelled : List Handler} (aborted : ∀ handler ∈ cancelled, Aborted handler) :
    queuedOf cancelled = [] := by
  rw [queuedOf_eq, waiting_aborted aborted]
  rfl

/-- What is in hand may be dropped. -/
theorem HandedOver.drop {inHand : List (List UInt8)} {conn : ConnectionImpl LobbyHandler}
    (handled : HandedOver inHand conn) : HandedOver [] conn where
  buffer := handled.buffer
  valid := handled.valid
  calls := handled.calls
  once := by
    have fewer : List.Sublist (parsedOf conn.log ++ ([] ++ queuedOf conn.strand))
        (parsedOf conn.log ++ (inHand ++ queuedOf conn.strand)) :=
      (List.Sublist.refl _).append ((List.nil_sublist inHand).append (List.Sublist.refl _))
    exact fewer.subperm.trans handled.once

/-- A step that neither receives nor parses anything. -/
theorem HandedOver.congr {inHand : List (List UInt8)} {conn later : ConnectionImpl LobbyHandler}
    (handled : HandedOver inHand conn) {more : List Handler} {events : List (Event LobbyHandler)}
    (msg : later.msg = conn.msg) (manip : later.msgManipulator = conn.msgManipulator)
    (strand : later.strand = conn.strand ++ more) (noMessage : queuedOf more = [])
    (log : later.log = conn.log ++ events) (unread : receivedOf events = [])
    (unparsed : parsedOf events = []) (uncalled : callsOf events = []) : HandedOver inHand later where
  buffer := by rw [msg, manip, handled.buffer]
  valid := by
    intro other member
    rw [strand] at member
    rcases List.mem_append.mp member with before | behind
    · exact handled.valid other before
    · have queued : other.bytes ∈ queuedOf more := List.mem_filterMap.mpr ⟨_, behind, rfl⟩
      rw [noMessage] at queued
      exact absurd queued List.not_mem_nil
  calls := by
    rw [log, callsOf_append, uncalled, parsedOf_append, unparsed, List.append_nil, List.append_nil]
    exact handled.calls
  once := by
    rw [log, strand, parsedOf_append, unparsed, receivedOf_append, unread, queuedOf_append, noMessage,
      List.append_nil, List.append_nil, List.append_nil]
    exact handled.once

theorem OnlyTimers.handled {inHand : List (List UInt8)} {conn later : ConnectionImpl LobbyHandler}
    (timers : OnlyTimers conn later) (handled : HandedOver inHand conn) : HandedOver inHand later := by
  obtain ⟨cancelled, strand, aborted⟩ := timers.strand
  exact handled.congr timers.same.msg timers.same.msgManipulator strand (queuedOf_aborted aborted)
    (timers.same.log.trans (List.append_nil _).symm) rfl rfl rfl

/-- The handler that is taken out of the strand is in hand. -/
theorem HandedOver.picks {conn : ConnectionImpl LobbyHandler} (handled : HandedOver [] conn) {index : Nat}
    {handler : Handler} {others : List Handler}
    (picked : pick index conn.strand = some (handler, others)) :
    HandedOver (queuedOf [handler]) { conn with strand := others } := by
  obtain ⟨before, behind, split, rfl⟩ := pick_split picked
  obtain ⟨buffer, valid, calls, once⟩ := handled
  rw [split] at valid once
  refine ⟨buffer, fun msg member => valid msg ?_, calls, ?_⟩
  · rcases List.mem_append.mp member with front | back
    · exact List.mem_append_left _ front
    · exact List.mem_append_right _ (List.mem_cons_of_mem _ back)
  · have regrouped : queuedOf (before ++ handler :: behind) =
        queuedOf before ++ (queuedOf [handler] ++ queuedOf behind) := by
      rw [← queuedOf_append, ← queuedOf_append]
      rfl
    have shuffled : List.Perm (queuedOf [handler] ++ queuedOf (before ++ behind))
        (queuedOf (before ++ handler :: behind)) := by
      rw [regrouped, queuedOf_append]
      exact List.perm_append_comm_assoc _ _ _
    rw [List.nil_append] at once
    exact ((shuffled.append_left (parsedOf conn.log)).subperm).trans once

/-- A message that is in hand is parsed. -/
theorem HandedOver.parses {conn later : ConnectionImpl LobbyHandler} {msg : MessageBuffer} (valid : msg.Valid)
    (handled : HandedOver [msg.bytes] conn) (sameMsg : later.msg = conn.msg)
    (manip : later.msgManipulator = conn.msgManipulator) (strand : later.strand = conn.strand)
    (log : later.log = conn.log ++ (Event.parsed msg.bytes ::
      (nodeProcedure.packetParsingFunction () msg).calls.map Event.call)) : HandedOver [] later where
  buffer := by rw [sameMsg, manip, handled.buffer]
  valid := by rw [strand]; exact handled.valid
  calls := by
    have made : (nodeProcedure.packetParsingFunction () msg).calls = parsedCalls msg.bytes :=
      (parse_refines packetParserNotUseEncTest (fun _ _ _ => none) valid).calls
    rw [log, callsOf_append, callsOf_parsed, parsedOf_append, parsedOf_parsed, List.flatMap_append, made,
      handled.calls, List.flatMap_singleton]
  once := by
    rw [log, parsedOf_append, parsedOf_parsed, receivedOf_append, receivedOf_parsed, List.append_nil,
      List.append_assoc, List.nil_append, strand]
    exact handled.once

/-- A chunk that is received is queued. -/
theorem HandedOver.reads {conn later : ConnectionImpl LobbyHandler} (handled : HandedOver [] conn)
    {chunk : List UInt8} {msgRecv : MessageBuffer} (filled : conn.msg.fill chunk = .ok msgRecv)
    (msg : later.msg = newMessageBuffer conn.msgManipulator)
    (manip : later.msgManipulator = conn.msgManipulator)
    (strand : later.strand = conn.strand ++ [.dispatch msgRecv])
    (log : later.log = conn.log ++ [.received chunk]) : HandedOver [] later := by
  have fits : chunk.length ≤ MessageBuffer.maxBufferSize := by
    by_contra long
    have tooLong : MessageBuffer.maxBufferSize < conn.msg.writePos + chunk.length := by omega
    rw [MessageBuffer.fill, if_pos tooLong] at filled
    cases filled
  obtain ⟨same, eq, recvValid, bytes⟩ := @newMessageBuffer_fill conn.msgManipulator chunk fits
  rw [handled.buffer, eq] at filled
  cases filled
  have queued : queuedOf [.dispatch msgRecv] = [chunk] := congrArg (fun bytes => [bytes]) bytes
  refine ⟨by rw [msg, manip], ?_, ?_, ?_⟩
  · intro other member
    rw [strand] at member
    rcases List.mem_append.mp member with before | last
    · exact handled.valid other before
    · cases List.mem_singleton.mp last
      exact recvValid
  · rw [log, callsOf_append, parsedOf_append, List.flatMap_append, handled.calls]
    rfl
  · have once := handled.once.append (List.Subperm.refl [chunk])
    rw [log, strand, queuedOf_append, queued, parsedOf_append, receivedOf_append]
    simpa [parsedOf, receivedOf] using once

/-- A step that queues at most what is no message. -/
theorem HandedOver.queues {inHand : List (List UInt8)} {conn later : ConnectionImpl LobbyHandler}
    (handled : HandedOver inHand conn) {more : List Handler} (msg : later.msg = conn.msg)
    (manip : later.msgManipulator = conn.msgManipulator) (strand : later.strand = conn.strand ++ more)
    (noMessage : queuedOf more = []) (log : later.log = conn.log) : HandedOver inHand later :=
  handled.congr msg manip strand noMessage (log.trans (List.append_nil _).symm) rfl rfl rfl

/-- A step that queues nothing, and whose events are neither received nor parsed. -/
theorem HandedOver.observes {inHand : List (List UInt8)} {conn later : ConnectionImpl LobbyHandler}
    (handled : HandedOver inHand conn) {events : List (Event LobbyHandler)} (msg : later.msg = conn.msg)
    (manip : later.msgManipulator = conn.msgManipulator) (strand : later.strand = conn.strand)
    (log : later.log = conn.log ++ events) (unread : receivedOf events = [])
    (unparsed : parsedOf events = []) (uncalled : callsOf events = []) : HandedOver inHand later :=
  handled.congr msg manip (strand.trans (List.append_nil _).symm) rfl log unread unparsed uncalled

/-- One handler. -/
theorem Ran.handled {shutdownOk : Bool} {handler : Handler} {conn later : ConnectionImpl LobbyHandler}
    (ran : Ran nodeProcedure shutdownOk () handler conn later)
    (valid : ∀ msg, handler = .dispatch msg → msg.Valid) (handled : HandedOver (queuedOf [handler]) conn) :
    HandedOver [] later := by
  cases ran with
  | @reads chunk msgRecv middle isRead filled timers =>
      subst isRead
      obtain ⟨cancelled, strand, aborted⟩ := timers.strand
      exact timers.handled (handled.reads filled rfl rfl rfl rfl)
  | overruns isRead filled => exact handled.drop.queues rfl rfl (List.append_nil _).symm rfl rfl
  | retries isRead failed pending => exact handled.drop.queues rfl rfl rfl rfl rfl
  | beginsClosing failed shutdown opened timers =>
      exact timers.handled (handled.drop.queues rfl rfl (List.append_nil _).symm rfl rfl)
  | staysAsItWas failed reason timers => exact timers.handled handled.drop
  | parses isDispatch opened returned =>
      subst isDispatch
      exact handled.parses (valid _ rfl) rfl rfl rfl rfl
  | raises isDispatch opened raised =>
      subst isDispatch
      exact handled.parses (valid _ rfl) rfl rfl rfl rfl
  | drops isDispatch notOpened => exact handled.drop
  | closes asked shutdown timers =>
      exact timers.handled (handled.drop.observes rfl rfl rfl rfl rfl rfl rfl)
  | closeFails asked failed => exact handled.drop
  | expires isExpiry opened => exact handled.drop.observes rfl rfl rfl rfl rfl rfl rfl
  | idles idle timers => exact timers.handled handled.drop

/-- One step. -/
theorem HandedOver.step {conn later : ConnectionImpl LobbyHandler} {label : Label Unit}
    (handled : HandedOver [] conn) (taken : conn.step nodeProcedure label = some later) :
    HandedOver [] later := by
  cases (step_took taken).2 with
  | arrives isRead readable => exact handled.queues rfl rfl rfl rfl rfl
  | breaksOff isRead reading error => exact handled.queues rfl rfl rfl rfl rfl
  | sends isSend => exact handled.queues rfl rfl (List.append_nil _).symm rfl rfl
  | refuses isSend => exact handled
  | transfers isTransfer outstanding usable =>
      exact handled.queues rfl rfl (List.append_nil _).symm rfl rfl
  | finishes isDone picked => exact handled.queues rfl rfl rfl rfl rfl
  | gives isFailure picked error => exact handled.queues rfl rfl rfl rfl rfl
  | reserves isReserve timers => exact timers.handled handled
  | expires isExpiry timers => exact timers.handled (handled.queues rfl rfl rfl rfl rfl)
  | reserveExpires isExpiry timers => exact timers.handled (handled.queues rfl rfl rfl rfl rfl)
  | queuesClose isPosted waiting => exact handled.queues rfl rfl rfl rfl rfl
  | runs isRun picked ran =>
      refine ran.handled (fun msg isDispatch => handled.valid msg ?_) (handled.picks picked)
      obtain ⟨before, behind, strand, -⟩ := pick_split picked
      rw [strand, ← isDispatch]
      exact List.mem_append_right _ List.mem_cons_self

theorem JustStarted.handled {conn : ConnectionImpl LobbyHandler} (just : JustStarted conn) :
    HandedOver [] conn where
  buffer := just.msg
  valid msg member := by
    obtain ⟨ec, same⟩ := just.strand _ member
    cases same
  calls := by
    rw [just.log]
    rfl
  once := by
    have nothing : queuedOf conn.strand = [] := by
      refine List.filterMap_eq_nil_iff.mpr fun handler member => ?_
      obtain ⟨ec, rfl⟩ := just.strand handler member
      rfl
    rw [just.log, nothing]
    exact List.nil_subperm

/-- In every state of every run. -/
theorem reaches_handled {start conn : ConnectionImpl LobbyHandler} (just : JustStarted start)
    (reached : Reaches (ConnectionImpl.step nodeProcedure) anyStep start conn) : HandedOver [] conn :=
  Reaches.invariant (motive := HandedOver []) just.handled (fun _ handled _ taken => handled.step taken)
    reached

/-! ### What the server is told -/

section

variable {limit : Nat} {J : Type} {json : ServerJson J} {ids : Identities (Fin limit)}
  {clientVersion : Int} {keepAliveTime : Nat} {connector : Option ConnectOutcome}
  {inputs : List (NodeInput limit)} {node : LobbyNode limit}
  {trace : List (NodeInput limit × ServerCalls limit)}

/-- Whether a call is for a connection, its acceptance apart. -/
def reactsTo (conn : Fin limit) : ServerEvent (Fin limit) → Bool
  | .onAccept _ => false
  | event => decide (caller event = some conn)

/-- The calls for a connection, its acceptance apart, in order. -/
def reactions (conn : Fin limit) (calls : ServerCalls limit) : List (ServerEvent (Fin limit)) :=
  (calls.map fun call => call.1.event).filter (reactsTo conn)

theorem reactions_append (conn : Fin limit) (calls more : ServerCalls limit) :
    reactions conn (calls ++ more) = reactions conn calls ++ reactions conn more := by
  rw [reactions, List.map_append, List.filter_append]
  rfl

/-- The calls behind the events of a connection are for it, and none is its acceptance. -/
theorem reactsTo_serverCall {conn other : Fin limit} {event : Event LobbyHandler}
    {call : ServerEvent (Fin limit)} (made : serverCall conn event = some call) :
    reactsTo other call = decide (conn = other) := by
  have called := serverCall_caller made
  have same : (some conn = some other) = (conn = other) := by rw [Option.some.injEq]
  cases call with
  | onAccept accepted =>
      cases event with
      | call inner => cases called; exact absurd rfl (serverCall_call made).2.1
      | _ => cases made
  | _ => simp only [reactsTo, called, same]

theorem callsAround_events (around : Nat → Circumstances (Fin limit))
    (events : List (ServerEvent (Fin limit))) :
    (callsAround around events).map ServerInput.event = events := by
  refine List.ext_getElem (by simp [callsAround]) fun index inside _ => ?_
  simp [callsAround]

/-- The reactions to what happens to a connection. -/
theorem reactions_happens {conn other : Fin limit} {around : Nat → Circumstances (Fin limit)}
    {events : List (Event LobbyHandler)} {calls : ServerCalls limit}
    (made : calls.map Prod.fst = callsAround around (events.filterMap (serverCall conn))) :
    reactions other calls = if conn = other then events.filterMap (serverCall conn) else [] := by
  have told : calls.map (fun call => call.1.event) = events.filterMap (serverCall conn) := by
    have mapped := congrArg (List.map ServerInput.event) made
    rw [callsAround_events, List.map_map] at mapped
    exact mapped
  have each : ∀ call ∈ events.filterMap (serverCall conn), reactsTo other call = decide (conn = other) := by
    intro call member
    obtain ⟨event, -, isCall⟩ := List.mem_filterMap.mp member
    exact reactsTo_serverCall isCall
  rw [reactions, told]
  by_cases same : conn = other
  · rw [if_pos same, List.filter_eq_self]
    intro call member
    rw [each call member, decide_eq_true same]
  · rw [if_neg same, List.filter_eq_nil_iff]
    intro call member
    rw [each call member, decide_eq_false same]
    exact Bool.false_ne_true

/-- One step: the reactions for a connection are those to the events that it adds. -/
theorem node_step_reactions {next : LobbyNode limit} {calls : ServerCalls limit}
    (took : NodeStep json ids clientVersion node next calls) (conn : Fin limit) :
    ∃ events, (next.conns conn).log = (node.conns conn).log ++ events ∧
      reactions conn calls = events.filterMap (serverCall conn) := by
  have unseen : (next.conns conn).log = (node.conns conn).log → reactions conn calls = [] →
      ∃ events, (next.conns conn).log = (node.conns conn).log ++ events ∧
        reactions conn calls = events.filterMap (serverCall conn) :=
    fun log none => ⟨[], log.trans (List.append_nil _).symm, none⟩
  have served : ∀ {before after : LobbyNode limit} {inputs : List (ServerInput (Fin limit))},
      runTrace (LobbyNode.serve json ids clientVersion) before inputs = .ok (after, calls) →
      (after.conns conn).log = (before.conns conn).log := by
    intro before after inputs ran
    rw [(serve_run ran).2.2 conn]
    exact (afterActions_acted _ _).same.2.1
  cases took with
  | idles => exact unseen rfl rfl
  | refuses accepting => exact unseen rfl rfl
  | @accepts other others around acceptor middle _ accepting after created serves =>
      have log := served serves
      have made := runTrace_inputs serves
      refine unseen ?_ ?_
      · by_cases same : conn = other
        · subst same
          change (Function.update middle.conns conn _ conn).log = _
          rw [Function.update_self]
          exact (OnlyTimers.renewExpireTime _).same.log.trans log
        · change (Function.update middle.conns other _ conn).log = _
          rw [Function.update_of_ne same]
          exact log
      · have told : calls.map (fun call => call.1.event) = [.onAccept other] := by
          have mapped := congrArg (List.map ServerInput.event) made
          rw [List.map_map] at mapped
          exact mapped
        rw [reactions, told]
        rfl
  | @happens other label around later middle _ notUser created stepped serves running =>
      have log := served serves
      have reacted := @reactions_happens _ _ conn _ _ _ (runTrace_inputs serves)
      by_cases same : other = conn
      · subst same
        simp only [Function.update_self] at log
        obtain ⟨events, extended, -⟩ := step_adds stepped
        rw [if_pos rfl, extended, List.drop_left] at reacted
        exact ⟨events, log.trans extended, reacted⟩
      · simp only [Function.update_of_ne (Ne.symm same)] at log
        rw [if_neg same] at reacted
        exact unseen log reacted
  | @obeys call around middle _ serves =>
      have log := served serves
      have mapped := congrArg (List.map ServerInput.event) (runTrace_inputs serves)
      rw [List.map_map] at mapped
      refine unseen log ?_
      change List.filter (reactsTo conn) (calls.map (ServerInput.event ∘ Prod.fst)) = []
      rw [mapped]
      cases call with
      | _ => rfl

/-- In every run, the calls for a connection are the events of the connection. -/
theorem node_reacts
    (ran : LobbyNode.run json ids clientVersion keepAliveTime connector inputs = .ok (node, trace))
    (conn : Fin limit) :
    reactions conn (callsMade trace) = (node.conns conn).log.filterMap (serverCall conn) := by
  refine runTrace_invariant (fun trace node =>
    reactions conn (callsMade trace) = (node.conns conn).log.filterMap (serverCall conn)) ?_ ?_ ran
  · have nothing : ((LobbyNode.start keepAliveTime connector : LobbyNode limit).conns conn).log = [] :=
      (@AwaitingAccept.created keepAliveTime).fields.1
    rw [nothing]
    rfl
  · intro earlier state input next calls before stepped
    obtain ⟨events, extended, reacted⟩ := node_step_reactions (node_step_cases stepped) conn
    rw [callsMade_snoc, reactions_append, before, reacted, extended, List.filterMap_append]

/-- Whether a call hands the server a part that a client has sent. -/
def isRequest : ServerEvent (Fin limit) → Bool
  | .readJsonPacket _ _ _ => true
  | .noHandler _ => true
  | _ => false

/-- The requests among the reactions are the calls of the parser. -/
theorem requests_callsOf (conn : Fin limit) (log : List (Event LobbyHandler)) :
    (log.filterMap (serverCall conn)).filter isRequest =
      (callsOf log).filterMap fun call => serverCall conn (.call call) := by
  induction log with
  | nil => rfl
  | cons event log inductionHypothesis =>
      cases event with
      | call call =>
          change _ = List.filterMap (fun call => serverCall conn (.call call)) (call :: callsOf log)
          rw [List.filterMap_cons, List.filterMap_cons]
          cases call with
          | handler kind size body =>
              cases kind with
              | readJsonPacket => exact congrArg (_ :: ·) inductionHypothesis
              | heartBeat => exact inductionHypothesis
          | noHandler body => exact congrArg (_ :: ·) inductionHypothesis
      | _ => exact inductionHypothesis

/-- In every run of the process, and whatever the order in which the strands run their handlers: the server is
    told of a connection, behind its acceptance, exactly the events of the connection, in order; the
    requests among them are what the parser makes of the chunks it is given; and these have all been
    received, and none is given to it twice. -/
theorem node_requests (laws : MemberLaws json.toJsonCpp)
    (ran : LobbyNode.run json ids clientVersion keepAliveTime connector inputs = .ok (node, trace))
    (conn : Fin limit) :
    reactions conn (callsMade trace) = (node.conns conn).log.filterMap (serverCall conn) ∧
      (reactions conn (callsMade trace)).filter isRequest =
        ((parsedOf (node.conns conn).log).flatMap parsedCalls).filterMap
          (fun call => serverCall conn (.call call)) ∧
      List.Subperm (parsedOf (node.conns conn).log) (receivedOf (node.conns conn).log) := by
  have reacted := node_reacts ran conn
  have inPhase := (node_invariant laws ran).conns conn
  obtain ⟨calls, once⟩ : callsOf (node.conns conn).log =
        (parsedOf (node.conns conn).log).flatMap parsedCalls ∧
      List.Subperm (parsedOf (node.conns conn).log) (receivedOf (node.conns conn).log) := by
    have ofHandled : HandedOver [] (node.conns conn) → _ := fun handled =>
      And.intro handled.calls ((List.sublist_append_left _ _).subperm.trans handled.once)
    generalize ClientPhase.after conn ((callsMade trace).map Prod.fst) = phase at inPhase
    cases inPhase with
    | waiting waits =>
        rw [waits.fields.1]
        exact ⟨rfl, List.nil_subperm⟩
    | served reached running notClosed =>
        exact ofHandled (reaches_handled (started_justStarted _ _ _) reached)
    | gone reached running closed =>
        exact ofHandled (reaches_handled (started_justStarted _ _ _) reached)
  refine ⟨reacted, ?_, once⟩
  rw [reacted, requests_callsOf, calls]

end

/-- The requests of the visit: the packet has been received, handed to the parser and found to be unknown. -/
theorem node_requests_visit : ∃ node trace,
    LobbyNode.run announcer firstIdentities 7 0 none visit = .ok (node, trace) ∧
    receivedOf (node.conns 0).log = [unknownPacket] ∧ parsedOf (node.conns 0).log = [unknownPacket] ∧
    reactions 0 (callsMade trace) = [.noHandler 0, .onClose 0] ∧
    (reactions 0 (callsMade trace)).filter isRequest = [.noHandler 0] ∧
    reactions 0 (callsMade trace) = (node.conns 0).log.filterMap (serverCall 0) ∧
      (reactions 0 (callsMade trace)).filter isRequest =
        ((parsedOf (node.conns 0).log).flatMap parsedCalls).filterMap
          (fun call => serverCall 0 (.call call)) ∧
      List.Subperm (parsedOf (node.conns 0).log) (receivedOf (node.conns 0).log) := by
  obtain ⟨node, trace, welcoming, closing, ran, made, log⟩ := visit_succeeds
  have told : reactions 0 (callsMade trace) = [.noHandler 0, .onClose 0] := by
    rw [made]
    rfl
  have requested : (reactions 0 (callsMade trace)).filter isRequest = [.noHandler 0] := by
    rw [told]
    rfl
  have received : receivedOf (node.conns 0).log = [unknownPacket] := by
    rw [log]
    rfl
  have parsed : parsedOf (node.conns 0).log = [unknownPacket] := by
    rw [log]
    rfl
  exact ⟨node, trace, ran, received, parsed, told, requested, node_requests announcer_laws ran 0⟩

end LobbySvr.Proofs
