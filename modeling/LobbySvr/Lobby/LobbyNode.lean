/-
Module: LobbySvr.Lobby.LobbyNode
Layer: Lobby
Purpose: The process that `main.cpp` starts, put together: the acceptor, its connections, and the lobby server
  that their handlers call.  An input is the completion of an accept, something that happens to one
  connection, or a call of the broker's connector; inputs come in any order.  What the server does to a
  connection is done to that connection behind the call.  A step fails when an exception leaves
  `io_service::run`: the handler of the server, the parser, or `start_accept` has thrown.  There are at
  most `limit` connections, all of them with different identities.
Imports: LobbySvr.Lobby.LobbyServer, LobbySvr.Lobby.PacketParserJson, LobbySvr.Net.NetServiceAcceptor
Trusted boundary: human-reviewed embedding of the C++ source
Main exports: nodeProcedure, BrokerCall, NodeEvent, NodeInput, LobbyNode, serverCall, ServerCalls,
  LobbyNode.serve, LobbyNode.accept, LobbyNode.connection, LobbyNode.start, LobbyNode.step, LobbyNode.run
Open obligations: none
-/
import LobbySvr.Lobby.LobbyServer
import LobbySvr.Lobby.PacketParserJson
import LobbySvr.Net.NetServiceAcceptor

namespace LobbySvr.Lobby

open LobbySvr.Foundation
open LobbySvr.Net

/-- The parser of the lobby acceptor.  The calls of its handlers are left to the server. -/
def nodeProcedure : MessageProcedure LobbyHandler Unit where
  packetParsingFunction _ msg := parse packetParserNotUseEncTest (fun _ _ _ => none) msg
  packetHeaderManip := manipulatorJsonParserTest

/-- The `system_error` of the `set_option` calls in `start_accept`. -/
def setOptionThrows : Fault := .runtimeError "set_option"

/-- The calls of the broker's connector. -/
inductive BrokerCall where
  | link (event : BrokerEvent)
  | readJsonPacket (msg : MessageBuffer)
  | noHandler (session : Nat)
  | expiredSession (session : Nat)

variable {limit : Nat}

/-- A call of the connector as one of the server's. -/
def BrokerCall.event : BrokerCall → ServerEvent (Fin limit)
  | .link event => .brokerLink event
  | .readJsonPacket msg => .brokerReadJsonPacket msg
  | .noHandler session => .brokerNoHandler session
  | .expiredSession session => .brokerExpiredSession session

inductive NodeEvent (limit : Nat) where
  /-- The outstanding accept completes. -/
  | accept (completion : AcceptCompletion)
  | connection (conn : Fin limit) (label : Label Unit)
  | broker (call : BrokerCall)

/-- An event with the surroundings of each call that it makes. -/
structure NodeInput (limit : Nat) where
  event : NodeEvent limit
  around : Nat → Circumstances (Fin limit)

structure LobbyNode (limit : Nat) where
  acceptor : NetServiceAcceptor
  conns : Fin limit → ConnectionImpl LobbyHandler
  server : LobbyServer (Fin limit)

/-- Whether a label is a call of user code; only the server makes these. -/
def isUserCall : Label Unit → Bool
  | .send _ => true
  | .sendRaw _ => true
  | .sendPacket _ => true
  | .closeReserve => true
  | _ => false

/-- The call of the server behind an event of a connection. -/
def serverCall (conn : Fin limit) : Event LobbyHandler → Option (ServerEvent (Fin limit))
  | .call (.handler .readJsonPacket size body) => some (.readJsonPacket conn size (.received body))
  | .call (.noHandler _) => some (.noHandler conn)
  | .onExpiredSession => some (.onExpiredSession conn)
  | .onClose => some (.onClose conn)
  | _ => none

/-- Calls of the server, each with what it put out. -/
abbrev ServerCalls (limit : Nat) : Type :=
  List (ServerInput (Fin limit) × List (ServerOutput (Fin limit)))

/-- Calls with their surroundings. -/
def callsAround (around : Nat → Circumstances (Fin limit)) (events : List (ServerEvent (Fin limit))) :
    List (ServerInput (Fin limit)) :=
  events.mapIdx fun index event => ⟨event, around index⟩

/-- What the server does to a connection. -/
def act {κ : Type} (action : Action) (conn : ConnectionImpl κ) : ConnectionImpl κ :=
  match action with
  | .sendPacket packet => conn.sendPacket packet
  | .closeReserve _ => conn.closeReserve

/-- The outputs of the server, done to the connections. -/
def deliver (conns : Fin limit → ConnectionImpl LobbyHandler) :
    List (ServerOutput (Fin limit)) → Fin limit → ConnectionImpl LobbyHandler
  | [] => conns
  | .client conn action :: outputs =>
      deliver (Function.update conns conn (act action (conns conn))) outputs
  | .broker _ _ :: outputs => deliver conns outputs

namespace LobbyNode

section

variable {J : Type} (json : ServerJson J) (ids : Identities (Fin limit)) (clientVersion : Int)
  (keepAliveTime : Nat)

/-- `acceptWait` and `tryConnect` have returned.  Connections that are not created yet stand in the state
    that their constructor will leave. -/
def start (connector : Option ConnectOutcome) : LobbyNode limit where
  acceptor := .acceptWait
  conns := fun _ => .created nodeProcedure keepAliveTime false
  server := .start connector

/-- One call of the server. -/
def serve (node : LobbyNode limit) (input : ServerInput (Fin limit)) :
    Except Fault (LobbyNode limit × List (ServerOutput (Fin limit))) :=
  match LobbyServer.step json ids clientVersion node.server input with
  | .error fault => .error fault
  | .ok (server, outputs) =>
      .ok ({ node with server := server, conns := deliver node.conns outputs }, outputs)

/-- `accept_handler`. -/
def accept (completion : AcceptCompletion) (around : Nat → Circumstances (Fin limit))
    (node : LobbyNode limit) : Except Fault (LobbyNode limit × ServerCalls limit) :=
  match node.acceptor.accepting with
  | [] => .ok (node, [])
  | number :: _ =>
      if numbered : number < limit then
        let conn : Fin limit := ⟨number, numbered⟩
        let node := { node with acceptor := node.acceptor.complete completion }
        if completion.ec = noError then
          match runTrace (serve json ids clientVersion) node (callsAround around [.onAccept conn]) with
          | .error fault => .error fault
          | .ok (node, calls) =>
              if completion.startThrows then .error setOptionThrows
              else
                .ok ({ node with
                  conns := Function.update node.conns conn (node.conns conn).startAccept }, calls)
        else .ok (node, [])
      else .ok (node, [])

/-- Something happens to a connection. -/
def connection (conn : Fin limit) (label : Label Unit) (around : Nat → Circumstances (Fin limit))
    (node : LobbyNode limit) : Except Fault (LobbyNode limit × ServerCalls limit) :=
  if isUserCall label = true ∨ node.acceptor.created ≤ conn.val then .ok (node, [])
  else
    match (node.conns conn).step nodeProcedure label with
    | none => .ok (node, [])
    | some later =>
        let events := later.log.drop (node.conns conn).log.length
        match runTrace (serve json ids clientVersion)
            { node with conns := Function.update node.conns conn later }
            (callsAround around (events.filterMap (serverCall conn))) with
        | .error fault => .error fault
        | .ok (node, calls) =>
            -- The parser throws behind the calls that it has made.
            match later.terminated with
            | some fault => .error fault
            | none => .ok (node, calls)

/-- One input. -/
def step (node : LobbyNode limit) (input : NodeInput limit) :
    Except Fault (LobbyNode limit × ServerCalls limit) :=
  match input.event with
  | .accept completion => accept json ids clientVersion completion input.around node
  | .connection conn label => connection json ids clientVersion conn label input.around node
  | .broker call => runTrace (serve json ids clientVersion) node (callsAround input.around [call.event])

/-- A run of the node from its start. -/
abbrev run (connector : Option ConnectOutcome) (inputs : List (NodeInput limit)) :
    Except Fault (LobbyNode limit × List (NodeInput limit × ServerCalls limit)) :=
  runTrace (step json ids clientVersion) (start keepAliveTime connector) inputs

end

end LobbyNode

end LobbySvr.Lobby
