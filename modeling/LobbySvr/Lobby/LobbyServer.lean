/-
Module: LobbySvr.Lobby.LobbyServer
Layer: Lobby
Purpose: The lobby server as one state machine: the handlers of `lobbysvr/lobbyAcceptorReceiver.cpp` and
  `lobbysvr/brokerConnector.cpp` over the registry, the broker link and `g_idx4Broker`.  An input is one call
  of a handler by the network library, with all that the call finds in its surroundings; the strands run
  the calls completely, in any order.  A step puts out the packets and the `closeReserve` calls.  A step
  fails when an exception leaves the handler, since nothing catches it before `io_service::run`, and when
  the behaviour is undefined.
Imports: LobbySvr.Foundation.Traces, LobbySvr.Lobby.NhLobby, LobbySvr.Lobby.BrokerConnector,
  LobbySvr.Lobby.ReadJsonPacket
Trusted boundary: human-reviewed embedding of the C++ source; interface of a third-party library
Main exports: Circumstances, ServerEvent, ServerInput, Action, ServerOutput, LobbyServer, BrokerExit.packets,
  LobbyServer.dispatch, LobbyServer.readJsonPacket, LobbyServer.brokerMessage, LobbyServer.linkEvent,
  LobbyServer.start, LobbyServer.step, LobbyServer.run
Open obligations: none
-/
import LobbySvr.Foundation.Traces
import LobbySvr.Lobby.NhLobby
import LobbySvr.Lobby.BrokerConnector
import LobbySvr.Lobby.ReadJsonPacket

namespace LobbySvr.Lobby

open LobbySvr.Foundation
open LobbySvr.Net

/-- What a call of a handler finds in its surroundings. -/
structure Circumstances (C : Type) where
  /-- What the struct of the lobby reader held before. -/
  req : Nat → UInt8
  /-- The memory behind the URL array of a reader. -/
  beyond : List UInt8
  /-- What the struct of `User::SendJsonPacket` held before. -/
  pk : UInt32 × (Nat → UInt8)
  /-- The same for each call of a broadcast. -/
  pkEach : C → UInt32 × (Nat → UInt8)
  /-- What the body of the struct of `ConnectorUser::SendJsonPacket` held before. -/
  brokerPk : Nat → UInt8
  /-- `getLocalTimeSec()`. -/
  localTimeSec : UInt64
  /-- Whether `socket().remote_endpoint()` returns. -/
  remoteEndpoint : Bool

/-- The calls of the handlers. -/
inductive ServerEvent (C : Type) where
  | onAccept (conn : C)
  | onClose (conn : C)
  | onExpiredSession (conn : C)
  | noHandler (conn : C)
  | readJsonPacket (conn : C) (size : UInt32) (msg : MessageBuffer)
  /-- `onConnect`, `onClose` and the failed attempts of the broker's connector. -/
  | brokerLink (event : BrokerEvent)
  | brokerReadJsonPacket (msg : MessageBuffer)
  | brokerNoHandler (session : Nat)
  | brokerExpiredSession (session : Nat)

structure ServerInput (C : Type) where
  event : ServerEvent C
  around : Circumstances C

/-- What the server does to a connection. -/
inductive Action where
  | sendPacket (packet : List UInt8)
  | closeReserve (timeAfterMs : UInt32)
deriving DecidableEq, Repr

inductive ServerOutput (C : Type) where
  | client (conn : C) (action : Action)
  | broker (session : Nat) (action : Action)
deriving DecidableEq, Repr

structure LobbyServer (C : Type) where
  manager : LobbyUserManager C
  /-- `g_idx4Broker`. -/
  idx4Broker : UInt32
  link : BrokerLink

/-- A `Json::Exception` that leaves a handler. -/
def jsonThrows : Fault := .runtimeError "Json::Exception"

/-- The `system_error` of `remote_endpoint` on a socket that is not connected. -/
def remoteEndpointThrows : Fault := .runtimeError "remote_endpoint"

/-- `/account/connected`. -/
def connectedUrl : List UInt8 := "/account/connected".toUTF8.data.toList

/-- `/userLogout`. -/
def userLogoutUrl : List UInt8 := "/userLogout".toUTF8.data.toList

/-- `/auth`. -/
def authUrl : List UInt8 := "/auth".toUTF8.data.toList

/-- The packets behind a message of the broker; `each` is what the calls of a broadcast hand out.  What jsoncpp
    throws is caught by `dispatch`, behind the packets that were sent before. -/
def BrokerExit.packets {C J : Type} (each : List (C × List UInt8) × Except Fault (Option J)) :
    BrokerExit C J → Except Fault (List (C × List UInt8))
  | .handed _ (.error fault) => .error fault
  | .handed conn (.ok (.sent packet _)) => .ok [(conn, packet)]
  | .broadcast _ _ =>
      match each.2 with
      | .error fault => .error fault
      | .ok _ => .ok each.1
  | _ => .ok []

namespace LobbyServer

variable {C J : Type}

/-- The broker link when the server starts: with `USE_CONNECTOR_FOR_BROKER` and a broker that is activated,
    `main` has called `tryConnect`. -/
def startLink : Option ConnectOutcome → BrokerLink
  | none => .fresh
  | some outcome => BrokerLink.fresh.tryConnect outcome

/-- The server when it starts. -/
def start (connector : Option ConnectOutcome) : LobbyServer C := ⟨.empty, 0, startLink connector⟩

section

variable (json : ServerJson J)

/-- `rsp` of `addUser`. -/
def connectedRsp : Option J := do
  let rsp ← json.assign json.null rspSeq (json.ofInt 0)
  let rsp ← json.assign rsp rspRc (json.ofInt 0)
  json.assign rsp rspRm (json.ofString rspOk)

/-- `brokerReq` of `deleteUser`. -/
def logoutReq (userIDX : UInt32) (nick : List UInt8) : Option J := do
  let brokerReq ← json.assign json.null "userIDX" (json.ofUInt userIDX)
  json.assign brokerReq "nick" (json.ofString nick)

/-- `req` of `BrokerConnector::onConnect`. -/
def authReq : Option J := json.assign json.null "test" (json.ofString "test".toUTF8.data.toList)

/-- `BrokerConnector::sendJsonPacket` through the pointer `m_user`. -/
def sendToBroker (brokerPk : Nat → UInt8) (url : List UInt8) (jv : J) (link : BrokerLink) :
    Except Fault (List (ServerOutput C)) :=
  match link.sendJsonPacket with
  | .returnsZero => .ok []
  | .usesDeleted _ => .error .undefinedBehaviour
  | .sendsOn session =>
      match ConnectorUser.sendJsonPacket json.toJsonCpp (.new brokerPk) url jv with
      | .error fault => .error fault
      | .ok packet => .ok [.broker session (.sendPacket packet)]

/-- `/account/connected` for a new user.  Nothing around `addUser` catches an exception. -/
def welcome (pk : UInt32 × (Nat → UInt8)) : Except Fault (List Action) :=
  match connectedRsp json with
  | none => .error jsonThrows
  | some rsp =>
      match User.sendJsonPacket json.toJsonCpp (.new pk.1 pk.2) connectedUrl rsp with
      | .error fault => .error fault
      | .ok .jsonException => .error jsonThrows
      | .ok (.bodyOverflow _) => .ok []
      | .ok (.sent packet _) => .ok [.sendPacket packet]

/-- `/userLogout` for a user that is deleted. -/
def sayLogout (brokerPk : Nat → UInt8) (userIDX : UInt32) (nick : List UInt8) (link : BrokerLink) :
    Except Fault (List (ServerOutput C)) :=
  match logoutReq json userIDX nick with
  | none => .error jsonThrows
  | some brokerReq => sendToBroker json brokerPk userLogoutUrl brokerReq link

/-- What the registry sends by itself. -/
def registrySends (around : Circumstances C) (link : BrokerLink) :
    RegistryEvent C → Except Fault (List (ServerOutput C))
  | .connected conn => (welcome json around.pk).map fun actions => actions.map (.client conn)
  | .userLogout userIDX nick => sayLogout json around.brokerPk userIDX nick link
  | _ => .ok []

/-- The same for several events. -/
def sendEach (around : Circumstances C) (link : BrokerLink) :
    List (RegistryEvent C) → Except Fault (List (ServerOutput C))
  | [] => .ok []
  | event :: events =>
      match registrySends json around link event with
      | .error fault => .error fault
      | .ok outputs => (sendEach around link events).map (outputs ++ ·)

/-- The registry after an operation, with what the operation sends. -/
def operate (around : Circumstances C) (operation : LobbyUserManager C → LobbyUserManager C)
    (server : LobbyServer C) : Except Fault (LobbyServer C × List (ServerOutput C)) :=
  let manager := operation server.manager
  (sendEach json around server.link (manager.log.drop server.manager.log.length)).map
    fun outputs => ({ server with manager := manager }, outputs)

/-- The actions behind an exit of `login`. -/
def loginActions : LoginExit J → List Action
  | .refused (.sent packet _) => [.sendPacket packet, .closeReserve 0]
  | .refused (.bodyOverflow _) => [.closeReserve 0]
  -- `SendJsonPacket` has thrown, and `closeReserve` is not reached.
  | .refused .jsonException => []
  | _ => []

variable (ids : Identities C) (clientVersion : Int)

/-- `LobbyAcceptorReceiver::dispatch`, on the table that `initHandler` fills in. -/
def dispatch (around : Circumstances C) (conn : C) (url : List UInt8) (jv : J) (server : LobbyServer C) :
    Except Fault (List (ServerOutput C)) :=
  if url = loginUrl then
    match NhLobby.login json clientVersion around.remoteEndpoint (server.manager.tag conn).isSome
        (.new around.pk.1 around.pk.2) url jv with
    | .error fault => .error fault
    | .ok exit => .ok ((loginActions exit).map (.client conn))
  else if url = sendMsgUrl then
    match NhChat.decide json.toJsonCpp ⟨server.idx4Broker, around.localTimeSec⟩
        ((server.manager.tag conn).map (LobbyUser.chatUser ids)) jv with
    | .forward jv => sendToBroker json around.brokerPk chatSendMsgUrl jv server.link
    | _ => .ok []
  else .ok []

/-- `LobbyAcceptorReceiver::readJsonPacket` with what follows it. -/
def readJsonPacket (around : Circumstances C) (conn : C) (size : UInt32) (msg : MessageBuffer)
    (server : LobbyServer C) : Except Fault (List (ServerOutput C)) :=
  match LobbyAcceptorReceiver.readJsonPacketInto json.parse (server.manager.tag conn).isSome around.req
      around.beyond size msg with
  | .error fault => .error fault
  | .ok read =>
      let closes := read.closeReserves.map fun timeAfterMs => .client conn (.closeReserve timeAfterMs)
      match read.exit with
      | .dispatched url _ jv =>
          (dispatch json ids clientVersion around conn url jv server).map (closes ++ ·)
      | _ => .ok closes

/-- What the calls of a broadcast hand out for a message of the broker. -/
def broadcastPackets (around : Circumstances C) (jv : J) (manager : LobbyUserManager C) :
    List (C × List UInt8) × Except Fault (Option J) :=
  match json.index jv "channelType" with
  | none => ([], .ok none)
  | some (_, jv) => manager.packetsFromBrokerAll json.toJsonCpp around.pkEach receiveMsgUrl jv

/-- The server and the packets behind a message of the broker. -/
def afterMessage (each : List (C × List UInt8) × Except Fault (Option J)) (server : LobbyServer C) :
    BrokerExit C J → Except Fault (LobbyServer C × List (ServerOutput C))
  | .authorised serverIDX => .ok ({ server with idx4Broker := serverIDX }, [])
  | exit =>
      match exit.packets each with
      | .error fault => .error fault
      | .ok packets =>
          .ok (server, packets.map fun handed => .client handed.1 (.sendPacket handed.2))

/-- `BrokerConnector::dispatch` with what it does to the server. -/
def brokerMessage (around : Circumstances C) (url : List UInt8) (jv : J) (server : LobbyServer C) :
    Except Fault (LobbyServer C × List (ServerOutput C)) :=
  afterMessage (broadcastPackets json around jv server.manager) server
    (BrokerConnector.dispatch json.toBrokerJson (.new around.pk.1 around.pk.2) url jv server.manager)

/-- `BrokerConnector::readJsonPacket` with what follows it. -/
def brokerReadJsonPacket (around : Circumstances C) (msg : MessageBuffer) (server : LobbyServer C) :
    Except Fault (LobbyServer C × List (ServerOutput C)) :=
  match BrokerConnector.readJsonPacket json.parse around.beyond msg with
  | .error fault => .error fault
  | .ok (.dispatched url _ jv) => brokerMessage json around url jv server
  | .ok _ => .ok (server, [])

/-- What an event of the broker link sends, before the link goes on. -/
def linkSends (brokerPk : Nat → UInt8) (event : BrokerEvent) (link : BrokerLink) :
    Except Fault (List (ServerOutput C)) :=
  match event with
  | .onConnect _ =>
      match link.connecting with
      | none => .ok []
      | some attempt =>
          match authReq json with
          | none => .error jsonThrows
          | some req =>
              match ConnectorUser.sendJsonPacket json.toJsonCpp (.new brokerPk) authUrl req with
              | .error fault => .error fault
              | .ok packet => .ok [.broker attempt.conn (.sendPacket packet)]
  | _ => .ok []

/-- An event of the broker link. -/
def linkEvent (around : Circumstances C) (event : BrokerEvent) (server : LobbyServer C) :
    Except Fault (LobbyServer C × List (ServerOutput C)) :=
  match linkSends json around.brokerPk event server.link with
  | .error fault => .error fault
  | .ok outputs => (server.link.step event).map fun link => ({ server with link := link }, outputs)

/-- A handler that calls `remote_endpoint` first, for its log line. -/
def withEndpoint {ω : Type} (around : Circumstances C) (body : Except Fault ω) : Except Fault ω :=
  if around.remoteEndpoint = false then .error remoteEndpointThrows else body

/-- One call of a handler. -/
def step [DecidableEq C] (server : LobbyServer C) (input : ServerInput C) :
    Except Fault (LobbyServer C × List (ServerOutput C)) :=
  match input.event with
  | .onAccept conn =>
      withEndpoint input.around (operate json input.around (LobbyUserManager.addUser ids conn) server)
  | .onClose conn =>
      withEndpoint input.around (operate json input.around (LobbyUserManager.deleteUser ids conn) server)
  | .onExpiredSession conn =>
      withEndpoint input.around (.ok (server, [.client conn (.closeReserve 0)]))
  | .noHandler conn => .ok (server, [.client conn (.closeReserve 0)])
  | .readJsonPacket conn size msg =>
      (readJsonPacket json ids clientVersion input.around conn size msg server).map
        fun outputs => (server, outputs)
  | .brokerLink event => linkEvent json input.around event server
  | .brokerReadJsonPacket msg => brokerReadJsonPacket json input.around msg server
  | .brokerNoHandler session => .ok (server, [.broker session (.closeReserve 0)])
  | .brokerExpiredSession session => .ok (server, [.broker session (.closeReserve 0)])

/-- A run of the server from its start. -/
abbrev run [DecidableEq C] (connector : Option ConnectOutcome) (inputs : List (ServerInput C)) :
    Except Fault (LobbyServer C × List (ServerInput C × List (ServerOutput C))) :=
  runTrace (step json ids clientVersion) (start connector) inputs

end

end LobbyServer

end LobbySvr.Lobby
