/-
Module: LobbySvr.Spec.LobbyRoom
Layer: Spec
Purpose: What the lobby server is for, without the registry.  A room is the set of the clients that are in it,
  with the server's index and the broker link.  There are no identities to look up in a map, no tags, no
  counted references and no value that is handed from one client to the next: a message of the broker is
  an order for one identity or for everyone in the room, and what comes out of a step is what each client
  and the broker get.
Imports: LobbySvr.Lobby.LobbyServer
Trusted boundary: statement of the purpose, compared with the server in the proofs
Main exports: Delivery, LobbyRoom, BrokerOrder, BrokerOrder.read, LobbyRoom.obey, LobbyRoom.request,
  LobbyRoom.start, LobbyRoom.step, LobbyRoom.run
Open obligations: none
-/
import Mathlib
import LobbySvr.Lobby.LobbyServer

namespace LobbySvr.Spec

open LobbySvr.Foundation
open LobbySvr.Net
open LobbySvr.Lobby

/-- What comes out of a step, by receiver. -/
@[ext]
structure Delivery (C : Type) where
  toClient : C → List Action
  toBroker : List (Nat × Action)

namespace Delivery

variable {C : Type}

def nothing : Delivery C := ⟨fun _ => [], []⟩

/-- For one client. -/
noncomputable def forClient (conn : C) (actions : List Action) : Delivery C :=
  open Classical in ⟨fun other => if other = conn then actions else [], []⟩

/-- One packet for each of a set of clients. -/
noncomputable def forAll (clients : Set C) (packet : List UInt8) : Delivery C :=
  open Classical in ⟨fun conn => if conn ∈ clients then [.sendPacket packet] else [], []⟩

/-- What the outputs of the server are for one client. -/
def clientActions [DecidableEq C] (conn : C) : List (ServerOutput C) → List Action
  | [] => []
  | .client other action :: outputs =>
      if other = conn then action :: clientActions conn outputs else clientActions conn outputs
  | .broker _ _ :: outputs => clientActions conn outputs

/-- What the outputs of the server are for the broker. -/
def brokerActions : List (ServerOutput C) → List (Nat × Action)
  | [] => []
  | .client _ _ :: outputs => brokerActions outputs
  | .broker session action :: outputs => (session, action) :: brokerActions outputs

/-- The outputs of the server by receiver. -/
def sorted [DecidableEq C] (outputs : List (ServerOutput C)) : Delivery C :=
  ⟨fun conn => clientActions conn outputs, brokerActions outputs⟩

end Delivery

/-- What a message of the broker asks for. -/
inductive BrokerOrder (J : Type) where
  | nothing
  | setServerIDX (index : UInt32)
  | toIdentity (identity : UInt64) (url : List UInt8) (jv : J)
  /-- A private message.  No user has an index. -/
  | toUserIDX (index : UInt32) (jv : J)
  | toEveryone (jv : J)

namespace BrokerOrder

variable {J : Type} (json : BrokerJson J)

/-- An answer for the client with the identity that it names. -/
def readIdentity (url : List UInt8) (jv : J) : BrokerOrder J :=
  match json.index jv "identity" with
  | none => .nothing
  | some (identity, jv) =>
      match json.asUInt64 identity with
      | none => .nothing
      | some identity => .toIdentity identity url jv

/-- A chat message for the channel that it names. -/
def readChannel (jv : J) : BrokerOrder J :=
  match json.index jv "channelType" with
  | none => .nothing
  | some (channelType, jv) =>
      match json.asInt channelType with
      | some 1 => .toEveryone jv
      | some 2 =>
          match json.index jv "addition_toIDX" with
          | none => .nothing
          | some (toIDX, jv) =>
              match json.asUInt toIDX with
              | none => .nothing
              | some toIDX => .toUserIDX toIDX jv
      | _ => .nothing

/-- The order in a message of the broker. -/
def read (url : List UInt8) (jv : J) : BrokerOrder J :=
  match BrokerUrl.find url with
  | none => .nothing
  | some .auth =>
      match json.index jv "serverIDX" with
      | none => .nothing
      | some (serverIDX, _) =>
          match json.asUInt serverIDX with
          | none => .nothing
          | some serverIDX => .setServerIDX serverIDX
  | some .loginedUser => .nothing
  | some .isOnline =>
      match ConnectorHandler.setOnline json jv with
      | none => .nothing
      | some jv => readIdentity json friendListUrl jv
  | some .chatSendMsg => readIdentity json sendMsgUrl jv
  | some .chatReceiveMsg => readChannel json jv

end BrokerOrder

structure LobbyRoom (C : Type) where
  present : Set C
  serverIDX : UInt32
  link : BrokerLink

namespace LobbyRoom

open Classical

variable {C J : Type}

/-- The room when the server starts. -/
def start (connector : Option ConnectOutcome) : LobbyRoom C := ⟨∅, 0, LobbyServer.startLink connector⟩

section

variable (json : ServerJson J)

/-- The packet for a client under a URL; it depends on no memory. -/
def clientPacket (url : List UInt8) (jv : J) : Except Fault (SendExit J) :=
  User.sendJsonPacket json.toJsonCpp (.new 0 fun _ => 0) url jv

/-- What goes to the broker, if there is one. -/
def toBroker (url : List UInt8) (jv : J) (link : BrokerLink) : Except Fault (Delivery C) :=
  (LobbyServer.sendToBroker (C := C) json (fun _ => 0) url jv link).map fun outputs =>
    ⟨fun _ => [], Delivery.brokerActions outputs⟩

/-- One packet for the clients of a set; jsoncpp may throw, and nobody gets anything. -/
noncomputable def sendTo (clients : Set C) (url : List UInt8) (jv : J) : Except Fault (Delivery C) :=
  if clients = ∅ then .ok .nothing
  else
    match clientPacket json url jv with
    | .error fault => .error fault
    | .ok (.sent packet _) => .ok (.forAll clients packet)
    | .ok _ => .ok .nothing

variable (ids : Identities C)

/-- An order of the broker. -/
noncomputable def obey (room : LobbyRoom C) : BrokerOrder J → Except Fault (LobbyRoom C × Delivery C)
  | .nothing => .ok (room, .nothing)
  | .setServerIDX index => .ok ({ room with serverIDX := index }, .nothing)
  | .toIdentity identity url jv =>
      (sendTo json {conn | conn ∈ room.present ∧ ids.identity conn = identity} url jv).map (room, ·)
  | .toUserIDX _ _ => .ok (room, .nothing)
  | .toEveryone jv => (sendTo json room.present receiveMsgUrl jv).map (room, ·)

variable (clientVersion : Int)

/-- A request of a client that is in the room. -/
noncomputable def request (around : Circumstances C) (conn : C) (url : List UInt8) (jv : J)
    (room : LobbyRoom C) : Except Fault (Delivery C) :=
  if url = loginUrl then
    (NhLobby.login json clientVersion around.remoteEndpoint true (.new 0 fun _ => 0) url jv).map
      fun exit => .forClient conn (LobbyServer.loginActions exit)
  else if url = sendMsgUrl then
    match NhChat.decide json.toJsonCpp ⟨room.serverIDX, around.localTimeSec⟩
        (some ⟨0, [], (ids.identity conn).toNat⟩) jv with
    | .forward jv => toBroker json chatSendMsgUrl jv room.link
    | _ => .ok .nothing
  else .ok .nothing

/-- A JSON packet of a client that is in the room. -/
noncomputable def jsonPacket (around : Circumstances C) (conn : C) (size : UInt32) (msg : MessageBuffer)
    (room : LobbyRoom C) : Except Fault (Delivery C) :=
  match LobbyAcceptorReceiver.readJsonPacket json.parse true around.beyond size msg with
  | .error fault => .error fault
  | .ok .invalidPacket => .ok (.forClient conn [.closeReserve 0])
  | .ok (.dispatched url _ jv) => request json ids clientVersion around conn url jv room
  | .ok _ => .ok .nothing

/-- A client comes in, unless it is in already, and is welcomed. -/
noncomputable def enter (conn : C) (room : LobbyRoom C) : Except Fault (LobbyRoom C × Delivery C) :=
  if conn ∈ room.present then .ok (room, .nothing)
  else
    (LobbyServer.welcome json (0, fun _ => 0)).map fun actions =>
      ({ room with present := insert conn room.present }, .forClient conn actions)

/-- A client goes, if it is in, and the broker is told. -/
noncomputable def leave (conn : C) (room : LobbyRoom C) : Except Fault (LobbyRoom C × Delivery C) :=
  if conn ∈ room.present then
    match LobbyServer.logoutReq json 0 [] with
    | none => .error jsonThrows
    | some brokerReq =>
        (toBroker json userLogoutUrl brokerReq room.link).map fun delivery =>
          ({ room with present := room.present \ {conn} }, delivery)
  else .ok (room, .nothing)

/-- One call of a handler. -/
noncomputable def step (room : LobbyRoom C) (input : ServerInput C) :
    Except Fault (LobbyRoom C × Delivery C) :=
  match input.event with
  | .onAccept conn => LobbyServer.withEndpoint input.around (enter json conn room)
  | .onClose conn => LobbyServer.withEndpoint input.around (leave json conn room)
  | .onExpiredSession conn =>
      LobbyServer.withEndpoint input.around (.ok (room, .forClient conn [.closeReserve 0]))
  | .noHandler conn => .ok (room, .forClient conn [.closeReserve 0])
  | .readJsonPacket conn size msg =>
      if conn ∈ room.present then
        (jsonPacket json ids clientVersion input.around conn size msg room).map (room, ·)
      else .ok (room, .nothing)
  | .brokerLink event =>
      match LobbyServer.linkSends (C := C) json (fun _ => 0) event room.link with
      | .error fault => .error fault
      | .ok outputs =>
          (room.link.step event).map fun link =>
            ({ room with link := link }, ⟨fun _ => [], Delivery.brokerActions outputs⟩)
  | .brokerReadJsonPacket msg =>
      match BrokerConnector.readJsonPacket json.parse input.around.beyond msg with
      | .error fault => .error fault
      | .ok (.dispatched url _ jv) => obey json ids room (BrokerOrder.read json.toBrokerJson url jv)
      | .ok _ => .ok (room, .nothing)
  | .brokerNoHandler session => .ok (room, ⟨fun _ => [], [(session, .closeReserve 0)]⟩)
  | .brokerExpiredSession session => .ok (room, ⟨fun _ => [], [(session, .closeReserve 0)]⟩)

/-- A run of the room from its start. -/
noncomputable abbrev run (connector : Option ConnectOutcome) (inputs : List (ServerInput C)) :
    Except Fault (LobbyRoom C × List (ServerInput C × Delivery C)) :=
  runTrace (step json ids clientVersion) (start connector) inputs

end

end LobbyRoom

end LobbySvr.Spec
