/-
Module: LobbySvr.Lobby.ConnectorHandler
Layer: Lobby
Purpose: What the lobby does with a message of the broker: `BrokerConnector::dispatch` finds the handler of
  its URL, and the handlers of `lobbysvr/connectorHandler.cpp` pass the value on to the registry.  An answer
  to a client's request carries the identity of the client's connection; a private message carries the
  index of the user it is for.
Imports: LobbySvr.Lobby.LobbyUserManager, LobbySvr.Lobby.NhChat
Trusted boundary: human-reviewed embedding of the C++ source; interface of a third-party library
Main exports: BrokerJson, BrokerExit, BrokerExit.recipients, ConnectorHandler.chatSendMsg,
  ConnectorHandler.chatReceiveMsg, BrokerConnector.dispatch, LobbyUser.chatUser
Open obligations: none
-/
import Mathlib
import LobbySvr.Lobby.LobbyUserManager
import LobbySvr.Lobby.NhChat

namespace LobbySvr.Lobby

open LobbySvr.Net

/-- jsoncpp with the two operations that only the handlers of the broker's messages call. -/
structure BrokerJson (J : Type) extends JsonCpp J where
  asUInt64 : J → Option UInt64
  ofInt : Int → J

/-- What a message of the broker comes to. -/
inductive BrokerExit (C J : Type) where
  | invalidUrl
  /-- An operation of jsoncpp threw before the registry was asked; `dispatch` catches it. -/
  | jsonException
  /-- `g_idx4Broker` is set. -/
  | authorised (serverIDX : UInt32)
  /-- The weak pointer was looked up and locked, and nothing was done with it. -/
  | lookedUp (conn : Option C)
  /-- The registry found no user. -/
  | nobody
  /-- `SendJsonPacket` of the user behind one connection was called. -/
  | handed (conn : C) (exit : Except Fault (SendExit J))
  /-- `SendJsonPacket` was called for these connections; the value that is left, if the calls returned. -/
  | broadcast (called : List C) (left : Option J)
  | otherChannel
deriving Repr

/-- The connections that a message of the broker was handed to. -/
def BrokerExit.recipients {C J : Type} : BrokerExit C J → List C
  | .handed conn _ => [conn]
  | .broadcast called _ => called
  | _ => []

/-- `RSP_RC`. -/
def rspRc : String := "resultCode"

/-- `RSP_OK`. -/
def rspOk : List UInt8 := "OK".toUTF8.data.toList

/-- The URL of the answer to `/friend/list`. -/
def friendListUrl : List UInt8 := "/friend/list".toUTF8.data.toList

/-- The URL under which a client gets a chat message. -/
def receiveMsgUrl : List UInt8 := "/chat/receiveMsg".toUTF8.data.toList

/-- What `nh_chat::sendMsg` reads of a registered user. -/
def LobbyUser.chatUser {C : Type} (ids : Identities C) (user : LobbyUser C) : ChatUser :=
  ⟨user.userIDX, user.userID, (ids.identity user.conn).toNat⟩

namespace ConnectorHandler

variable {C J : Type}

/-- The end of both ways of the registry to one user. -/
def handTo (json : BrokerJson J) (pk : LobbyProtocol.PtJson) (url : List UInt8) (jv : J) :
    Option C → BrokerExit C J
  | none => .nobody
  | some conn => .handed conn (User.sendJsonPacket json.toJsonCpp pk url jv)

/-- `sendPacketFromBroker(jv["identity"].asUInt64(), url, jv, DUMMY_UM_HOOKER)`. -/
def sendByIdentity (json : BrokerJson J) (pk : LobbyProtocol.PtJson) (url : List UInt8) (jv : J)
    (manager : LobbyUserManager C) : BrokerExit C J :=
  match json.index jv "identity" with
  | none => .jsonException
  | some (identity, jv) =>
      match json.asUInt64 identity with
      | none => .jsonException
      | some identity => handTo json pk url jv (manager.sendPacketFromBroker identity)

/-- `ConnectorHandler::auth`. -/
def auth (json : BrokerJson J) (jv : J) : BrokerExit C J :=
  match json.index jv "serverIDX" with
  | none => .jsonException
  | some (serverIDX, _) =>
      match json.asUInt serverIDX with
      | none => .jsonException
      | some serverIDX => .authorised serverIDX

/-- `ConnectorHandler::loginedUser`; its call of the login handler is commented out. -/
def loginedUser (json : BrokerJson J) (jv : J) (manager : LobbyUserManager C) : BrokerExit C J :=
  match json.index jv "identity" with
  | none => .jsonException
  | some (identity, _) =>
      match json.asUInt64 identity with
      | none => .jsonException
      | some identity =>
          .lookedUp ((manager.users[identity]?).filter fun conn => manager.lockable conn)

/-- The members that `isOnline` sets before it passes the value on. -/
def setOnline (json : BrokerJson J) (jv : J) : Option J := do
  let jv ← json.assign jv rspRc (json.ofInt 0)
  let jv ← json.assign jv rspRm (json.ofString rspOk)
  let (pkSeq, jv) ← json.index jv "pkSeq"
  json.assign jv rspSeq pkSeq

/-- `ConnectorHandler::isOnline`. -/
def isOnline (json : BrokerJson J) (pk : LobbyProtocol.PtJson) (jv : J) (manager : LobbyUserManager C) :
    BrokerExit C J :=
  match setOnline json jv with
  | none => .jsonException
  | some jv => sendByIdentity json pk friendListUrl jv manager

/-- `ConnectorHandler::chatSendMsg`. -/
def chatSendMsg (json : BrokerJson J) (pk : LobbyProtocol.PtJson) (jv : J)
    (manager : LobbyUserManager C) : BrokerExit C J :=
  sendByIdentity json pk sendMsgUrl jv manager

/-- `ConnectorHandler::chatReceiveMsg`: channel 1 goes to everybody, channel 2 to one user index. -/
def chatReceiveMsg (json : BrokerJson J) (pk : LobbyProtocol.PtJson) (jv : J)
    (manager : LobbyUserManager C) : BrokerExit C J :=
  match json.index jv "channelType" with
  | none => .jsonException
  | some (channelType, jv) =>
      match json.asInt channelType with
      | none => .jsonException
      | some 1 =>
          let (called, left) := manager.sendPacketFromBrokerAll json.toJsonCpp pk receiveMsgUrl jv
          .broadcast called left
      | some 2 =>
          match json.index jv "addition_toIDX" with
          | none => .jsonException
          | some (toIDX, jv) =>
              match json.asUInt toIDX with
              | none => .jsonException
              | some toIDX =>
                  handTo json pk receiveMsgUrl jv (manager.sendPacketFromBrokerByUserIDX toIDX)
      | some _ => .otherChannel

end ConnectorHandler

/-- The keys of `BrokerConnector::m_URLs`. -/
inductive BrokerUrl where
  | auth
  | loginedUser
  | isOnline
  | chatSendMsg
  | chatReceiveMsg
deriving DecidableEq, Repr

/-- `m_URLs.find(url)` on the table that `initHandler` fills in. -/
def BrokerUrl.find (url : List UInt8) : Option BrokerUrl :=
  if url = "/auth".toUTF8.data.toList then some .auth
  else if url = "/loginedUser".toUTF8.data.toList then some .loginedUser
  else if url = "/isOnline".toUTF8.data.toList then some .isOnline
  else if url = chatSendMsgUrl then some .chatSendMsg
  else if url = "/chatReceiveMsg".toUTF8.data.toList then some .chatReceiveMsg
  else none

/-- `BrokerConnector::dispatch`; `pk` is the struct that a call of `SendJsonPacket` constructs. -/
def BrokerConnector.dispatch {C J : Type} (json : BrokerJson J) (pk : LobbyProtocol.PtJson)
    (url : List UInt8) (jv : J) (manager : LobbyUserManager C) : BrokerExit C J :=
  match BrokerUrl.find url with
  | none => .invalidUrl
  | some .auth => ConnectorHandler.auth json jv
  | some .loginedUser => ConnectorHandler.loginedUser json jv manager
  | some .isOnline => ConnectorHandler.isOnline json pk jv manager
  | some .chatSendMsg => ConnectorHandler.chatSendMsg json pk jv manager
  | some .chatReceiveMsg => ConnectorHandler.chatReceiveMsg json pk jv manager

end LobbySvr.Lobby
