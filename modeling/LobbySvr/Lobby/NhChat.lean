/-
Module: LobbySvr.Lobby.NhChat
Layer: Lobby
Purpose: The chat handler `nh_chat::sendMsg`, which the lobby dispatches under `/chat/sendMsg`.  It checks a
  request, adds the sender's members to the value it was given, and hands that value to the broker
  connection under `/chatSendMsg`.
Imports: LobbySvr.Lobby.SendJsonPacket
Trusted boundary: human-reviewed embedding of the C++ source
Main exports: sendMsgUrl, chatSendMsgUrl, ChatUser, ChatServer, ChatDecision, NhChat.check,
  NhChat.setAdditional, NhChat.decide, NhChat.sendMsg
Open obligations: none
-/
import LobbySvr.Lobby.SendJsonPacket

namespace LobbySvr.Lobby

open LobbySvr.Net

variable {J : Type}

/-- The key of `nh_chat::sendMsg` in `LobbyAcceptorReceiver::m_URLs`, `/chat/sendMsg`. -/
def sendMsgUrl : List UInt8 := "/chat/sendMsg".toUTF8.data.toList

/-- The URL of a forwarded message, `/chatSendMsg`. -/
def chatSendMsgUrl : List UInt8 := "/chatSendMsg".toUTF8.data.toList

/-- What `sendMsg` reads of the user behind a connection. -/
structure ChatUser where
  userIDX : UInt32
  userID : List UInt8
  /-- The connection's `size_t` identity. -/
  identity : Nat
deriving DecidableEq, Repr

/-- What `sendMsg` reads of the server: `g_idx4Broker` and `getLocalTimeSec()`. -/
structure ChatServer where
  idx4Broker : UInt32
  localTimeSec : UInt64
deriving DecidableEq, Repr

/-- How `sendMsg` decides about a request. -/
inductive ChatDecision (J : Type) where
  | userIsNull
  /-- An operation of jsoncpp threw; `dispatch` catches it. -/
  | jsonException
  | msgSizeIsZero
  | invalidTarget
  /-- The value goes to `BrokerConnector::sendJsonPacket`. -/
  | forward (jv : J)
deriving DecidableEq, Repr

/-- The two checks: the refusal, if there is one, and the value with the members that were looked up. -/
def NhChat.check (json : JsonCpp J) (jv : J) : Option (Option (ChatDecision J) × J) := do
  let (msg, jv) ← json.index jv "msg"
  let msg ← json.asString msg
  if msg.length = 0 then pure (some .msgSizeIsZero, jv)
  else do
    let (channelType, jv) ← json.index jv "channelType"
    let channelType ← json.asInt channelType
    -- `&&` looks at the nickname of a private message only.
    if channelType = 2 then do
      let (nickname, jv) ← json.index jv "to"
      let nickname ← json.asString nickname
      if nickname.length < 2 then pure (some .invalidTarget, jv) else pure (none, jv)
    else pure (none, jv)

/-- The members that are set on the request before it is forwarded. -/
def NhChat.setAdditional (json : JsonCpp J) (server : ChatServer) (user : ChatUser) (jv : J) :
    Option J := do
  let jv ← json.assign jv "addition_fromIDX" (json.ofUInt user.userIDX)
  let jv ← json.assign jv "addition_fromSVR" (json.ofUInt server.idx4Broker)
  let jv ← json.assign jv "from" (json.ofString user.userID)
  let (sequenceNum, jv) ← json.index jv rspSeq
  let jv ← json.assign jv "seq" sequenceNum
  let jv ← json.assign jv "sendTime" (json.ofUInt64 server.localTimeSec)
  json.assign jv "identity" (json.ofUInt (UInt32.ofNat user.identity))

/-- `nh_chat::sendMsg` up to its last call. -/
def NhChat.decide (json : JsonCpp J) (server : ChatServer) (user : Option ChatUser) (jv : J) :
    ChatDecision J :=
  match user with
  | none => .userIsNull
  | some user =>
      match NhChat.check json jv with
      | none => .jsonException
      | some (some refusal, _) => refusal
      | some (none, jv) =>
          match NhChat.setAdditional json server user jv with
          | none => .jsonException
          | some jv => .forward jv

/-- `nh_chat::sendMsg`: its decision, and the packet the broker connection was given, if any.  `broker` tells
    whether `BrokerConnector::m_user` is set. -/
def NhChat.sendMsg (json : JsonCpp J) (server : ChatServer) (user : Option ChatUser) (broker : Bool)
    (pk : BrokerProtocol.PtJson) (jv : J) : Except Fault (ChatDecision J × Option (List UInt8)) :=
  match NhChat.decide json server user jv with
  | .forward jv => do
      let packet ← BrokerConnector.sendJsonPacket json broker pk chatSendMsgUrl jv
      pure (.forward jv, packet)
  | refusal => pure (refusal, none)

end LobbySvr.Lobby
