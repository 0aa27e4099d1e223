/-
Module: LobbySvr.Lobby.NhLobby
Layer: Lobby
Purpose: The login handler `nh_lobby::login`, which the lobby dispatches under `login`.  Everything behind the
  check of the client's version is commented out in the source: a client with the right version gets no
  answer, and one with another version gets a refusal and is closed.
Imports: LobbySvr.Lobby.ConnectorHandler
Trusted boundary: human-reviewed embedding of the C++ source; interface of a third-party library
Main exports: ServerJson, loginUrl, LoginRequest, LoginExit, NhLobby.readRequest, NhLobby.sendDBFailed,
  NhLobby.login
Open obligations: none
-/
import LobbySvr.Lobby.ConnectorHandler

namespace LobbySvr.Lobby

open LobbySvr.Net

/-- jsoncpp with a value to start from. -/
structure ServerJson (J : Type) extends BrokerJson J where
  /-- `Json::Value rsp;`. -/
  null : J

/-- The key of `nh_lobby::login` in `LobbyAcceptorReceiver::m_URLs`. -/
def loginUrl : List UInt8 := "login".toUTF8.data.toList

/-- What `login` takes from a request.  Only commented-out code reads the first two. -/
structure LoginRequest where
  userID : List UInt8
  userPW : List UInt8
  clientVersion : Int
deriving DecidableEq, Repr

/-- The exits of `login`. -/
inductive LoginExit (J : Type) where
  | userIsNull
  /-- An operation of jsoncpp or `remote_endpoint` threw; `dispatch` catches it. -/
  | exception
  | accepted
  /-- `sendDBFailed` has called `SendJsonPacket`. -/
  | refused (exit : SendExit J)
deriving DecidableEq, Repr

namespace NhLobby

variable {J : Type}

/-- The answer as far as it is prepared, and what is read of the request. -/
def readRequest (json : ServerJson J) (jv : J) : Option (J × LoginRequest) := do
  let (sequenceNum, jv) ← json.index jv rspSeq
  let rsp ← json.assign json.null rspSeq sequenceNum
  let (userID, jv) ← json.index jv "userID"
  let userID ← json.asString userID
  let (userPW, jv) ← json.index jv "userPW"
  let userPW ← json.asString userPW
  let (clientVersion, _) ← json.index jv "clientVersion"
  let clientVersion ← json.asInt clientVersion
  pure (rsp, ⟨userID, userPW, clientVersion⟩)

/-- The lambda `sendDBFailed` up to its `closeReserve(0)`. -/
def sendDBFailed (json : ServerJson J) (pk : LobbyProtocol.PtJson) (url : List UInt8) (retCode : Int)
    (retMsg : List UInt8) (rsp : J) : Except Fault (LoginExit J) :=
  let filled := do
    let rsp ← json.assign rsp rspRc (json.ofInt retCode)
    json.assign rsp rspRm (json.ofString retMsg)
  match filled with
  | none => .ok .exception
  | some rsp => (User.sendJsonPacket json.toJsonCpp pk url rsp).map .refused

/-- `nh_lobby::login`; `clientVersion` is that of `Environment`, `remoteEndpoint` tells whether
    `remote_endpoint` returns, and `user` whether the connection's tag holds a user. -/
def login (json : ServerJson J) (clientVersion : Int) (remoteEndpoint user : Bool)
    (pk : LobbyProtocol.PtJson) (url : List UInt8) (jv : J) : Except Fault (LoginExit J) :=
  if user = false then .ok .userIsNull
  else
    match readRequest json jv with
    | none => .ok .exception
    | some (rsp, request) =>
        if remoteEndpoint = false then .ok .exception
        else if request.clientVersion ≠ clientVersion then
          sendDBFailed json pk url (-1) "client version".toUTF8.data.toList rsp
        else .ok .accepted

end NhLobby

end LobbySvr.Lobby
