/-
Module: LobbySvr.Lobby.LobbyUserManager
Layer: Lobby
Purpose: The registry of client connections, `lobbysvr/lobbyUserManager.cpp`.  Ownership is spread over
  three places: a connection's raw tag points at its user, the user owns a strong reference to its
  connection, and `m_users` holds a weak one under the connection's identity.  The strong references are
  counted, so that a weak one can be locked exactly while the count is positive.  Connections are of any
  type with identities that are all different.
Imports: LobbySvr.Foundation.OrderedMap, LobbySvr.Lobby.SendJsonPacket
Trusted boundary: human-reviewed embedding of the C++ source
Main exports: Identities, LobbyUser, RegistryEvent, LobbyUserManager, RegistryOp, LobbyUserManager.addUser,
  LobbyUserManager.deleteUser, LobbyUserManager.processUser, LobbyUserManager.userLogined,
  LobbyUserManager.sendPacketFromBroker, LobbyUserManager.sendPacketFromBrokerAll,
  LobbyUserManager.packetsFromBrokerAll, LobbyUserManager.run
Open obligations: none
-/
import Mathlib
import LobbySvr.Foundation.OrderedMap
import LobbySvr.Lobby.SendJsonPacket

namespace LobbySvr.Lobby

open LobbySvr.Foundation
open LobbySvr.Net

/-- `Connection::getIdentity()`, a `size_t` that no two connections share. -/
structure Identities (C : Type) where
  identity : C → UInt64
  distinct : Function.Injective identity

/-- `chase_lobbysvr::User`.  Nothing in the source assigns `m_userIDX` or `m_userID`. -/
structure LobbyUser (C : Type) where
  conn : C
  userIDX : UInt32
  userID : List UInt8
deriving DecidableEq, Repr

/-- What the registry logs or sends by itself. -/
inductive RegistryEvent (C : Type) where
  | createdAlready (identity : UInt64)
  | failedInsert (identity : UInt64)
  /-- `/account/connected`, sent to the new user. -/
  | connected (conn : C)
  /-- `/userLogout`, sent to the broker. -/
  | userLogout (userIDX : UInt32) (nick : List UInt8)
  | noneUser (userIDX : UInt32)
  | failedEmplace (userIDX : UInt32)
deriving DecidableEq, Repr

structure LobbyUserManager (C : Type) where
  /-- `m_users`; the weak pointers as the connections they were made from. -/
  users : OrderedMap UInt64 C
  /-- `m_nodeToUserMap`. -/
  nodeToUserMap : OrderedMap UInt32 UInt64
  /-- The tags of the connections. -/
  tag : C → Option (LobbyUser C)
  /-- How many users own a strong reference to a connection. -/
  owners : C → Nat
  /-- The connections to which somebody else holds a strong reference. -/
  held : C → Bool
  log : List (RegistryEvent C)

namespace LobbyUserManager

variable {C : Type}

/-- The registry at the start of the server. -/
def empty : LobbyUserManager C := ⟨∅, ∅, fun _ => none, fun _ => 0, fun _ => true, []⟩

/-- Whether a weak pointer to a connection can be locked. -/
def lockable (manager : LobbyUserManager C) (conn : C) : Bool :=
  manager.held conn || decide (0 < manager.owners conn)

/-- The user behind a weak pointer: the pointer is locked and the tag is not null. -/
def userBehind (manager : LobbyUserManager C) (conn : C) : Option (LobbyUser C) :=
  if manager.lockable conn then manager.tag conn else none

def record (event : RegistryEvent C) (manager : LobbyUserManager C) : LobbyUserManager C :=
  { manager with log := manager.log ++ [event] }

section

variable [DecidableEq C] (ids : Identities C)

/-- `new chase_lobbysvr::User(conn)` and `conn->setTag(user)`. -/
def makeUser (conn : C) (manager : LobbyUserManager C) : LobbyUserManager C :=
  { manager with
    tag := Function.update manager.tag conn (some ⟨conn, 0, []⟩)
    owners := Function.update manager.owners conn (manager.owners conn + 1) }

/-- `delete user` and `conn->setTag(nullptr)`. -/
def dropUser (conn : C) (user : LobbyUser C) (manager : LobbyUserManager C) : LobbyUserManager C :=
  { manager with
    tag := Function.update manager.tag conn none
    owners := Function.update manager.owners user.conn (manager.owners user.conn - 1) }

/-- `LobbyUserManager::addUser`. -/
def addUser (conn : C) (manager : LobbyUserManager C) : LobbyUserManager C :=
  if (manager.tag conn).isSome then manager.record (.createdAlready (ids.identity conn))
  else
    let manager := manager.makeUser conn
    match emplace manager.users (ids.identity conn) conn with
    | (false, _) => manager.record (.failedInsert (ids.identity conn))
    | (true, users) => { manager with users := users }.record (.connected conn)

/-- `LobbyUserManager::deleteUser`. -/
def deleteUser (conn : C) (manager : LobbyUserManager C) : LobbyUserManager C :=
  match manager.tag conn with
  | none => manager
  | some user =>
      let manager := manager.record (.userLogout user.userIDX user.userID)
      let manager := { manager with nodeToUserMap := manager.nodeToUserMap.erase user.userIDX }
      match manager.users[ids.identity user.conn]? with
      | none => (manager.record (.noneUser user.userIDX)).dropUser conn user
      | some _ =>
          { manager with users := manager.users.erase (ids.identity user.conn) }.dropUser conn user

end

/-- `LobbyUserManager::userLogined`; the result of the insertion is logged and otherwise ignored. -/
def userLogined (identity : UInt64) (userIDX : UInt32) (manager : LobbyUserManager C) :
    Bool × LobbyUserManager C :=
  match emplace manager.nodeToUserMap userIDX identity with
  | (false, _) => (true, manager.record (.failedEmplace userIDX))
  | (true, nodeToUserMap) => (true, { manager with nodeToUserMap := nodeToUserMap })

/-- `LobbyUserManager::userLogout`, which does not look at the identity. -/
def userLogout (_identity : UInt64) (userIDX : UInt32) (manager : LobbyUserManager C) :
    Bool × LobbyUserManager C :=
  (true, { manager with nodeToUserMap := manager.nodeToUserMap.erase userIDX })

/-- The user that `processUser` and `processUser2` give to their callback, or the value they return
    without calling it. -/
def findUser (identity : UInt64) (manager : LobbyUserManager C) : Except Int (LobbyUser C) :=
  match manager.users[identity]? with
  | none => .error (-1)
  | some conn =>
      if manager.lockable conn then
        match manager.tag conn with
        | none => .error (-3)
        | some user => .ok user
      else .error (-2)

/-- `LobbyUserManager::processUser`: what it returns, and the user its callback was called with. -/
def processUser (identity : UInt64) (manager : LobbyUserManager C) : Int × Option (LobbyUser C) :=
  match manager.findUser identity with
  | .error code => (code, none)
  | .ok user => (0, some user)

/-- `LobbyUserManager::processUser2`, which returns what its callback returns. -/
def processUser2 (identity : UInt64) (callback : LobbyUser C → Int) (manager : LobbyUserManager C) : Int :=
  match manager.findUser identity with
  | .error code => code
  | .ok user => callback user

/-- `LobbyUserManager::sendPacketFromBroker`: the connection whose user's `SendJsonPacket` is called. -/
def sendPacketFromBroker (identity : UInt64) (manager : LobbyUserManager C) : Option C :=
  match manager.users[identity]? with
  | none => none
  | some conn => (manager.userBehind conn).map LobbyUser.conn

/-- `LobbyUserManager::sendPacketFromBroker_byUserIDX`. -/
def sendPacketFromBrokerByUserIDX (userIDX : UInt32) (manager : LobbyUserManager C) : Option C :=
  match manager.nodeToUserMap[userIDX]? with
  | none => none
  | some identity => manager.sendPacketFromBroker identity

/-- The value that `User::SendJsonPacket` leaves behind, none when it does not return. -/
def afterSend {J : Type} (json : JsonCpp J) (pk : LobbyProtocol.PtJson) (url : List UInt8) (jv : J) :
    Option J :=
  match User.sendJsonPacket json pk url jv with
  | .ok (.sent _ jv) => some jv
  | .ok (.bodyOverflow jv) => some jv
  | .ok .jsonException => none
  | .error _ => none

/-- The loop of `sendPacketFromBroker_All` over entries of `m_users`: the connections whose user's
    `SendJsonPacket` is called, and the value that is left, none when a call did not return. -/
def sendToEach {J : Type} (send : J → Option J) (manager : LobbyUserManager C) :
    List (UInt64 × C) → J → List C × Option J
  | [], jv => ([], some jv)
  | (_, conn) :: entries, jv =>
      match manager.userBehind conn with
      | none => sendToEach send manager entries jv
      | some user =>
          match send jv with
          | none => ([user.conn], none)
          | some jv =>
              let (called, jv) := sendToEach send manager entries jv
              (user.conn :: called, jv)

/-- `LobbyUserManager::sendPacketFromBroker_All`; `pk` is the struct that each call constructs. -/
def sendPacketFromBrokerAll {J : Type} (json : JsonCpp J) (pk : LobbyProtocol.PtJson) (url : List UInt8)
    (jv : J) (manager : LobbyUserManager C) : List C × Option J :=
  manager.sendToEach (afterSend json pk url) manager.users.toList jv

/-- The same loop with what the calls hand to `sendPacket`: the connections with their packets, and the value
    that is left, none when jsoncpp threw. -/
def handToEach {J : Type} (send : LobbyUser C → J → Except Fault (SendExit J))
    (manager : LobbyUserManager C) :
    List (UInt64 × C) → J → List (C × List UInt8) × Except Fault (Option J)
  | [], jv => ([], .ok (some jv))
  | (_, conn) :: entries, jv =>
      match manager.userBehind conn with
      | none => handToEach send manager entries jv
      | some user =>
          match send user jv with
          | .error fault => ([], .error fault)
          | .ok .jsonException => ([], .ok none)
          | .ok (.bodyOverflow jv) => handToEach send manager entries jv
          | .ok (.sent packet jv) =>
              let (handed, left) := handToEach send manager entries jv
              ((user.conn, packet) :: handed, left)

/-- `LobbyUserManager::sendPacketFromBroker_All` with the packets it hands out; `memory` is what the memory
    of the struct held before each call, its sequence number and its body field. -/
def packetsFromBrokerAll {J : Type} (json : JsonCpp J) (memory : C → UInt32 × (Nat → UInt8))
    (url : List UInt8) (jv : J) (manager : LobbyUserManager C) :
    List (C × List UInt8) × Except Fault (Option J) :=
  manager.handToEach
    (fun user jv => User.sendJsonPacket json (.new (memory user.conn).1 (memory user.conn).2) url jv)
    manager.users.toList jv

/-! ### Runs -/

end LobbyUserManager

/-- What happens to the registry: calls of its operations, and strong references to a connection that are
    taken and given up elsewhere. -/
inductive RegistryOp (C : Type) where
  | addUser (conn : C)
  | deleteUser (conn : C)
  | userLogined (identity : UInt64) (userIDX : UInt32)
  | userLogout (identity : UInt64) (userIDX : UInt32)
  | hold (conn : C)
  | release (conn : C)
deriving DecidableEq, Repr

namespace LobbyUserManager

variable {C : Type} [DecidableEq C] (ids : Identities C)

/-- One operation.  A connection that nobody has a strong reference to is gone, and nothing can be called
    with it. -/
def step (manager : LobbyUserManager C) : RegistryOp C → LobbyUserManager C
  | .addUser conn => if manager.lockable conn then manager.addUser ids conn else manager
  | .deleteUser conn => if manager.lockable conn then manager.deleteUser ids conn else manager
  | .userLogined identity userIDX => (manager.userLogined identity userIDX).2
  | .userLogout identity userIDX => (manager.userLogout identity userIDX).2
  | .hold conn =>
      if manager.lockable conn then { manager with held := Function.update manager.held conn true }
      else manager
  | .release conn => { manager with held := Function.update manager.held conn false }

/-- The registry after a sequence of operations. -/
def run (ops : List (RegistryOp C)) : LobbyUserManager C := ops.foldl (step ids) empty

end LobbyUserManager

end LobbySvr.Lobby
