/-
Module: LobbySvr.Lobby.BrokerConnector
Layer: Lobby
Purpose: The life of the broker link: the event handlers of `lobbysvr/brokerConnector.cpp` behind the
  connector they are registered with.  `connect_handler` runs in the strand of the service and the handlers
  of a session in the strand of its connection, so a session may close between `start_connect` and
  `onConnect`; the two are therefore events of their own.  A `ConnectorUser` is named by the connection it
  was made for.  The static member `m_user` is kept apart from the users that have not been deleted.  A step
  fails when `onClose` deletes a user a second time, and when a packet is sent through a deleted one.
Imports: LobbySvr.Net.NetServiceConnector
Trusted boundary: human-reviewed embedding of the C++ source
Main exports: BrokerLink, BrokerEvent, BrokerSend, BrokerDelete, BrokerLink.tryConnect,
  BrokerLink.sendJsonPacket, BrokerLink.deleteUser, BrokerLink.step
Open obligations: none
-/
import LobbySvr.Net.NetServiceConnector

namespace LobbySvr.Lobby

open LobbySvr.Net

structure BrokerLink where
  connector : NetServiceConnector
  /-- A `connect_handler` that has called `start_connect` and not yet `onConnect`. -/
  connecting : Option Attempt
  /-- The sessions that have been started and whose `onClose` has not been called. -/
  sessions : List Nat
  /-- `BrokerConnector::m_user`. -/
  user : Option Nat
  /-- The users that have been made and not deleted. -/
  users : List Nat
deriving DecidableEq, Repr

/-- What `sendJsonPacket` comes to. -/
inductive BrokerSend where
  | returnsZero
  | sendsOn (conn : Nat)
  | usesDeleted (conn : Nat)
deriving DecidableEq, Repr

/-- What `delete m_user` comes to. -/
inductive BrokerDelete where
  | nothing
  | deletes (conn : Nat)
  | deletesTwice (conn : Nat)
deriving DecidableEq, Repr

/-- What can happen on the broker link.  An event that leads to `tryConnect` or to another session brings
    the answers of the operating system with it. -/
inductive BrokerEvent where
  /-- `connect_handler` with an error, or on a socket that was closed. -/
  | connectFailed (conn : Nat) (outcome : ConnectOutcome)
  /-- `connect_handler` without an error up to `start_connect`, whose `set_option` calls may throw. -/
  | connected (conn : Nat) (startThrows : Bool)
  /-- The rest of that `connect_handler`. -/
  | onConnect (sessionOpens : Bool)
  | onClose (conn : Nat) (outcome : ConnectOutcome)
  | sendJsonPacket
deriving DecidableEq, Repr

namespace BrokerLink

/-- The link before `main` calls `tryConnect`. -/
def fresh : BrokerLink := ⟨.fresh, none, [], none, []⟩

/-- `BrokerConnector::tryConnect` with its defaults. -/
def tryConnect (outcome : ConnectOutcome) (link : BrokerLink) : BrokerLink :=
  { link with connector := link.connector.connectWait outcome 1 }

/-- `BrokerConnector::sendJsonPacket`. -/
def sendJsonPacket (link : BrokerLink) : BrokerSend :=
  match link.user with
  | none => .returnsZero
  | some conn => if conn ∈ link.users then .sendsOn conn else .usesDeleted conn

/-- The `delete m_user` of `onClose`. -/
def deleteUser (link : BrokerLink) : BrokerDelete :=
  match link.user with
  | none => .nothing
  | some conn => if conn ∈ link.users then .deletes conn else .deletesTwice conn

/-- `BrokerConnector::onConnect`. -/
def onConnect (conn : Nat) (link : BrokerLink) : BrokerLink :=
  { link with user := some conn, users := conn :: link.users }

/-- `BrokerConnector::onClose`: the user that `m_user` points at is deleted, and `m_user` keeps pointing
    at it.  A user that has been deleted is not deleted again: the behaviour is undefined, in front of
    `tryConnect`. -/
def onClose (conn : Nat) (outcome : ConnectOutcome) (link : BrokerLink) : Except Fault BrokerLink :=
  let link := { link with sessions := link.sessions.filter fun session => session ≠ conn }
  match link.deleteUser with
  | .nothing => .ok (link.tryConnect outcome)
  | .deletes deleted =>
      .ok (tryConnect outcome { link with users := link.users.filter fun user => user ≠ deleted })
  | .deletesTwice _ => .error .undefinedBehaviour

/-- One event.  One that cannot happen, since its attempt or its session is not there or another
    `connect_handler` is running in the strand, changes nothing. -/
def step (link : BrokerLink) : BrokerEvent → Except Fault BrokerLink
  | .connectFailed conn outcome =>
      match link.connecting, link.connector.attemptFor conn with
      | none, some _ =>
          .ok (tryConnect outcome { link with connector := link.connector.finish conn })
      | _, _ => .ok link
  | .connected conn startThrows =>
      match link.connecting, link.connector.attemptFor conn with
      | none, some attempt =>
          let link := { link with connector := link.connector.finish conn }
          if startThrows then .ok link
          else .ok { link with connecting := some attempt, sessions := link.sessions ++ [conn] }
      | _, _ => .ok link
  | .onConnect sessionOpens =>
      match link.connecting with
      | some attempt =>
          let link := onConnect attempt.conn { link with connecting := none }
          if 0 < attempt.remainCnt then
            .ok { link with
              connector := (link.connector.startConnect sessionOpens (attempt.remainCnt - 1)).2 }
          else .ok link
      | none => .ok link
  | .onClose conn outcome => if conn ∈ link.sessions then link.onClose conn outcome else .ok link
  | .sendJsonPacket =>
      match link.sendJsonPacket with
      | .usesDeleted _ => .error .undefinedBehaviour
      | _ => .ok link

end BrokerLink

end LobbySvr.Lobby
