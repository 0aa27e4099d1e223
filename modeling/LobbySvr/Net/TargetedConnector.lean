/-
Module: LobbySvr.Net.TargetedConnector
Layer: Net
Purpose: `NetServiceConnector` with its target, the endpoint it has resolved, the identities of its connections
  and the notifications it makes, as a step function.  A label is a call by the user or a part of a
  `connect_handler`; between `onConnect` and the rest of its handler the user may make calls.  The answers of
  the resolver and of the sockets are part of the label.  Calls of `connect` and `connectWait` are numbered,
  and connections, attempts and notifications carry the number they go back to; the source keeps no such
  number, and nothing here depends on it.
Imports: LobbySvr.Net.NetServiceConnector
Trusted boundary: human-reviewed embedding of the C++ source; Boost.Asio completes an outstanding connect once,
  and the strand runs one handler at a time
Main exports: Session, SessionAttempt, ConnectorReport, TargetedConnector, ConnectorLabel,
  TargetedConnector.setEndPoint, TargetedConnector.step, setEndPoint_eq, connectImplement_eq,
  connectImplementSync_eq, TargetedConnector.forget
Open obligations: none
-/
import LobbySvr.Net.NetServiceConnector

namespace LobbySvr.Net

/-- A connection that has been created; connections are numbered in that order. -/
structure Session where
  connectionID : UInt64
  call : Nat
deriving DecidableEq, Repr

/-- An outstanding `async_connect` with what is bound to its handler. -/
structure SessionAttempt (ε : Type) where
  conn : Nat
  endpoint : ε
  remainCnt : UInt16
  call : Nat
deriving DecidableEq, Repr

/-- A call of `onConnect`, or one of `onConnectFailed`. -/
structure ConnectorReport where
  call : Nat
  conn : Nat
  connected : Bool
deriving DecidableEq, Repr

structure TargetedConnector (ε : Type) where
  targetAddr : String
  targetPort : String
  /-- None while `m_resolver` is null; then the endpoint `*m_endpoint_iter` points at, if it points at one. -/
  endpointIter : Option (Option ε)
  sessions : List Session
  attempts : List (SessionAttempt ε)
  /-- The attempt whose `connect_handler` has called `onConnect` and has not returned. -/
  connecting : Option (SessionAttempt ε)
  /-- How many calls of `connect` and `connectWait` there have been. -/
  calls : Nat
  /-- The endpoints that sockets have been connected to, or tried to. -/
  wentTo : List ε
  log : List ConnectorReport
deriving DecidableEq, Repr

/-- What `resolve` answers to a query of a host and a service: an endpoint, or none when it throws. -/
abbrev Resolve (ε : Type) := String → String → Option ε

/-- A call by the user, or a part of a handler. -/
inductive ConnectorLabel (ε : Type) where
  | setTargetServer (addr port : String)
  | connectWait (resolve : Resolve ε) (sessionOpens : Bool) (sessionCnt : UInt16) (connectionID : UInt64)
  /-- `connects` tells whether the blocking connect and what follows it returns. -/
  | connect (resolve : Resolve ε) (sessionOpens connects : Bool)
  /-- `connect_handler` with an error, or on a socket that was closed. -/
  | connectFailed (conn : Nat)
  /-- `connect_handler` without an error up to `onConnect`; `start_connect` may throw. -/
  | connected (conn : Nat) (startThrows : Bool)
  /-- The rest of that `connect_handler`. -/
  | handlerEnds (sessionOpens : Bool)

namespace TargetedConnector

variable {ε : Type}

/-- The connector as constructed. -/
def fresh (addr port : String) : TargetedConnector ε where
  targetAddr := addr
  targetPort := port
  endpointIter := none
  sessions := []
  attempts := []
  connecting := none
  calls := 0
  wentTo := []
  log := []

/-- `setTargetServer`. -/
def setTargetServer (addr port : String) (connector : TargetedConnector ε) : TargetedConnector ε :=
  { connector with targetAddr := addr, targetPort := port }

/-- The host that `setEndPoint` asks for. -/
def ipAddr (addr : String) : String := if addr = "" then "127.0.0.1" else addr

/-- `setEndPoint`, with the endpoint that the iterator points at when it returns true.  The members are
    allocated before `resolve` is called, so a `resolve` that throws leaves an iterator that points nowhere.
    Once they are there, neither `addr` nor `port` is looked at.  Built with `NDEBUG`; the `assert` that is on
    in the CMake build ends the process at the first call that finds the iterator pointing nowhere. -/
def setEndPoint (resolve : Resolve ε) (addr port : String) (connector : TargetedConnector ε) :
    Option ε × TargetedConnector ε :=
  match connector.endpointIter with
  | none =>
      (resolve (ipAddr addr) port, { connector with endpointIter := some (resolve (ipAddr addr) port) })
  | some pointing => (pointing, connector)

/-- `createConnectSession`; an exception of the socket leaves a connection that was created. -/
def createConnectSession (sessionOpens : Bool) (connectionID : UInt64) (call : Nat)
    (connector : TargetedConnector ε) : Option Nat × TargetedConnector ε :=
  (if sessionOpens then some connector.sessions.length else none,
    { connector with sessions := connector.sessions ++ [⟨connectionID, call⟩] })

/-- `createConnectSession` and `async_connect`, guarded by the `catch` of both places that do this. -/
def startConnect (sessionOpens : Bool) (endpoint : ε) (remainCnt : UInt16) (connectionID : UInt64)
    (call : Nat) (connector : TargetedConnector ε) : TargetedConnector ε :=
  match connector.createConnectSession sessionOpens connectionID call with
  | (none, connector) => connector
  | (some conn, connector) =>
      { connector with
        attempts := connector.attempts ++ [⟨conn, endpoint, remainCnt, call⟩]
        wentTo := connector.wentTo ++ [endpoint] }

/-- `connectImplement`. -/
def connectImplement (resolve : Resolve ε) (sessionOpens : Bool) (addr port : String) (sessionCnt : UInt16)
    (connectionID : UInt64) (connector : TargetedConnector ε) : TargetedConnector ε :=
  match connector.setEndPoint resolve addr port with
  | (none, connector) => connector
  | (some endpoint, connector) =>
      connector.startConnect sessionOpens endpoint (sessionCnt - 1) connectionID connector.calls

/-- `connectWait`, which does not look at the result. -/
def connectWait (resolve : Resolve ε) (sessionOpens : Bool) (sessionCnt : UInt16) (connectionID : UInt64)
    (connector : TargetedConnector ε) : TargetedConnector ε :=
  { connector.connectImplement resolve sessionOpens connector.targetAddr connector.targetPort sessionCnt
      connectionID with
    calls := connector.calls + 1 }

/-- `connectImplement_sync` with `connect_handler_sync`. -/
def connectImplementSync (resolve : Resolve ε) (sessionOpens connects : Bool) (addr port : String)
    (connectionID : UInt64) (connector : TargetedConnector ε) : TargetedConnector ε :=
  match connector.setEndPoint resolve addr port with
  | (none, connector) => connector
  | (some endpoint, connector) =>
      match connector.createConnectSession sessionOpens connectionID connector.calls with
      | (none, connector) => connector
      | (some conn, connector) =>
          let connector := { connector with wentTo := connector.wentTo ++ [endpoint] }
          if connects then { connector with log := connector.log ++ [⟨connector.calls, conn, true⟩] }
          else connector

/-- `connect`. -/
def connect (resolve : Resolve ε) (sessionOpens connects : Bool) (connector : TargetedConnector ε) :
    TargetedConnector ε :=
  { connector.connectImplementSync resolve sessionOpens connects connector.targetAddr connector.targetPort
      0 with
    calls := connector.calls + 1 }

/-- The attempt for a connection is over; its handler runs. -/
def finish (conn : Nat) (connector : TargetedConnector ε) : TargetedConnector ε :=
  { connector with attempts := connector.attempts.filter fun attempt => attempt.conn ≠ conn }

/-- The outstanding attempt for a connection whose handler can run, since no other one does. -/
def attemptFor (conn : Nat) (connector : TargetedConnector ε) : Option (SessionAttempt ε) :=
  match connector.connecting with
  | none => connector.attempts.find? fun attempt => attempt.conn = conn
  | some _ => none

/-- One label.  One that cannot happen changes nothing. -/
def step (connector : TargetedConnector ε) : ConnectorLabel ε → TargetedConnector ε
  | .setTargetServer addr port => connector.setTargetServer addr port
  | .connectWait resolve sessionOpens sessionCnt connectionID =>
      connector.connectWait resolve sessionOpens sessionCnt connectionID
  | .connect resolve sessionOpens connects => connector.connect resolve sessionOpens connects
  | .connectFailed conn =>
      match connector.attemptFor conn with
      | none => connector
      | some attempt =>
          let connector := connector.finish conn
          { connector with log := connector.log ++ [⟨attempt.call, conn, false⟩] }
  | .connected conn startThrows =>
      match connector.attemptFor conn with
      | none => connector
      | some attempt =>
          let connector := connector.finish conn
          if startThrows then connector
          else
            { connector with
              connecting := some attempt, log := connector.log ++ [⟨attempt.call, conn, true⟩] }
  | .handlerEnds sessionOpens =>
      match connector.connecting with
      | none => connector
      | some attempt =>
          let connector := { connector with connecting := none }
          -- The sessions that follow get the identity 0, whatever the first one was asked for with.
          if 0 < attempt.remainCnt then
            connector.startConnect sessionOpens attempt.endpoint (attempt.remainCnt - 1) 0 attempt.call
          else connector

/-- `getConnectionID` of a connection. -/
def getConnectionID (conn : Nat) (connector : TargetedConnector ε) : Option UInt64 :=
  connector.sessions[conn]?.map Session.connectionID

/-! ### With the endpoint found -/

/-- `setEndPoint` changes the iterator only, and leaves it at the endpoint it has found. -/
theorem setEndPoint_eq (resolve : Resolve ε) (addr port : String) (connector : TargetedConnector ε) :
    connector.setEndPoint resolve addr port =
      ((connector.setEndPoint resolve addr port).1,
        { connector with endpointIter := some (connector.setEndPoint resolve addr port).1 }) := by
  unfold setEndPoint
  cases allocated : connector.endpointIter with
  | none => rfl
  | some pointing => simp [← allocated]

theorem connectImplement_eq (resolve : Resolve ε) (sessionOpens : Bool) (addr port : String)
    (sessionCnt : UInt16) (connectionID : UInt64) (connector : TargetedConnector ε) :
    connector.connectImplement resolve sessionOpens addr port sessionCnt connectionID =
      match (connector.setEndPoint resolve addr port).1 with
      | none => { connector with endpointIter := some none }
      | some endpoint =>
          { connector with endpointIter := some (some endpoint) }.startConnect sessionOpens endpoint
            (sessionCnt - 1) connectionID connector.calls := by
  rw [connectImplement, setEndPoint_eq]
  cases (connector.setEndPoint resolve addr port).1 with
  | none => rfl
  | some endpoint => rfl

theorem connectImplementSync_eq (resolve : Resolve ε) (sessionOpens connects : Bool) (addr port : String)
    (connectionID : UInt64) (connector : TargetedConnector ε) :
    connector.connectImplementSync resolve sessionOpens connects addr port connectionID =
      match (connector.setEndPoint resolve addr port).1 with
      | none => { connector with endpointIter := some none }
      | some endpoint =>
          { connector with
            endpointIter := some (some endpoint)
            sessions := connector.sessions ++ [⟨connectionID, connector.calls⟩]
            wentTo := if sessionOpens then connector.wentTo ++ [endpoint] else connector.wentTo
            log :=
              if sessionOpens && connects then
                connector.log ++ [⟨connector.calls, connector.sessions.length, true⟩]
              else connector.log } := by
  rw [connectImplementSync, setEndPoint_eq]
  cases (connector.setEndPoint resolve addr port).1 with
  | none => rfl
  | some endpoint =>
      cases sessionOpens with
      | false => rfl
      | true =>
          cases connects with
          | false => rfl
          | true => rfl

/-! ### Without target, endpoints and identities -/

/-- What `NetServiceConnector` keeps of a connector. -/
def forget (connector : TargetedConnector ε) : NetServiceConnector where
  endpointIter := connector.endpointIter.map Option.isSome
  created := connector.sessions.length
  attempts := connector.attempts.map fun attempt => ⟨attempt.conn, attempt.remainCnt⟩

theorem forget_startConnect (sessionOpens : Bool) (endpoint : ε) (remainCnt : UInt16)
    (connectionID : UInt64) (call : Nat) (connector : TargetedConnector ε) :
    (connector.startConnect sessionOpens endpoint remainCnt connectionID call).forget =
      (connector.forget.startConnect sessionOpens remainCnt).2 := by
  cases sessionOpens with
  | false => simp [startConnect, createConnectSession, forget, NetServiceConnector.startConnect,
      NetServiceConnector.createConnectSession]
  | true => simp [startConnect, createConnectSession, forget, NetServiceConnector.startConnect,
      NetServiceConnector.createConnectSession]

/-- `connectWait` is that of `NetServiceConnector`, which is told whether the name resolves. -/
theorem forget_connectWait (resolve : Resolve ε) (sessionOpens : Bool) (sessionCnt : UInt16)
    (connectionID : UInt64) (connector : TargetedConnector ε) :
    (connector.connectWait resolve sessionOpens sessionCnt connectionID).forget =
      connector.forget.connectWait
        ⟨(resolve (ipAddr connector.targetAddr) connector.targetPort).isSome, sessionOpens⟩ sessionCnt := by
  have callsForgotten : ∀ (connector : TargetedConnector ε) (calls : Nat),
      { connector with calls := calls }.forget = connector.forget := fun _ _ => rfl
  rw [connectWait, callsForgotten, connectImplement_eq, setEndPoint, NetServiceConnector.connectWait,
    NetServiceConnector.connectImplement, NetServiceConnector.setEndPoint]
  cases iter : connector.endpointIter with
  | none =>
      cases answer : resolve (ipAddr connector.targetAddr) connector.targetPort with
      | none => simp [forget, iter]
      | some endpoint =>
          simp only [forget_startConnect]
          simp [forget, iter]
  | some pointing =>
      cases pointing with
      | none => simp [forget, iter]
      | some endpoint =>
          simp only [forget_startConnect]
          simp [forget, iter]

end TargetedConnector

end LobbySvr.Net
