/-
Module: LobbySvr.Net.NetServiceConnector
Layer: Net
Purpose: The connect attempts of `net/netServiceConnector.cpp`.  The state holds the resolver members and the
  outstanding `async_connect` operations with the number of sessions that are to follow; connections are
  numbered in the order in which the connector creates them.  What the operating system answers, that is
  whether the name resolves and whether a socket can be opened and set up, comes from outside.
Imports: LobbySvr.Net.ConnectionImpl
Trusted boundary: human-reviewed embedding of the C++ source; Boost.Asio completes an outstanding connect once
Main exports: Attempt, NetServiceConnector, ConnectOutcome, NetServiceConnector.setEndPoint,
  NetServiceConnector.connectImplement, NetServiceConnector.connectWait
Open obligations: none
-/
import LobbySvr.Net.ConnectionImpl

namespace LobbySvr.Net

/-- An outstanding `async_connect`: the connection and the `remainCnt` bound to its handler. -/
structure Attempt where
  conn : Nat
  remainCnt : UInt16
deriving DecidableEq, Repr

structure NetServiceConnector where
  /-- None while `m_resolver` is null; then whether `*m_endpoint_iter` points at an endpoint. -/
  endpointIter : Option Bool
  /-- How many connections have been created. -/
  created : Nat
  attempts : List Attempt
deriving DecidableEq, Repr

/-- What the operating system answers to one `connectWait`: whether `resolve` yields an endpoint or throws,
    and whether `open` and `set_option` in `createConnectSession` return or throw. -/
structure ConnectOutcome where
  resolves : Bool
  sessionOpens : Bool
deriving DecidableEq, Repr

namespace NetServiceConnector

/-- The connector as constructed. -/
def fresh : NetServiceConnector := ⟨none, 0, []⟩

/-- `setEndPoint`.  The members are allocated before `resolve` is called, so that a `resolve` that throws
    leaves an iterator that points nowhere, and no later call resolves again.  Built with `NDEBUG`, as in
    the Release configurations of `Net.vcxproj`; `CMakeLists.txt` and the Dockerfile leave the `assert` in
    front of the second `return false` on, and there it ends the process. -/
def setEndPoint (resolves : Bool) (connector : NetServiceConnector) : Bool × NetServiceConnector :=
  match connector.endpointIter with
  | none => (resolves, { connector with endpointIter := some resolves })
  | some pointing => (pointing, connector)

/-- `createConnectSession`; an exception of the socket leaves a connection that was created. -/
def createConnectSession (sessionOpens : Bool) (connector : NetServiceConnector) :
    Option Nat × NetServiceConnector :=
  (if sessionOpens then some connector.created else none,
    { connector with created := connector.created + 1 })

/-- `createConnectSession` and `async_connect`, guarded by the `catch` of both places that do this. -/
def startConnect (sessionOpens : Bool) (remainCnt : UInt16) (connector : NetServiceConnector) :
    Bool × NetServiceConnector :=
  match connector.createConnectSession sessionOpens with
  | (none, connector) => (false, connector)
  | (some conn, connector) =>
      (true, { connector with attempts := connector.attempts ++ [⟨conn, remainCnt⟩] })

/-- `connectImplement`; the `assert` that `sessionCnt` is not 0 is off as well. -/
def connectImplement (outcome : ConnectOutcome) (sessionCnt : UInt16) (connector : NetServiceConnector) :
    Bool × NetServiceConnector :=
  match connector.setEndPoint outcome.resolves with
  | (false, connector) => (false, connector)
  | (true, connector) => connector.startConnect outcome.sessionOpens (sessionCnt - 1)

/-- `connectWait`, which does not look at the result. -/
def connectWait (outcome : ConnectOutcome) (sessionCnt : UInt16) (connector : NetServiceConnector) :
    NetServiceConnector :=
  (connector.connectImplement outcome sessionCnt).2

/-- The attempt for a connection is over; its handler runs. -/
def finish (conn : Nat) (connector : NetServiceConnector) : NetServiceConnector :=
  { connector with attempts := connector.attempts.filter fun attempt => attempt.conn ≠ conn }

/-- The outstanding attempt for a connection. -/
def attemptFor (conn : Nat) (connector : NetServiceConnector) : Option Attempt :=
  connector.attempts.find? fun attempt => attempt.conn = conn

end NetServiceConnector

end LobbySvr.Net
