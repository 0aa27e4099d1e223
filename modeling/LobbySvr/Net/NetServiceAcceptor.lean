/-
Module: LobbySvr.Net.NetServiceAcceptor
Layer: Net
Purpose: The accept loop of `net/netServiceAcceptor.cpp`.  The state holds the connections for which an
  `async_accept` is outstanding and the calls made on accepted connections; connections are numbered in the
  order in which the acceptor creates them.  A completion brings the error code and whether the
  `set_option` calls of `start_accept`, which have no error argument, throw.
Imports: LobbySvr.Net.ConnectionImpl
Trusted boundary: human-reviewed embedding of the C++ source; Boost.Asio completes an outstanding accept once
Main exports: NetServiceAcceptor, AcceptCompletion, NetServiceAcceptor.acceptWait,
  NetServiceAcceptor.acceptHandler, NetServiceAcceptor.complete
Open obligations: none
-/
import LobbySvr.Net.ConnectionImpl

namespace LobbySvr.Net

/-- A call made for an accepted connection. -/
inductive AcceptCall where
  | onAccept (conn : Nat)
  | startAccept (conn : Nat)
deriving DecidableEq, Repr

/-- The connection a call is made for. -/
def AcceptCall.conn : AcceptCall → Nat
  | .onAccept conn => conn
  | .startAccept conn => conn

structure NetServiceAcceptor where
  /-- How many connections have been created. -/
  created : Nat
  /-- The connections with an outstanding `async_accept`, the oldest first. -/
  accepting : List Nat
  calls : List AcceptCall
deriving DecidableEq, Repr

/-- How an outstanding accept completes. -/
structure AcceptCompletion where
  ec : ErrorCode
  startThrows : Bool
deriving DecidableEq, Repr

namespace NetServiceAcceptor

/-- `ConnectionImpl::create` and `_acceptorSocket.async_accept` with the new connection. -/
def asyncAccept (acceptor : NetServiceAcceptor) : NetServiceAcceptor :=
  { acceptor with
    created := acceptor.created + 1
    accepting := acceptor.accepting ++ [acceptor.created] }

/-- The acceptor when `acceptWait` has returned. -/
def acceptWait : NetServiceAcceptor := asyncAccept ⟨0, [], []⟩

/-- `accept_handler`.  An exception of `start_accept` leaves the handler. -/
def acceptHandler (completion : AcceptCompletion) (conn : Nat) (acceptor : NetServiceAcceptor) :
    NetServiceAcceptor :=
  if completion.ec = noError then
    let acceptor := { acceptor with calls := acceptor.calls ++ [.onAccept conn, .startAccept conn] }
    if completion.startThrows then acceptor
    else acceptor.asyncAccept
  else acceptor

/-- The oldest outstanding accept completes and its handler runs. -/
def complete (acceptor : NetServiceAcceptor) (completion : AcceptCompletion) : NetServiceAcceptor :=
  match acceptor.accepting with
  | [] => acceptor
  | conn :: others => acceptHandler completion conn { acceptor with accepting := others }

end NetServiceAcceptor

end LobbySvr.Net
