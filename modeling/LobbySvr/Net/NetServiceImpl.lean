/-
Module: LobbySvr.Net.NetServiceImpl
Layer: Net
Purpose: The update timer of `NetServiceImpl`, which acceptors and connectors arm and which then arms itself.
  A service holds the timer's wait and the handlers that its strand has still to run; each step names the
  readings of the clock that the code takes in it, in nanoseconds.  The timer itself reads the clock in
  microseconds.
Imports: LobbySvr.Foundation.Runs, LobbySvr.Net.ConnectionImpl
Trusted boundary: human-reviewed embedding of the C++ source
Main exports: NetServiceImpl, NetServiceImpl.created, NetServiceImpl.expireTimerReady,
  NetServiceImpl.updateHandler, ServiceEvent, NetServiceImpl.step
Open obligations: none
-/
import LobbySvr.Foundation.Runs
import LobbySvr.Net.ConnectionImpl

namespace LobbySvr.Net

open LobbySvr.Foundation

/-- `_updateTimeMs`, `m_receiverEventClosed`, `_prevTime`, and of `_updater` the expiry time, the number of
    waits for it and, in `strand`, the completions that have not been handled. -/
structure NetServiceImpl where
  updateTimeMs : Nat
  receiverEventClosed : Bool
  prevTime : Int
  expiry : Int
  waits : Nat
  strand : List ErrorCode

/-- What happens to a service, with the readings of the clock. -/
inductive ServiceEvent where
  | expireTimerReady (now fromNow : Int)
  /-- The timer notices that its time has come. -/
  | expires (now : Int)
  /-- The strand runs one of the handlers it holds. -/
  | updateHandler (index : Nat) (now fromNow : Int)

namespace NetServiceImpl

/-- The constructor. -/
def created (updateTimeMs : Nat) (now : Int) : NetServiceImpl where
  updateTimeMs := updateTimeMs
  receiverEventClosed := false
  prevTime := 0
  expiry := now / 1000 + 1000 * updateTimeMs
  waits := 0
  strand := []

/-- `expires_from_now`, which cancels what waits, and `async_wait`. -/
def rearm (fromNow : Int) (service : NetServiceImpl) : NetServiceImpl :=
  { service with
    expiry := fromNow / 1000 + 1000 * service.updateTimeMs
    waits := 1
    strand := service.strand ++ List.replicate service.waits operationAborted }

/-- `expireTimerReady`. -/
def expireTimerReady (now fromNow : Int) (service : NetServiceImpl) : NetServiceImpl :=
  if service.updateTimeMs = 0 then service else { service with prevTime := now }.rearm fromNow

/-- The `elapse` of an update: the time since the last one, in milliseconds, as an `unsigned long`. -/
def elapse (now : Int) (service : NetServiceImpl) : UInt64 :=
  UInt64.ofInt ((now - service.prevTime).tdiv 1000000)

/-- `update_handler`, with the `elapse` that `onUpdate` is called with. -/
def updateHandler (ec : ErrorCode) (now fromNow : Int) (service : NetServiceImpl) :
    NetServiceImpl × Option UInt64 :=
  if ec = noError ∧ service.receiverEventClosed = false then
    ({ service with prevTime := now }.rearm fromNow, some (service.elapse now))
  else (service, none)

/-- A step, none when it is not possible, and the call of `onUpdate` in it. -/
def step (service : NetServiceImpl) : ServiceEvent → Except Unit (NetServiceImpl × Option UInt64)
  | .expireTimerReady now fromNow => .ok (service.expireTimerReady now fromNow, none)
  | .expires now =>
      if 0 < service.waits ∧ service.expiry ≤ now / 1000 then
        .ok
          ({ service with
              waits := 0
              strand := service.strand ++ List.replicate service.waits noError }, none)
      else .error ()
  | .updateHandler index now fromNow =>
      match pick index service.strand with
      | none => .error ()
      | some (ec, others) => .ok ({ service with strand := others }.updateHandler ec now fromNow)

end NetServiceImpl

end LobbySvr.Net
