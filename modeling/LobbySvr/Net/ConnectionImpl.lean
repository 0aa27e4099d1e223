/-
Module: LobbySvr.Net.ConnectionImpl
Layer: Net
Purpose: A connection of `net/connectionImpl.{h,cpp}` with `MessageProcedure::dispatch`, as a step function.
  The state holds the members of the class, the handlers queued in the strand, and the outstanding
  operations: the read, the writes in call order, the waits of the two timers, and the `close` calls
  posted to the `io_service`.  A label is a completion of an operation, a call made by user code, or the
  execution of one queued handler.  Handlers run one at a time and completely.  A call that user code makes
  from inside a handler is a label of its own behind the handler.  The result of a `socket.shutdown` is
  part of the label; no handler makes more than one such call.
Imports: LobbySvr.Foundation.Runs, LobbySvr.Net.FrameParser, LobbySvr.Net.SendPacket
Trusted boundary: human-reviewed embedding of the C++ source; Boost.Asio as described here
Main exports: Status, Handler, Event, MessageProcedure, ConnectionImpl, Label, ConnectionImpl.runHandler,
  ConnectionImpl.step, ConnectionImpl.started
Open obligations: none
-/
import LobbySvr.Foundation.Runs
import LobbySvr.Net.FrameParser
import LobbySvr.Net.SendPacket

namespace LobbySvr.Net

open LobbySvr.Foundation

/-- `Connection::status`. -/
inductive Status where
  | opened
  | closing
  | close
deriving DecidableEq, Repr

/-- `error_code::value()`. -/
abbrev ErrorCode := Int

/-- The value of an `error_code` that is not an error. -/
def noError : ErrorCode := 0

/-- `status_codes::SHUTDOWN`. -/
def shutdownCode : ErrorCode := 10058

/-- `boost::asio::error::eof`. -/
def eof : ErrorCode := 2

/-- The error a cancelled wait is completed with; all that matters is that it is one. -/
def operationAborted : ErrorCode := 125

/-- What the strand of a connection can hold.  A completed read brings the bytes that were stored in the
    receive buffer. -/
inductive Handler where
  | readHandler (ec : ErrorCode) (chunk : List UInt8)
  | dispatch (msg : MessageBuffer)
  | writeHandler (ec : ErrorCode)
  | close
  | onExpireTime (ec : ErrorCode)
  | onCloseReserveTime (ec : ErrorCode)

/-- What a connection does that can be seen from outside: a read that succeeded, a message passed to the
    packet parser, a call made by the parser, and the two notifications. -/
inductive Event (κ : Type) where
  | received (chunk : List UInt8)
  | parsed (bytes : List UInt8)
  | call (call : Call κ)
  | onExpiredSession
  | onClose
deriving DecidableEq, Repr

/-- `MessageProcedure`: the parsing function and the header manipulator.  A parser sees, besides the
    message, surroundings of the connection that may change between two calls, such as its tag. -/
structure MessageProcedure (κ ε : Type) where
  packetParsingFunction : ε → MessageBuffer → ParseResult κ
  packetHeaderManip : MsgUserManip

/-- `ConnectionImpl`: its members, what is queued and outstanding, and what has been observed. -/
structure ConnectionImpl (κ : Type) where
  status : Status
  /-- `_msg`, the buffer of the outstanding read. -/
  msg : MessageBuffer
  msgManipulator : MsgUserManip
  keepAliveTime : Nat
  readHandlerPending : UInt32
  postRetryCount : UInt64
  /-- The handlers queued in the strand, oldest first. -/
  strand : List Handler
  /-- The `close` calls that wait in the `io_service` for their turn in the strand. -/
  posted : Nat
  /-- Whether an `async_read_some` is outstanding. -/
  reading : Bool
  /-- What each outstanding `async_write` still has to transfer, in the order of the calls. -/
  writes : List (List UInt8)
  /-- A write has failed; the socket transfers nothing after that. -/
  broken : Bool
  keepTimer : Bool
  closeReserveTimer : Bool
  /-- The bytes put on the socket. -/
  wire : List UInt8
  /-- The frames of all calls so far. -/
  frames : List (List UInt8)
  log : List (Event κ)
  /-- The exception that has left `io_service::run`. -/
  terminated : Option Fault

/-- `new MessageBuffer(_msgManipulator)`. -/
def newMessageBuffer (msgManipulator : MsgUserManip) : MessageBuffer :=
  { MessageBuffer.empty with manip := some msgManipulator }

namespace ConnectionImpl

variable {κ ε : Type}

/-! ### Timers -/

/-- `_keepTimer.cancel()`: an outstanding wait completes as aborted. -/
def cancelKeepTimer (conn : ConnectionImpl κ) : ConnectionImpl κ :=
  if conn.keepTimer then
    { conn with keepTimer := false, strand := conn.strand ++ [.onExpireTime operationAborted] }
  else conn

/-- `_closeReserveTimer.cancel()`. -/
def cancelCloseReserveTimer (conn : ConnectionImpl κ) : ConnectionImpl κ :=
  if conn.closeReserveTimer then
    { conn with
      closeReserveTimer := false, strand := conn.strand ++ [.onCloseReserveTime operationAborted] }
  else conn

/-- `renewExpireTime`: setting a new expiry time cancels the wait for the old one. -/
def renewExpireTime (conn : ConnectionImpl κ) : ConnectionImpl κ :=
  if conn.keepAliveTime = 0 then conn else { conn.cancelKeepTimer with keepTimer := true }

/-- `closeReserve`. -/
def closeReserve (conn : ConnectionImpl κ) : ConnectionImpl κ :=
  { conn.cancelCloseReserveTimer with closeReserveTimer := true }

/-! ### Handlers -/

/-- `closing`; `shutdownOk` is the outcome of `_socket.shutdown`. -/
def closing (shutdownOk : Bool) (conn : ConnectionImpl κ) : ConnectionImpl κ :=
  if shutdownOk ∧ conn.status = .opened then
    let conn := { conn with status := .closing }.cancelKeepTimer.cancelCloseReserveTimer
    { conn with posted := conn.posted + 1 }
  else conn

/-- `read_handler`. -/
def readHandler (shutdownOk : Bool) (ec : ErrorCode) (chunk : List UInt8) (conn : ConnectionImpl κ) :
    ConnectionImpl κ :=
  if ec = noError then
    match conn.msg.fill chunk with
    | .error fault => { conn with terminated := some fault }
    | .ok msgRecv =>
        renewExpireTime
          { conn with
            msg := newMessageBuffer conn.msgManipulator
            readHandlerPending := conn.readHandlerPending + 1
            strand := conn.strand ++ [.dispatch msgRecv]
            reading := true
            log := conn.log ++ [.received chunk] }
  else if shutdownCode ≠ ec ∧ eof ≠ ec ∧ 0 < conn.readHandlerPending then
    if conn.postRetryCount < 5 then
      { conn with
        postRetryCount := conn.postRetryCount + 1
        strand := conn.strand ++ [.readHandler ec chunk] }
    else closing shutdownOk { conn with postRetryCount := conn.postRetryCount + 1 }
  else closing shutdownOk conn

/-- `write_handler`. -/
def writeHandler (shutdownOk : Bool) (ec : ErrorCode) (conn : ConnectionImpl κ) : ConnectionImpl κ :=
  if ec = noError then renewExpireTime conn else closing shutdownOk conn

/-- `onExpireTime`. -/
def onExpireTime (ec : ErrorCode) (conn : ConnectionImpl κ) : ConnectionImpl κ :=
  if ec = noError ∧ conn.status = .opened then { conn with log := conn.log ++ [.onExpiredSession] }
  else conn

/-- `close`. -/
def close (shutdownOk : Bool) (conn : ConnectionImpl κ) : ConnectionImpl κ :=
  if shutdownOk then
    let conn := { conn with status := .close }.cancelKeepTimer.cancelCloseReserveTimer
    { conn with log := conn.log ++ [.onClose] }
  else conn

/-- `onCloseReserveTime`. -/
def onCloseReserveTime (shutdownOk : Bool) (ec : ErrorCode) (conn : ConnectionImpl κ) :
    ConnectionImpl κ :=
  if ec = noError ∧ conn.status = .opened then close shutdownOk conn else conn

/-- `MessageProcedure::dispatch`.  Nothing catches what the parser throws. -/
def dispatch (procedure : MessageProcedure κ ε) (surroundings : ε) (msg : MessageBuffer)
    (conn : ConnectionImpl κ) : ConnectionImpl κ :=
  if conn.status ≠ .opened then conn
  else
    let result := procedure.packetParsingFunction surroundings msg
    let conn := { conn with log := conn.log ++ (Event.parsed msg.bytes :: result.calls.map Event.call) }
    match result.ending with
    | .raised fault => { conn with terminated := some fault }
    | .returned _ => { conn with readHandlerPending := conn.readHandlerPending - 1 }

/-- One handler of the strand. -/
def runHandler (procedure : MessageProcedure κ ε) (shutdownOk : Bool) (surroundings : ε) :
    Handler → ConnectionImpl κ → ConnectionImpl κ
  | .readHandler ec chunk => readHandler shutdownOk ec chunk
  | .dispatch msg => dispatch procedure surroundings msg
  | .writeHandler ec => writeHandler shutdownOk ec
  | .close => close shutdownOk
  | .onExpireTime ec => onExpireTime ec
  | .onCloseReserveTime ec => onCloseReserveTime shutdownOk ec

/-! ### Sending -/

/-- `async_write` of a frame, without waiting for the writes before it. -/
def asyncWrite (frame : List UInt8) (conn : ConnectionImpl κ) : ConnectionImpl κ :=
  { conn with writes := conn.writes ++ [frame], frames := conn.frames ++ [frame] }

/-- `send`. -/
def send (msg : MessageBuffer) (conn : ConnectionImpl κ) : ConnectionImpl κ :=
  asyncWrite (sendFrame msg) conn

/-- `sendRaw`. -/
def sendRaw (sendBuffer : List UInt8) (conn : ConnectionImpl κ) : ConnectionImpl κ :=
  asyncWrite sendBuffer conn

/-- `sendPacket`; when the payload does not fit, the exception goes to the caller. -/
def sendPacket (sendBuffer : List UInt8) (conn : ConnectionImpl κ) : ConnectionImpl κ :=
  match sendPacketFrame conn.msgManipulator sendBuffer with
  | .error _ => conn
  | .ok frame => asyncWrite frame conn

end ConnectionImpl

/-- What can happen next. -/
inductive Label (ε : Type) where
  /-- The outstanding read completes. -/
  | readSome (chunk : List UInt8)
  | readFails (ec : ErrorCode)
  /-- Calls of user code. -/
  | send (msg : MessageBuffer)
  | sendRaw (sendBuffer : List UInt8)
  | sendPacket (sendBuffer : List UInt8)
  | closeReserve
  /-- An outstanding write puts the next `count` of its bytes on the socket, completes, or fails. -/
  | transfer (index count : Nat)
  | writeDone (index : Nat)
  | writeFails (index : Nat) (ec : ErrorCode)
  /-- The wait of a timer is over. -/
  | keepExpires
  | closeReserveExpires
  /-- The `io_service` gives a posted `close` to the strand. -/
  | iosRuns
  /-- The strand runs one of its handlers. -/
  | run (index : Nat) (shutdownOk : Bool) (surroundings : ε)

namespace ConnectionImpl

variable {κ ε : Type}

/-- The bytes a read completes with: some, and no more than the buffer has room for. -/
def Readable (conn : ConnectionImpl κ) (chunk : List UInt8) : Prop :=
  conn.reading = true ∧ chunk ≠ [] ∧ chunk.length ≤ conn.msg.remainWriteSize

instance (conn : ConnectionImpl κ) (chunk : List UInt8) : Decidable (conn.Readable chunk) :=
  inferInstanceAs (Decidable (_ ∧ _ ∧ _))

/-- The next state under a label, none when the label is not possible. -/
def step (procedure : MessageProcedure κ ε) (conn : ConnectionImpl κ) (label : Label ε) :
    Option (ConnectionImpl κ) :=
  if conn.terminated ≠ none then none
  else
    match label with
    | .readSome chunk =>
        if conn.Readable chunk then
          some { conn with reading := false, strand := conn.strand ++ [.readHandler noError chunk] }
        else none
    | .readFails ec =>
        if conn.reading = true ∧ ec ≠ noError then
          some { conn with reading := false, strand := conn.strand ++ [.readHandler ec []] }
        else none
    | .send msg => some (conn.send msg)
    | .sendRaw sendBuffer => some (conn.sendRaw sendBuffer)
    | .sendPacket sendBuffer => some (conn.sendPacket sendBuffer)
    | .closeReserve => some conn.closeReserve
    | .transfer index count =>
        match conn.writes[index]? with
        | none => none
        | some remaining =>
            if conn.broken = false ∧ 0 < count ∧ count ≤ remaining.length then
              some { conn with
                writes := conn.writes.set index (remaining.drop count)
                wire := conn.wire ++ remaining.take count }
            else none
    | .writeDone index =>
        match pick index conn.writes with
        | some ([], others) =>
            some { conn with writes := others, strand := conn.strand ++ [.writeHandler noError] }
        | _ => none
    | .writeFails index ec =>
        match pick index conn.writes with
        | none => none
        | some (_, others) =>
            if ec ≠ noError then
              some { conn with
                writes := others, broken := true, strand := conn.strand ++ [.writeHandler ec] }
            else none
    | .keepExpires =>
        if conn.keepTimer then
          some { conn with keepTimer := false, strand := conn.strand ++ [.onExpireTime noError] }
        else none
    | .closeReserveExpires =>
        if conn.closeReserveTimer then
          some { conn with
            closeReserveTimer := false, strand := conn.strand ++ [.onCloseReserveTime noError] }
        else none
    | .iosRuns =>
        if 0 < conn.posted then
          some { conn with posted := conn.posted - 1, strand := conn.strand ++ [.close] }
        else none
    | .run index shutdownOk surroundings =>
        match pick index conn.strand with
        | none => none
        | some (handler, others) =>
            some (runHandler procedure shutdownOk surroundings handler { conn with strand := others })

/-! ### The start of a connection -/

/-- The constructor; `expired` tells whether a successful expiry of the wait it begins is still queued when the
    connection starts.  One that has been handled by then did nothing, since the connection was not open. -/
def created (procedure : MessageProcedure κ ε) (keepAliveTime : Nat) (expired : Bool) :
    ConnectionImpl κ :=
  let conn := renewExpireTime
    { status := .close
      msg := newMessageBuffer procedure.packetHeaderManip
      msgManipulator := procedure.packetHeaderManip
      keepAliveTime := keepAliveTime
      readHandlerPending := 0
      postRetryCount := 0
      strand := []
      posted := 0
      reading := false
      writes := []
      broken := false
      keepTimer := false
      closeReserveTimer := false
      wire := []
      frames := []
      log := []
      terminated := none }
  if expired ∧ conn.keepTimer then
    { conn with keepTimer := false, strand := [.onExpireTime noError] }
  else conn

/-- `start_accept` and `start_connect`, which are the same. -/
def startAccept (conn : ConnectionImpl κ) : ConnectionImpl κ :=
  renewExpireTime
    { conn with
      msg := newMessageBuffer conn.msgManipulator
      reading := true
      status := .opened }

/-- A started connection. -/
def started (procedure : MessageProcedure κ ε) (keepAliveTime : Nat) (expired : Bool) :
    ConnectionImpl κ :=
  (created procedure keepAliveTime expired).startAccept

end ConnectionImpl

end LobbySvr.Net
