/-
Module: LobbySvr.Net.SendPacket
Layer: Net
Purpose: The bytes that `ConnectionImpl::sendPacket`, `send` and `sendRaw` hand to `async_write`.
Imports: LobbySvr.Net.MessageBuffer
Trusted boundary: human-reviewed embedding of the C++ source
Main exports: sendFrame, sendPacketFrame
Open obligations: none
-/
import LobbySvr.Net.MessageBuffer

namespace LobbySvr.Net

/-- `ConnectionImpl::send`: the header is fixed up in place and the readable bytes are written. -/
def sendFrame (msg : MessageBuffer) : List UInt8 := msg.facilitate.bytes

/-- `ConnectionImpl::sendPacket`: a message with room for the header, the payload, and `send`. -/
def sendPacketFrame (msgManipulator : MsgUserManip) (sendBuffer : List UInt8) :
    Except Fault (List UInt8) :=
  match MessageBuffer.withHeader msgManipulator with
  | .error fault => .error fault
  | .ok msg =>
      match msg.write sendBuffer with
      | .error fault => .error fault
      | .ok msg => .ok (sendFrame msg)

end LobbySvr.Net
