/-
Module: LobbySvr.Spec.BufferHistory
Layer: Spec
Purpose: Calls on a message buffer, one after the other.  `BufferCall.run` gives the buffer behind a call, the
  bytes it copied out and the fault it ended with; every check of the source stands in front of the first
  assignment, so a call that throws has changed nothing.  `BufferHistory` goes along with a buffer and keeps
  the bytes written since the buffer was last emptied and how many of them have been consumed.  `Backlog`
  counts along the calls alone, without a buffer, and says which counts overrun the storage.
Imports: LobbySvr.Net.MessageBuffer
Trusted boundary: none
Main exports: BufferCall, CallResult, BufferCall.run, BufferEvent, BufferHistory, BufferHistory.step, Backlog,
  Backlog.after, Backlog.Overruns, Backlog.Admits
Open obligations: none
-/
import LobbySvr.Net.MessageBuffer

namespace LobbySvr.Spec

open LobbySvr.Foundation
open LobbySvr.Net

/-- A call on a message buffer.  Counts are `size_t`. -/
inductive BufferCall where
  | write (src : List UInt8)
  | writeCount (count : UInt64)
  | read (count : UInt64)
  | readCount (count : UInt64)
  | readable (count : UInt64)
  | arrange
  | readAll
  | clear
deriving DecidableEq, Repr

/-- The buffer behind a call, the bytes the call copied out, and the fault it ended with. -/
structure CallResult where
  msg : MessageBuffer
  copied : Option (List UInt8)
  fault : Option Fault

/-- A call on a buffer. -/
def BufferCall.run (msg : MessageBuffer) : BufferCall → CallResult
  | .write src =>
      match msg.write src with
      | .ok later => ⟨later, none, none⟩
      | .error fault => ⟨msg, none, some fault⟩
  | .writeCount count =>
      match msg.writeCount count.toNat with
      | .ok later => ⟨later, none, none⟩
      | .error fault => ⟨msg, none, some fault⟩
  | .read count =>
      match msg.read count.toNat with
      | .ok (copied, later) => ⟨later, some copied, none⟩
      | .error fault => ⟨msg, none, some fault⟩
  | .readCount count =>
      match msg.readCount count.toNat with
      | .ok later => ⟨later, none, none⟩
      | .error fault => ⟨msg, none, some fault⟩
  | .readable count =>
      if pointerRange ≤ count.toNat then ⟨msg, none, some .undefinedBehaviour⟩
      else ⟨msg, msg.readableInto count.toNat, none⟩
  | .arrange => ⟨msg.arrange, none, none⟩
  | .readAll => ⟨msg.readAll, none, none⟩
  | .clear => ⟨msg.clear, none, none⟩

/-- A call, or bytes stored at `enableBuffer()` by a socket read. -/
inductive BufferEvent where
  | call (call : BufferCall)
  | store (bytes : List UInt8)
deriving DecidableEq, Repr

/-- A buffer, the bytes written to it since it was last emptied, and how many of them are consumed. -/
structure BufferHistory where
  msg : MessageBuffer
  written : List UInt8
  consumed : Nat

namespace BufferHistory

/-- A buffer as it is constructed, over storage that holds anything. -/
def fresh (storage : Nat → UInt8) (manip : Option MsgUserManip) : BufferHistory where
  msg := { buffer := storage, readPos := 0, writePos := 0, manip := manip }
  written := []
  consumed := 0

/-- What a call that returned has written, or consumed. -/
def record (history : BufferHistory) : BufferCall → List UInt8 × Nat
  | .write src => (history.written ++ src, history.consumed)
  | .writeCount count =>
      (history.written ++ readRange history.msg.buffer history.msg.writePos count.toNat,
        history.consumed)
  | .read count => (history.written, history.consumed + count.toNat)
  | .readCount count => (history.written, history.consumed + count.toNat)
  | .readable _ => (history.written, history.consumed)
  | .arrange => (history.written, history.consumed)
  | .readAll => ([], 0)
  | .clear => ([], 0)

/-- One event.  A call to which the language gives no meaning has no state behind it. -/
def step (history : BufferHistory) : BufferEvent → Option BufferHistory
  | .store bytes =>
      some { history with
        msg := { history.msg with
          buffer := writeRange history.msg.buffer history.msg.writePos bytes } }
  | .call call =>
      match (call.run history.msg).fault with
      | none =>
          some ⟨(call.run history.msg).msg, (history.record call).1, (history.record call).2⟩
      | some (.runtimeError _) => some { history with msg := (call.run history.msg).msg }
      | some .undefinedBehaviour => none

end BufferHistory

/-- What the calls so far have written and read, in bytes. -/
structure Backlog where
  /-- Written, and not yet read. -/
  unread : Nat
  /-- Read, since the unread ones were last moved to the front of the storage. -/
  readSince : Nat
deriving DecidableEq, Repr

namespace Backlog

/-- Before the first call. -/
def start : Backlog := ⟨0, 0⟩

/-- With more bytes than this behind the front of the storage, a read moves the unread ones there first. -/
def compactionMark : Nat := MessageBuffer.maxBufferSize - MessageBuffer.maxBufferSize / 3 * 2

/-- A write, which throws when the unread bytes and its own are too many. -/
def written (backlog : Backlog) (count : Nat) : Backlog :=
  if backlog.unread + count ≤ MessageBuffer.maxBufferSize then
    { backlog with unread := backlog.unread + count }
  else backlog

/-- A read, which throws when there are fewer unread bytes.  The move to the front comes before it. -/
def taken (backlog : Backlog) (count : Nat) : Backlog :=
  if backlog.unread < count then backlog
  else if compactionMark < backlog.readSince + backlog.unread then ⟨backlog.unread - count, count⟩
  else ⟨backlog.unread - count, backlog.readSince + count⟩

/-- The backlog behind a call. -/
def after (backlog : Backlog) : BufferCall → Backlog
  | .write src => backlog.written src.length
  | .writeCount count => backlog.written count.toNat
  | .read count => backlog.taken count.toNat
  | .readCount count => backlog.taken count.toNat
  | .readable _ => backlog
  | .arrange => { backlog with readSince := 0 }
  | .readAll => start
  | .clear => start

/-- The counts that a write takes and the storage does not hold: the greatest `readSince` ones with which the
    unread bytes are not too many, and those with which their number wraps around. -/
def Overruns (backlog : Backlog) (count : Nat) : Prop :=
  (MessageBuffer.maxBufferSize - backlog.unread - backlog.readSince < count ∧
      count ≤ MessageBuffer.maxBufferSize - backlog.unread) ∨
    (sizeTRange ≤ backlog.unread + count ∧
      (backlog.unread + count) % sizeTRange ≤ MessageBuffer.maxBufferSize)

instance (backlog : Backlog) (count : Nat) : Decidable (backlog.Overruns count) :=
  inferInstanceAs (Decidable (_ ∨ _))

/-- The calls that overrun nothing: other writes, and reads whose count can be added to a pointer. -/
def Admits (backlog : Backlog) : BufferCall → Prop
  | .write src => ¬ backlog.Overruns src.length
  | .writeCount count => ¬ backlog.Overruns count.toNat
  | .read count => count.toNat < pointerRange
  | .readCount count => count.toNat < pointerRange
  | .readable count => count.toNat < pointerRange
  | .arrange => True
  | .readAll => True
  | .clear => True

end Backlog

end LobbySvr.Spec
