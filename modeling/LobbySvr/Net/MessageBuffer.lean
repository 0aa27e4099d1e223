/-
Module: LobbySvr.Net.MessageBuffer
Layer: Net
Purpose: The receive and send buffer of `net/messageBuffer.{h,cpp}`, operation by operation.  The buffer is
  a fixed storage with two cursors into it; bytes between the cursors are readable.  Cursors are kept as
  offsets from `_buffer`, counts are `size_t`, and the storage outside the readable bytes keeps whatever
  was last stored there, as in the source.
Imports: LobbySvr.Foundation.Memory
Trusted boundary: human-reviewed embedding of the C++ source
Main exports: Fault, MsgUserManip, MessageBuffer and its operations
Open obligations: none
-/
import LobbySvr.Foundation.Memory

namespace LobbySvr.Net

open LobbySvr.Foundation

/-- How an operation can fail: an exception with its text, or an access outside the object, to which the
    language gives no meaning. -/
inductive Fault where
  | runtimeError (what : String)
  | undefinedBehaviour
deriving DecidableEq, Repr, Inhabited

/-- A header manipulator: the size reserved at the front of a message, and the bytes `facilitate` stores
    there for a message of the given current size. -/
structure MsgUserManip where
  getHeaderSize : Nat
  facilitate : Nat → List UInt8

/-- The number of `size_t` values. -/
def sizeTRange : Nat := 2 ^ 64

/-- Counts from here on cannot be added to a pointer: no object is that large. -/
def pointerRange : Nat := 2 ^ 63

/-- `MessageBuffer`: the storage, the offsets of `_read` and `_write` in it, and the manipulator. -/
structure MessageBuffer where
  buffer : Nat → UInt8
  readPos : Nat
  writePos : Nat
  manip : Option MsgUserManip

namespace MessageBuffer

/-- `MAX_BUFFER_SIZE`. -/
def maxBufferSize : Nat := 1024 * 32

/-- The text thrown by both `write` overloads. -/
def overrunText : String := "buffer overrun in MessageBuffer"

/-- The text thrown by both `read` overloads. -/
def cantReadableText : String := "buffer can't readable in MessageBuffer"

/-- `clear`. -/
def clear (msg : MessageBuffer) : MessageBuffer :=
  { msg with readPos := 0, writePos := 0 }

/-- The default constructor.  The storage is not initialised by the source and is never presented before
    it has been written. -/
def empty : MessageBuffer :=
  { buffer := fun _ => 0, readPos := 0, writePos := 0, manip := none }

/-- `size`. -/
def size (msg : MessageBuffer) : Nat := msg.writePos - msg.readPos

/-- `size() + count` in `size_t`. -/
def sizeAfter (msg : MessageBuffer) (count : Nat) : Nat := (msg.size + count) % sizeTRange

/-- `facilitate`: the manipulator overwrites the bytes at `_read`. -/
def facilitate (msg : MessageBuffer) : MessageBuffer :=
  match msg.manip with
  | none => msg
  | some manip =>
      { msg with buffer := writeRange msg.buffer msg.readPos (manip.facilitate msg.size) }

/-- `readable(size_t)`. -/
def readable (msg : MessageBuffer) (count : Nat) : Bool :=
  decide (msg.readPos + count ≤ msg.writePos)

/-- `readable(char*, size_t)`: the copied bytes, or nothing when too few are readable. -/
def readableInto (msg : MessageBuffer) (count : Nat) : Option (List UInt8) :=
  if msg.readable count then some (readRange msg.buffer msg.readPos count) else none

/-- `remainWriteSize`.  A write cursor past the end of the storage wraps the `size_t` difference. -/
def remainWriteSize (msg : MessageBuffer) : Nat :=
  if msg.writePos ≤ maxBufferSize then maxBufferSize - msg.writePos
  else sizeTRange - (msg.writePos - maxBufferSize)

/-- `arrange`: move the readable bytes to the front of the storage. -/
def arrange (msg : MessageBuffer) : MessageBuffer :=
  if msg.readPos = msg.writePos then msg.clear
  else
    { msg with
      buffer := writeRange msg.buffer 0 (readRange msg.buffer msg.readPos msg.size)
      readPos := 0
      writePos := msg.size }

/-- `write(char*, size_t)`.  The check is on the readable size, the copy goes to the write cursor. -/
def write (msg : MessageBuffer) (src : List UInt8) : Except Fault MessageBuffer :=
  if maxBufferSize < msg.sizeAfter src.length then .error (.runtimeError overrunText)
  else if maxBufferSize < msg.writePos + src.length then .error .undefinedBehaviour
  else
    .ok { msg with
      buffer := writeRange msg.buffer msg.writePos src
      writePos := msg.writePos + src.length }

/-- `write(size_t)`: only the cursor moves. -/
def writeCount (msg : MessageBuffer) (count : Nat) : Except Fault MessageBuffer :=
  if maxBufferSize < msg.sizeAfter count then .error (.runtimeError overrunText)
  else if pointerRange ≤ count then .error .undefinedBehaviour
  else .ok { msg with writePos := msg.writePos + count }

/-- The compaction that both `read` overloads make once two thirds of the storage are used up. -/
def makeRoom (msg : MessageBuffer) : MessageBuffer :=
  if msg.remainWriteSize < maxBufferSize / 3 * 2 then msg.arrange else msg

/-- `read(size_t)`. -/
def readCount (msg : MessageBuffer) (count : Nat) : Except Fault MessageBuffer :=
  if pointerRange ≤ count then .error .undefinedBehaviour
  else if msg.readable count then
    .ok { msg.makeRoom with readPos := msg.makeRoom.readPos + count }
  else .error (.runtimeError cantReadableText)

/-- `read(char*, size_t)`: the copied bytes and the buffer after the read. -/
def read (msg : MessageBuffer) (count : Nat) : Except Fault (List UInt8 × MessageBuffer) :=
  match msg.readCount count with
  | .error fault => .error fault
  | .ok later => .ok (readRange msg.makeRoom.buffer msg.makeRoom.readPos count, later)

/-- The copy constructor: `size()` bytes from `_buffer` on, wherever the read cursor stands.  The manipulator is
    not taken over. -/
def copy (e : MessageBuffer) : Except Fault MessageBuffer :=
  empty.clear.write (readRange e.buffer 0 e.size)

/-- `readAll`: everything readable is dropped. -/
def readAll (msg : MessageBuffer) : MessageBuffer :=
  { msg with readPos := 0, writePos := 0 }

/-- The constructor with a manipulator and `preWriteAsHeaderSize`. -/
def withHeader (manip : MsgUserManip) : Except Fault MessageBuffer :=
  writeCount { empty with manip := some manip } manip.getHeaderSize

/-- Bytes stored at `enableBuffer()` by somebody else and then announced with `write(size_t)`: how a socket
    read and the parsers fill a buffer. -/
def fill (msg : MessageBuffer) (bytes : List UInt8) : Except Fault MessageBuffer :=
  if maxBufferSize < msg.writePos + bytes.length then .error .undefinedBehaviour
  else writeCount { msg with buffer := writeRange msg.buffer msg.writePos bytes } bytes.length

/-- A fresh buffer that has been filled with `content`. -/
def received (content : List UInt8) : MessageBuffer :=
  { empty with buffer := writeRange empty.buffer 0 content, writePos := content.length }

/-- The readable bytes, from `data()` on, `size()` of them. -/
def bytes (msg : MessageBuffer) : List UInt8 := readRange msg.buffer msg.readPos msg.size

/-! ### What a read does to the size

These facts need no assumption on the cursors: a read that does not fail has found its bytes between
them. -/

theorem arrange_size (msg : MessageBuffer) : msg.arrange.size = msg.size := by
  unfold arrange
  split
  · rename_i same
    simp [clear, size, same]
  · simp [size]

theorem makeRoom_size (msg : MessageBuffer) : msg.makeRoom.size = msg.size := by
  unfold makeRoom
  split
  · exact arrange_size msg
  · rfl

/-- A read takes exactly its count from the size. -/
theorem readCount_size {msg later : MessageBuffer} {count : Nat}
    (done : msg.readCount count = .ok later) : later.size + count = msg.size := by
  unfold readCount at done
  split at done
  · cases done
  · split at done
    · rename_i found
      have within : msg.readPos + count ≤ msg.writePos := by simpa [readable] using found
      have same := makeRoom_size msg
      cases done
      simp only [size] at same ⊢
      omega
    · cases done

theorem read_size {msg later : MessageBuffer} {count : Nat} {copied : List UInt8}
    (done : msg.read count = .ok (copied, later)) : later.size + count = msg.size := by
  unfold read at done
  cases moved : msg.readCount count with
  | error fault => simp [moved] at done
  | ok after =>
      simp only [moved, Except.ok.injEq, Prod.mk.injEq] at done
      obtain ⟨_, rfl⟩ := done
      exact readCount_size moved

/-- A read copies exactly its count. -/
theorem read_length {msg later : MessageBuffer} {count : Nat} {copied : List UInt8}
    (done : msg.read count = .ok (copied, later)) : copied.length = count := by
  unfold read at done
  cases moved : msg.readCount count with
  | error fault => simp [moved] at done
  | ok after =>
      simp only [moved, Except.ok.injEq, Prod.mk.injEq] at done
      obtain ⟨rfl, -⟩ := done
      exact readRange_length _ _ _

@[simp] theorem readAll_size (msg : MessageBuffer) : msg.readAll.size = 0 := rfl

end MessageBuffer

end LobbySvr.Net
