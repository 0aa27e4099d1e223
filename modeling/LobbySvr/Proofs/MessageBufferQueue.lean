/-
Module: LobbySvr.Proofs.MessageBufferQueue
Layer: Proofs
Purpose: A buffer whose cursors lie in order inside the storage presents a byte queue.  Every operation the
  parsers and the connection use is described by what it does to the readable bytes alone, so the layers
  above never look at the storage, the cursors or the compaction again.
Imports: LobbySvr.Net.MessageBuffer
Trusted boundary: none
Main exports: MessageBuffer.Valid, readable_iff, readableInto_eq, readCount_ok, readCount_short, read_ok,
  read_short, fill_ok, write_ok, fill_empty, facilitate_bytes
Open obligations: none
-/
import LobbySvr.Net.MessageBuffer

namespace LobbySvr.Net

open LobbySvr.Foundation

namespace MessageBuffer

/-- The cursors lie in order inside the storage. -/
structure Valid (msg : MessageBuffer) : Prop where
  ordered : msg.readPos ≤ msg.writePos
  stored : msg.writePos ≤ maxBufferSize

@[simp] theorem bytes_length (msg : MessageBuffer) : msg.bytes.length = msg.size := by
  simp [bytes]

theorem maxBufferSize_eq : maxBufferSize = 32768 := rfl

theorem Valid.size_le {msg : MessageBuffer} (valid : msg.Valid) : msg.size ≤ maxBufferSize := by
  have := valid.stored
  simp only [size]
  omega

theorem readAll_valid (msg : MessageBuffer) : msg.readAll.Valid := ⟨Nat.le_refl _, Nat.zero_le _⟩

@[simp] theorem readAll_bytes (msg : MessageBuffer) : msg.readAll.bytes = [] := by
  simp [bytes]

/-! ### Peeking -/

theorem readable_iff {msg : MessageBuffer} (ordered : msg.readPos ≤ msg.writePos) (count : Nat) :
    msg.readable count = true ↔ count ≤ msg.bytes.length := by
  simp only [readable, decide_eq_true_eq, bytes_length, size]
  omega

/-- `readable(char*, size_t)` peeks at the oldest bytes. -/
theorem readableInto_eq {msg : MessageBuffer} (ordered : msg.readPos ≤ msg.writePos) (count : Nat) :
    msg.readableInto count =
      if count ≤ msg.bytes.length then some (msg.bytes.take count) else none := by
  unfold readableInto
  by_cases found : msg.readable count = true
  · have within := (readable_iff ordered count).mp found
    rw [if_pos found, if_pos within, bytes, readRange_take]
    simpa using within
  · have short : ¬ count ≤ msg.bytes.length := fun within =>
      found ((readable_iff ordered count).mpr within)
    rw [if_neg found, if_neg short]

/-! ### Compaction keeps the queue -/

/-- A compaction leaves the cursors in order and never moves the write cursor on. -/
theorem arrange_ordered (msg : MessageBuffer) :
    msg.arrange.readPos ≤ msg.arrange.writePos ∧ msg.arrange.writePos ≤ msg.writePos := by
  unfold arrange
  split
  · exact ⟨Nat.le_refl _, Nat.zero_le _⟩
  · exact ⟨Nat.zero_le _, Nat.sub_le _ _⟩

theorem arrange_valid {msg : MessageBuffer} (valid : msg.Valid) : msg.arrange.Valid := by
  obtain ⟨ordered, behind⟩ := arrange_ordered msg
  exact ⟨ordered, Nat.le_trans behind valid.stored⟩

theorem arrange_bytes (msg : MessageBuffer) : msg.arrange.bytes = msg.bytes := by
  unfold arrange
  split
  · rename_i same
    simp [clear, bytes, size, same]
  · -- The moved range is read back as one list, so an overlap of the ranges does not matter.
    have back := readRange_writeRange_self msg.buffer 0 (readRange msg.buffer msg.readPos msg.size)
    simpa [bytes, size] using back

theorem makeRoom_ordered {msg : MessageBuffer} (ordered : msg.readPos ≤ msg.writePos) :
    msg.makeRoom.readPos ≤ msg.makeRoom.writePos ∧ msg.makeRoom.writePos ≤ msg.writePos := by
  unfold makeRoom
  split
  · exact arrange_ordered msg
  · exact ⟨ordered, Nat.le_refl _⟩

theorem makeRoom_bytes (msg : MessageBuffer) : msg.makeRoom.bytes = msg.bytes := by
  unfold makeRoom
  split
  · exact arrange_bytes msg
  · rfl

/-! ### Reading -/

theorem pointerRange_gt : maxBufferSize < pointerRange := by decide

/-- A read of at most the readable bytes removes exactly the oldest ones, wherever the cursors are. -/
theorem readCount_taken {msg : MessageBuffer} (ordered : msg.readPos ≤ msg.writePos) {count : Nat}
    (within : count ≤ msg.bytes.length) (small : count < pointerRange) :
    ∃ later, msg.readCount count = .ok later ∧ later.readPos ≤ later.writePos ∧
      later.writePos ≤ msg.writePos ∧ later.bytes = msg.bytes.drop count := by
  obtain ⟨roomOrdered, roomInside⟩ := makeRoom_ordered ordered
  have roomBytes := makeRoom_bytes msg
  have roomWithin : count ≤ msg.makeRoom.size := by
    rw [makeRoom_size]
    simpa using within
  refine ⟨{ msg.makeRoom with readPos := msg.makeRoom.readPos + count }, ?_, ?_, roomInside, ?_⟩
  · rw [readCount, if_neg (Nat.not_le_of_lt small), if_pos ((readable_iff ordered count).mpr within)]
  · simp only [size] at roomWithin
    change msg.makeRoom.readPos + count ≤ msg.makeRoom.writePos
    omega
  · rw [← roomBytes, bytes, bytes, readRange_drop _ roomWithin]
    simp only [size, Nat.sub_add_eq]

theorem read_taken {msg later : MessageBuffer} {count : Nat} (within : count ≤ msg.bytes.length)
    (moved : msg.readCount count = .ok later) : msg.read count = .ok (msg.bytes.take count, later) := by
  have roomWithin : count ≤ msg.makeRoom.size := by
    rw [makeRoom_size]
    simpa using within
  rw [read, moved, ← makeRoom_bytes msg, bytes, readRange_take _ roomWithin]

/-- In a buffer whose cursors lie inside the storage they stay there. -/
theorem readCount_ok {msg : MessageBuffer} (valid : msg.Valid) {count : Nat}
    (within : count ≤ msg.bytes.length) :
    ∃ later, msg.readCount count = .ok later ∧ later.Valid ∧
      later.bytes = msg.bytes.drop count := by
  have small : count < pointerRange := by
    have := valid.size_le
    have := pointerRange_gt
    rw [bytes_length] at within
    omega
  obtain ⟨later, moved, ordered, inside, laterBytes⟩ := readCount_taken valid.ordered within small
  exact ⟨later, moved, ⟨ordered, Nat.le_trans inside valid.stored⟩, laterBytes⟩

/-- A read of more than the readable bytes throws. -/
theorem readCount_short {msg : MessageBuffer} (ordered : msg.readPos ≤ msg.writePos) {count : Nat}
    (short : msg.bytes.length < count) (small : count < pointerRange) :
    msg.readCount count = .error (.runtimeError cantReadableText) := by
  have unreadable : ¬ msg.readable count = true := fun found =>
    absurd ((readable_iff ordered count).mp found) (Nat.not_le_of_lt short)
  rw [readCount, if_neg (Nat.not_le_of_lt small), if_neg unreadable]

theorem read_ok {msg : MessageBuffer} (valid : msg.Valid) {count : Nat}
    (within : count ≤ msg.bytes.length) :
    ∃ later, msg.read count = .ok (msg.bytes.take count, later) ∧ later.Valid ∧
      later.bytes = msg.bytes.drop count := by
  obtain ⟨later, moved, laterValid, laterBytes⟩ := readCount_ok valid within
  exact ⟨later, read_taken within moved, laterValid, laterBytes⟩

theorem read_short {msg : MessageBuffer} (ordered : msg.readPos ≤ msg.writePos) {count : Nat}
    (short : msg.bytes.length < count) (small : count < pointerRange) :
    msg.read count = .error (.runtimeError cantReadableText) := by
  rw [read, readCount_short ordered short small]

/-- What a read copies is the front of the readable bytes. -/
theorem read_front {msg later : MessageBuffer} (valid : msg.Valid) {count : Nat} {copied : List UInt8}
    (done : msg.read count = .ok (copied, later)) : copied = msg.bytes.take count := by
  have taken := read_size done
  have within : count ≤ msg.bytes.length := by
    rw [bytes_length]
    omega
  obtain ⟨other, same, -, -⟩ := read_ok valid within
  rw [done, Except.ok.injEq, Prod.mk.injEq] at same
  exact same.1

/-! ### Writing -/

theorem sizeAfter_eq {msg : MessageBuffer} (valid : msg.Valid) {count : Nat}
    (room : count ≤ maxBufferSize) : msg.sizeAfter count = msg.size + count := by
  have := valid.size_le
  have := maxBufferSize_eq
  rw [sizeAfter, sizeTRange, Nat.mod_eq_of_lt (by omega)]

theorem writeCount_ok {msg : MessageBuffer} (valid : msg.Valid) {count : Nat}
    (room : msg.writePos + count ≤ maxBufferSize) :
    msg.writeCount count = .ok { msg with writePos := msg.writePos + count } := by
  have := maxBufferSize_eq
  have fits : ¬ maxBufferSize < msg.sizeAfter count := by
    rw [sizeAfter_eq valid (by omega), size]
    omega
  have small : ¬ pointerRange ≤ count := by
    have := pointerRange_gt
    omega
  rw [writeCount, if_neg fits, if_neg small]

/-- Bytes appended to the storage behind the write cursor appear behind the readable bytes. -/
private theorem appended_bytes {msg : MessageBuffer} (valid : msg.Valid) (more : List UInt8) :
    ({ msg with
        buffer := writeRange msg.buffer msg.writePos more
        writePos := msg.writePos + more.length } : MessageBuffer).bytes = msg.bytes ++ more := by
  have ordered := valid.ordered
  have grown : msg.writePos + more.length - msg.readPos = msg.size + more.length := by
    simp only [size]
    omega
  have atEnd : msg.readPos + msg.size = msg.writePos := by
    simp only [size]
    omega
  simp only [bytes, size, grown]
  rw [show msg.writePos - msg.readPos = msg.size from rfl, readRange_append, atEnd,
    readRange_writeRange_self, readRange_writeRange_below _ _ (Nat.le_of_eq atEnd)]

/-- Filling a buffer with bytes that fit behind its write cursor appends them. -/
theorem fill_ok {msg : MessageBuffer} (valid : msg.Valid) {more : List UInt8}
    (room : msg.writePos + more.length ≤ maxBufferSize) :
    ∃ later, msg.fill more = .ok later ∧ later.Valid ∧ later.bytes = msg.bytes ++ more := by
  refine ⟨_, ?_, ⟨?_, room⟩, appended_bytes valid more⟩
  · rw [fill, if_neg (Nat.not_lt_of_le room)]
    have copied : Valid { msg with buffer := writeRange msg.buffer msg.writePos more } :=
      ⟨valid.ordered, valid.stored⟩
    exact writeCount_ok copied room
  · exact Nat.le_trans valid.ordered (Nat.le_add_right _ _)

/-- Writing bytes that fit behind the write cursor appends them. -/
theorem write_ok {msg : MessageBuffer} (valid : msg.Valid) {more : List UInt8}
    (room : msg.writePos + more.length ≤ maxBufferSize) :
    ∃ later, msg.write more = .ok later ∧ later.Valid ∧ later.bytes = msg.bytes ++ more := by
  have fits : ¬ maxBufferSize < msg.sizeAfter more.length := by
    rw [sizeAfter_eq valid (by omega), size]
    omega
  refine ⟨_, ?_, ⟨?_, room⟩, appended_bytes valid more⟩
  · rw [write, if_neg fits, if_neg (Nat.not_lt_of_le room)]
  · exact Nat.le_trans valid.ordered (Nat.le_add_right _ _)

theorem received_valid {content : List UInt8} (room : content.length ≤ maxBufferSize) :
    (received content).Valid :=
  ⟨Nat.zero_le _, room⟩

/-- A fresh buffer filled with a byte string presents that string. -/
@[simp] theorem received_bytes (content : List UInt8) : (received content).bytes = content :=
  readRange_writeRange_self _ 0 content

theorem fill_empty {content : List UInt8} (room : content.length ≤ maxBufferSize) :
    empty.fill content = .ok (received content) := by
  have behind : empty.writePos + content.length ≤ maxBufferSize := by simpa [empty] using room
  have copied : Valid { empty with buffer := writeRange empty.buffer empty.writePos content } :=
    ⟨Nat.le_refl _, Nat.zero_le _⟩
  rw [fill, if_neg (Nat.not_lt_of_le behind), writeCount_ok copied behind]
  simp [received, empty]

/-! ### The header of an outgoing message -/

theorem write_manip {msg later : MessageBuffer} {src : List UInt8} (done : msg.write src = .ok later) :
    later.manip = msg.manip := by
  unfold write at done
  split at done
  · cases done
  · split at done
    · cases done
    · cases done
      rfl

/-- The manipulator replaces the front of the readable bytes. -/
theorem facilitate_bytes {msg : MessageBuffer} {manip : MsgUserManip} {header body : List UInt8}
    (attached : msg.manip = some manip) (content : msg.bytes = header ++ body)
    (replaced : (manip.facilitate msg.size).length = header.length) :
    msg.facilitate.bytes = manip.facilitate msg.size ++ body := by
  have split : msg.size = header.length + body.length := by
    rw [← bytes_length, content, List.length_append]
  have behind : readRange msg.buffer (msg.readPos + header.length) body.length = body := by
    rw [bytes, split, readRange_append] at content
    exact List.append_inj_right content (readRange_length _ _ _)
  have front : readRange (writeRange msg.buffer msg.readPos (manip.facilitate msg.size)) msg.readPos
      header.length = manip.facilitate msg.size := by
    rw [← replaced]
    exact readRange_writeRange_self _ _ _
  have same : msg.facilitate.bytes =
      readRange (writeRange msg.buffer msg.readPos (manip.facilitate msg.size)) msg.readPos msg.size := by
    simp only [facilitate, attached, bytes, size]
  calc msg.facilitate.bytes
      = readRange (writeRange msg.buffer msg.readPos (manip.facilitate msg.size)) msg.readPos
          (header.length + body.length) := by rw [same, split]
    _ = manip.facilitate msg.size ++
          readRange (writeRange msg.buffer msg.readPos (manip.facilitate msg.size))
            (msg.readPos + header.length) body.length := by rw [readRange_append, front]
    _ = manip.facilitate msg.size ++ body := by
          rw [readRange_writeRange_above _ _ (by omega), behind]

end MessageBuffer

end LobbySvr.Net
