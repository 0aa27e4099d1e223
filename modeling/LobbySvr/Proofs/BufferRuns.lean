/-
Module: LobbySvr.Proofs.BufferRuns
Layer: Proofs
Purpose: Message buffers over whole sequences of calls.  The capacity check of `write` looks at the readable
  size while the bytes go behind the write cursor.  How far the two are apart is known from the calls alone,
  by what has been read since the last move to the front; so the cursors stay inside the storage exactly as
  long as no count falls into that gap or wraps around.  Under the callers' discipline none does, and the
  buffer is a queue of bytes.
Imports: LobbySvr.Spec.BufferHistory, LobbySvr.Proofs.MessageBufferQueue, LobbySvr.Foundation.Runs
Trusted boundary: none
Main exports: BufferCall.StaysInside, BufferCall.Fits, staysInside_iff, CursorsAt, cursorsAt_step,
  buffer_stays_inside_iff, withinRoom, QueueOf, queueOf_step, buffer_is_a_queue
Open obligations: none
-/
import LobbySvr.Spec.BufferHistory
import LobbySvr.Proofs.MessageBufferQueue
import LobbySvr.Foundation.Runs

namespace LobbySvr.Proofs

open LobbySvr.Foundation
open LobbySvr.Net
open LobbySvr.Spec

/-! ### The cursors -/

/-- The call has a meaning and leaves the cursors in order inside the storage. -/
def BufferCall.StaysInside (msg : MessageBuffer) (call : BufferCall) : Prop :=
  (call.run msg).fault ≠ some .undefinedBehaviour ∧ (call.run msg).msg.Valid

/-- A count that is turned away by the check of `write`, or fits behind the write cursor. -/
def countFits (msg : MessageBuffer) (count : Nat) : Prop :=
  msg.writePos + count ≤ MessageBuffer.maxBufferSize ∨
    MessageBuffer.maxBufferSize < msg.sizeAfter count

/-- The calls that keep the cursors inside: writes that are turned away or fit behind the write cursor, and
    reads whose count can be added to a pointer. -/
def BufferCall.Fits (msg : MessageBuffer) : BufferCall → Prop
  | .write src => countFits msg src.length
  | .writeCount count => countFits msg count.toNat
  | .read count => count.toNat < pointerRange
  | .readCount count => count.toNat < pointerRange
  | .readable count => count.toNat < pointerRange
  | .arrange => True
  | .readAll => True
  | .clear => True

theorem write_staysInside_iff {msg : MessageBuffer} (valid : msg.Valid) (src : List UInt8) :
    BufferCall.StaysInside msg (.write src) ↔ countFits msg src.length := by
  by_cases turnedAway : MessageBuffer.maxBufferSize < msg.sizeAfter src.length
  · have throws : msg.write src = .error (.runtimeError MessageBuffer.overrunText) := by
      rw [MessageBuffer.write, if_pos turnedAway]
    simp [BufferCall.StaysInside, BufferCall.run, throws, valid, countFits, turnedAway]
  by_cases room : msg.writePos + src.length ≤ MessageBuffer.maxBufferSize
  · obtain ⟨later, written, laterValid, -⟩ := MessageBuffer.write_ok valid room
    simp [BufferCall.StaysInside, BufferCall.run, written, laterValid, countFits, room]
  · have outside : msg.write src = .error .undefinedBehaviour := by
      rw [MessageBuffer.write, if_neg turnedAway, if_pos (Nat.lt_of_not_le room)]
    simp [BufferCall.StaysInside, BufferCall.run, outside, countFits, room, turnedAway]

theorem writeCount_staysInside_iff {msg : MessageBuffer} (valid : msg.Valid) (count : UInt64) :
    BufferCall.StaysInside msg (.writeCount count) ↔ countFits msg count.toNat := by
  by_cases turnedAway : MessageBuffer.maxBufferSize < msg.sizeAfter count.toNat
  · have throws : msg.writeCount count.toNat = .error (.runtimeError MessageBuffer.overrunText) := by
      rw [MessageBuffer.writeCount, if_pos turnedAway]
    simp [BufferCall.StaysInside, BufferCall.run, throws, valid, countFits, turnedAway]
  by_cases room : msg.writePos + count.toNat ≤ MessageBuffer.maxBufferSize
  · have moved := MessageBuffer.writeCount_ok valid room
    have laterValid : ({ msg with writePos := msg.writePos + count.toNat } : MessageBuffer).Valid :=
      ⟨Nat.le_trans valid.ordered (Nat.le_add_right _ _), room⟩
    simp [BufferCall.StaysInside, BufferCall.run, moved, laterValid, countFits, room]
  · have notFitting : ¬ countFits msg count.toNat := by
      rintro (fits | throws)
      · exact room fits
      · exact turnedAway throws
    refine iff_of_false ?_ notFitting
    rintro ⟨meaning, laterValid⟩
    by_cases huge : pointerRange ≤ count.toNat
    · have outside : msg.writeCount count.toNat = .error .undefinedBehaviour := by
        rw [MessageBuffer.writeCount, if_neg turnedAway, if_pos huge]
      simp [BufferCall.run, outside] at meaning
    · have moved : msg.writeCount count.toNat =
          .ok { msg with writePos := msg.writePos + count.toNat } := by
        rw [MessageBuffer.writeCount, if_neg turnedAway, if_neg huge]
      simp only [BufferCall.run, moved] at laterValid
      exact room laterValid.stored

/-- A read whose count can be added to a pointer returns or throws. -/
theorem readCount_outcome {msg : MessageBuffer} (valid : msg.Valid) {count : Nat}
    (small : count < pointerRange) :
    (∃ later, msg.readCount count = .ok later ∧ later.Valid) ∨
      msg.readCount count = .error (.runtimeError MessageBuffer.cantReadableText) := by
  by_cases within : count ≤ msg.bytes.length
  · obtain ⟨later, moved, laterValid, -⟩ := MessageBuffer.readCount_ok valid within
    exact Or.inl ⟨later, moved, laterValid⟩
  · exact Or.inr (MessageBuffer.readCount_short valid.ordered (Nat.lt_of_not_le within) small)

theorem readCount_huge (msg : MessageBuffer) {count : Nat} (huge : ¬ count < pointerRange) :
    msg.readCount count = .error .undefinedBehaviour := by
  rw [MessageBuffer.readCount, if_pos (Nat.le_of_not_lt huge)]

/-- In a buffer whose cursors are in order, the calls that keep them so are those that fit. -/
theorem staysInside_iff {msg : MessageBuffer} (valid : msg.Valid) (call : BufferCall) :
    BufferCall.StaysInside msg call ↔ BufferCall.Fits msg call := by
  cases call with
  | write src => exact write_staysInside_iff valid src
  | writeCount count => exact writeCount_staysInside_iff valid count
  | readCount count =>
      by_cases small : count.toNat < pointerRange
      · rcases readCount_outcome valid small with ⟨later, moved, laterValid⟩ | throws
        · simp [BufferCall.StaysInside, BufferCall.run, BufferCall.Fits, moved, laterValid, small]
        · simp [BufferCall.StaysInside, BufferCall.run, BufferCall.Fits, throws, valid, small]
      · simp [BufferCall.StaysInside, BufferCall.run, BufferCall.Fits, readCount_huge msg small, small]
  | read count =>
      by_cases small : count.toNat < pointerRange
      · rcases readCount_outcome valid small with ⟨later, moved, laterValid⟩ | throws
        · simp [BufferCall.StaysInside, BufferCall.run, BufferCall.Fits, MessageBuffer.read, moved,
            laterValid, small]
        · simp [BufferCall.StaysInside, BufferCall.run, BufferCall.Fits, MessageBuffer.read, throws,
            valid, small]
      · simp [BufferCall.StaysInside, BufferCall.run, BufferCall.Fits, MessageBuffer.read,
          readCount_huge msg small, small]
  | readable count =>
      by_cases small : count.toNat < pointerRange
      · simp [BufferCall.StaysInside, BufferCall.run, BufferCall.Fits, Nat.not_le_of_lt small, valid,
          small]
      · simp [BufferCall.StaysInside, BufferCall.run, BufferCall.Fits, Nat.le_of_not_lt small, small]
  | arrange =>
      have kept := MessageBuffer.arrange_valid valid
      simp [BufferCall.StaysInside, BufferCall.run, BufferCall.Fits, kept]
  | readAll =>
      have kept := MessageBuffer.readAll_valid msg
      simp [BufferCall.StaysInside, BufferCall.run, BufferCall.Fits, kept]
  | clear =>
      have kept : msg.clear.Valid := MessageBuffer.readAll_valid msg
      simp [BufferCall.StaysInside, BufferCall.run, BufferCall.Fits, kept]

/-! ### The cursors and the calls -/

/-- The cursors stand where the calls so far have moved them, inside the storage. -/
structure CursorsAt (msg : MessageBuffer) (backlog : Backlog) : Prop where
  readPos : msg.readPos = backlog.readSince
  writePos : msg.writePos = backlog.readSince + backlog.unread
  stored : msg.writePos ≤ MessageBuffer.maxBufferSize

section

variable {msg : MessageBuffer} {backlog : Backlog}

theorem CursorsAt.valid (cursors : CursorsAt msg backlog) : msg.Valid where
  ordered := by
    rw [cursors.readPos, cursors.writePos]
    exact Nat.le_add_right _ _
  stored := cursors.stored

theorem CursorsAt.size (cursors : CursorsAt msg backlog) : msg.size = backlog.unread := by
  rw [MessageBuffer.size, cursors.readPos, cursors.writePos, Nat.add_sub_cancel_left]

/-- A count fits, or is turned away, exactly when it overruns nothing. -/
theorem CursorsAt.countFits_iff (cursors : CursorsAt msg backlog) (count : Nat) :
    countFits msg count ↔ ¬ backlog.Overruns count := by
  have stored := cursors.stored
  have small : MessageBuffer.maxBufferSize < sizeTRange := by decide
  rw [countFits, MessageBuffer.sizeAfter, cursors.size, cursors.writePos, Backlog.Overruns]
  rw [cursors.writePos] at stored
  by_cases wraps : sizeTRange ≤ backlog.unread + count
  · omega
  · rw [Nat.mod_eq_of_lt (Nat.lt_of_not_le wraps)]
    omega

theorem CursorsAt.fits_iff (cursors : CursorsAt msg backlog) (call : BufferCall) :
    BufferCall.Fits msg call ↔ backlog.Admits call := by
  cases call with
  | write src => exact cursors.countFits_iff src.length
  | writeCount count => exact cursors.countFits_iff count.toNat
  | _ => exact Iff.rfl

/-- Compacted, the unread bytes stand at the front. -/
theorem CursorsAt.arranged (cursors : CursorsAt msg backlog) :
    CursorsAt msg.arrange { backlog with readSince := 0 } := by
  have stored := (MessageBuffer.arrange_valid cursors.valid).stored
  have size := MessageBuffer.arrange_size msg
  have front : msg.arrange.readPos = 0 := by
    unfold MessageBuffer.arrange
    split
    · rfl
    · rfl
  rw [MessageBuffer.size, front, cursors.size] at size
  refine ⟨front, ?_, stored⟩
  change msg.arrange.writePos = 0 + backlog.unread
  omega

/-- The compaction that comes before a read. -/
theorem CursorsAt.madeRoom (cursors : CursorsAt msg backlog) :
    CursorsAt msg.makeRoom
      { backlog with
        readSince :=
          if Backlog.compactionMark < backlog.readSince + backlog.unread then 0
          else backlog.readSince } := by
  have maxSize := MessageBuffer.maxBufferSize_eq
  have mark : Backlog.compactionMark = 10924 := rfl
  have stored := cursors.stored
  have room : msg.remainWriteSize < MessageBuffer.maxBufferSize / 3 * 2 ↔
      Backlog.compactionMark < backlog.readSince + backlog.unread := by
    rw [MessageBuffer.remainWriteSize, if_pos stored, ← cursors.writePos]
    omega
  unfold MessageBuffer.makeRoom
  by_cases compacts : Backlog.compactionMark < backlog.readSince + backlog.unread
  · rw [if_pos (room.mpr compacts), if_pos compacts]
    exact cursors.arranged
  · rw [if_neg fun short => compacts (room.mp short), if_neg compacts]
    exact cursors

/-- A read moves the cursors as it counts, and one that throws does neither. -/
theorem CursorsAt.read (cursors : CursorsAt msg backlog) (count : UInt64)
    (small : count.toNat < pointerRange) :
    CursorsAt ((BufferCall.readCount count).run msg).msg (backlog.taken count.toNat) := by
  by_cases short : backlog.unread < count.toNat
  · have few : msg.bytes.length < count.toNat := by
      rw [MessageBuffer.bytes_length, cursors.size]
      exact short
    have throws := MessageBuffer.readCount_short cursors.valid.ordered few small
    simp only [BufferCall.run, throws, Backlog.taken, if_pos short]
    exact cursors
  · have within : count.toNat ≤ msg.bytes.length := by
      rw [MessageBuffer.bytes_length, cursors.size]
      exact Nat.le_of_not_lt short
    have found := (MessageBuffer.readable_iff cursors.valid.ordered count.toNat).mpr within
    have moved : msg.readCount count.toNat =
        .ok { msg.makeRoom with readPos := msg.makeRoom.readPos + count.toNat } := by
      rw [MessageBuffer.readCount, if_neg (Nat.not_le_of_lt small), if_pos found]
    obtain ⟨readPos, writePos, stored⟩ := cursors.madeRoom
    simp only [BufferCall.run, moved, Backlog.taken, if_neg short]
    by_cases compacts : Backlog.compactionMark < backlog.readSince + backlog.unread
    · rw [if_pos compacts] at readPos writePos ⊢
      dsimp only at readPos writePos
      refine ⟨?_, ?_, stored⟩
      · change msg.makeRoom.readPos + count.toNat = count.toNat
        omega
      · change msg.makeRoom.writePos = count.toNat + (backlog.unread - count.toNat)
        omega
    · rw [if_neg compacts] at readPos writePos ⊢
      dsimp only at readPos writePos
      refine ⟨?_, ?_, stored⟩
      · change msg.makeRoom.readPos + count.toNat = backlog.readSince + count.toNat
        omega
      · change msg.makeRoom.writePos = backlog.readSince + count.toNat + (backlog.unread - count.toNat)
        omega

/-- A write that overruns nothing moves the cursor as it counts, and one that throws does neither. -/
theorem CursorsAt.write (cursors : CursorsAt msg backlog) {count : Nat} {after : MessageBuffer}
    (fits : countFits msg count)
    (moves : msg.writePos + count ≤ MessageBuffer.maxBufferSize →
      after.readPos = msg.readPos ∧ after.writePos = msg.writePos + count)
    (throws : MessageBuffer.maxBufferSize < msg.sizeAfter count → after = msg) :
    CursorsAt after (backlog.written count) := by
  have size := cursors.size
  by_cases room : msg.writePos + count ≤ MessageBuffer.maxBufferSize
  · obtain ⟨readPos, writePos⟩ := moves room
    have taken : backlog.unread + count ≤ MessageBuffer.maxBufferSize := by
      rw [cursors.writePos] at room
      omega
    rw [Backlog.written, if_pos taken]
    refine ⟨readPos.trans cursors.readPos, ?_, writePos ▸ room⟩
    rw [writePos, cursors.writePos]
    exact Nat.add_assoc _ _ _
  · have turnedAway := fits.resolve_left room
    have more : ¬ backlog.unread + count ≤ MessageBuffer.maxBufferSize := by
      rw [MessageBuffer.sizeAfter, size] at turnedAway
      have := Nat.mod_le (backlog.unread + count) sizeTRange
      omega
    rw [throws turnedAway, Backlog.written, if_neg more]
    exact cursors

/-- A call that overruns nothing leaves the cursors where the calls say. -/
theorem cursorsAt_step (cursors : CursorsAt msg backlog) {call : BufferCall} (admits : backlog.Admits call) :
    CursorsAt (call.run msg).msg (backlog.after call) := by
  have fits := (cursors.fits_iff call).mpr admits
  have valid := cursors.valid
  cases call with
  | write src =>
      refine cursors.write fits ?_ ?_
      · intro room
        have turnedAway : ¬ MessageBuffer.maxBufferSize < msg.sizeAfter src.length := by
          rw [MessageBuffer.sizeAfter_eq valid (by omega), cursors.size]
          rw [cursors.writePos] at room
          omega
        simp only [BufferCall.run, MessageBuffer.write, if_neg turnedAway, if_neg (Nat.not_lt_of_le room)]
        exact ⟨trivial, trivial⟩
      · intro turnedAway
        simp only [BufferCall.run, MessageBuffer.write, if_pos turnedAway]
  | writeCount count =>
      refine cursors.write fits ?_ ?_
      · intro room
        simp only [BufferCall.run, MessageBuffer.writeCount_ok valid room]
        exact ⟨trivial, trivial⟩
      · intro turnedAway
        simp only [BufferCall.run, MessageBuffer.writeCount, if_pos turnedAway]
  | readCount count => exact cursors.read count fits
  | read count =>
      have same : ((BufferCall.read count).run msg).msg = ((BufferCall.readCount count).run msg).msg := by
        simp only [BufferCall.run, MessageBuffer.read]
        cases msg.readCount count.toNat with
        | error fault => rfl
        | ok later => rfl
      rw [same]
      exact cursors.read count fits
  | readable count =>
      have same : ((BufferCall.readable count).run msg).msg = msg := by
        simp only [BufferCall.run]
        split
        · rfl
        · rfl
      rw [same]
      exact cursors
  | arrange => exact cursors.arranged
  | readAll => exact ⟨rfl, rfl, Nat.zero_le _⟩
  | clear => exact ⟨rfl, rfl, Nat.zero_le _⟩

end

/-- A sequence of calls on a fresh buffer keeps the cursors in order inside the storage exactly when no write
    has a count that overruns, in view of what the calls before it have written and read, and no read a
    count that cannot be added to a pointer. -/
theorem buffer_stays_inside_iff (storage : Nat → UInt8) (manip : Option MsgUserManip)
    (calls : List BufferCall) :
    EveryStep (fun msg call => (call.run msg).msg) BufferCall.StaysInside
        (BufferHistory.fresh storage manip).msg calls ↔
      EveryStep Backlog.after Backlog.Admits .start calls := by
  apply everyStep_related CursorsAt
  · intro msg backlog call cursors
    exact (staysInside_iff cursors.valid call).trans (cursors.fits_iff call)
  · intro msg backlog call cursors admits
    exact cursorsAt_step cursors admits
  · exact ⟨rfl, rfl, Nat.zero_le _⟩

/-- A full buffer from which ten thousand bytes are read takes five thousand more, behind its storage: the
    compaction in `read` comes before the cursor moves, and `write` looks at the readable size only. -/
theorem full_buffer_overruns :
    ¬ EveryStep (fun msg call => (call.run msg).msg) BufferCall.StaysInside
      (BufferHistory.fresh (fun _ => 0) none).msg
      [.writeCount 32768, .readCount 10000, .writeCount 5000] := by
  rintro ⟨-, -, ⟨-, valid⟩, -⟩
  exact absurd valid.stored (by decide)

/-- Behind the first two of these calls, ten thousand bytes have been read since the last move, and the count
    of the third is one of ten thousand that overrun. -/
example : [BufferCall.writeCount 32768, .readCount 10000].foldl Backlog.after .start = ⟨22768, 10000⟩ ∧
    Backlog.Overruns ⟨22768, 10000⟩ 5000 := by decide

/-! ### The queue -/

/-- The callers' discipline: a write of at most `remainWriteSize()` bytes, a socket read into that room, and
    counts of reads and peeks below 2^32. -/
def withinRoom (history : BufferHistory) : BufferEvent → Bool
  | .store bytes => decide (bytes.length ≤ history.msg.remainWriteSize)
  | .call (.write src) => decide (src.length ≤ history.msg.remainWriteSize)
  | .call (.writeCount count) => decide (count.toNat ≤ history.msg.remainWriteSize)
  | .call (.read count) => decide (count.toNat < 2 ^ 32)
  | .call (.readCount count) => decide (count.toNat < 2 ^ 32)
  | .call (.readable count) => decide (count.toNat < 2 ^ 32)
  | .call .arrange => true
  | .call .readAll => true
  | .call .clear => true

/-- The readable bytes are those written and not yet consumed. -/
structure QueueOf (history : BufferHistory) : Prop where
  valid : history.msg.Valid
  consumed : history.consumed ≤ history.written.length
  bytes : history.msg.bytes = history.written.drop history.consumed

theorem QueueOf.appended {history : BufferHistory} (queue : QueueOf history) (more : List UInt8)
    {later : MessageBuffer} (valid : later.Valid) (bytes : later.bytes = history.msg.bytes ++ more) :
    QueueOf ⟨later, history.written ++ more, history.consumed⟩ := by
  refine ⟨valid, ?_, ?_⟩
  · exact Nat.le_trans queue.consumed (by simp)
  · change later.bytes = (history.written ++ more).drop history.consumed
    rw [bytes, queue.bytes, List.drop_append_of_le_length queue.consumed]

theorem QueueOf.taken {history : BufferHistory} (queue : QueueOf history) {count : Nat}
    (within : count ≤ history.msg.bytes.length) {later : MessageBuffer} (valid : later.Valid)
    (bytes : later.bytes = history.msg.bytes.drop count) :
    QueueOf ⟨later, history.written, history.consumed + count⟩ := by
  have consumed := queue.consumed
  rw [queue.bytes, List.length_drop] at within
  refine ⟨valid, ?_, ?_⟩
  · change history.consumed + count ≤ history.written.length
    omega
  · change later.bytes = history.written.drop (history.consumed + count)
    rw [bytes, queue.bytes, List.drop_drop]

/-- What is stored behind the write cursor is not yet readable. -/
theorem stored_bytes {msg : MessageBuffer} (valid : msg.Valid) (bytes : List UInt8) :
    ({ msg with buffer := writeRange msg.buffer msg.writePos bytes } : MessageBuffer).bytes =
      msg.bytes := by
  have ordered := valid.ordered
  apply readRange_writeRange_below
  simp only [MessageBuffer.size]
  omega

/-- A write of the bytes that lie behind the write cursor makes them readable. -/
theorem announced_bytes {msg : MessageBuffer} (valid : msg.Valid) (count : Nat) :
    ({ msg with writePos := msg.writePos + count } : MessageBuffer).bytes =
      msg.bytes ++ readRange msg.buffer msg.writePos count := by
  have ordered := valid.ordered
  have atEnd : msg.readPos + msg.size = msg.writePos := by
    simp only [MessageBuffer.size]
    omega
  have grown : msg.writePos + count - msg.readPos = msg.size + count := by
    simp only [MessageBuffer.size]
    omega
  change readRange msg.buffer msg.readPos (msg.writePos + count - msg.readPos) = _
  rw [grown, readRange_append, atEnd]
  rfl

theorem room_behind {msg : MessageBuffer} (valid : msg.Valid) {count : Nat}
    (room : count ≤ msg.remainWriteSize) : msg.writePos + count ≤ MessageBuffer.maxBufferSize := by
  have stored := valid.stored
  rw [MessageBuffer.remainWriteSize, if_pos stored] at room
  omega

theorem pointerRange_large : 2 ^ 32 < pointerRange := by decide

/-- The discipline allows only calls that fit. -/
theorem fits_of_withinRoom {history : BufferHistory} (valid : history.msg.Valid) {call : BufferCall}
    (allowed : withinRoom history (.call call) = true) : BufferCall.Fits history.msg call := by
  have large := pointerRange_large
  cases call with
  | write src => exact Or.inl (room_behind valid (of_decide_eq_true allowed))
  | writeCount count => exact Or.inl (room_behind valid (of_decide_eq_true allowed))
  | read count => exact Nat.lt_trans (of_decide_eq_true allowed) large
  | readCount count => exact Nat.lt_trans (of_decide_eq_true allowed) large
  | readable count => exact Nat.lt_trans (of_decide_eq_true allowed) large
  | arrange => trivial
  | readAll => trivial
  | clear => trivial

/-- Every check stands in front of the first assignment. -/
theorem throws_unchanged {msg : MessageBuffer} {call : BufferCall} {fault : Fault}
    (ended : (call.run msg).fault = some fault) : (call.run msg).msg = msg := by
  cases call with
  | write src =>
      cases written : msg.write src with
      | ok later => simp [BufferCall.run, written] at ended
      | error raised => simp [BufferCall.run, written]
  | writeCount count =>
      cases moved : msg.writeCount count.toNat with
      | ok later => simp [BufferCall.run, moved] at ended
      | error raised => simp [BufferCall.run, moved]
  | read count =>
      cases taken : msg.read count.toNat with
      | ok later => simp [BufferCall.run, taken] at ended
      | error raised => simp [BufferCall.run, taken]
  | readCount count =>
      cases taken : msg.readCount count.toNat with
      | ok later => simp [BufferCall.run, taken] at ended
      | error raised => simp [BufferCall.run, taken]
  | readable count =>
      by_cases huge : pointerRange ≤ count.toNat
      · simp [BufferCall.run, huge]
      · simp [BufferCall.run, huge]
  | arrange => simp [BufferCall.run] at ended
  | readAll => simp [BufferCall.run] at ended
  | clear => simp [BufferCall.run] at ended

/-- A call that returned has done to the queue what the history records. -/
theorem queueOf_returned {history : BufferHistory} (queue : QueueOf history) {call : BufferCall}
    (allowed : withinRoom history (.call call) = true) (returned : (call.run history.msg).fault = none) :
    QueueOf ⟨(call.run history.msg).msg, (history.record call).1, (history.record call).2⟩ := by
  have valid := queue.valid
  cases call with
  | write src =>
      obtain ⟨later, written, laterValid, laterBytes⟩ :=
        MessageBuffer.write_ok valid (room_behind valid (of_decide_eq_true allowed))
      simp only [BufferCall.run, written]
      exact queue.appended src laterValid laterBytes
  | writeCount count =>
      have room := room_behind valid (of_decide_eq_true allowed)
      have moved := MessageBuffer.writeCount_ok valid room
      simp only [BufferCall.run, moved]
      exact queue.appended _ ⟨Nat.le_trans valid.ordered (Nat.le_add_right _ _), room⟩
        (announced_bytes valid count.toNat)
  | read count =>
      by_cases within : count.toNat ≤ history.msg.bytes.length
      · obtain ⟨later, taken, laterValid, laterBytes⟩ := MessageBuffer.read_ok valid within
        simp only [BufferCall.run, taken]
        exact queue.taken within laterValid laterBytes
      · have small := Nat.lt_trans (of_decide_eq_true allowed) pointerRange_large
        have throws := MessageBuffer.read_short valid.ordered (Nat.lt_of_not_le within) small
        simp [BufferCall.run, throws] at returned
  | readCount count =>
      by_cases within : count.toNat ≤ history.msg.bytes.length
      · obtain ⟨later, taken, laterValid, laterBytes⟩ := MessageBuffer.readCount_ok valid within
        simp only [BufferCall.run, taken]
        exact queue.taken within laterValid laterBytes
      · have small := Nat.lt_trans (of_decide_eq_true allowed) pointerRange_large
        have throws := MessageBuffer.readCount_short valid.ordered (Nat.lt_of_not_le within) small
        simp [BufferCall.run, throws] at returned
  | readable count =>
      by_cases huge : pointerRange ≤ count.toNat
      · simp [BufferCall.run, huge] at returned
      · simp only [BufferCall.run, if_neg huge]
        exact queue
  | arrange =>
      exact ⟨MessageBuffer.arrange_valid valid, queue.consumed,
        (MessageBuffer.arrange_bytes history.msg).trans queue.bytes⟩
  | readAll => exact ⟨MessageBuffer.readAll_valid _, Nat.le_refl _, MessageBuffer.readAll_bytes _⟩
  | clear => exact ⟨MessageBuffer.readAll_valid _, Nat.le_refl _, MessageBuffer.readAll_bytes _⟩

theorem queueOf_step {history later : BufferHistory} {event : BufferEvent} (queue : QueueOf history)
    (allowed : withinRoom history event = true) (taken : history.step event = some later) :
    QueueOf later := by
  cases event with
  | store bytes =>
      cases taken
      exact ⟨⟨queue.valid.ordered, queue.valid.stored⟩, queue.consumed,
        (stored_bytes queue.valid bytes).trans queue.bytes⟩
  | call call =>
      simp only [BufferHistory.step] at taken
      split at taken
      · rename_i returned
        cases taken
        exact queueOf_returned queue allowed returned
      · rename_i threw
        cases taken
        rw [throws_unchanged threw]
        exact queue
      · cases taken

/-- What the callers rely on in a buffer with its history. -/
structure QueueContract (history : BufferHistory) : Prop where
  /-- The readable bytes are those written since the buffer was last emptied, without the consumed ones. -/
  content : history.msg.bytes = history.written.drop history.consumed
  /-- `read` yields the oldest bytes and removes them, or throws when there are too few. -/
  reads : ∀ count : UInt64, count.toNat < 2 ^ 32 →
    if count.toNat ≤ history.msg.bytes.length then
      ((BufferCall.read count).run history.msg).fault = none ∧
      ((BufferCall.read count).run history.msg).copied = some (history.msg.bytes.take count.toNat) ∧
      ((BufferCall.read count).run history.msg).msg.bytes = history.msg.bytes.drop count.toNat
    else ((BufferCall.read count).run history.msg).fault =
      some (.runtimeError "buffer can't readable in MessageBuffer")
  /-- `readable` peeks at the same bytes. -/
  peeks : ∀ count : UInt64, count.toNat < 2 ^ 32 →
    ((BufferCall.readable count).run history.msg).msg = history.msg ∧
    ((BufferCall.readable count).run history.msg).copied =
      if count.toNat ≤ history.msg.bytes.length then some (history.msg.bytes.take count.toNat) else none
  /-- `write(char*, size_t)` of at most `remainWriteSize()` bytes returns and appends them. -/
  writes : ∀ src : List UInt8, src.length ≤ history.msg.remainWriteSize →
    ((BufferCall.write src).run history.msg).fault = none ∧
    ((BufferCall.write src).run history.msg).msg.bytes = history.msg.bytes ++ src
  /-- `write(size_t)` of at most `remainWriteSize()` bytes returns and appends what stands at
      `enableBuffer()`. -/
  announces : ∀ count : UInt64, count.toNat ≤ history.msg.remainWriteSize →
    ((BufferCall.writeCount count).run history.msg).fault = none ∧
    ((BufferCall.writeCount count).run history.msg).msg.bytes =
      history.msg.bytes ++ readRange history.msg.buffer history.msg.writePos count.toNat
  arranges : (BufferCall.arrange.run history.msg).msg.bytes = history.msg.bytes
  /-- No call of the discipline leaves the storage. -/
  inside : ∀ call, withinRoom history (.call call) = true → BufferCall.StaysInside history.msg call
  throws : ∀ call fault, (BufferCall.run history.msg call).fault = some fault →
    (BufferCall.run history.msg call).msg = history.msg

theorem QueueOf.contract {history : BufferHistory} (queue : QueueOf history) :
    QueueContract history := by
  have valid := queue.valid
  have large := pointerRange_large
  refine ⟨queue.bytes, ?_, ?_, ?_, ?_, MessageBuffer.arrange_bytes _, ?_, fun _ _ => throws_unchanged⟩
  · intro count small
    by_cases within : count.toNat ≤ history.msg.bytes.length
    · obtain ⟨later, taken, -, laterBytes⟩ := MessageBuffer.read_ok valid within
      rw [if_pos within]
      simp only [BufferCall.run, taken, true_and]
      exact laterBytes
    · have threw := MessageBuffer.read_short valid.ordered (Nat.lt_of_not_le within) (Nat.lt_trans small large)
      rw [if_neg within]
      simp only [BufferCall.run, threw]
      rfl
  · intro count small
    have notHuge : ¬ pointerRange ≤ count.toNat := Nat.not_le_of_lt (Nat.lt_trans small large)
    simp only [BufferCall.run, if_neg notHuge]
    exact ⟨trivial, MessageBuffer.readableInto_eq valid.ordered count.toNat⟩
  · intro src room
    obtain ⟨later, written, -, laterBytes⟩ := MessageBuffer.write_ok valid (room_behind valid room)
    simp only [BufferCall.run, written, true_and]
    exact laterBytes
  · intro count room
    simp only [BufferCall.run, MessageBuffer.writeCount_ok valid (room_behind valid room), true_and]
    exact announced_bytes valid count.toNat
  · intro call allowed
    exact (staysInside_iff valid call).mpr (fits_of_withinRoom valid allowed)

/-- A message buffer is a queue of bytes in every run of calls that keep to the discipline. -/
theorem buffer_is_a_queue (storage : Nat → UInt8) (manip : Option MsgUserManip)
    {history : BufferHistory}
    (reached : Reaches BufferHistory.step withinRoom (BufferHistory.fresh storage manip) history) :
    QueueContract history := by
  have queue : QueueOf history := by
    apply Reaches.invariant (motive := QueueOf) _ _ reached
    · exact ⟨⟨Nat.le_refl _, Nat.zero_le _⟩, Nat.le_refl _, rfl⟩
    · intro state later label _ invariant allowed taken
      exact queueOf_step invariant allowed taken
  exact queue.contract

/-- A socket read of three bytes, of which two are taken; one is left. -/
theorem buffer_is_a_queue_three_bytes :
    ∃ history, Reaches BufferHistory.step withinRoom (BufferHistory.fresh (fun _ => 0) none) history ∧
      history.written = [7, 8, 9] ∧ history.consumed = 2 ∧ history.msg.bytes = [9] := by
  obtain ⟨history, reached, facts⟩ := exists_reaches
    (fun history : BufferHistory => (history.written, history.consumed))
    (show (runGuarded BufferHistory.step withinRoom (BufferHistory.fresh (fun _ => 0) none)
      [.store [7, 8, 9], .call (.writeCount 3), .call (.read 2)]).map
        (fun history => (history.written, history.consumed)) = some ([7, 8, 9], 2) by decide)
  obtain ⟨written, consumed⟩ := Prod.mk.inj facts
  refine ⟨history, reached, written, consumed, ?_⟩
  rw [(buffer_is_a_queue _ _ reached).content, written, consumed]
  rfl

end LobbySvr.Proofs
