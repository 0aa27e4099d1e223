/-
Module: LobbySvr.Proofs.BufferCopies
Layer: Proofs
Purpose: What a copied message buffer presents.  Reading depends on the readable bytes alone, so a copy with
  the same bytes gives the same answers; the copy constructor takes its bytes from the front of the
  storage, which are the readable ones when the cursor is there or when they repeat what stands before them.
Imports: LobbySvr.Proofs.BufferRuns
Trusted boundary: none
Main exports: Answer, answers, queueAnswers, answers_eq, Readable, readable_reached, PresentsSame
Open obligations: none
-/
import LobbySvr.Proofs.BufferRuns

namespace LobbySvr.Proofs

open LobbySvr.Foundation
open LobbySvr.Net
open LobbySvr.Spec

/-! ### Reading -/

/-- What a caller gets from a call: the bytes copied out, the fault, and the bytes presented afterwards. -/
structure Answer where
  copied : Option (List UInt8)
  fault : Option Fault
  presented : List UInt8
deriving DecidableEq, Repr

/-- The calls that write nothing. -/
def readsOnly : BufferCall → Bool
  | .write _ => false
  | .writeCount _ => false
  | .read _ => true
  | .readCount _ => true
  | .readable _ => true
  | .arrange => true
  | .readAll => true
  | .clear => true

/-- The answers to calls one after the other. -/
def answers (msg : MessageBuffer) : List BufferCall → List Answer
  | [] => []
  | call :: calls =>
      ⟨(call.run msg).copied, (call.run msg).fault, (call.run msg).msg.bytes⟩ ::
        answers (call.run msg).msg calls

/-- What a queue of bytes answers to a read; `out` is what the overload copies out. -/
def queueRead (queue : List UInt8) (count : Nat) (out : Option (List UInt8)) : Answer :=
  if pointerRange ≤ count then ⟨none, some .undefinedBehaviour, queue⟩
  else if count ≤ queue.length then ⟨out, none, queue.drop count⟩
  else ⟨none, some (.runtimeError MessageBuffer.cantReadableText), queue⟩

/-- What a queue of bytes answers to a call that writes nothing. -/
def queueAnswer (queue : List UInt8) : BufferCall → Answer
  | .write _ => ⟨none, none, queue⟩
  | .writeCount _ => ⟨none, none, queue⟩
  | .read count => queueRead queue count.toNat (some (queue.take count.toNat))
  | .readCount count => queueRead queue count.toNat none
  | .readable count =>
      if pointerRange ≤ count.toNat then ⟨none, some .undefinedBehaviour, queue⟩
      else
        ⟨if count.toNat ≤ queue.length then some (queue.take count.toNat) else none, none, queue⟩
  | .arrange => ⟨none, none, queue⟩
  | .readAll => ⟨none, none, []⟩
  | .clear => ⟨none, none, []⟩

def queueAnswers (queue : List UInt8) : List BufferCall → List Answer
  | [] => []
  | call :: calls => queueAnswer queue call :: queueAnswers (queueAnswer queue call).presented calls

/-- A call that writes nothing is answered as by the queue of the readable bytes, and keeps the cursors in
    order. -/
theorem run_answer {msg : MessageBuffer} (ordered : msg.readPos ≤ msg.writePos) {call : BufferCall}
    (reads : readsOnly call = true) :
    (⟨(call.run msg).copied, (call.run msg).fault, (call.run msg).msg.bytes⟩ : Answer) =
        queueAnswer msg.bytes call ∧
      (call.run msg).msg.readPos ≤ (call.run msg).msg.writePos := by
  cases call with
  | write src => cases reads
  | writeCount count => cases reads
  | read count =>
      by_cases small : count.toNat < pointerRange
      · by_cases within : count.toNat ≤ msg.bytes.length
        · obtain ⟨later, moved, laterOrdered, -, laterBytes⟩ :=
            MessageBuffer.readCount_taken ordered within small
          have taken := MessageBuffer.read_taken within moved
          simp only [BufferCall.run, taken, queueAnswer, queueRead, if_neg (Nat.not_le_of_lt small),
            if_pos within, laterBytes]
          exact ⟨trivial, laterOrdered⟩
        · have throws := MessageBuffer.read_short ordered (Nat.lt_of_not_le within) small
          simp only [BufferCall.run, throws, queueAnswer, queueRead, if_neg (Nat.not_le_of_lt small),
            if_neg within]
          exact ⟨trivial, ordered⟩
      · have outside := readCount_huge msg small
        simp only [BufferCall.run, MessageBuffer.read, outside, queueAnswer, queueRead,
          if_pos (Nat.le_of_not_lt small)]
        exact ⟨trivial, ordered⟩
  | readCount count =>
      by_cases small : count.toNat < pointerRange
      · by_cases within : count.toNat ≤ msg.bytes.length
        · obtain ⟨later, moved, laterOrdered, -, laterBytes⟩ :=
            MessageBuffer.readCount_taken ordered within small
          simp only [BufferCall.run, moved, queueAnswer, queueRead, if_neg (Nat.not_le_of_lt small),
            if_pos within, laterBytes]
          exact ⟨trivial, laterOrdered⟩
        · have throws := MessageBuffer.readCount_short ordered (Nat.lt_of_not_le within) small
          simp only [BufferCall.run, throws, queueAnswer, queueRead, if_neg (Nat.not_le_of_lt small),
            if_neg within]
          exact ⟨trivial, ordered⟩
      · have outside := readCount_huge msg small
        simp only [BufferCall.run, outside, queueAnswer, queueRead, if_pos (Nat.le_of_not_lt small)]
        exact ⟨trivial, ordered⟩
  | readable count =>
      by_cases huge : pointerRange ≤ count.toNat
      · simp only [BufferCall.run, queueAnswer, if_pos huge]
        exact ⟨trivial, ordered⟩
      · simp only [BufferCall.run, queueAnswer, if_neg huge,
          MessageBuffer.readableInto_eq ordered count.toNat]
        exact ⟨trivial, ordered⟩
  | arrange =>
      refine ⟨?_, (MessageBuffer.arrange_ordered msg).1⟩
      simp only [BufferCall.run, queueAnswer, MessageBuffer.arrange_bytes]
  | readAll =>
      refine ⟨?_, Nat.le_refl _⟩
      simp only [BufferCall.run, queueAnswer, MessageBuffer.readAll_bytes]
  | clear =>
      refine ⟨?_, Nat.le_refl _⟩
      have emptied : msg.clear.bytes = [] := MessageBuffer.readAll_bytes msg
      simp only [BufferCall.run, queueAnswer, emptied]

/-- Reading shows the readable bytes and nothing else of a buffer. -/
theorem answers_eq {msg : MessageBuffer} (ordered : msg.readPos ≤ msg.writePos) {calls : List BufferCall}
    (reads : ∀ call ∈ calls, readsOnly call = true) :
    answers msg calls = queueAnswers msg.bytes calls := by
  induction calls generalizing msg with
  | nil => rfl
  | cons call calls inductionHypothesis =>
      obtain ⟨readsFirst, readsOthers⟩ := List.forall_mem_cons.mp reads
      obtain ⟨answer, laterOrdered⟩ := run_answer ordered readsFirst
      rw [answers, queueAnswers, inductionHypothesis laterOrdered readsOthers, ← answer]

/-! ### The buffers reached -/

/-- The cursors are in order and not more is readable than fits into a buffer. -/
structure Readable (msg : MessageBuffer) : Prop where
  ordered : msg.readPos ≤ msg.writePos
  small : msg.size ≤ MessageBuffer.maxBufferSize

theorem readable_write {msg later : MessageBuffer} (readable : Readable msg) {src : List UInt8}
    (written : msg.write src = .ok later) : Readable later := by
  have ordered := readable.ordered
  unfold MessageBuffer.write at written
  split at written
  · cases written
  · split at written
    · cases written
    · rename_i inside
      cases written
      refine ⟨?_, ?_⟩
      · exact Nat.le_trans ordered (Nat.le_add_right _ _)
      · change msg.writePos + src.length - msg.readPos ≤ MessageBuffer.maxBufferSize
        omega

/-- The sum in the check of `write` does not wrap, so the check bounds the size. -/
theorem readable_writeCount {msg later : MessageBuffer} (readable : Readable msg) {count : Nat}
    (moved : msg.writeCount count = .ok later) : Readable later := by
  obtain ⟨ordered, small⟩ := readable
  unfold MessageBuffer.writeCount at moved
  split at moved
  · cases moved
  · rename_i checked
    split at moved
    · cases moved
    · rename_i below
      have exact : msg.sizeAfter count = msg.size + count := by
        have := MessageBuffer.maxBufferSize_eq
        rw [MessageBuffer.sizeAfter, Nat.mod_eq_of_lt]
        rw [sizeTRange]
        rw [pointerRange] at below
        omega
      cases moved
      refine ⟨?_, ?_⟩
      · exact Nat.le_trans ordered (Nat.le_add_right _ _)
      · rw [exact, MessageBuffer.size] at checked
        change msg.writePos + count - msg.readPos ≤ MessageBuffer.maxBufferSize
        omega

theorem readable_returned {msg : MessageBuffer} (readable : Readable msg) {call : BufferCall}
    (returned : (call.run msg).fault = none) : Readable (call.run msg).msg := by
  have ordered := readable.ordered
  cases call with
  | write src =>
      cases written : msg.write src with
      | error fault => simp [BufferCall.run, written] at returned
      | ok later =>
          simp only [BufferCall.run, written]
          exact readable_write readable written
  | writeCount count =>
      cases moved : msg.writeCount count.toNat with
      | error fault => simp [BufferCall.run, moved] at returned
      | ok later =>
          simp only [BufferCall.run, moved]
          exact readable_writeCount readable moved
  | read count =>
      refine ⟨(run_answer ordered rfl).2, ?_⟩
      cases taken : msg.read count.toNat with
      | error fault => simp [BufferCall.run, taken] at returned
      | ok result =>
          have shorter := MessageBuffer.read_size taken
          have small := readable.small
          simp only [BufferCall.run, taken]
          omega
  | readCount count =>
      refine ⟨(run_answer ordered rfl).2, ?_⟩
      cases taken : msg.readCount count.toNat with
      | error fault => simp [BufferCall.run, taken] at returned
      | ok later =>
          have shorter := MessageBuffer.readCount_size taken
          have small := readable.small
          simp only [BufferCall.run, taken]
          omega
  | readable count =>
      by_cases huge : pointerRange ≤ count.toNat
      · simp only [BufferCall.run, if_pos huge]
        exact readable
      · simp only [BufferCall.run, if_neg huge]
        exact readable
  | arrange =>
      refine ⟨(run_answer ordered rfl).2, ?_⟩
      simp only [BufferCall.run, MessageBuffer.arrange_size]
      exact readable.small
  | readAll => exact ⟨Nat.le_refl _, Nat.zero_le _⟩
  | clear => exact ⟨Nat.le_refl _, Nat.zero_le _⟩

/-- Whatever calls are made, also those that leave the storage. -/
theorem readable_reached {storage : Nat → UInt8} {manip : Option MsgUserManip} {history : BufferHistory}
    (reached : Reaches BufferHistory.step (fun _ _ => true) (.fresh storage manip) history) :
    Readable history.msg := by
  apply reached.invariant (motive := fun history => Readable history.msg)
  · exact ⟨Nat.le_refl _, Nat.zero_le _⟩
  · intro history later event _ readable _ taken
    cases event with
    | store bytes =>
        cases taken
        exact ⟨readable.ordered, readable.small⟩
    | call call =>
        cases ended : (call.run history.msg).fault with
        | none =>
            simp only [BufferHistory.step, ended, Option.some.injEq] at taken
            subst taken
            exact readable_returned readable ended
        | some fault =>
            cases fault with
            | undefinedBehaviour => simp [BufferHistory.step, ended] at taken
            | runtimeError what =>
                simp only [BufferHistory.step, ended, Option.some.injEq] at taken
                subst taken
                rw [throws_unchanged ended]
                exact readable

/-! ### Copies -/

/-- The copy is made, has the same readable bytes, and gives the same answers to everything that writes
    nothing. -/
def PresentsSame (msg : MessageBuffer) : Prop :=
  ∃ copy, msg.copy = .ok copy ∧ copy.bytes = msg.bytes ∧
    ∀ calls, (∀ call ∈ calls, readsOnly call = true) → answers copy calls = answers msg calls

/-- The copy has the bytes from the front of the storage. -/
theorem copy_ok {msg : MessageBuffer} (small : msg.size ≤ MessageBuffer.maxBufferSize) :
    ∃ copy, msg.copy = .ok copy ∧ copy.Valid ∧ copy.bytes = readRange msg.buffer 0 msg.size := by
  have fresh : MessageBuffer.empty.clear.Valid := MessageBuffer.readAll_valid .empty
  have room : MessageBuffer.empty.clear.writePos + (readRange msg.buffer 0 msg.size).length ≤
      MessageBuffer.maxBufferSize := by
    rw [readRange_length]
    exact (Nat.zero_add msg.size).symm ▸ small
  obtain ⟨copy, written, valid, bytes⟩ := MessageBuffer.write_ok fresh room
  refine ⟨copy, written, valid, ?_⟩
  have nothing : MessageBuffer.empty.clear.bytes = [] := MessageBuffer.readAll_bytes .empty
  rw [bytes, nothing, List.nil_append]

/-- The front of the storage is what stands before the cursor and then what is readable. -/
theorem front_eq_bytes_iff (msg : MessageBuffer) :
    readRange msg.buffer 0 msg.size = msg.bytes ↔
      msg.bytes <+: readRange msg.buffer 0 msg.readPos ++ msg.bytes := by
  have whole := readRange_append msg.buffer 0 msg.readPos msg.size
  rw [Nat.zero_add] at whole
  rw [List.prefix_iff_eq_take, MessageBuffer.bytes_length, MessageBuffer.bytes, ← whole,
    readRange_take msg.buffer (Nat.le_add_left msg.size msg.readPos)]
  exact eq_comm

/-- In every buffer that any calls lead to, a copy presents what the original does exactly when the bytes in
    front of the read cursor, followed by the readable ones, begin with the readable ones. -/
theorem copy_presents_same_iff {storage : Nat → UInt8} {manip : Option MsgUserManip}
    {history : BufferHistory}
    (reached : Reaches BufferHistory.step (fun _ _ => true) (.fresh storage manip) history) :
    PresentsSame history.msg ↔
      history.msg.bytes <+: readRange history.msg.buffer 0 history.msg.readPos ++ history.msg.bytes := by
  have readable := readable_reached reached
  obtain ⟨copy, copied, valid, front⟩ := copy_ok readable.small
  rw [← front_eq_bytes_iff, ← front]
  constructor
  · rintro ⟨other, same, bytes, -⟩
    rw [copied] at same
    cases same
    exact bytes
  · intro bytes
    refine ⟨copy, copied, bytes, ?_⟩
    intro calls reads
    rw [answers_eq valid.ordered reads, answers_eq readable.ordered reads, bytes]

/-- Two bytes, one of them read.  What is left repeats what was read, so the copy is right. -/
theorem copy_presents_same_repeated :
    ∃ history, Reaches BufferHistory.step (fun _ _ => true) (.fresh (fun _ => 0) none) history ∧
      history.msg.bytes = [7] ∧ PresentsSame history.msg := by
  have ran : (runGuarded BufferHistory.step (fun _ _ => true) (.fresh (fun _ => 0) none)
      [.call (.write [7, 7]), .call (.read 1)]).map
        (fun history => (history.msg.bytes, readRange history.msg.buffer 0 history.msg.readPos)) =
      some ([7], [7]) := by
    decide
  obtain ⟨history, reached, same⟩ := exists_reaches _ ran
  obtain ⟨bytes, front⟩ := Prod.mk.inj same
  refine ⟨history, reached, bytes, (copy_presents_same_iff reached).mpr ?_⟩
  rw [bytes, front]
  decide

/-- Three bytes, one of them read.  The copy presents the one that was read and not the last one. -/
theorem copy_presents_consumed :
    ∃ history, Reaches BufferHistory.step (fun _ _ => true) (.fresh (fun _ => 0) none) history ∧
      history.msg.bytes = [2, 3] ∧ history.msg.copy.toOption.map MessageBuffer.bytes = some [1, 2] ∧
      ¬ PresentsSame history.msg := by
  have ran : (runGuarded BufferHistory.step (fun _ _ => true) (.fresh (fun _ => 0) none)
      [.call (.write [1, 2, 3]), .call (.read 1)]).map
        (fun history => (history.msg.bytes, history.msg.copy.toOption.map MessageBuffer.bytes)) =
      some ([2, 3], some [1, 2]) := by
    decide
  obtain ⟨history, reached, same⟩ := exists_reaches _ ran
  obtain ⟨bytes, copyBytes⟩ := Prod.mk.inj same
  refine ⟨history, reached, bytes, copyBytes, ?_⟩
  rintro ⟨copy, copied, presented, -⟩
  rw [copied] at copyBytes
  have other : copy.bytes = [1, 2] := Option.some.inj copyBytes
  rw [presented, bytes] at other
  exact absurd other (by decide)

end LobbySvr.Proofs
