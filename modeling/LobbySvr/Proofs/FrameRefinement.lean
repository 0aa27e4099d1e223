/-
Module: LobbySvr.Proofs.FrameRefinement
Layer: Proofs
Purpose: Every parser of the family runs the abstract frame machine on the readable bytes of its receive
  buffer.  The relation between the two ignores `header`, and ignores `total_size` between packets: both
  are written before they are read, so the stale values the source keeps there have no effect.
Imports: LobbySvr.Spec.FrameMachine, LobbySvr.Proofs.MessageBufferQueue
Trusted boundary: none
Main exports: behaviourOf, StateRelates, ResultRelates, frameStep_refines, parse_refines
Open obligations: none
-/
import LobbySvr.Spec.FrameMachine
import LobbySvr.Proofs.MessageBufferQueue

namespace LobbySvr.Proofs

open LobbySvr.Foundation
open LobbySvr.Net
open LobbySvr.Spec

variable {κ : Type}

/-- What a handler does with the message the parser makes from a body. -/
def behaviourOf (handlers : Handlers κ) : Behaviour κ := fun kind size body =>
  handlers kind size (MessageBuffer.received body)

/-- The parse loop is in the machine's state. -/
structure StateRelates (state : ParseState κ) (machine : FrameState κ) : Prop where
  valid : state.msg.Valid
  bytes : state.msg.bytes = machine.rest
  calls : state.calls = machine.calls
  mode : machine.inside = if state.readStartFromMainKey then none else some state.totalSize

/-- The parser has ended as the machine did. -/
structure ResultRelates (result : ParseResult κ) (machine : FrameResult κ) : Prop where
  ending : result.ending = machine.ending
  valid : result.msg.Valid
  bytes : result.msg.bytes = machine.rest
  calls : result.calls = machine.calls

theorem packetCode_eq {procMsg : MessageBuffer} (valid : procMsg.Valid) (codeSize : Nat) :
    packetCode codeSize procMsg = codeOf codeSize procMsg.bytes := by
  unfold packetCode codeOf
  rw [MessageBuffer.readableInto_eq valid.ordered]
  by_cases enough : codeSize ≤ procMsg.bytes.length
  · rw [if_pos enough, if_pos enough]
  · rw [if_neg enough, if_neg enough]

private theorem callHandler_refines {parser : FrameParser κ} {handlers : Handlers κ}
    {state : ParseState κ} {body : List UInt8} (size : UInt32) (valid : state.msg.Valid)
    (procValid : (MessageBuffer.received body).Valid)
    (mode : state.readStartFromMainKey = (state.totalSize == 4)) :
    StepsAgree StateRelates ResultRelates
      (callHandler parser handlers state size (MessageBuffer.received body))
      (handOn parser (behaviourOf handlers) state.totalSize size body state.msg.bytes state.calls) := by
  unfold callHandler handOn behaviourOf
  rw [packetCode_eq procValid, MessageBuffer.received_bytes]
  cases parser.route (codeOf parser.codeSize body) with
  | none =>
      exact .done ⟨rfl, state.msg.readAll_valid, by simp, rfl⟩
  | some kind =>
      cases handled : handlers kind size (MessageBuffer.received body) with
      | some fault =>
          simp only [handled]
          exact .done ⟨rfl, valid, rfl, rfl⟩
      | none =>
          simp only [handled]
          refine .next ⟨valid, rfl, rfl, ?_⟩
          simp only [mode, beq_iff_eq]

private theorem takePart_refines {parser : FrameParser κ} {handlers : Handlers κ}
    {state : ParseState κ} (valid : state.msg.Valid) :
    StepsAgree StateRelates ResultRelates (takePart parser handlers state)
      (partStep parser (behaviourOf handlers) state.totalSize state.msg.bytes state.calls) := by
  unfold takePart partStep
  by_cases short : state.msg.bytes.length < sizeKey
  · rw [if_pos short, MessageBuffer.read_short valid.ordered short (by decide)]
    exact .done ⟨rfl, valid, rfl, rfl⟩
  · rw [if_neg short]
    obtain ⟨msg, keyRead, msgValid, msgBytes⟩ :=
      MessageBuffer.read_ok valid (Nat.le_of_not_lt short)
    simp only [keyRead, ← msgBytes]
    by_cases keyOk : parser.keys.partKeyOk (u32Of (state.msg.bytes.take sizeKey)) = true
    · rw [if_pos keyOk, if_pos keyOk]
      generalize parser.keys.partLength (u32Of (state.msg.bytes.take sizeKey)) = size
      by_cases enough : msg.readable size.toNat = true
      · have within := (MessageBuffer.readable_iff msgValid.ordered _).mp enough
        rw [if_pos enough, if_neg (Nat.not_lt_of_le within)]
        obtain ⟨later, bodyRead, laterValid, laterBytes⟩ := MessageBuffer.read_ok msgValid within
        have fits : (msg.bytes.take size.toNat).length ≤ MessageBuffer.maxBufferSize := by
          have := msgValid.size_le
          rw [MessageBuffer.bytes_length] at within
          simp only [List.length_take, MessageBuffer.bytes_length]
          omega
        simp only [bodyRead, MessageBuffer.fill_empty fits, ← laterBytes]
        exact callHandler_refines size laterValid (MessageBuffer.received_valid fits) rfl
      · have short : msg.bytes.length < size.toNat := Nat.lt_of_not_le fun within =>
          enough ((MessageBuffer.readable_iff msgValid.ordered _).mpr within)
        rw [if_neg enough, if_pos short]
        exact .done ⟨rfl, msg.readAll_valid, by simp, rfl⟩
    · rw [if_neg keyOk, if_neg keyOk]
      exact .done ⟨rfl, msg.readAll_valid, by simp, rfl⟩

/-- One iteration of a parser is one step of the machine. -/
theorem frameStep_refines {parser : FrameParser κ} {handlers : Handlers κ}
    {state : ParseState κ} {machine : FrameState κ} (related : StateRelates state machine) :
    StepsAgree StateRelates ResultRelates (frameStep parser handlers state)
      (machineStep parser (behaviourOf handlers) machine) := by
  obtain ⟨inside, rest, calls⟩ := machine
  obtain ⟨valid, bytes, callsEq, mode⟩ := related
  simp only at bytes callsEq mode
  subst rest calls
  unfold frameStep machineStep beginPacket
  by_cases fromMainKey : state.readStartFromMainKey = true
  · simp only [fromMainKey, if_true] at mode ⊢
    subst inside
    rw [MessageBuffer.readableInto_eq valid.ordered]
    by_cases short : state.msg.bytes.length < sizeHeader
    · simp only [if_neg (Nat.not_le_of_lt short), if_pos short, LoopStep.andThen]
      exact .done ⟨rfl, valid, rfl, rfl⟩
    · -- The peeked header holds the same main key as the front of the readable bytes.
      have mainKey : (state.msg.bytes.take sizeHeader).take sizeKey =
          state.msg.bytes.take sizeKey := by
        rw [List.take_take]
        rfl
      simp only [if_pos (Nat.le_of_not_lt short), if_neg short, mainKey]
      by_cases keyOk : parser.keys.mainKeyOk (u32Of (state.msg.bytes.take sizeKey)) = true
      · simp only [keyOk, if_true]
        generalize parser.keys.mainLength (u32Of (state.msg.bytes.take sizeKey)) + 4 = total
        by_cases arrived : state.msg.readable total.toNat = true
        · have within := (MessageBuffer.readable_iff valid.ordered _).mp arrived
          have keyThere : sizeKey ≤ state.msg.bytes.length := by
            simp only [sizeHeader, sizeKey] at short ⊢
            omega
          obtain ⟨msg, keyRead, msgValid, msgBytes⟩ := MessageBuffer.readCount_ok valid keyThere
          simp only [if_pos arrived, if_neg (Nat.not_lt_of_le within), keyRead, ← msgBytes,
            LoopStep.andThen]
          exact takePart_refines msgValid
        · have late : state.msg.bytes.length < total.toNat := Nat.lt_of_not_le fun within =>
            arrived ((MessageBuffer.readable_iff valid.ordered _).mpr within)
          simp only [if_neg arrived, if_pos late, LoopStep.andThen]
          exact .done ⟨rfl, valid, rfl, rfl⟩
      · simp only [keyOk, LoopStep.andThen]
        exact .done ⟨rfl, state.msg.readAll_valid, by simp, rfl⟩
  · simp only [Bool.not_eq_true] at fromMainKey
    simp only [fromMainKey, LoopStep.andThen] at mode ⊢
    subst inside
    exact takePart_refines valid

/-- A parser called on a valid receive buffer runs the frame machine on its readable bytes. -/
theorem parse_refines (parser : FrameParser κ) (handlers : Handlers κ) {msg : MessageBuffer}
    (valid : msg.Valid) :
    ResultRelates (parse parser handlers msg)
      (runFrames parser (behaviourOf handlers) msg.bytes) :=
  loop_simulation frameStep_decreases machineStep_decreases
    (fun _ _ related => frameStep_refines related) ⟨valid, rfl, rfl, rfl⟩

end LobbySvr.Proofs
