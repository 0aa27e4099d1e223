/-
Module: LobbySvr.Lobby.PacketParserXor
Layer: Lobby
Purpose: `JSON_PACKET_PARSING_SUPPORT::packetParser_xor`.  It is `packetParser_notUseEnc` with five passes over
  the storage of `procMsg` between the read of a body and the look at its packet code.
Imports: LobbySvr.Net.StagedParser, LobbySvr.Lobby.PacketParserJson
Trusted boundary: human-reviewed embedding of the C++ source
Main exports: xorKeys, xorPass, xorPasses, xorFetch, packetParserXor, PacketParserXor, xorKey, xorPass_apply,
  xorPasses_eq, xorPasses_twice
Open obligations: none
-/
import LobbySvr.Net.StagedParser
import LobbySvr.Lobby.PacketParserJson

namespace LobbySvr.Lobby

open LobbySvr.Foundation
open LobbySvr.Net

/-- `keys`, the letters of `IgNiS`. -/
def xorKeys : List UInt8 := [73, 103, 78, 105, 83]

/-- The inner loop: `count` bytes from `curPos` on. -/
def xorPass (c : UInt8) : Nat → Nat → (Nat → UInt8) → Nat → UInt8
  | _, 0, buffer => buffer
  | curPos, count + 1, buffer =>
      xorPass c (curPos + 1) count (writeRange buffer curPos [buffer curPos ^^^ c])

/-- The outer loop, which takes the keys from the last one to the first. -/
def xorPasses (startBufPos partBodySize : Nat) (buffer : Nat → UInt8) : Nat → UInt8 :=
  xorKeys.reverse.foldl (fun buffer c => xorPass c startBufPos partBodySize buffer) buffer

/-- The body is read into `procMsg` and decoded there. -/
def xorFetch {ω : Type} : Fetch ω := fun partBodySize msg world =>
  let startBufPos := MessageBuffer.empty.writePos
  match plainFetch partBodySize msg world with
  | .procMsg msg procMsg world =>
      .procMsg msg
        { procMsg with buffer := xorPasses startBufPos partBodySize.toNat procMsg.buffer } world
  | .goesOn msg world => .goesOn msg world
  | .leaves ending msg world => .leaves ending msg world

/-- The keys and the switch of `JSON_PACKET_PARSING_SUPPORT::packetParser_xor`. -/
def packetParserXor : FrameParser LobbyHandler where
  keys := maskedKeys
  codeSize := 4
  route := routeLobby

/-- `JSON_PACKET_PARSING_SUPPORT::packetParser_xor` called on a receive buffer is left with a result. -/
def PacketParserXor (handlers : Handlers LobbyHandler) (msg : MessageBuffer)
    (result : ParseResult LobbyHandler) : Prop :=
  StagedParse packetParserXor xorFetch (.ofHandlers handlers) msg () ⟨result, ()⟩

/-! ### What the passes do -/

/-- All five keys at once. -/
def xorKey : UInt8 := 73 ^^^ 103 ^^^ 78 ^^^ 105 ^^^ 83

theorem xorPass_apply (c : UInt8) (count curPos : Nat) (buffer : Nat → UInt8) (cell : Nat) :
    xorPass c curPos count buffer cell =
      if curPos ≤ cell ∧ cell < curPos + count then buffer cell ^^^ c else buffer cell := by
  induction count generalizing curPos buffer with
  | zero =>
      rw [xorPass, if_neg (by omega)]
  | succ count inductionHypothesis =>
      rw [xorPass, inductionHypothesis]
      by_cases here : cell = curPos
      · subst here
        rw [if_neg (by omega), if_pos (by omega)]
        simp [writeRange]
      · have outside : writeRange buffer curPos [buffer curPos ^^^ c] cell = buffer cell := by
          unfold writeRange
          split
          · rw [List.getElem?_eq_none (by simp; omega), Option.getD_none]
          · rfl
        rw [outside]
        by_cases inside : curPos ≤ cell ∧ cell < curPos + (count + 1)
        · rw [if_pos inside, if_pos (by omega)]
        · rw [if_neg inside, if_neg (by omega)]

theorem xor_keys (byte : UInt8) :
    byte ^^^ 83 ^^^ 105 ^^^ 78 ^^^ 103 ^^^ 73 = byte ^^^ xorKey := by
  rw [UInt8.xor_assoc, UInt8.xor_assoc, UInt8.xor_assoc, UInt8.xor_assoc]
  rfl

/-- The five passes are one pass with all keys at once. -/
theorem xorPasses_eq (startBufPos partBodySize : Nat) (buffer : Nat → UInt8) :
    xorPasses startBufPos partBodySize buffer = xorPass xorKey startBufPos partBodySize buffer := by
  funext cell
  change xorPass 73 startBufPos partBodySize (xorPass 103 startBufPos partBodySize
    (xorPass 78 startBufPos partBodySize (xorPass 105 startBufPos partBodySize
      (xorPass 83 startBufPos partBodySize buffer)))) cell = _
  simp only [xorPass_apply]
  split
  · exact xor_keys _
  · rfl

/-- The passes undo themselves. -/
theorem xorPasses_twice (startBufPos partBodySize : Nat) (buffer : Nat → UInt8) :
    xorPasses startBufPos partBodySize (xorPasses startBufPos partBodySize buffer) = buffer := by
  funext cell
  simp only [xorPasses_eq, xorPass_apply]
  split
  · rw [UInt8.xor_assoc, UInt8.xor_self, UInt8.xor_zero]
  · rfl

end LobbySvr.Lobby
