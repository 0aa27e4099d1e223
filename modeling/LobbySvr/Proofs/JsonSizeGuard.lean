/-
Module: LobbySvr.Proofs.JsonSizeGuard
Layer: Proofs
Purpose: The size check of `User::SendJsonPacket`.  It stands behind the copy of the text into the struct, so it
  never turns a packet away: a text that fits passes it, and a text that does not has been copied past the
  end of the struct before it is reached.
Imports: LobbySvr.Spec.FlatJson, LobbySvr.Proofs.JsonPackets
Trusted boundary: none
Main exports: SizeGuarded, user_sends_overflow, user_sends_fields, text_fits_of_sizeGuarded, sizeGuarded_iff
Open obligations: none
-/
import LobbySvr.Spec.FlatJson
import LobbySvr.Proofs.JsonPackets

namespace LobbySvr.Proofs

open LobbySvr.Foundation
open LobbySvr.Net
open LobbySvr.Spec
open LobbySvr.Lobby

variable {J : Type}

/-- What the size check is there for: a text that does not fit with its NUL is turned away, any other is
    sent whole and declared with its length, and no store misses the struct on the way. -/
def SizeGuarded (json : JsonCpp J) (sequenceNo : UInt32) (memory : Nat → UInt8) (url : List UInt8)
    (jv : J) : Prop :=
  ∃ packetSequenceNo prepared, User.prepare json jv = some (packetSequenceNo, prepared) ∧
    ((LobbyProtocol.maxBodySize < (json.write prepared).length + 1 ∧
        User.sendJsonPacket json (.new sequenceNo memory) url jv = .ok (.bodyOverflow prepared)) ∨
      ((json.write prepared).length + 1 ≤ LobbyProtocol.maxBodySize ∧
        ∃ packet, User.sendJsonPacket json (.new sequenceNo memory) url jv =
            .ok (.sent packet prepared) ∧
          (LobbyProtocol.bodySizeField packet).toNat = (json.write prepared).length + 1 ∧
          packet.drop LobbyProtocol.headSize = json.write prepared ++ [0]))

/-- The copy of a text that does not fit with its NUL leaves the struct. -/
theorem lobby_fill_overflow (sequenceNo packetSequenceNo : UInt32) (memory : Nat → UInt8)
    {url text : List UInt8} (urlRoom : url.length ≤ maxUrlString)
    (long : LobbyProtocol.maxBodySize < text.length + 1) :
    User.fill (.new sequenceNo memory) packetSequenceNo url text = .error .undefinedBehaviour := by
  by_cases fits : text.length ≤ LobbyProtocol.maxBodySize
  · -- Only the terminator is stored behind the field.
    have copied : copyBody LobbyProtocol.maxBodySize memory 0 text = .ok (writeRange memory 0 text) :=
      copyBody_ok memory (by omega)
    have overflow : copyBody LobbyProtocol.maxBodySize (writeRange memory 0 text) text.length [0] =
        .error .undefinedBehaviour :=
      copyBody_overflow _ long
    simp only [User.fill, LobbyProtocol.PtJson.new, copyUrl_zeroed urlRoom, copied, overflow, bind,
      Except.bind]
  · have overflow : copyBody LobbyProtocol.maxBodySize memory 0 text = .error .undefinedBehaviour :=
      copyBody_overflow memory (by omega)
    simp only [User.fill, LobbyProtocol.PtJson.new, copyUrl_zeroed urlRoom, overflow, bind, Except.bind]

/-- The check is not reached with a text that it would turn away. -/
theorem user_sends_overflow (json : JsonCpp J) (sequenceNo : UInt32) (memory : Nat → UInt8)
    {url : List UInt8} {jv prepared : J} {packetSequenceNo : UInt32} (urlRoom : url.length ≤ maxUrlString)
    (prepares : User.prepare json jv = some (packetSequenceNo, prepared))
    (long : LobbyProtocol.maxBodySize < (json.write prepared).length + 1) :
    User.sendJsonPacket json (.new sequenceNo memory) url jv = .error .undefinedBehaviour := by
  have overflow := lobby_fill_overflow sequenceNo packetSequenceNo memory urlRoom long
  simp only [User.sendJsonPacket, prepares, overflow, bind, Except.bind]

/-- The declared size and the body of a packet that is sent. -/
theorem user_sends_fields (json : JsonCpp J) (sequenceNo : UInt32) (memory : Nat → UInt8)
    {url : List UInt8} {jv prepared : J} {packetSequenceNo : UInt32} (urlRoom : url.length ≤ maxUrlString)
    (prepares : User.prepare json jv = some (packetSequenceNo, prepared))
    (room : (json.write prepared).length + 1 ≤ LobbyProtocol.maxBodySize) :
    ∃ packet, User.sendJsonPacket json (.new sequenceNo memory) url jv = .ok (.sent packet prepared) ∧
      (LobbyProtocol.bodySizeField packet).toNat = (json.write prepared).length + 1 ∧
      packet.drop LobbyProtocol.headSize = json.write prepared ++ [0] := by
  have field : (filledLobby packetSequenceNo memory url (json.write prepared)).url.length =
      maxUrlString := paddedUrl_length urlRoom
  have head := lobby_head_length field
  refine ⟨_, user_sends json sequenceNo memory urlRoom prepares room, ?_, ?_⟩
  · rw [← LobbyProtocol.bodySizeField_take, List.take_left' head, lobby_bodySizeField field,
      filledLobby_bodySize packetSequenceNo memory url room]
  · rw [List.drop_left' head]

/-- The check keeps its promise only for a text that fits. -/
theorem text_fits_of_sizeGuarded {json : JsonCpp J} {sequenceNo : UInt32} {memory : Nat → UInt8}
    {url : List UInt8} {jv prepared : J} {packetSequenceNo : UInt32} (urlRoom : url.length ≤ maxUrlString)
    (prepares : User.prepare json jv = some (packetSequenceNo, prepared))
    (guarded : SizeGuarded json sequenceNo memory url jv) :
    (json.write prepared).length + 1 ≤ LobbyProtocol.maxBodySize := by
  apply Nat.le_of_not_lt
  intro long
  obtain ⟨otherNo, other, otherPrepares, ⟨-, turnedAway⟩ | ⟨room, -⟩⟩ := guarded
  · rw [user_sends_overflow json sequenceNo memory urlRoom prepares long] at turnedAway
    cases turnedAway
  · rw [prepares, Option.some.injEq, Prod.mk.injEq] at otherPrepares
    obtain ⟨-, rfl⟩ := otherPrepares
    exact absurd room (Nat.not_le_of_lt long)

/-- The size check does its work exactly on the values whose text fits in the first place. -/
theorem sizeGuarded_iff (json : JsonCpp J) (sequenceNo : UInt32) (memory : Nat → UInt8)
    {url : List UInt8} (urlRoom : url.length ≤ 31) (jv : J) :
    SizeGuarded json sequenceNo memory url jv ↔
      ∃ packetSequenceNo prepared, User.prepare json jv = some (packetSequenceNo, prepared) ∧
        (json.write prepared).length ≤ 29999 := by
  have urlFits : url.length ≤ maxUrlString := Nat.le_succ_of_le urlRoom
  constructor
  · intro guarded
    have ⟨packetSequenceNo, prepared, prepares, _⟩ := guarded
    have room := text_fits_of_sizeGuarded urlFits prepares guarded
    exact ⟨packetSequenceNo, prepared, prepares, Nat.le_of_succ_le_succ room⟩
  · rintro ⟨packetSequenceNo, prepared, prepares, short⟩
    have room : (json.write prepared).length + 1 ≤ LobbyProtocol.maxBodySize := Nat.succ_le_succ short
    exact ⟨packetSequenceNo, prepared, prepares,
      .inr ⟨room, user_sends_fields json sequenceNo memory urlFits prepares room⟩⟩

/-- A value with one text in it. -/
def chatLine (content : List UInt8) : FlatJson := .object [("msg", .text content)]

/-- The value with the two members that `User::SendJsonPacket` looks for. -/
def chatLinePrepared (content : List UInt8) : FlatJson :=
  .object [("msg", .text content), ("packetSequenceNum", .null), ("resultMsg", .null)]

theorem chatLine_prepares (content : List UInt8) :
    User.prepare (flatJson []) (chatLine content) = some (0, chatLinePrepared content) := rfl

theorem chatLinePrepared_length (content : List UInt8) :
    ((flatJson []).write (chatLinePrepared content)).length = content.length + 53 := by
  change (chatLinePrepared content).write.length = content.length + 53
  simp [chatLinePrepared, FlatJson.write, FlatJson.writeMembers, FlatJson.writeMember, FlatJson.ascii]

/-- A line of 29946 letters just fits. -/
theorem sizeGuarded_iff_longest :
    SizeGuarded (flatJson []) 0 (fun _ => 0) [47, 99] (chatLine (List.replicate 29946 97)) := by
  apply (sizeGuarded_iff (flatJson []) 0 (fun _ => 0) (by decide)
    (chatLine (List.replicate 29946 97))).mpr
  refine ⟨0, _, chatLine_prepares _, ?_⟩
  rw [chatLinePrepared_length, List.length_replicate]

/-- A text of 30000 bytes has no room for its NUL, which is stored behind the struct. -/
theorem longest_text_overflows :
    ((flatJson []).write (chatLinePrepared (List.replicate 29947 97))).length = 30000 ∧
      ¬ SizeGuarded (flatJson []) 0 (fun _ => 0) [47, 99] (chatLine (List.replicate 29947 97)) := by
  have length : ((flatJson []).write (chatLinePrepared (List.replicate 29947 97))).length = 30000 := by
    rw [chatLinePrepared_length, List.length_replicate]
  refine ⟨length, ?_⟩
  intro guarded
  have room := text_fits_of_sizeGuarded (by decide) (chatLine_prepares _) guarded
  have limit : LobbyProtocol.maxBodySize = 30000 := rfl
  omega

end LobbySvr.Proofs
