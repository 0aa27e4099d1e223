/-
Module: LobbySvr.Lobby.JsonCpp
Layer: Lobby
Purpose: The operations of jsoncpp that the server calls, as a parameter of the model: the library is not
  part of the repository.  A missing result stands for the exception the library throws.  No law is built
  in; a result that relies on one names it as a hypothesis.
Imports: Mathlib tactics only
Trusted boundary: interface of a third-party library
Main exports: JsonCpp
Open obligations: none
-/
import Mathlib.Tactic.Common

namespace LobbySvr.Lobby

/-- jsoncpp over a type `J` of values. -/
structure JsonCpp (J : Type) where
  /-- `value[key]`: the member, null when it was absent, and the value with the member inserted. -/
  index : J → String → Option (J × J)
  /-- `value[key] = member`. -/
  assign : J → String → J → Option J
  isNull : J → Bool
  asString : J → Option (List UInt8)
  /-- `asCString`, read as a C string. -/
  asCString : J → Option (List UInt8)
  asInt : J → Option Int
  asUInt : J → Option UInt32
  ofString : List UInt8 → J
  ofUInt : UInt32 → J
  ofUInt64 : UInt64 → J
  /-- `FastWriter::write`. -/
  write : J → List UInt8
  /-- `Reader::parse`, taken to return true or false on every text; jsoncpp throws at one that is nested more
      deeply than its stack limit. -/
  parse : List UInt8 → Option J

/-- `RSP_SEQ`. -/
def rspSeq : String := "packetSequenceNum"

/-- `RSP_RM`. -/
def rspRm : String := "resultMsg"

end LobbySvr.Lobby
