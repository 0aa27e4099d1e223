/-
Module: LobbySvr.Spec.Obfuscation
Layer: Spec
Purpose: The bytes of a receive buffer that a plain parser consumes as part bodies.  The parser is run along the
  buffer; each body it reads is changed with `xorKey`, and the keys in front of it, as well as everything
  that is not read as a body, are kept.  An iteration that fails before its body leaves the rest as it is.
Imports: LobbySvr.Lobby.PacketParserXor
Trusted boundary: none
Main exports: xorBytes, obfuscateStep, obfuscateFrom, obfuscated
Open obligations: none
-/
import LobbySvr.Lobby.PacketParserXor

namespace LobbySvr.Spec

open LobbySvr.Foundation
open LobbySvr.Net
open LobbySvr.Lobby

variable {κ : Type} (parser : FrameParser κ) (handlers : Handlers κ)

/-- A body with every byte changed. -/
def xorBytes (body : List UInt8) : List UInt8 := body.map (· ^^^ xorKey)

@[simp] theorem xorBytes_length (body : List UInt8) : (xorBytes body).length = body.length :=
  List.length_map _

/-- One iteration of the parser, with the bytes put out so far. -/
def obfuscateStep (point : ParseState κ × List UInt8) :
    LoopStep (ParseState κ × List UInt8) (List UInt8) :=
  match enterPart parser point.1 with
  | .done _ => .done (point.2 ++ point.1.msg.bytes)
  | .next (size, entered) =>
      let keys := point.1.msg.bytes.take (point.1.msg.size - entered.msg.size)
      let body := entered.msg.bytes.take size.toNat
      let behind := entered.msg.bytes.drop size.toNat
      match frameStep parser handlers point.1 with
      | .done _ => .done (point.2 ++ (keys ++ (xorBytes body ++ behind)))
      | .next later => .next (later, point.2 ++ (keys ++ xorBytes body))

variable {parser handlers} in
theorem obfuscateStep_decreases :
    Decreases (obfuscateStep parser handlers) (fun point => point.1.msg.size) := by
  intro point later went
  unfold obfuscateStep at went
  split at went
  · cases went
  · split at went
    · cases went
    · rename_i iteration
      cases went
      exact frameStep_decreases _ _ iteration

/-- What is put out from a state of the parser on. -/
def obfuscateFrom (state : ParseState κ) : List UInt8 :=
  loop (obfuscateStep parser handlers) (fun point => point.1.msg.size) obfuscateStep_decreases (state, [])

/-- The bytes of a receive buffer, with those changed that the parser consumes as part bodies. -/
def obfuscated (msg : MessageBuffer) : List UInt8 :=
  obfuscateFrom parser handlers (parseEntry msg)

end LobbySvr.Spec
