/-
Module: LobbySvr.Spec.CipherSession
Layer: Spec
Purpose: What a parser with a stage of its own is for, said on the bodies alone.  A body is absorbed by the
  agreement on a key, or becomes a text for a handler, or ends the session; frames, cursors and buffers are
  gone.  A cipher scheme says what a body is worth in a world that may hold a key.
Imports: LobbySvr.Net.PacketParserCipher, LobbySvr.Spec.FrameMachine
Trusted boundary: none
Main exports: Opened, Listeners, SessionResult, session, CipherScheme, CipherScheme.opens
Open obligations: none
-/
import LobbySvr.Net.PacketParserCipher
import LobbySvr.Spec.FrameMachine

namespace LobbySvr.Spec

open LobbySvr.Foundation
open LobbySvr.Net

/-- What comes of a body. -/
inductive Opened (ω : Type) where
  /-- The body was about the key. -/
  | absorbed (world : ω)
  | text (plain : List UInt8) (world : ω)
  | stops (ending : ParseEnd) (world : ω)

/-- The packet handlers and `noHandler` as functions of a text. -/
structure Listeners (κ ω : Type) where
  handler : κ → UInt32 → List UInt8 → ω → Option Fault × ω
  noHandler : List UInt8 → ω → Option Fault × ω

/-- How a session ends, the calls made in it, and the world it leaves. -/
structure SessionResult (κ ω : Type) where
  ending : ParseEnd
  calls : List (Call κ)
  world : ω

section

variable {κ ω : Type} (parser : FrameParser κ) (opens : ω → List UInt8 → Opened ω)
  (listeners : Listeners κ ω)

/-- The session that a list of bodies makes.  A handler is told the size of the body, not of the text. -/
def session : ω → List (List UInt8) → SessionResult κ ω
  | world, [] => ⟨.returned true, [], world⟩
  | world, body :: bodies =>
      match opens world body with
      | .absorbed later => session later bodies
      | .stops ending later => ⟨ending, [], later⟩
      | .text plain later =>
          match parser.route (codeOf parser.codeSize plain) with
          | none =>
              match listeners.noHandler plain later with
              | (some fault, last) => ⟨.raised fault, [.noHandler plain], last⟩
              | (none, last) => ⟨.returned false, [.noHandler plain], last⟩
          | some kind =>
              let call := .handler kind (UInt32.ofNat body.length) plain
              match listeners.handler kind (UInt32.ofNat body.length) plain later with
              | (some fault, last) => ⟨.raised fault, [call], last⟩
              | (none, last) =>
                  let rest := session last bodies
                  { rest with calls := call :: rest.calls }

end

/-- What a cipher is for: to agree on a key, once, and to decrypt from then on. -/
structure CipherScheme (ω : Type) where
  synced : ω → Bool
  agree : ω → List UInt8 → Option ω
  agreed : ∀ {world later : ω} {body : List UInt8}, agree world body = some later → synced later = true
  decrypt : ω → List UInt8 → List UInt8

/-- What a body comes to under a scheme.  `GREETING` only agrees, and does not encrypt. -/
def CipherScheme.opens {ω : Type} (scheme : CipherScheme ω) (encType : UInt8) (world : ω)
    (body : List UInt8) : Opened ω :=
  if scheme.synced world = false then
    match scheme.agree world body with
    | some later => .absorbed later
    | none => .stops (.returned false) world
  else if encType = encGreeting then .text body world
  else if scheme.decrypt world body = [] then .stops (.returned true) world
  else .text (scheme.decrypt world body) world

end LobbySvr.Spec
