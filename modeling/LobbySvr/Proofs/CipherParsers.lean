/-
Module: LobbySvr.Proofs.CipherParsers
Layer: Proofs
Purpose: The parsers that consult a cipher table.  With the table as it is constructed they come to the raw path in
  every iteration and are the plain parser.  With a cipher they hand a message on together with the
  length that the body had on the wire, which is the length of the message on every path but the one
  that decrypts.
Imports: LobbySvr.Net.PacketParserCipher, LobbySvr.Lobby.PacketParserCipher
Trusted boundary: none
Main exports: plainStep_decreases, LeftWith, unset_ciphers_agree, Truthful, TruthfulCalls, DecryptsToSize,
  truthfulCalls_iff, sizes_truthful_iff
Open obligations: none
-/
import LobbySvr.Net.PacketParserCipher
import LobbySvr.Lobby.PacketParserCipher

namespace LobbySvr.Proofs

open LobbySvr.Foundation
open LobbySvr.Net

/-! ### Without a cipher -/

section

variable {κ ω : Type} {parser : FrameParser κ} {surroundings : Surroundings κ ω}

/-- With the plain stage an iteration that goes round shortens the receive buffer, whatever the handlers do
    to their world. -/
theorem plainStep_decreases :
    Decreases (stagedStep parser plainFetch surroundings) (fun state => state.parse.msg.size) :=
  stagedStep_decreases plainFetch_addsNothing

/-- A `MessageProcedure` without a cipher leads to the raw path. -/
theorem cipherFetch_new (isSyncEncryptionKey : ω → UInt8 → Bool) :
    cipherFetch .new isSyncEncryptionKey = plainFetch := by
  funext partBodySize msg world
  have path : cipherPath .new isSyncEncryptionKey world = .ok .raw := rfl
  simp only [cipherFetch, path]

/-- Without a cipher, the two parsers with a cipher table and the plain one are all left with this result, and
    with no other. -/
structure LeftWith {η : Type} (isSyncEncryptionKey : ω → UInt8 → Bool) (memberFuncMap staticFuncMap : MsgMap η)
    (surroundings : Surroundings (MapHandler η) ω) (msg : MessageBuffer) (world : ω)
    (result : StagedResult (MapHandler η) ω) : Prop where
  simple : ∀ other, PacketParser .new isSyncEncryptionKey memberFuncMap staticFuncMap surroundings msg world
    other ↔ other = result
  json : ∀ other, Lobby.PacketParser .new isSyncEncryptionKey memberFuncMap staticFuncMap surroundings msg
    world other ↔ other = result
  notUseEnc : ∀ other, PacketParserNotUseEnc memberFuncMap staticFuncMap surroundings msg world other ↔
    other = result

/-- What the plain parser is left with, all three are. -/
theorem leftWith {η : Type} {memberFuncMap staticFuncMap : MsgMap η}
    {surroundings : Surroundings (MapHandler η) ω} {msg : MessageBuffer} {world : ω}
    {result : StagedResult (MapHandler η) ω} (isSyncEncryptionKey : ω → UInt8 → Bool)
    (ends : PacketParserNotUseEnc memberFuncMap staticFuncMap surroundings msg world result) :
    LeftWith isSyncEncryptionKey memberFuncMap staticFuncMap surroundings msg world result := by
  have only : ∀ other, PacketParserNotUseEnc memberFuncMap staticFuncMap surroundings msg world other ↔
      other = result := by
    intro other
    constructor
    · intro otherEnds
      exact otherEnds.unique ends
    · rintro rfl
      exact ends
  refine ⟨?_, ?_, only⟩
  · intro other
    rw [PacketParser, cipherFetch_new]
    exact only other
  · intro other
    rw [Lobby.PacketParser, cipherFetch_new]
    exact only other

/-- As long as no cipher has been set, the two parsers with a cipher table and the plain one are left with
    one and the same result; with handlers that share nothing it is the one of the plain loop. -/
theorem unset_ciphers_agree {η : Type} (memberFuncMap staticFuncMap : MsgMap η)
    (isSyncEncryptionKey : ω → UInt8 → Bool) (surroundings : Surroundings (MapHandler η) ω)
    (msg : MessageBuffer) (world : ω) :
    (∃ result, LeftWith isSyncEncryptionKey memberFuncMap staticFuncMap surroundings msg world result) ∧
      ∀ (syncs : Unit → UInt8 → Bool) (handlers : Handlers (MapHandler η)),
        LeftWith syncs memberFuncMap staticFuncMap (.ofHandlers handlers) msg ()
          ⟨parse (packetParserNotUseEnc memberFuncMap staticFuncMap) handlers msg, ()⟩ := by
  have decreases : Decreases (stagedStep (packetParserNotUseEnc memberFuncMap staticFuncMap) plainFetch
      surroundings) (fun state => state.parse.msg.size) := plainStep_decreases
  exact ⟨⟨_, leftWith isSyncEncryptionKey (loopEnds_loop decreases ⟨parseEntry msg, world⟩)⟩,
    fun syncs handlers => leftWith syncs (staged_parse _ handlers msg)⟩

end

/-! ### The size that handlers are told -/

/-- A packet handler is told the length of its message. -/
def Truthful {κ : Type} : Call κ → Prop
  | .handler _ size body => size.toNat = body.length
  | .noHandler _ => True

section

variable {κ ω : Type}

/-- The calls made up to the end of an iteration. -/
def callsBehind : LoopStep (StagedState κ ω) (StagedResult κ ω) → List (Call κ)
  | .next later => later.parse.calls
  | .done result => result.result.calls

variable (parser : FrameParser κ) (ciphers : Ciphers ω) (isSyncEncryptionKey : ω → UInt8 → Bool)
  (surroundings : Surroundings κ ω)

/-- In every iteration that a parser with a cipher table comes to, whether or not it ever ends, the calls are
    truthful. -/
def TruthfulCalls (msg : MessageBuffer) (world : ω) : Prop :=
  ∀ state, LoopReaches (stagedStep parser (cipherFetch ciphers isSyncEncryptionKey) surroundings)
      ⟨parseEntry msg, world⟩ state →
    ∀ call ∈ callsBehind
        (stagedStep parser (cipherFetch ciphers isSyncEncryptionKey) surroundings state),
      Truthful call

/-- Whenever a body is decrypted and there is a handler for what came out, as many bytes came out as the body
    has on the wire. -/
def DecryptsToSize (msg : MessageBuffer) (world : ω) : Prop :=
  ∀ state, LoopReaches (stagedStep parser (cipherFetch ciphers isSyncEncryptionKey) surroundings)
      ⟨parseEntry msg, world⟩ state →
    ∀ size entered, enterPart parser state.parse = .next (size, entered) →
      ∀ cipherType cipherDec, cipherPath ciphers isSyncEncryptionKey state.world =
          .ok (.decrypt cipherType cipherDec) →
        ∀ later procMsg after, decryptFetch cipherType cipherDec size entered.msg state.world =
            .procMsg later procMsg after →
          parser.route (packetCode parser.codeSize procMsg) ≠ none → procMsg.size = size.toNat

variable {parser ciphers isSyncEncryptionKey surroundings}

/-- A body that is handed on as it came has its own length. -/
theorem plainFetch_bytes {size : UInt32} {msg later procMsg : MessageBuffer} {world after : ω}
    (fetched : plainFetch size msg world = .procMsg later procMsg after) :
    size.toNat = procMsg.bytes.length := by
  unfold plainFetch at fetched
  split at fetched
  · cases fetched
  · rename_i bodyRead
    have length := MessageBuffer.read_length bodyRead
    split at fetched
    · cases fetched
    · rename_i filled
      cases fetched
      unfold MessageBuffer.fill at filled
      split at filled
      · cases filled
      · unfold MessageBuffer.writeCount at filled
        split at filled
        · cases filled
        · split at filled
          · cases filled
          · cases filled
            rw [MessageBuffer.bytes, readRange_length, MessageBuffer.size]
            change size.toNat = 0 + _ - 0
            rw [length, Nat.zero_add, Nat.sub_zero]

theorem syncKeyFetch_ne_procMsg (cipherType : UInt8) (cipherInit : CipherInit ω) (size : UInt32)
    (msg later procMsg : MessageBuffer) (world after : ω) :
    syncKeyFetch cipherType cipherInit size msg world ≠ .procMsg later procMsg after := by
  unfold syncKeyFetch
  split
  · simp
  · simp
  · split
    · split
      · simp
      · simp
    · simp

/-- A message comes out of the stage as it was on the wire, or by decryption. -/
theorem cipherFetch_procMsg {size : UInt32} {msg later procMsg : MessageBuffer} {world after : ω}
    (fetched : cipherFetch ciphers isSyncEncryptionKey size msg world = .procMsg later procMsg after) :
    plainFetch size msg world = .procMsg later procMsg after ∨
      ∃ cipherType cipherDec,
        cipherPath ciphers isSyncEncryptionKey world = .ok (.decrypt cipherType cipherDec) ∧
        decryptFetch cipherType cipherDec size msg world = .procMsg later procMsg after := by
  unfold cipherFetch at fetched
  split at fetched
  · cases fetched
  · exact .inl fetched
  · exact absurd fetched (syncKeyFetch_ne_procMsg _ _ _ _ _ _ _ _)
  · exact .inl fetched
  · rename_i path
    exact .inr ⟨_, _, path, fetched⟩

/-- The calls of an iteration that has a message: those made before, and one for the message. -/
theorem callsBehind_callStaged (state : ParseState κ) (size : UInt32) (procMsg : MessageBuffer)
    (world : ω) :
    callsBehind (callStaged parser surroundings state size procMsg world) = state.calls ++
      [match parser.route (packetCode parser.codeSize procMsg) with
        | none => .noHandler procMsg.bytes
        | some kind => .handler kind size procMsg.bytes] := by
  unfold callStaged
  cases parser.route (packetCode parser.codeSize procMsg) with
  | none =>
      simp only
      split
      · rfl
      · rfl
  | some kind =>
      simp only
      split
      · rfl
      · rfl

/-- The calls made up to the body. -/
def callsInFront : LoopStep (UInt32 × ParseState κ) (ParseResult κ) → List (Call κ)
  | .next entry => entry.2.calls
  | .done result => result.calls

theorem takeKey_calls (state : ParseState κ) : callsInFront (takeKey parser state) = state.calls := by
  unfold takeKey
  split
  · rfl
  · simp only
    split
    · split
      · rfl
      · rfl
    · rfl

/-- The front of an iteration makes no call. -/
theorem enterPart_calls (state : ParseState κ) :
    callsInFront (enterPart parser state) = state.calls := by
  unfold enterPart beginPacket
  by_cases fromMainKey : state.readStartFromMainKey = true
  · simp only [if_pos fromMainKey]
    cases state.msg.readableInto sizeHeader with
    | none => rfl
    | some copied =>
        simp only
        by_cases keyOk : parser.keys.mainKeyOk (u32Of (copied.take sizeKey)) = true
        · simp only [if_pos keyOk]
          by_cases arrived : state.msg.readable
              (parser.keys.mainLength (u32Of (copied.take sizeKey)) + 4).toNat = true
          · simp only [if_pos arrived]
            cases state.msg.readCount sizeKey with
            | error fault => rfl
            | ok msg => exact takeKey_calls _
          · simp only [if_neg arrived]
            rfl
        · simp only [if_neg keyOk]
          rfl
  · simp only [if_neg fromMainKey]
    exact takeKey_calls state

/-- What an iteration adds to truthful calls is truthful when a decrypted message has its length. -/
theorem callsBehind_truthful {state : StagedState κ ω}
    (earlier : ∀ call ∈ state.parse.calls, Truthful call)
    (decrypts : ∀ size entered, enterPart parser state.parse = .next (size, entered) →
      ∀ cipherType cipherDec, cipherPath ciphers isSyncEncryptionKey state.world =
          .ok (.decrypt cipherType cipherDec) →
        ∀ later procMsg after, decryptFetch cipherType cipherDec size entered.msg state.world =
            .procMsg later procMsg after →
          parser.route (packetCode parser.codeSize procMsg) ≠ none → procMsg.size = size.toNat) :
    ∀ call ∈ callsBehind
        (stagedStep parser (cipherFetch ciphers isSyncEncryptionKey) surroundings state),
      Truthful call := by
  have front : callsInFront (enterPart parser state.parse) = state.parse.calls :=
    enterPart_calls state.parse
  unfold stagedStep
  cases enters : enterPart parser state.parse with
  | done result =>
      rw [enters] at front
      change ∀ call ∈ result.calls, Truthful call
      rw [show result.calls = state.parse.calls from front]
      exact earlier
  | next entry =>
      obtain ⟨size, entered⟩ := entry
      rw [enters] at front
      have same : entered.calls = state.parse.calls := front
      cases fetched : cipherFetch ciphers isSyncEncryptionKey size entered.msg state.world with
      | leaves ending msg world =>
          simp only [fetched, callsBehind, same]
          exact earlier
      | goesOn msg world =>
          simp only [fetched, callsBehind, same]
          exact earlier
      | procMsg msg procMsg world =>
          simp only [fetched]
          rw [callsBehind_callStaged]
          intro call member
          rcases List.mem_append.mp member with member | member
          · rw [same] at member
            exact earlier call member
          · rw [List.mem_singleton.mp member]
            cases routed : parser.route (packetCode parser.codeSize procMsg) with
            | none => exact trivial
            | some kind =>
                change size.toNat = procMsg.bytes.length
                rcases cipherFetch_procMsg fetched with plain | ⟨cipherType, cipherDec, path, decrypted⟩
                · exact plainFetch_bytes plain
                · rw [MessageBuffer.bytes, readRange_length]
                  have known : parser.route (packetCode parser.codeSize procMsg) ≠ none := by
                    rw [routed]
                    exact Option.some_ne_none kind
                  exact (decrypts size entered enters cipherType cipherDec path msg procMsg world
                    decrypted known).symm

/-- The handlers of a parser with a cipher table are told the truth exactly when decryption keeps the length
    of every body that has a handler. -/
theorem truthfulCalls_iff (msg : MessageBuffer) (world : ω) :
    TruthfulCalls parser ciphers isSyncEncryptionKey surroundings msg world ↔
      DecryptsToSize parser ciphers isSyncEncryptionKey surroundings msg world := by
  constructor
  · intro truthful state reached size entered enters cipherType cipherDec path later procMsg after
      decrypted known
    obtain ⟨kind, routed⟩ := Option.ne_none_iff_exists'.mp known
    have fetched : cipherFetch ciphers isSyncEncryptionKey size entered.msg state.world =
        .procMsg later procMsg after := by
      simp only [cipherFetch, path, decrypted]
    have told : .handler kind size procMsg.bytes ∈ callsBehind
        (stagedStep parser (cipherFetch ciphers isSyncEncryptionKey) surroundings state) := by
      simp only [stagedStep, enters, fetched]
      rw [callsBehind_callStaged, routed]
      exact List.mem_append_right _ (List.mem_singleton_self _)
    have length : size.toNat = procMsg.bytes.length := truthful state reached _ told
    rw [length, MessageBuffer.bytes, readRange_length]
  · intro decrypts state reached
    apply callsBehind_truthful ?_ (decrypts state reached)
    -- The calls with which an iteration begins are those behind the one before.
    induction reached with
    | start =>
        intro call member
        cases member
    | @next state later earlier iteration inductionHypothesis =>
        have behind := @callsBehind_truthful κ ω parser ciphers isSyncEncryptionKey surroundings state
          inductionHypothesis (decrypts state earlier)
        rw [iteration] at behind
        exact behind

end

/-- Both parsers with a cipher table tell the handlers the length of their messages exactly when decryption
    keeps the length of every body that has a handler. -/
theorem sizes_truthful_iff {η ω : Type} (ciphers : Ciphers ω) (isSyncEncryptionKey : ω → UInt8 → Bool)
    (memberFuncMap staticFuncMap : MsgMap η) (surroundings : Surroundings (MapHandler η) ω)
    (msg : MessageBuffer) (world : ω) :
    (TruthfulCalls (packetParser memberFuncMap staticFuncMap) ciphers isSyncEncryptionKey surroundings msg
        world ↔
      DecryptsToSize (packetParser memberFuncMap staticFuncMap) ciphers isSyncEncryptionKey surroundings
        msg world) ∧
    (TruthfulCalls (Lobby.packetParser memberFuncMap staticFuncMap) ciphers isSyncEncryptionKey
        surroundings msg world ↔
      DecryptsToSize (Lobby.packetParser memberFuncMap staticFuncMap) ciphers isSyncEncryptionKey
        surroundings msg world) :=
  ⟨truthfulCalls_iff msg world, truthfulCalls_iff msg world⟩

/-! ### A cipher that shortens -/

/-- A cipher without keys whose body ends in one byte of padding; it decrypts to the packet code 1. -/
def paddedCipher : Except Fault (Ciphers Unit) :=
  Ciphers.setCipher 1 (some fun _ _ msg world => (.ok true, msg, world))
    (some fun _ _ msg _ world => (none, msg, .received [1, 0, 0, 0], world)) .new

/-- One member function, for the packet code 1. -/
def oneHandler (packetCode : UInt32) : Option Unit := if packetCode = 1 then some () else none

/-- The handler of a body of five bytes is told five bytes, and its message has four. -/
theorem padded_cipher_misleads :
    ∃ ciphers, paddedCipher = .ok ciphers ∧
      ¬ TruthfulCalls (packetParser oneHandler fun _ => none) ciphers (fun _ _ => true)
        ⟨fun _ _ _ world => (none, world), fun _ world => (none, world)⟩
        (.received [9, 0, 255, 255, 5, 0, 243, 255, 1, 0, 0, 0, 0]) () := by
  refine ⟨_, rfl, ?_⟩
  intro truthful
  have told := truthful _ .start (.handler (.memberFunc ()) 5 [1, 0, 0, 0]) (by decide)
  change (5 : UInt32).toNat = 4 at told
  exact absurd told (by decide)

end LobbySvr.Proofs
