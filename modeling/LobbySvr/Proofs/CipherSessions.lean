/-
Module: LobbySvr.Proofs.CipherSessions
Layer: Proofs
Purpose: A parser with a stage of its own, run on what was received, holds the session of the bodies in it.
  The stage is only asked to take the body off the buffer and to make of it what its scheme says.  With a
  cipher in the table and a peer that sends its key first and then encrypts, the handlers see the peer's
  texts, each once and in order, however the bodies are grouped into packets and the packets into reads; a
  packet torn by the end of a read is gone.
Imports: LobbySvr.Spec.CipherSession, LobbySvr.Proofs.FrameRoundTrip, LobbySvr.Proofs.CipherParsers
Trusted boundary: none
Main exports: Fetches, FetchOpens, plainFetch_opens, LawfulCipher, cipherFetch_opens, Torn, Ahead,
  staged_session, Chunk, ReadsAll, cipher_session_delivers
Open obligations: none
-/
import LobbySvr.Spec.CipherSession
import LobbySvr.Proofs.FrameRoundTrip
import LobbySvr.Proofs.CipherParsers

namespace LobbySvr.Proofs

open LobbySvr.Foundation
open LobbySvr.Net
open LobbySvr.Spec

/-! ### Stages -/

section

variable {ω : Type}

/-- The stage has made of the body what is said, and `behind` is what it left in the buffer. -/
inductive Fetches (behind : List UInt8) : Opened ω → Fetched ω → Prop where
  | absorbed {left : MessageBuffer} {world : ω} (valid : left.Valid) (rest : left.bytes = behind) :
      Fetches behind (.absorbed world) (.goesOn left world)
  | text {left procMsg : MessageBuffer} {plain : List UInt8} {world : ω} (valid : left.Valid)
      (rest : left.bytes = behind) (procValid : procMsg.Valid) (content : procMsg.bytes = plain) :
      Fetches behind (.text plain world) (.procMsg left procMsg world)
  | stops {left : MessageBuffer} {ending : ParseEnd} {world : ω} :
      Fetches behind (.stops ending world) (.leaves ending left world)

/-- The stage makes of every body what `opens` says. -/
def FetchOpens (fetch : Fetch ω) (opens : ω → List UInt8 → Opened ω) : Prop :=
  ∀ ⦃body behind : List UInt8⦄ ⦃msg : MessageBuffer⦄ (world : ω), msg.Valid → msg.bytes = body ++ behind →
    Fetches behind (opens world body) (fetch (UInt32.ofNat body.length) msg world)

/-- A body at the front of a buffer is smaller than any number that a counter can hold. -/
theorem front_size {msg : MessageBuffer} (valid : msg.Valid) {body behind : List UInt8}
    (content : msg.bytes = body ++ behind) :
    body.length + behind.length ≤ MessageBuffer.maxBufferSize ∧
      (UInt32.ofNat body.length).toNat = body.length := by
  have size := valid.size_le
  have maxSize := MessageBuffer.maxBufferSize_eq
  have length := msg.bytes_length
  rw [content, List.length_append] at length
  exact ⟨by omega, u32_ofNat_toNat (by omega)⟩

/-- The body can be taken off the buffer. -/
theorem front_taken {msg : MessageBuffer} (valid : msg.Valid) {body behind : List UInt8}
    (content : msg.bytes = body ++ behind) :
    ∃ left, msg.readCount (UInt32.ofNat body.length).toNat = .ok left ∧ left.Valid ∧
      left.bytes = behind := by
  have within : body.length ≤ msg.bytes.length := by
    rw [content, List.length_append]
    omega
  rw [(front_size valid content).2]
  obtain ⟨left, taken, leftValid, rest⟩ := MessageBuffer.readCount_ok valid within
  refine ⟨left, taken, leftValid, ?_⟩
  rw [rest, content, List.drop_left]

/-- The plain stage hands every body on. -/
theorem plainFetch_opens : FetchOpens (plainFetch : Fetch ω) fun world body => .text body world := by
  intro body behind msg world valid content
  have ⟨fits, size⟩ := front_size valid content
  have within : body.length ≤ msg.bytes.length := by
    rw [content, List.length_append]
    omega
  obtain ⟨left, read, leftValid, rest⟩ := MessageBuffer.read_ok valid within
  rw [content, List.take_left] at read
  rw [content, List.drop_left] at rest
  have bodyFits : body.length ≤ MessageBuffer.maxBufferSize := by omega
  simp only [plainFetch, size, read, MessageBuffer.fill_empty bodyFits]
  exact .text leftValid rest (MessageBuffer.received_valid bodyFits) (MessageBuffer.received_bytes body)

/-- The functions that the server registers do what the scheme says and leave the receive buffer alone. -/
structure LawfulCipher (isSyncEncryptionKey : ω → UInt8 → Bool) (encType : UInt8)
    (cipherInit : CipherInit ω) (cipherDec : CipherDec ω) (scheme : CipherScheme ω) : Prop where
  synced : ∀ world, isSyncEncryptionKey world encType = scheme.synced world
  init : ∀ {body behind : List UInt8} {msg : MessageBuffer} (world : ω), msg.Valid →
    msg.bytes = body ++ behind →
    ∃ left, left.Valid ∧ left.bytes = msg.bytes ∧
      cipherInit encType (UInt32.ofNat body.length) msg world =
        match scheme.agree world body with
        | some later => (.ok true, left, later)
        | none => (.ok false, left, world)
  decrypts : ∀ {body behind : List UInt8} {msg : MessageBuffer} (world : ω), msg.Valid →
    msg.bytes = body ++ behind →
    ∃ left procMsg, left.Valid ∧ left.bytes = msg.bytes ∧ procMsg.Valid ∧
      procMsg.bytes = scheme.decrypt world body ∧
      cipherDec encType (UInt32.ofNat body.length) msg .empty world = (none, left, procMsg, world)

variable {isSyncEncryptionKey : ω → UInt8 → Bool} {encType : UInt8} {cipherInit : CipherInit ω}
  {cipherDec : CipherDec ω} {scheme : CipherScheme ω}

/-- The path that a body takes once a cipher has been set. -/
theorem cipherPath_set {earlier ciphers : Ciphers ω}
    (set : earlier.setCipher encType (some cipherInit) (some cipherDec) = .ok ciphers) (world : ω) :
    cipherPath ciphers isSyncEncryptionKey world =
      .ok (if isSyncEncryptionKey world encType = false then .syncKey encType cipherInit
        else if encType = encGreeting then .greeting
        else .decrypt encType (some cipherDec)) := by
  unfold Ciphers.setCipher at set
  split at set
  · cases set
  · rename_i numbered
    cases set
    have chosen : encType.toUInt16 ≠ notSetCipherValue := by
      intro same
      have value := congrArg UInt16.toNat same
      have bound := encType.toNat_lt
      rw [UInt8.toNat_toUInt16] at value
      change encType.toNat = 256 at value
      omega
    have back : encType.toUInt16.toUInt8 = encType := by simp
    simp only [cipherPath, if_neg chosen, back, Ciphers.getCipherHandler, if_neg numbered, if_true]
    by_cases fresh : isSyncEncryptionKey world encType = false
    · rw [if_pos fresh, if_pos fresh]
    · rw [if_neg fresh, if_neg fresh]
      by_cases greeting : encType = encGreeting
      · rw [if_pos greeting, if_pos greeting]
      · rw [if_neg greeting, if_neg greeting]

/-- The stage that agrees on the key. -/
theorem syncKeyFetch_opens (lawful : LawfulCipher isSyncEncryptionKey encType cipherInit cipherDec scheme)
    {body behind : List UInt8} {msg : MessageBuffer} {world : ω} (valid : msg.Valid)
    (content : msg.bytes = body ++ behind) (fresh : scheme.synced world = false) :
    Fetches behind (scheme.opens encType world body)
      (syncKeyFetch encType cipherInit (UInt32.ofNat body.length) msg world) := by
  obtain ⟨left, leftValid, same, inits⟩ := lawful.init world valid content
  rw [content] at same
  rw [CipherScheme.opens, if_pos fresh]
  unfold syncKeyFetch
  rw [inits]
  cases scheme.agree world body with
  | none => exact .stops
  | some later =>
      have there : left.readable (UInt32.ofNat body.length).toNat = true := by
        rw [(front_size valid content).2, MessageBuffer.readable_iff leftValid.ordered, same,
          List.length_append]
        omega
      obtain ⟨rest, taken, restValid, remains⟩ := front_taken leftValid same
      simp only [if_pos there, taken]
      exact .absorbed restValid remains

/-- The stage that decrypts. -/
theorem decryptFetch_opens (lawful : LawfulCipher isSyncEncryptionKey encType cipherInit cipherDec scheme)
    {body behind : List UInt8} {msg : MessageBuffer} {world : ω} (valid : msg.Valid)
    (content : msg.bytes = body ++ behind) (synced : scheme.synced world ≠ false)
    (encrypts : encType ≠ encGreeting) :
    Fetches behind (scheme.opens encType world body)
      (decryptFetch encType (some cipherDec) (UInt32.ofNat body.length) msg world) := by
  obtain ⟨left, procMsg, leftValid, same, procValid, text, decrypts⟩ :=
    lawful.decrypts world valid content
  rw [content] at same
  obtain ⟨rest, taken, restValid, remains⟩ := front_taken leftValid same
  rw [CipherScheme.opens, if_neg synced, if_neg encrypts]
  simp only [decryptFetch, decrypts, taken]
  rw [← MessageBuffer.bytes_length, text]
  by_cases nothing : scheme.decrypt world body = []
  · rw [if_pos nothing, if_pos (by rw [nothing]; rfl)]
    exact .stops
  · rw [if_neg nothing, if_neg (fun none => nothing (List.length_eq_zero_iff.mp none))]
    exact .text restValid remains procValid text

/-- The stage of the parsers with a cipher table, once a cipher has been set. -/
theorem cipherFetch_opens {earlier ciphers : Ciphers ω}
    (set : earlier.setCipher encType (some cipherInit) (some cipherDec) = .ok ciphers)
    (lawful : LawfulCipher isSyncEncryptionKey encType cipherInit cipherDec scheme) :
    FetchOpens (cipherFetch ciphers isSyncEncryptionKey) (scheme.opens encType) := by
  intro body behind msg world valid content
  unfold cipherFetch
  rw [cipherPath_set set world, lawful.synced world]
  by_cases fresh : scheme.synced world = false
  · rw [if_pos fresh]
    exact syncKeyFetch_opens lawful valid content fresh
  · rw [if_neg fresh]
    by_cases greeting : encType = encGreeting
    · rw [if_pos greeting, CipherScheme.opens, if_neg fresh, if_pos greeting]
      exact plainFetch_opens world valid content
    · rw [if_neg greeting]
      exact decryptFetch_opens lawful valid content fresh greeting

end

/-! ### Frames -/

section

variable {κ : Type} {parser : FrameParser κ} {codec : KeyCodec}

/-- The front part of a packet, the rest of which has not come with the same read. -/
def Torn (codec : KeyCodec) (tail : List UInt8) : Prop :=
  ∃ parts missing, parts ≠ [] ∧ partsSize parts < 2 ^ 16 ∧ missing ≠ [] ∧
    tail ++ missing = encodePacket codec parts

/-- What a parser has ahead of it: the parts of a packet that it is inside of, then packets, then a torn
    packet. -/
structure Ahead (codec : KeyCodec) (tail : List UInt8) (inside : List (List UInt8))
    (packets : List (List (List UInt8))) (state : ParseState κ) : Prop where
  valid : state.msg.Valid
  bytes : state.msg.bytes =
    inside.flatMap (encodePart codec) ++ (encodeStream codec packets ++ tail)
  between : inside = [] → state.readStartFromMainKey = true
  within : inside ≠ [] → state.readStartFromMainKey = false ∧
    state.totalSize = UInt32.ofNat (partsSize inside + 4)

/-- The parser stands in front of a body, and behind it `inside` and `packets` are ahead. -/
structure AtBody (codec : KeyCodec) (tail body : List UInt8) (inside : List (List UInt8))
    (packets : List (List (List UInt8))) (entered : ParseState κ) : Prop where
  valid : entered.msg.Valid
  bytes : entered.msg.bytes =
    body ++ (inside.flatMap (encodePart codec) ++ (encodeStream codec packets ++ tail))
  behind : ∀ {left : MessageBuffer} (calls : List (Call κ)), left.Valid →
    left.bytes = inside.flatMap (encodePart codec) ++ (encodeStream codec packets ++ tail) →
    Ahead codec tail inside packets { entered with msg := left, calls := calls }

theorem key_length (key : UInt32) : (u32Bytes key).length = sizeKey := u32Bytes_length key

/-- The part key of an encoded part leads to its body. -/
theorem takeKey_part (keys : parser.keys = codec.keys) {state : ParseState κ} {tail body : List UInt8}
    {inside : List (List UInt8)} {packets : List (List (List UInt8))} (valid : state.msg.Valid)
    (bytes : state.msg.bytes =
      (body :: inside).flatMap (encodePart codec) ++ (encodeStream codec packets ++ tail))
    (counter : state.totalSize = UInt32.ofNat (partsSize (body :: inside) + 4)) :
    ∃ entered, takeKey parser state = .next (UInt32.ofNat body.length, entered) ∧
      entered.calls = state.calls ∧ AtBody codec tail body inside packets entered := by
  have content : state.msg.bytes = u32Bytes (codec.partKey body.length) ++
      (body ++ (inside.flatMap (encodePart codec) ++ (encodeStream codec packets ++ tail))) := by
    rw [bytes, List.flatMap_cons, encodePart]
    simp only [List.append_assoc]
  have fits := (front_size valid bytes).1
  rw [flatMap_encodePart_length, partsSize_cons, MessageBuffer.maxBufferSize_eq] at fits
  have small : body.length < 2 ^ 16 := by omega
  have keyThere : sizeKey ≤ state.msg.bytes.length := by
    rw [content, List.length_append, u32Bytes_length, sizeKey]
    omega
  obtain ⟨msg, keyRead, msgValid, rest⟩ := MessageBuffer.read_ok valid keyThere
  rw [content, List.take_left' (key_length _)] at keyRead
  rw [content, List.drop_left' (key_length _)] at rest
  have bodyThere : msg.readable (UInt32.ofNat body.length).toNat = true := by
    rw [(front_size msgValid rest).2, MessageBuffer.readable_iff msgValid.ordered, rest,
      List.length_append]
    omega
  have left : state.totalSize - (UInt32.ofNat body.length + 4) = UInt32.ofNat (partsSize inside + 4) := by
    rw [counter, partsSize_cons, counter_after_part]
  simp only [takeKey, keyRead, keys, u32Of_u32Bytes, codec.partKeyOk small,
    codec.partLength small, if_true, if_pos bodyThere, left]
  refine ⟨_, rfl, rfl, ⟨msgValid, rest, ?_⟩⟩
  intro later calls laterValid laterBytes
  refine ⟨laterValid, laterBytes, ?_, ?_⟩
  · rintro rfl
    rfl
  · intro more
    have ahead := partsSize_ge more
    exact ⟨beq_eq_false_iff_ne.mpr (counter_ne_four ahead (by omega)), rfl⟩

/-- The main key of an encoded packet that is there leads to its parts. -/
theorem beginPacket_ahead (keys : parser.keys = codec.keys) {state : ParseState κ} {tail : List UInt8}
    {parts : List (List UInt8)} {packets : List (List (List UInt8))}
    (ahead : Ahead codec tail [] (parts :: packets) state) (nonempty : parts ≠ []) :
    ∃ opened, beginPacket parser state = .next opened ∧ opened.calls = state.calls ∧
      opened.msg.Valid ∧ opened.totalSize = UInt32.ofNat (partsSize parts + 4) ∧
      opened.msg.bytes = parts.flatMap (encodePart codec) ++ (encodeStream codec packets ++ tail) := by
  have valid := ahead.valid
  have content : state.msg.bytes = u32Bytes (codec.mainKey (partsSize parts)) ++
      (parts.flatMap (encodePart codec) ++ (encodeStream codec packets ++ tail)) := by
    rw [ahead.bytes, encodeStream_cons, encodePacket]
    simp only [List.flatMap_nil, List.nil_append, List.append_assoc]
  have length : state.msg.bytes.length =
      4 + (partsSize parts + (encodeStream codec packets ++ tail).length) := by
    rw [content, List.length_append, List.length_append, u32Bytes_length, flatMap_encodePart_length]
  have more := partsSize_ge nonempty
  have size := valid.size_le
  rw [← MessageBuffer.bytes_length, MessageBuffer.maxBufferSize_eq] at size
  have small : partsSize parts < 2 ^ 16 := by omega
  have header : state.msg.readableInto sizeHeader = some (state.msg.bytes.take sizeHeader) := by
    rw [MessageBuffer.readableInto_eq valid.ordered, if_pos]
    rw [length, sizeHeader]
    omega
  have mainKey : (state.msg.bytes.take sizeHeader).take sizeKey =
      u32Bytes (codec.mainKey (partsSize parts)) := by
    rw [List.take_take]
    change state.msg.bytes.take sizeKey = _
    rw [content, List.take_left' (key_length _)]
  have arrived : state.msg.readable (UInt32.ofNat (partsSize parts + 4)).toNat = true := by
    rw [u32_ofNat_toNat (by omega), MessageBuffer.readable_iff valid.ordered, length]
    omega
  have keyThere : sizeKey ≤ state.msg.bytes.length := by
    rw [length, sizeKey]
    omega
  obtain ⟨msg, keyRead, msgValid, rest⟩ := MessageBuffer.readCount_ok valid keyThere
  rw [content, List.drop_left' (key_length _)] at rest
  have total := mainLength_encode keys small
  simp only [beginPacket, if_pos (ahead.between rfl), header, mainKey, total, if_pos arrived, keyRead]
  rw [keys, u32Of_u32Bytes, if_pos (codec.mainKeyOk small)]
  exact ⟨_, rfl, rfl, msgValid, rfl, rest⟩

/-- With a body ahead, an iteration comes to stand in front of it. -/
theorem enterPart_ahead (keys : parser.keys = codec.keys) {state : ParseState κ} {tail body : List UInt8}
    {inside bodies : List (List UInt8)} {packets : List (List (List UInt8))}
    (ahead : Ahead codec tail inside packets state) (nonempty : ∀ parts ∈ packets, parts ≠ [])
    (first : inside ++ packets.flatten = body :: bodies) :
    ∃ entered later behind, enterPart parser state = .next (UInt32.ofNat body.length, entered) ∧
      entered.calls = state.calls ∧ AtBody codec tail body later behind entered ∧
      later ++ behind.flatten = bodies ∧ ∀ parts ∈ behind, parts ≠ [] := by
  cases inside with
  | cons part inside =>
      obtain ⟨rfl, rfl⟩ := List.cons.inj first
      have ⟨notFirst, counter⟩ := ahead.within (List.cons_ne_nil part inside)
      obtain ⟨entered, taken, calls, atBody⟩ := takeKey_part keys ahead.valid ahead.bytes counter
      refine ⟨entered, inside, packets, ?_, calls, atBody, rfl, nonempty⟩
      rw [enterPart, beginPacket, if_neg (by rw [notFirst]; exact Bool.false_ne_true)]
      exact taken
  | nil =>
      cases packets with
      | nil => cases first
      | cons parts packets =>
          have here := nonempty parts (List.mem_cons_self ..)
          obtain ⟨opened, begun, earlier, valid, counter, bytes⟩ := beginPacket_ahead keys ahead here
          cases parts with
          | nil => exact absurd rfl here
          | cons part inside =>
              obtain ⟨rfl, rfl⟩ := List.cons.inj first
              obtain ⟨entered, taken, calls, atBody⟩ := takeKey_part keys valid bytes counter
              refine ⟨entered, inside, packets, ?_, calls.trans earlier, atBody, rfl, ?_⟩
              · rw [enterPart, begun]
                exact taken
              · exact fun parts member => nonempty parts (List.mem_cons_of_mem _ member)

/-- With nothing but a torn packet ahead, the parser returns true and leaves it. -/
theorem enterPart_torn (keys : parser.keys = codec.keys) {state : ParseState κ} {tail : List UInt8}
    (ahead : Ahead codec tail [] [] state) (torn : Torn codec tail) :
    enterPart parser state = .done ⟨.returned true, state.msg, state.calls⟩ := by
  have valid := ahead.valid
  have content : state.msg.bytes = tail := ahead.bytes
  obtain ⟨parts, missing, nonempty, small, lacking, whole⟩ := torn
  have lengths := congrArg List.length whole
  rw [List.length_append, encodePacket_length] at lengths
  have lacks := List.length_pos_iff.mpr lacking
  have more := partsSize_ge nonempty
  rw [enterPart, beginPacket, if_pos (ahead.between rfl), MessageBuffer.readableInto_eq valid.ordered,
    content]
  by_cases header : sizeHeader ≤ tail.length
  · have keyLength : sizeKey ≤ tail.length := by
      rw [sizeHeader] at header
      rw [sizeKey]
      omega
    have mainKey : tail.take sizeKey = u32Bytes (codec.mainKey (partsSize parts)) := by
      have front := congrArg (List.take sizeKey) whole
      rw [List.take_append_of_le_length keyLength, encodePacket,
        List.take_left' (key_length _)] at front
      exact front
    have peeked : (tail.take sizeHeader).take sizeKey = u32Bytes (codec.mainKey (partsSize parts)) := by
      rw [List.take_take]
      exact mainKey
    have total := mainLength_encode keys small
    have late : state.msg.readable (UInt32.ofNat (partsSize parts + 4)).toNat ≠ true := by
      rw [Ne, u32_ofNat_toNat (by omega), MessageBuffer.readable_iff valid.ordered, content]
      omega
    rw [if_pos header]
    simp only [peeked, total, if_neg late]
    rw [keys, u32Of_u32Bytes, if_pos (codec.mainKeyOk small)]
  · rw [if_neg header]

end

/-! ### Sessions -/

section

variable {κ ω : Type} {parser : FrameParser κ} {codec : KeyCodec} {fetch : Fetch ω}
  {opens : ω → List UInt8 → Opened ω} {surroundings : Surroundings κ ω} {listeners : Listeners κ ω}

/-- Handlers that see of a message what it presents. -/
structure Hears (surroundings : Surroundings κ ω) (listeners : Listeners κ ω) : Prop where
  handler : ∀ {procMsg : MessageBuffer} (kind : κ) (size : UInt32) (world : ω), procMsg.Valid →
    surroundings.handler kind size procMsg world = listeners.handler kind size procMsg.bytes world
  noHandler : ∀ {procMsg : MessageBuffer} (world : ω), procMsg.Valid →
    surroundings.noHandler procMsg world = listeners.noHandler procMsg.bytes world

/-- The loop is left as a session is, behind the calls made before. -/
def EndsAs (parser : FrameParser κ) (fetch : Fetch ω) (surroundings : Surroundings κ ω)
    (state : StagedState κ ω) (talk : SessionResult κ ω) : Prop :=
  ∃ left, LoopEnds (stagedStep parser fetch surroundings) state
    ⟨⟨talk.ending, left, state.parse.calls ++ talk.calls⟩, talk.world⟩

/-- An iteration that goes round again without a call. -/
theorem EndsAs.next {state later : StagedState κ ω} {talk : SessionResult κ ω}
    (stepped : stagedStep parser fetch surroundings state = .next later)
    (same : later.parse.calls = state.parse.calls)
    (ends : EndsAs parser fetch surroundings later talk) : EndsAs parser fetch surroundings state talk := by
  obtain ⟨left, ends⟩ := ends
  rw [same] at ends
  exact ⟨left, .next stepped ends⟩

/-- The end of an iteration that has a text. -/
theorem callStaged_session (hears : Hears surroundings listeners) (state : ParseState κ)
    {procMsg : MessageBuffer} {body : List UInt8} {bodies : List (List UInt8)} {world last : ω}
    (opened : opens world body = .text procMsg.bytes last) (procValid : procMsg.Valid)
    (goesOn : ∀ calls later, EndsAs parser fetch surroundings ⟨{ state with calls := calls }, later⟩
      (session parser opens listeners later bodies))
    (start : StagedState κ ω) (earlier : start.parse.calls = state.calls)
    (stepped : stagedStep parser fetch surroundings start =
      callStaged parser surroundings state (UInt32.ofNat body.length) procMsg last) :
    EndsAs parser fetch surroundings start (session parser opens listeners world (body :: bodies)) := by
  unfold callStaged at stepped
  rw [packetCode_eq procValid, hears.noHandler last procValid] at stepped
  rw [session, opened]
  simp only
  cases routed : parser.route (codeOf parser.codeSize procMsg.bytes) with
  | none =>
      simp only [routed] at stepped ⊢
      split at stepped
      · rename_i fault later raised
        rw [raised, ← earlier] at *
        exact ⟨_, .done stepped⟩
      · rename_i later returned
        rw [returned, ← earlier] at *
        exact ⟨_, .done stepped⟩
  | some kind =>
      simp only [routed, hears.handler kind _ last procValid] at stepped ⊢
      cases given : listeners.handler kind (UInt32.ofNat body.length) procMsg.bytes last with
      | mk answer later =>
          cases answer with
          | some fault =>
              simp only [given] at stepped ⊢
              rw [← earlier] at stepped
              exact ⟨_, .done stepped⟩
          | none =>
              obtain ⟨left, ends⟩ :=
                goesOn (state.calls ++ [.handler kind (UInt32.ofNat body.length) procMsg.bytes]) later
              simp only [List.append_assoc, List.singleton_append] at ends
              simp only [given] at stepped ⊢
              refine ⟨left, .next stepped ?_⟩
              rw [earlier]
              exact ends

/-- A parser with a stage of its own holds the session of the bodies ahead. -/
theorem staged_session (keys : parser.keys = codec.keys) (fetches : FetchOpens fetch opens)
    (hears : Hears surroundings listeners) {tail : List UInt8} (torn : Torn codec tail)
    (bodies : List (List UInt8)) {inside : List (List UInt8)} {packets : List (List (List UInt8))}
    {state : ParseState κ} (world : ω) (ahead : Ahead codec tail inside packets state)
    (nonempty : ∀ parts ∈ packets, parts ≠ []) (all : inside ++ packets.flatten = bodies) :
    EndsAs parser fetch surroundings ⟨state, world⟩ (session parser opens listeners world bodies) := by
  induction bodies generalizing inside packets state world with
  | nil =>
      obtain ⟨rfl, flat⟩ := List.append_eq_nil_iff.mp all
      cases packets with
      | cons parts packets =>
          have here := nonempty parts (List.mem_cons_self ..)
          exact absurd (List.append_eq_nil_iff.mp flat).1 here
      | nil =>
          have stops := enterPart_torn keys ahead torn
          refine ⟨state.msg, .done ?_⟩
          simp only [stagedStep, stops, session, List.append_nil]
  | cons body bodies inductionHypothesis =>
      obtain ⟨entered, later, behind, enters, earlier, atBody, rest, stillNonempty⟩ :=
        enterPart_ahead keys ahead nonempty all
      have step := stagedStep.eq_def parser fetch surroundings ⟨state, world⟩
      rw [enters] at step
      simp only at step
      have fetched := fetches world atBody.valid atBody.bytes
      generalize opened : opens world body = what at fetched
      generalize fetch (UInt32.ofNat body.length) entered.msg world = made at fetched step
      cases fetched with
      | stops =>
          rw [session, opened, EndsAs, ← earlier, List.append_nil]
          exact ⟨_, .done step⟩
      | @absorbed left next valid content =>
          rw [session, opened]
          have ends := inductionHypothesis next (atBody.behind entered.calls valid content) stillNonempty rest
          exact ends.next step earlier
      | @text left procMsg plain next valid content procValid same =>
          subst same
          refine callStaged_session hears { entered with msg := left } opened procValid
            (fun calls last => ?_) _ earlier.symm step
          exact inductionHypothesis last (atBody.behind calls valid content) stillNonempty rest

/-- Bodies that a session takes without stopping, the calls they make, and the world behind them. -/
inductive Takes (parser : FrameParser κ) (opens : ω → List UInt8 → Opened ω) (listeners : Listeners κ ω) :
    ω → List (List UInt8) → List (Call κ) → ω → Prop where
  | nil {world : ω} : Takes parser opens listeners world [] [] world
  | absorbed {world later last : ω} {body : List UInt8} {bodies : List (List UInt8)} {calls : List (Call κ)}
      (opened : opens world body = .absorbed later)
      (rest : Takes parser opens listeners later bodies calls last) :
      Takes parser opens listeners world (body :: bodies) calls last
  | text {world later next last : ω} {body plain : List UInt8} {bodies : List (List UInt8)}
      {calls : List (Call κ)} {kind : κ} (opened : opens world body = .text plain later)
      (routed : parser.route (codeOf parser.codeSize plain) = some kind)
      (returns : listeners.handler kind (UInt32.ofNat body.length) plain later = (none, next))
      (rest : Takes parser opens listeners next bodies calls last) :
      Takes parser opens listeners world (body :: bodies)
        (.handler kind (UInt32.ofNat body.length) plain :: calls) last

/-- The session of bodies that it takes without stopping. -/
theorem Takes.session {world last : ω} {bodies : List (List UInt8)} {calls : List (Call κ)}
    (takes : Takes parser opens listeners world bodies calls last) :
    session parser opens listeners world bodies = ⟨.returned true, calls, last⟩ := by
  induction takes with
  | nil => rfl
  | absorbed opened _ inductionHypothesis =>
      rw [Spec.session, opened]
      exact inductionHypothesis
  | text opened routed returns _ inductionHypothesis =>
      rw [Spec.session, opened]
      simp only [routed, returns, inductionHypothesis]

/-- Bodies can be taken in two goes. -/
theorem Takes.split {world last : ω} {front back : List (List UInt8)} {calls : List (Call κ)}
    (takes : Takes parser opens listeners world (front ++ back) calls last) :
    ∃ middle early late, Takes parser opens listeners world front early middle ∧
      Takes parser opens listeners middle back late last ∧ calls = early ++ late := by
  induction front generalizing world calls with
  | nil => exact ⟨world, [], calls, .nil, takes, rfl⟩
  | cons body front inductionHypothesis =>
      cases takes with
      | absorbed opened rest =>
          obtain ⟨middle, early, late, before, behind, rfl⟩ := inductionHypothesis rest
          exact ⟨middle, early, late, .absorbed opened before, behind, rfl⟩
      | text opened routed returns rest =>
          obtain ⟨middle, early, late, before, behind, rfl⟩ := inductionHypothesis rest
          exact ⟨middle, _, late, .text opened routed returns before, behind, rfl⟩

end

/-! ### Reads -/

/-- What a read brought: whole packets, and the front part of one that is torn. -/
structure Chunk where
  packets : List (List (List UInt8))
  tail : List UInt8
  nonempty : ∀ parts ∈ packets, parts ≠ []
  torn : Torn maskedCodec tail
  fits : (encodeStream maskedCodec packets ++ tail).length ≤ MessageBuffer.maxBufferSize

/-- The receive buffer that the read leaves. -/
def Chunk.received (chunk : Chunk) : MessageBuffer :=
  .received (encodeStream maskedCodec chunk.packets ++ chunk.tail)

/-- The bodies that arrived whole with the reads, in order. -/
def bodiesOf (chunks : List Chunk) : List (List UInt8) := chunks.flatMap fun chunk => chunk.packets.flatten

/-- Reads are parsed one after the other, each in the world that the one before has left. -/
inductive ReadsAll {κ ω : Type} (parses : MessageBuffer → ω → StagedResult κ ω → Prop) :
    ω → List Chunk → List (Call κ) → ω → Prop where
  | nil {world : ω} : ReadsAll parses world [] [] world
  | cons {world last : ω} {chunk : Chunk} {chunks : List Chunk} {result : StagedResult κ ω}
      {calls : List (Call κ)} (parsed : parses chunk.received world result)
      (rest : ReadsAll parses result.world chunks calls last) :
      ReadsAll parses world (chunk :: chunks) (result.result.calls ++ calls) last

section

variable {κ ω : Type} {parser : FrameParser κ} {fetch : Fetch ω} {opens : ω → List UInt8 → Opened ω}
  {surroundings : Surroundings κ ω} {listeners : Listeners κ ω}

/-- A read is ahead of a parser that is called on it. -/
theorem Chunk.ahead (chunk : Chunk) :
    Ahead maskedCodec chunk.tail [] chunk.packets (parseEntry chunk.received : ParseState κ) where
  valid := MessageBuffer.received_valid chunk.fits
  bytes := MessageBuffer.received_bytes _
  between _ := rfl
  within more := absurd rfl more

/-- Reads whose bodies a session takes are parsed, and the calls are those of the session. -/
theorem Takes.readsAll (keys : parser.keys = maskedKeys) (fetches : FetchOpens fetch opens)
    (hears : Hears surroundings listeners) {chunks : List Chunk} {world last : ω} {calls : List (Call κ)}
    (takes : Takes parser opens listeners world (bodiesOf chunks) calls last) :
    ReadsAll (StagedParse parser fetch surroundings) world chunks calls last := by
  induction chunks generalizing world calls with
  | nil =>
      cases takes
      exact .nil
  | cons chunk chunks inductionHypothesis =>
      obtain ⟨middle, early, late, here, rest, rfl⟩ := takes.split
      obtain ⟨left, ends⟩ := staged_session keys fetches hears chunk.torn _ world chunk.ahead
        chunk.nonempty (List.nil_append _)
      rw [here.session] at ends
      exact .cons ends (inductionHypothesis rest)

/-- Reads come to one sequence of calls at most. -/
theorem ReadsAll.unique {chunks : List Chunk} {world last otherLast : ω} {calls otherCalls : List (Call κ)}
    (reads : ReadsAll (StagedParse parser fetch surroundings) world chunks calls last)
    (others : ReadsAll (StagedParse parser fetch surroundings) world chunks otherCalls otherLast) :
    otherCalls = calls ∧ otherLast = last := by
  induction reads generalizing otherCalls with
  | nil =>
      cases others
      exact ⟨rfl, rfl⟩
  | cons parsed _ inductionHypothesis =>
      cases others with
      | cons otherParsed rest =>
          cases LoopEnds.unique parsed otherParsed
          obtain ⟨rfl, rfl⟩ := inductionHypothesis rest
          exact ⟨rfl, rfl⟩

theorem Takes.readsAll_iff (keys : parser.keys = maskedKeys) (fetches : FetchOpens fetch opens)
    (hears : Hears surroundings listeners) {chunks : List Chunk} {world last final : ω}
    {calls made : List (Call κ)} (takes : Takes parser opens listeners world (bodiesOf chunks) made last) :
    ReadsAll (StagedParse parser fetch surroundings) world chunks calls final ↔
      calls = made ∧ final = last := by
  constructor
  · exact (takes.readsAll keys fetches hears).unique
  · rintro ⟨rfl, rfl⟩
    exact takes.readsAll keys fetches hears

/-! ### The peer -/

/-- The call for a text that was sent encrypted. -/
def encryptedCall (parser : FrameParser κ) (encrypt : List UInt8 → List UInt8) (text : List UInt8) : Call κ :=
  match parser.route (codeOf parser.codeSize text) with
  | some kind => .handler kind (UInt32.ofNat (encrypt text).length) text
  | none => .noHandler text

/-- A peer whose encrypted texts are opened again in every world that holds its key, and that the handlers
    listen to without giving the key away. -/
structure Understands (parser : FrameParser κ) (opens : ω → List UInt8 → Opened ω)
    (listeners : Listeners κ ω) (keyed : ω → Prop) (encrypt : List UInt8 → List UInt8)
    (texts : List (List UInt8)) : Prop where
  undone : ∀ {world : ω} {text : List UInt8}, keyed world → text ∈ texts →
    opens world (encrypt text) = .text text world
  heard : ∀ {text : List UInt8}, text ∈ texts →
    ∃ kind, parser.route (codeOf parser.codeSize text) = some kind ∧
      ∀ {world : ω}, keyed world → ∃ later,
        listeners.handler kind (UInt32.ofNat (encrypt text).length) text world = (none, later) ∧ keyed later

/-- The texts of a peer that is understood are taken. -/
theorem Understands.takes {keyed : ω → Prop} {encrypt : List UInt8 → List UInt8} {texts : List (List UInt8)}
    (understands : Understands parser opens listeners keyed encrypt texts) {world : ω} (holds : keyed world) :
    ∃ last, keyed last ∧
      Takes parser opens listeners world (texts.map encrypt) (texts.map (encryptedCall parser encrypt)) last := by
  induction texts generalizing world with
  | nil => exact ⟨world, holds, .nil⟩
  | cons text texts inductionHypothesis =>
      have here := List.mem_cons_self (a := text) (l := texts)
      have others : Understands parser opens listeners keyed encrypt texts :=
        ⟨fun holds member => understands.undone holds (List.mem_cons_of_mem _ member),
          fun member => understands.heard (List.mem_cons_of_mem _ member)⟩
      obtain ⟨kind, routed, hears⟩ := understands.heard here
      obtain ⟨later, returns, stillHolds⟩ := hears holds
      obtain ⟨last, lastHolds, rest⟩ := inductionHypothesis others stillHolds
      have call : encryptedCall parser encrypt text =
          .handler kind (UInt32.ofNat (encrypt text).length) text := by
        simp only [encryptedCall, routed]
      refine ⟨last, lastHolds, ?_⟩
      rw [List.map_cons, List.map_cons, call]
      exact .text (understands.undone holds here) routed returns rest

end

section

variable {η ω : Type} {isSyncEncryptionKey : ω → UInt8 → Bool} {encType : UInt8} {cipherInit : CipherInit ω}
  {cipherDec : CipherDec ω} {scheme : CipherScheme ω} {surroundings : Surroundings (MapHandler η) ω}
  {listeners : Listeners (MapHandler η) ω} {keyed : ω → Prop} {encrypt : List UInt8 → List UInt8}

/-- With a lawful cipher in the table, a peer sends its key and then encrypted texts; nothing is known of how
    the bodies stand in packets, and the packets in reads.  Both parsers with a cipher table then make one
    call for each text, in order, and no call for the key. -/
theorem cipher_session_delivers (memberFuncMap staticFuncMap : MsgMap η) {earlier ciphers : Ciphers ω}
    (set : earlier.setCipher encType (some cipherInit) (some cipherDec) = .ok ciphers)
    (lawful : LawfulCipher isSyncEncryptionKey encType cipherInit cipherDec scheme)
    (hears : Hears surroundings listeners) {texts : List (List UInt8)}
    (understands : Understands (packetParser memberFuncMap staticFuncMap) (scheme.opens encType) listeners
      keyed encrypt texts)
    {key : List UInt8} {world first : ω} (fresh : scheme.synced world = false)
    (agrees : scheme.agree world key = some first) (holds : keyed first) {chunks : List Chunk}
    (sent : bodiesOf chunks = key :: texts.map encrypt) :
    ∃ last, keyed last ∧ ∀ calls final,
      (ReadsAll (PacketParser ciphers isSyncEncryptionKey memberFuncMap staticFuncMap surroundings) world
          chunks calls final ↔
        calls = texts.map (encryptedCall (packetParser memberFuncMap staticFuncMap) encrypt) ∧
          final = last) ∧
      (ReadsAll (Lobby.PacketParser ciphers isSyncEncryptionKey memberFuncMap staticFuncMap surroundings)
          world chunks calls final ↔
        calls = texts.map (encryptedCall (packetParser memberFuncMap staticFuncMap) encrypt) ∧
          final = last) := by
  have opened : scheme.opens encType world key = .absorbed first := by
    rw [CipherScheme.opens, if_pos fresh, agrees]
  obtain ⟨last, lastHolds, takes⟩ := understands.takes holds
  have all := Takes.absorbed opened takes
  rw [← sent] at all
  have fetches := cipherFetch_opens set lawful
  exact ⟨last, lastHolds, fun calls final =>
    ⟨all.readsAll_iff rfl fetches hears, all.readsAll_iff rfl fetches hears⟩⟩

end

/-! ### A key of one byte -/

/-- The key is the first byte of a body, and is added to every byte without carry. -/
def byteScheme : CipherScheme (Option UInt8) where
  synced := Option.isSome
  agree _ body := body.head?.map some
  agreed := by
    intro _ later body agrees
    obtain ⟨key, _, rfl⟩ := Option.map_eq_some_iff.mp agrees
    rfl
  decrypt world body := body.map fun byte => byte ^^^ world.getD 0

/-- The function that takes the key. -/
def byteInit : CipherInit (Option UInt8) := fun _ partBodySize msg world =>
  match byteScheme.agree world (msg.bytes.take partBodySize.toNat) with
  | some later => (.ok true, msg, later)
  | none => (.ok false, msg, world)

/-- The function that decrypts. -/
def byteDec : CipherDec (Option UInt8) := fun _ partBodySize msg _ world =>
  (none, msg, .received (byteScheme.decrypt world (msg.bytes.take partBodySize.toNat)), world)

theorem byteCipher_lawful :
    LawfulCipher (fun world _ => world.isSome) 2 byteInit byteDec byteScheme where
  synced _ := rfl
  init := by
    intro body behind msg world valid content
    have front : msg.bytes.take (UInt32.ofNat body.length).toNat = body := by
      rw [(front_size valid content).2, content, List.take_left]
    refine ⟨msg, valid, rfl, ?_⟩
    simp only [byteInit, front]
    cases byteScheme.agree world body with
    | none => rfl
    | some later => rfl
  decrypts := by
    intro body behind msg world valid content
    have ⟨fits, size⟩ := front_size valid content
    have front : msg.bytes.take (UInt32.ofNat body.length).toNat = body := by
      rw [size, content, List.take_left]
    have length : (byteScheme.decrypt world body).length = body.length := List.length_map _
    refine ⟨msg, .received (byteScheme.decrypt world body), valid, rfl,
      MessageBuffer.received_valid (by omega), MessageBuffer.received_bytes _, ?_⟩
    rw [byteDec, front]

/-- The key in one read, with the first byte of another packet, and a text in the next. -/
def keyThenText : List Chunk :=
  [{ packets := [[[90]]]
     tail := [8]
     nonempty := by decide
     torn := ⟨[[90, 90, 90, 90]], [0, 255, 255, 4, 0, 243, 255, 90, 90, 90, 90], by decide, by decide,
       by decide, by decide⟩
     fits := by decide },
   { packets := [[[91, 90, 90, 90]]]
     tail := []
     nonempty := by decide
     torn := ⟨[[]], [4, 0, 255, 255, 0, 0, 243, 255], by decide, by decide, by decide, by decide⟩
     fits := by decide }]

/-- Handlers that only return. -/
def returning : Surroundings (MapHandler Unit) (Option UInt8) :=
  ⟨fun _ _ _ world => (none, world), fun _ world => (none, world)⟩

/-- The handler of the packet code 1 gets the text, whose body is 91, 90, 90, 90 on the wire. -/
theorem cipher_session_delivers_text : ∃ ciphers last,
    Ciphers.setCipher 2 (some byteInit) (some byteDec) .new = .ok ciphers ∧ last = some 90 ∧
      ∀ calls final,
        (ReadsAll (PacketParser ciphers (fun world _ => world.isSome) oneHandler (fun _ => none)
            returning) none keyThenText calls final ↔
          calls = [.handler (.memberFunc ()) 4 [1, 0, 0, 0]] ∧ final = last) ∧
        (ReadsAll (Lobby.PacketParser ciphers (fun world _ => world.isSome) oneHandler (fun _ => none)
            returning) none keyThenText calls final ↔
          calls = [.handler (.memberFunc ()) 4 [1, 0, 0, 0]] ∧ final = last) := by
  have understands : Understands (packetParser oneHandler fun _ => none) (byteScheme.opens 2)
      ⟨fun _ _ _ world => (none, world), fun _ world => (none, world)⟩ (fun world => world = some 90)
      (List.map fun byte => byte ^^^ 90) [[1, 0, 0, 0]] := by
    constructor
    · rintro _ text rfl member
      rw [List.mem_singleton.mp member]
      rfl
    · intro text member
      rw [List.mem_singleton.mp member]
      exact ⟨.memberFunc (), by decide, fun holds => ⟨_, rfl, holds⟩⟩
  have hears : Hears returning ⟨fun _ _ _ world => (none, world), fun _ world => (none, world)⟩ :=
    ⟨fun _ _ _ _ => rfl, fun _ _ => rfl⟩
  have agrees : byteScheme.agree none [90] = some (some 90) := rfl
  have sent : bodiesOf keyThenText = [90] :: [[1, 0, 0, 0]].map (List.map fun byte => byte ^^^ 90) := by
    decide
  obtain ⟨last, holds, delivers⟩ := cipher_session_delivers oneHandler (fun _ => none) rfl byteCipher_lawful
    hears understands rfl agrees rfl sent
  exact ⟨_, last, rfl, holds, delivers⟩

end LobbySvr.Proofs
