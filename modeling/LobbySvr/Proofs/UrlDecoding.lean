/-
Module: LobbySvr.Proofs.UrlDecoding
Layer: Proofs
Purpose: How the two JSON readers get the URL out of a packet.  Both copy the field into an array of its own
  size and use the array as a C string, so a field without a NUL runs on into the memory behind the array.
  The senders fill all 32 bytes of the field, and a URL that does so is not read back.
Imports: LobbySvr.Proofs.JsonSizeGuard, LobbySvr.Proofs.JsonAcceptance
Trusted boundary: none
Main exports: fieldString, urlString_own_iff, urlString_padded_iff, Accepted, DispatchesUnder,
  dispatchesUnder_iff, lobby_field_iff, broker_field_iff, lobby_stored_iff, broker_stored_iff,
  urls_decoded_iff
Open obligations: none
-/
import LobbySvr.Proofs.JsonSizeGuard
import LobbySvr.Proofs.JsonAcceptance

namespace LobbySvr.Proofs

open LobbySvr.Foundation
open LobbySvr.Net
open LobbySvr.Spec
open LobbySvr.Lobby

/-! ### A field used as a C string -/

/-- The bytes of a field before its first NUL, all of them when there is none. -/
def fieldString (field : List UInt8) : List UInt8 := field.takeWhile (· ≠ 0)

theorem urlString_terminated {field : List UInt8} (terminated : 0 ∈ field) (beyond : List UInt8) :
    urlString field beyond = fieldString field := by
  unfold urlString fieldString
  induction field with
  | nil => cases terminated
  | cons byte rest inductionHypothesis =>
      by_cases nul : byte = 0
      · subst nul
        rfl
      · have kept : decide (byte ≠ 0) = true := decide_eq_true nul
        rcases List.mem_cons.mp terminated with zero | inRest
        · exact absurd zero.symm nul
        · simp only [List.cons_append, List.takeWhile_cons, kept, inductionHypothesis inRest]

theorem urlString_unterminated {field : List UInt8} (unterminated : 0 ∉ field) (beyond : List UInt8) :
    urlString field beyond = field ++ fieldString beyond := by
  have kept : ∀ byte ∈ field, decide (byte ≠ 0) = true := by
    intro byte member
    apply decide_eq_true
    rintro rfl
    exact unterminated member
  rw [urlString, List.takeWhile_append_of_pos kept, fieldString]

/-- A field is read from its own bytes alone exactly when it holds a NUL. -/
theorem urlString_own_iff (field : List UInt8) :
    (∀ beyond, urlString field beyond = fieldString field) ↔ 0 ∈ field := by
  constructor
  · intro own
    apply Classical.byContradiction
    intro unterminated
    -- Nothing behind the array, and one more letter behind it.
    have alone := own []
    have longer := own [65]
    rw [urlString_unterminated unterminated, ← alone, urlString_unterminated unterminated] at longer
    have same := List.append_cancel_left longer
    cases same
  · intro terminated beyond
    exact urlString_terminated terminated beyond

/-- A stored URL is read back exactly when it leaves room for a NUL. -/
theorem urlString_padded_iff {url : List UInt8} (room : url.length ≤ maxUrlString) (noNul : 0 ∉ url) :
    (∀ beyond, urlString (paddedUrl url) beyond = url) ↔ url.length ≤ 31 := by
  constructor
  · intro own
    apply Nat.le_of_lt_succ
    apply Nat.lt_of_le_of_ne room
    intro full
    have whole : paddedUrl url = url := by
      rw [paddedUrl, full, Nat.sub_self, List.replicate_zero, List.append_nil]
    have longer := own [65]
    rw [whole, urlString_unterminated noNul] at longer
    have more := congrArg List.length longer
    simp [fieldString] at more
  · intro short beyond
    exact urlString_padded beyond (Nat.lt_succ_of_le short) noNul

/-! ### The readers -/

section

variable {J : Type}

/-- A reader, as a function of the memory behind its URL array. -/
abbrev UrlReader (J : Type) := List UInt8 → Except Fault (ReadExit J)

/-- The packet gets as far as `dispatch`. -/
def Accepted (reader : UrlReader J) : Prop :=
  ∃ beyond url text value, reader beyond = .ok (.dispatched url text value)

/-- Whatever lies behind the array, the packet is dispatched under `url`. -/
def DispatchesUnder (reader : UrlReader J) (url : List UInt8) : Prop :=
  ∀ beyond found text value, reader beyond = .ok (.dispatched found text value) → found = url

/-- The URL is the only thing the reader takes from behind the array. -/
theorem readBody_url {parseJson : List UInt8 → Option J} {maxBodySize : Nat} {bodySize : UInt16}
    {url found text : List UInt8} {msg : MessageBuffer} {value : J}
    (exit : readBody parseJson maxBodySize bodySize url msg = .dispatched found text value) :
    found = url ∧ ∀ other, readBody parseJson maxBodySize bodySize other msg =
      .dispatched other text value := by
  unfold readBody at exit ⊢
  split at exit
  · cases exit
  · rename_i accepted
    split at exit
    · cases exit
    · split at exit
      · cases exit
      · cases exit
        refine ⟨rfl, ?_⟩
        intro other
        rw [if_neg accepted]

theorem dispatchesUnder_iff {reader : UrlReader J} {parseJson : List UInt8 → Option J}
    {maxBodySize : Nat} {bodySize : UInt16} {field : List UInt8} {msg : MessageBuffer}
    (reads : ∀ beyond, reader beyond =
      .ok (readBody parseJson maxBodySize bodySize (urlString field beyond) msg))
    (accepted : Accepted reader) (url : List UInt8) :
    DispatchesUnder reader url ↔ ∀ beyond, urlString field beyond = url := by
  constructor
  · intro under beyond
    obtain ⟨some, found, text, value, exit⟩ := accepted
    rw [reads, Except.ok.injEq] at exit
    have everywhere := (readBody_url exit).2 (urlString field beyond)
    apply under beyond _ text value
    rw [reads, everywhere]
  · intro same beyond found text value exit
    rw [reads, Except.ok.injEq] at exit
    rw [(readBody_url exit).1, same]

variable (parseJson : List UInt8 → Option J)

def lobbyUrlReader (user : Bool) (size : UInt32) (msg : MessageBuffer) : UrlReader J :=
  fun beyond => LobbyAcceptorReceiver.readJsonPacket parseJson user beyond size msg

def brokerUrlReader (msg : MessageBuffer) : UrlReader J :=
  fun beyond => BrokerConnector.readJsonPacket parseJson beyond msg

variable {parseJson}

/-- A packet that the lobby reader accepts has a whole head. -/
theorem lobbyUrlReader_reads {user : Bool} {size : UInt32} {msg : MessageBuffer} (valid : msg.Valid)
    (accepted : Accepted (lobbyUrlReader parseJson user size msg)) :
    ∃ bodySize later, ∀ beyond, lobbyUrlReader parseJson user size msg beyond =
      .ok (readBody parseJson LobbyProtocol.maxBodySize bodySize
        (urlString (LobbyProtocol.urlField msg.bytes) beyond) later) := by
  obtain ⟨some, found, text, value, exit⟩ := accepted
  simp only [lobbyUrlReader, LobbyAcceptorReceiver.readJsonPacket] at exit ⊢
  split at exit
  · cases exit
  · rename_i somebody
    split at exit
    · cases exit
    · rename_i long
      split at exit
      · cases exit
      · rename_i head later headRead
        have field : LobbyProtocol.urlField head = LobbyProtocol.urlField msg.bytes := by
          rw [MessageBuffer.read_front valid headRead, LobbyProtocol.urlField_take]
        refine ⟨LobbyProtocol.bodySizeField head, later, ?_⟩
        intro beyond
        rw [if_neg somebody, if_neg long, field]

/-- A packet that the broker reader accepts has a whole head. -/
theorem brokerUrlReader_reads {msg : MessageBuffer} (valid : msg.Valid)
    (accepted : Accepted (brokerUrlReader parseJson msg)) :
    ∃ bodySize later, ∀ beyond, brokerUrlReader parseJson msg beyond =
      .ok (readBody parseJson BrokerProtocol.maxBodySize bodySize
        (urlString (BrokerProtocol.urlField msg.bytes) beyond) later) := by
  obtain ⟨some, found, text, value, exit⟩ := accepted
  simp only [brokerUrlReader, BrokerConnector.readJsonPacket] at exit ⊢
  split at exit
  · cases exit
  · rename_i head later headRead
    have field : BrokerProtocol.urlField head = BrokerProtocol.urlField msg.bytes := by
      rw [MessageBuffer.read_front valid headRead, BrokerProtocol.urlField_take]
    refine ⟨BrokerProtocol.bodySizeField head, later, ?_⟩
    intro beyond
    rw [field]

end

/-! ### The senders -/

section

variable {J K : Type} (json : JsonCpp K)

/-- What `User::SendJsonPacket` hands to `Send` holds the URL in its field, and fits a message. -/
theorem user_sent {sequenceNo : UInt32} {memory : Nat → UInt8} {url packet : List UInt8}
    {jv prepared : K} (room : url.length ≤ maxUrlString)
    (sent : User.sendJsonPacket json (.new sequenceNo memory) url jv = .ok (.sent packet prepared)) :
    LobbyProtocol.urlField packet = paddedUrl url ∧ packet.length ≤ MessageBuffer.maxBufferSize := by
  cases prepares : User.prepare json jv with
  | none =>
      rw [User.sendJsonPacket, prepares] at sent
      cases sent
  | some result =>
      obtain ⟨packetSequenceNo, value⟩ := result
      by_cases fits : (json.write value).length + 1 ≤ LobbyProtocol.maxBodySize
      · rw [user_sends json sequenceNo memory room prepares fits, Except.ok.injEq,
          SendExit.sent.injEq] at sent
        obtain ⟨rfl, rfl⟩ := sent
        have field : (filledLobby packetSequenceNo memory url (json.write value)).url.length =
            maxUrlString := paddedUrl_length room
        have head := lobby_head_length field
        constructor
        · rw [← LobbyProtocol.urlField_take, List.take_left' head, lobby_urlField field,
            filledLobby_url]
        · have limit : LobbyProtocol.headSize + LobbyProtocol.maxBodySize = 30040 := rfl
          have maxSize := MessageBuffer.maxBufferSize_eq
          rw [List.length_append, List.length_append, List.length_singleton, head]
          omega
      · have long := Nat.lt_of_not_le fits
        rw [user_sends_overflow json sequenceNo memory room prepares long] at sent
        cases sent

/-- What `ConnectorUser::SendJsonPacket` hands to `Send` holds the URL in its field, and fits a
    message. -/
theorem connectorUser_sent {memory : Nat → UInt8} {url packet : List UInt8} {jv : K}
    (room : url.length ≤ maxUrlString)
    (sent : ConnectorUser.sendJsonPacket json (.new memory) url jv = .ok packet) :
    BrokerProtocol.urlField packet = paddedUrl url ∧ packet.length ≤ MessageBuffer.maxBufferSize := by
  by_cases fits : (json.write jv).length ≤ BrokerProtocol.maxBodySize
  · rw [connectorUser_sends json memory room fits, Except.ok.injEq] at sent
    subst sent
    have field : (filledBroker memory url (json.write jv)).url.length = maxUrlString :=
      paddedUrl_length room
    have head := broker_head_length field
    constructor
    · rw [← BrokerProtocol.urlField_take, List.take_left' head, broker_urlField field,
        filledBroker_url]
    · have limit : BrokerProtocol.headSize + BrokerProtocol.maxBodySize = 4038 := rfl
      have maxSize := MessageBuffer.maxBufferSize_eq
      rw [List.length_append, head]
      omega
  · cases filled : ConnectorUser.fill (.new memory) url (json.write jv) with
    | error fault =>
        rw [ConnectorUser.sendJsonPacket, filled] at sent
        cases sent
    | ok pk => exact absurd filled (broker_fill_overflow memory (Nat.lt_of_not_le fits) pk)

end

/-! ### Sender and reader -/

section

variable {J K : Type} (parseJson : List UInt8 → Option J) (json : JsonCpp K)

theorem lobby_field_iff (user : Bool) (size : UInt32) {msg : MessageBuffer} (valid : msg.Valid)
    (accepted : Accepted (lobbyUrlReader parseJson user size msg)) :
    DispatchesUnder (lobbyUrlReader parseJson user size msg)
        (fieldString (LobbyProtocol.urlField msg.bytes)) ↔ 0 ∈ LobbyProtocol.urlField msg.bytes := by
  obtain ⟨bodySize, later, reads⟩ := lobbyUrlReader_reads valid accepted
  rw [dispatchesUnder_iff reads accepted, urlString_own_iff]

theorem broker_field_iff {msg : MessageBuffer} (valid : msg.Valid)
    (accepted : Accepted (brokerUrlReader parseJson msg)) :
    DispatchesUnder (brokerUrlReader parseJson msg) (fieldString (BrokerProtocol.urlField msg.bytes)) ↔
      0 ∈ BrokerProtocol.urlField msg.bytes := by
  obtain ⟨bodySize, later, reads⟩ := brokerUrlReader_reads valid accepted
  rw [dispatchesUnder_iff reads accepted, urlString_own_iff]

theorem lobby_stored_iff {sequenceNo : UInt32} {memory : Nat → UInt8} {url packet : List UInt8}
    {jv prepared : K} (room : url.length ≤ maxUrlString) (noNul : 0 ∉ url)
    (sent : User.sendJsonPacket json (.new sequenceNo memory) url jv = .ok (.sent packet prepared))
    (user : Bool) (size : UInt32)
    (accepted : Accepted (lobbyUrlReader parseJson user size (.received packet))) :
    DispatchesUnder (lobbyUrlReader parseJson user size (.received packet)) url ↔ url.length ≤ 31 := by
  obtain ⟨field, fits⟩ := user_sent json room sent
  obtain ⟨bodySize, later, reads⟩ := lobbyUrlReader_reads (MessageBuffer.received_valid fits) accepted
  rw [MessageBuffer.received_bytes, field] at reads
  rw [dispatchesUnder_iff reads accepted, urlString_padded_iff room noNul]

theorem broker_stored_iff {memory : Nat → UInt8} {url packet : List UInt8} {jv : K}
    (room : url.length ≤ maxUrlString) (noNul : 0 ∉ url)
    (sent : ConnectorUser.sendJsonPacket json (.new memory) url jv = .ok packet)
    (accepted : Accepted (brokerUrlReader parseJson (.received packet))) :
    DispatchesUnder (brokerUrlReader parseJson (.received packet)) url ↔ url.length ≤ 31 := by
  obtain ⟨field, fits⟩ := connectorUser_sent json room sent
  obtain ⟨bodySize, later, reads⟩ := brokerUrlReader_reads (MessageBuffer.received_valid fits) accepted
  rw [MessageBuffer.received_bytes, field] at reads
  rw [dispatchesUnder_iff reads accepted, urlString_padded_iff room noNul]

/-- An accepted packet is dispatched under the string in its own URL field exactly when the field holds a
    NUL, and a URL that a sender stored is read back exactly when it leaves room for one. -/
theorem urls_decoded_iff :
    (∀ (user : Bool) (size : UInt32) (msg : MessageBuffer), msg.Valid →
      Accepted (lobbyUrlReader parseJson user size msg) →
      (DispatchesUnder (lobbyUrlReader parseJson user size msg)
          (fieldString (LobbyProtocol.urlField msg.bytes)) ↔ 0 ∈ LobbyProtocol.urlField msg.bytes)) ∧
    (∀ msg : MessageBuffer, msg.Valid → Accepted (brokerUrlReader parseJson msg) →
      (DispatchesUnder (brokerUrlReader parseJson msg)
          (fieldString (BrokerProtocol.urlField msg.bytes)) ↔ 0 ∈ BrokerProtocol.urlField msg.bytes)) ∧
    ∀ url : List UInt8, url.length ≤ maxUrlString → 0 ∉ url →
      (∀ sequenceNo memory jv packet prepared,
        User.sendJsonPacket json (.new sequenceNo memory) url jv = .ok (.sent packet prepared) →
        ∀ user size, Accepted (lobbyUrlReader parseJson user size (.received packet)) →
          (DispatchesUnder (lobbyUrlReader parseJson user size (.received packet)) url ↔
            url.length ≤ 31)) ∧
      ∀ memory jv packet, ConnectorUser.sendJsonPacket json (.new memory) url jv = .ok packet →
        Accepted (brokerUrlReader parseJson (.received packet)) →
          (DispatchesUnder (brokerUrlReader parseJson (.received packet)) url ↔ url.length ≤ 31) := by
  refine ⟨?_, ?_, ?_⟩
  · intro user size msg valid accepted
    exact lobby_field_iff parseJson user size valid accepted
  · intro msg valid accepted
    exact broker_field_iff parseJson valid accepted
  · intro url room noNul
    constructor
    · intro sequenceNo memory jv packet prepared sent user size accepted
      exact lobby_stored_iff parseJson json room noNul sent user size accepted
    · intro memory jv packet sent accepted
      exact broker_stored_iff parseJson json room noNul sent accepted

end

/-! ### A URL that fills its field -/

/-- A packet with the text `7`, and a URL of 32 letters. -/
def fullUrlPacket : List UInt8 :=
  [1, 0, 0, 0, 0, 0] ++ List.replicate 32 97 ++ [1, 0, 55]

/-- The lobby reader dispatches this packet under its URL and whatever stands behind the array. -/
theorem full_url_runs_on :
    Accepted (lobbyUrlReader (fun _ => some ()) true 41 (.received fullUrlPacket)) ∧
      lobbyUrlReader (fun _ => some ()) true 41 (.received fullUrlPacket) [65, 0] =
        .ok (.dispatched (List.replicate 32 97 ++ [65]) [55] ()) ∧
      ¬ DispatchesUnder (lobbyUrlReader (fun _ => some ()) true 41 (.received fullUrlPacket))
        (fieldString (LobbyProtocol.urlField fullUrlPacket)) := by
  have runsOn : lobbyUrlReader (fun _ => some ()) true 41 (.received fullUrlPacket) [65, 0] =
      .ok (.dispatched (List.replicate 32 97 ++ [65]) [55] ()) := by decide
  refine ⟨⟨[65, 0], _, [55], (), runsOn⟩, runsOn, ?_⟩
  intro under
  have same := under [65, 0] _ [55] () runsOn
  exact absurd same (by decide)

/-- What the broker connection sends for the text `7`. -/
def brokerDigitPacket : List UInt8 := [1, 0, 0, 0] ++ (47 :: List.replicate 31 0) ++ [1, 0, 55]

/-- A line as `User::SendJsonPacket` sends it under a URL of one letter. -/
def chatLinePacket (content : List UInt8) : List UInt8 :=
  (filledLobby 0 (fun _ => 0) [47] ((flatJson []).write (chatLinePrepared content))).head ++
    ((flatJson []).write (chatLinePrepared content) ++ [0])

theorem chatLinePacket_sent {content : List UInt8} (short : content.length ≤ 1000) :
    User.sendJsonPacket (flatJson []) (.new 0 (fun _ => 0)) [47] (chatLine content) =
      .ok (.sent (chatLinePacket content) (chatLinePrepared content)) := by
  have limit : LobbyProtocol.maxBodySize = 30000 := rfl
  have length := chatLinePrepared_length content
  exact user_sends (flatJson []) 0 (fun _ => 0) (by decide) (chatLine_prepares content) (by omega)

theorem chatLinePacket_accepted {content : List UInt8} (short : content.length ≤ 1000) :
    Accepted (lobbyUrlReader (fun _ => some ()) true (UInt32.ofNat (chatLinePacket content).length)
      (.received (chatLinePacket content))) := by
  have limit : LobbyProtocol.maxBodySize = 30000 := rfl
  have length := chatLinePrepared_length content
  unfold chatLinePacket
  generalize (flatJson []).write (chatLinePrepared content) = text at length ⊢
  have room : text.length + 1 ≤ LobbyProtocol.maxBodySize := by omega
  have terminated : (text ++ [0]).length = text.length + 1 := List.length_append
  have declared : (filledLobby 0 (fun _ => 0) [47] text).bodySize.toNat = (text ++ [0]).length := by
    rw [filledLobby_bodySize 0 (fun _ => 0) [47] room, terminated]
  have field : (filledLobby 0 (fun _ => 0) [47] text).url.length = maxUrlString :=
    paddedUrl_length (by decide)
  have reads := lobby_reads (fun _ => some ()) [] field declared (by simp) (by omega)
  exact ⟨[], _, _, (), reads⟩

/-- The condition at work on terminated fields, and on a stored URL of one letter. -/
theorem urls_decoded_iff_digit :
    DispatchesUnder (lobbyUrlReader (fun _ => some ()) true 41 (.received digitPacket)) [47] ∧
      DispatchesUnder (brokerUrlReader (fun _ => some ()) (.received brokerDigitPacket)) [47] ∧
      DispatchesUnder (lobbyUrlReader (fun _ => some ()) true
        (UInt32.ofNat (chatLinePacket [104]).length) (.received (chatLinePacket [104]))) [47] := by
  obtain ⟨lobby, broker, stored⟩ := urls_decoded_iff (fun _ => some ()) (flatJson [])
  refine ⟨?_, ?_, ?_⟩
  · apply (lobby true 41 (.received digitPacket) (MessageBuffer.received_valid (by decide))
      ⟨[], [47], [55], (), by decide⟩).mpr
    decide
  · apply (broker (.received brokerDigitPacket) (MessageBuffer.received_valid (by decide))
      ⟨[], [47], [55], (), by decide⟩).mpr
    decide
  · obtain ⟨lobbyStored, -⟩ := stored [47] (by decide) (by decide)
    exact (lobbyStored 0 _ _ _ _ (chatLinePacket_sent (by decide)) true _
      (chatLinePacket_accepted (by decide))).mpr (by decide)

end LobbySvr.Proofs
