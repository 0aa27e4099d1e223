/-
Module: LobbySvr.Proofs.JsonPackets
Layer: Proofs
Purpose: The two JSON packets between their sender and their reader.  The head of a filled struct has the
  length the constants say, a sender that stays inside the struct hands `Send` the head and the text, and
  a reader given these bytes hands the same text to its JSON parser.
Imports: LobbySvr.Lobby.SendJsonPacket, LobbySvr.Proofs.JsonReaders
Trusted boundary: none
Main exports: urlString_padded, lobby_fill_ok, lobby_image, lobby_reads, user_sends, broker_fill_ok,
  broker_fill_overflow, broker_image, broker_reads, connectorUser_sends
Open obligations: none
-/
import LobbySvr.Lobby.SendJsonPacket
import LobbySvr.Proofs.JsonReaders

namespace LobbySvr.Proofs

open LobbySvr.Foundation
open LobbySvr.Net
open LobbySvr.Lobby

variable {J : Type}

/-! ### The URL field -/

/-- The `url` field of a constructed struct after a URL has been copied in. -/
def paddedUrl (url : List UInt8) : List UInt8 := url ++ List.replicate (maxUrlString - url.length) 0

theorem copyUrl_zeroed {url : List UInt8} (room : url.length ≤ maxUrlString) :
    copyUrl (List.replicate maxUrlString 0) url = .ok (paddedUrl url) := by
  rw [copyUrl, if_neg (Nat.not_lt_of_le room), List.drop_replicate, paddedUrl]

theorem paddedUrl_length {url : List UInt8} (room : url.length ≤ maxUrlString) :
    (paddedUrl url).length = maxUrlString := by
  rw [paddedUrl, List.length_append, List.length_replicate]
  omega

/-- A URL that leaves room for a terminator is read back, whatever lies behind the field. -/
theorem urlString_padded {url : List UInt8} (beyond : List UInt8) (room : url.length < maxUrlString)
    (noNul : 0 ∉ url) : urlString (paddedUrl url) beyond = url := by
  obtain ⟨more, padding⟩ : ∃ more, maxUrlString - url.length = more + 1 :=
    ⟨maxUrlString - url.length - 1, by omega⟩
  have kept : ∀ byte ∈ url, decide (byte ≠ 0) = true := by
    intro byte member
    apply decide_eq_true
    rintro rfl
    exact noNul member
  rw [urlString, paddedUrl, padding, List.append_assoc, List.takeWhile_append_of_pos kept,
    List.replicate_succ, List.cons_append, List.takeWhile_cons_of_neg (by decide), List.append_nil]

/-! ### The body field -/

theorem copyBody_ok {capacity : Nat} (field : Nat → UInt8) {offset : Nat} {src : List UInt8}
    (room : offset + src.length ≤ capacity) :
    copyBody capacity field offset src = .ok (writeRange field offset src) := by
  rw [copyBody, if_neg (Nat.not_lt_of_le room)]

theorem copyBody_overflow {capacity : Nat} (field : Nat → UInt8) {offset : Nat} {src : List UInt8}
    (long : capacity < offset + src.length) :
    copyBody capacity field offset src = .error .undefinedBehaviour := by
  rw [copyBody, if_pos long]

/-- The front of a struct: its head, and the body field up to `count`. -/
theorem take_head_body {head : List UInt8} (field : Nat → UInt8) {headSize capacity count : Nat}
    (length : head.length = headSize) (room : count ≤ capacity) :
    ¬ (head ++ readRange field 0 capacity).length < headSize + count ∧
      (head ++ readRange field 0 capacity).take (headSize + count) =
        head ++ readRange field 0 count := by
  constructor
  · rw [List.length_append, length, readRange_length]
    omega
  · rw [← length, List.take_length_add_append, readRange_take _ room]

/-! ### The lobby packet -/

/-- `HEAD_SIZE` is the size of the fields in front of the body. -/
theorem lobby_head_length {pk : LobbyProtocol.PtJson} (field : pk.url.length = maxUrlString) :
    pk.head.length = LobbyProtocol.headSize := by
  simp [LobbyProtocol.PtJson.head, LobbyProtocol.headSize, field, maxUrlString]

theorem lobby_urlField {pk : LobbyProtocol.PtJson} (field : pk.url.length = maxUrlString) :
    LobbyProtocol.urlField pk.head = pk.url := by
  have six : ([pk.code] ++ (u32Bytes pk.sequenceNo ++ [pk.isCompressed])).length = 6 := by simp
  have layout : pk.head = ([pk.code] ++ (u32Bytes pk.sequenceNo ++ [pk.isCompressed])) ++
      (pk.url ++ u16Bytes pk.bodySize) := by
    simp [LobbyProtocol.PtJson.head]
  rw [LobbyProtocol.urlField, layout, List.drop_left' six, List.take_left' field]

theorem lobby_bodySizeField {pk : LobbyProtocol.PtJson} (field : pk.url.length = maxUrlString) :
    LobbyProtocol.bodySizeField pk.head = pk.bodySize := by
  have front : ([pk.code] ++ (u32Bytes pk.sequenceNo ++ ([pk.isCompressed] ++ pk.url))).length = 38 := by
    simp [field, maxUrlString]
  have layout : pk.head = ([pk.code] ++ (u32Bytes pk.sequenceNo ++ ([pk.isCompressed] ++ pk.url))) ++
      u16Bytes pk.bodySize := by
    simp [LobbyProtocol.PtJson.head]
  rw [LobbyProtocol.bodySizeField, layout, List.drop_left' front,
    List.take_of_length_le (Nat.le_of_eq (u16Bytes_length _)), u16Of_u16Bytes]

/-- The image of a struct up to a part of its body. -/
theorem lobby_image {pk : LobbyProtocol.PtJson} (field : pk.url.length = maxUrlString) {count : Nat}
    (room : count ≤ LobbyProtocol.maxBodySize) :
    pk.image (LobbyProtocol.headSize + count) = .ok (pk.head ++ readRange pk.jsonBody 0 count) := by
  obtain ⟨inside, front⟩ := take_head_body pk.jsonBody (lobby_head_length field) room
  rw [LobbyProtocol.PtJson.image, if_neg inside, front]

/-- The lobby reader on a head and the body it declares. -/
theorem lobby_reads (parseJson : List UInt8 → Option J) (beyond : List UInt8)
    {pk : LobbyProtocol.PtJson} {body : List UInt8} (field : pk.url.length = maxUrlString)
    (declared : pk.bodySize.toNat = body.length) (positive : body ≠ [])
    (room : body.length ≤ LobbyProtocol.maxBodySize) :
    LobbyAcceptorReceiver.readJsonPacket parseJson true beyond
        (UInt32.ofNat (pk.head ++ body).length) (.received (pk.head ++ body)) =
      .ok (parsedExit parseJson (urlString pk.url beyond) body) := by
  have head := lobby_head_length field
  have total : (pk.head ++ body).length = LobbyProtocol.headSize + body.length := by
    rw [List.length_append, head]
  have limit : LobbyProtocol.headSize + LobbyProtocol.maxBodySize = 30040 := rfl
  have maxSize := MessageBuffer.maxBufferSize_eq
  have content := MessageBuffer.received_bytes (pk.head ++ body)
  have valid : (MessageBuffer.received (pk.head ++ body)).Valid :=
    MessageBuffer.received_valid (by omega)
  have size : LobbyProtocol.headSize ≤ (UInt32.ofNat (pk.head ++ body).length).toNat := by
    rw [u32_ofNat_toNat (by omega)]
    omega
  have arrived : LobbyProtocol.headSize ≤ (MessageBuffer.received (pk.head ++ body)).bytes.length := by
    rw [content]
    omega
  obtain ⟨later, laterValid, laterBytes, eq⟩ :=
    lobby_readJsonPacket_eq parseJson beyond valid size arrived
  rw [content, ← head, List.drop_left] at laterBytes
  rw [content, ← head, List.take_left, lobby_bodySizeField field, lobby_urlField field] at eq
  rw [eq, readBody_declared parseJson _ laterValid laterBytes declared positive room]

/-- The struct `User::SendJsonPacket` fills in when URL and text fit. -/
def filledLobby (packetSequenceNo : UInt32) (memory : Nat → UInt8) (url text : List UInt8) :
    LobbyProtocol.PtJson where
  code := LobbyProtocol.jsonPacketValue
  sequenceNo := packetSequenceNo
  isCompressed := 0
  url := paddedUrl url
  bodySize := UInt16.ofNat (text.length + 1)
  jsonBody := writeRange (writeRange memory 0 text) text.length [0]

theorem lobby_fill_ok (sequenceNo packetSequenceNo : UInt32) (memory : Nat → UInt8)
    {url text : List UInt8} (urlRoom : url.length ≤ maxUrlString)
    (room : text.length + 1 ≤ LobbyProtocol.maxBodySize) :
    User.fill (.new sequenceNo memory) packetSequenceNo url text =
      .ok (filledLobby packetSequenceNo memory url text) := by
  have copied : copyBody LobbyProtocol.maxBodySize memory 0 text = .ok (writeRange memory 0 text) :=
    copyBody_ok memory (by omega)
  have terminated : copyBody LobbyProtocol.maxBodySize (writeRange memory 0 text) text.length [0] =
      .ok (writeRange (writeRange memory 0 text) text.length [0]) :=
    copyBody_ok _ room
  simp only [User.fill, LobbyProtocol.PtJson.new, copyUrl_zeroed urlRoom, copied, terminated, bind,
    Except.bind, pure, Except.pure, filledLobby]

theorem filledLobby_url (packetSequenceNo : UInt32) (memory : Nat → UInt8) (url text : List UInt8) :
    (filledLobby packetSequenceNo memory url text).url = paddedUrl url := rfl

theorem filledLobby_bodySize (packetSequenceNo : UInt32) (memory : Nat → UInt8) (url : List UInt8)
    {text : List UInt8} (room : text.length + 1 ≤ LobbyProtocol.maxBodySize) :
    (filledLobby packetSequenceNo memory url text).bodySize.toNat = text.length + 1 := by
  have limit : LobbyProtocol.maxBodySize = 30000 := rfl
  exact u16_ofNat_toNat (by omega)

/-- `User::SendJsonPacket` on a text that fits hands `Send` the head, the text and one NUL. -/
theorem user_sends (json : JsonCpp J) (sequenceNo : UInt32) (memory : Nat → UInt8) {url : List UInt8}
    {jv prepared : J} {packetSequenceNo : UInt32} (urlRoom : url.length ≤ maxUrlString)
    (prepares : User.prepare json jv = some (packetSequenceNo, prepared))
    (room : (json.write prepared).length + 1 ≤ LobbyProtocol.maxBodySize) :
    User.sendJsonPacket json (.new sequenceNo memory) url jv =
      .ok (.sent ((filledLobby packetSequenceNo memory url (json.write prepared)).head ++
        (json.write prepared ++ [0])) prepared) := by
  have filled := lobby_fill_ok sequenceNo packetSequenceNo memory urlRoom room
  have size := filledLobby_bodySize packetSequenceNo memory url room
  have field : (filledLobby packetSequenceNo memory url (json.write prepared)).url.length =
      maxUrlString := paddedUrl_length urlRoom
  have image := lobby_image field room
  have body : readRange (filledLobby packetSequenceNo memory url (json.write prepared)).jsonBody 0
      ((json.write prepared).length + 1) = json.write prepared ++ [0] :=
    readRange_terminated memory (json.write prepared) 0
  rw [body] at image
  simp only [User.sendJsonPacket, prepares, filled, bind, Except.bind, pure, Except.pure, size,
    if_neg (Nat.not_lt_of_le room), image]

/-! ### The broker packet -/

/-- `HEAD_SIZE` is the size of the fields in front of the body. -/
theorem broker_head_length {pk : BrokerProtocol.PtJson} (field : pk.url.length = maxUrlString) :
    pk.head.length = BrokerProtocol.headSize := by
  simp [BrokerProtocol.PtJson.head, BrokerProtocol.headSize, field, maxUrlString]

theorem broker_urlField {pk : BrokerProtocol.PtJson} (field : pk.url.length = maxUrlString) :
    BrokerProtocol.urlField pk.head = pk.url := by
  rw [BrokerProtocol.urlField, BrokerProtocol.PtJson.head, List.drop_left' (u32Bytes_length _),
    List.take_left' field]

theorem broker_bodySizeField {pk : BrokerProtocol.PtJson} (field : pk.url.length = maxUrlString) :
    BrokerProtocol.bodySizeField pk.head = pk.bodySize := by
  have front : (u32Bytes pk.code ++ pk.url).length = 36 := by simp [field, maxUrlString]
  rw [BrokerProtocol.bodySizeField, BrokerProtocol.PtJson.head, ← List.append_assoc,
    List.drop_left' front, List.take_of_length_le (Nat.le_of_eq (u16Bytes_length _)), u16Of_u16Bytes]

/-- The image of a struct up to a part of its body. -/
theorem broker_image {pk : BrokerProtocol.PtJson} (field : pk.url.length = maxUrlString) {count : Nat}
    (room : count ≤ BrokerProtocol.maxBodySize) :
    pk.image (BrokerProtocol.headSize + count) = .ok (pk.head ++ readRange pk.jsonBody 0 count) := by
  obtain ⟨inside, front⟩ := take_head_body pk.jsonBody (broker_head_length field) room
  rw [BrokerProtocol.PtJson.image, if_neg inside, front]

/-- The broker reader on a head and whatever follows it. -/
theorem broker_reads_head (parseJson : List UInt8 → Option J) (beyond : List UInt8)
    {pk : BrokerProtocol.PtJson} {body : List UInt8} (field : pk.url.length = maxUrlString)
    (room : body.length ≤ BrokerProtocol.maxBodySize) :
    ∃ later : MessageBuffer, later.Valid ∧ later.bytes = body ∧
      BrokerConnector.readJsonPacket parseJson beyond (.received (pk.head ++ body)) =
        .ok (readBody parseJson BrokerProtocol.maxBodySize pk.bodySize (urlString pk.url beyond)
          later) := by
  have head := broker_head_length field
  have total : (pk.head ++ body).length = BrokerProtocol.headSize + body.length := by
    rw [List.length_append, head]
  have limit : BrokerProtocol.headSize + BrokerProtocol.maxBodySize = 4038 := rfl
  have maxSize := MessageBuffer.maxBufferSize_eq
  have content := MessageBuffer.received_bytes (pk.head ++ body)
  have valid : (MessageBuffer.received (pk.head ++ body)).Valid :=
    MessageBuffer.received_valid (by omega)
  have arrived : BrokerProtocol.headSize ≤ (MessageBuffer.received (pk.head ++ body)).bytes.length := by
    rw [content]
    omega
  obtain ⟨later, laterValid, laterBytes, eq⟩ :=
    broker_readJsonPacket_eq parseJson beyond valid arrived
  rw [content, ← head, List.drop_left] at laterBytes
  rw [content, ← head, List.take_left, broker_bodySizeField field, broker_urlField field] at eq
  exact ⟨later, laterValid, laterBytes, eq⟩

/-- The broker reader on a head and the body it declares. -/
theorem broker_reads (parseJson : List UInt8 → Option J) (beyond : List UInt8)
    {pk : BrokerProtocol.PtJson} {body : List UInt8} (field : pk.url.length = maxUrlString)
    (declared : pk.bodySize.toNat = body.length) (positive : body ≠ [])
    (room : body.length ≤ BrokerProtocol.maxBodySize) :
    BrokerConnector.readJsonPacket parseJson beyond (.received (pk.head ++ body)) =
      .ok (parsedExit parseJson (urlString pk.url beyond) body) := by
  obtain ⟨later, laterValid, laterBytes, eq⟩ := broker_reads_head parseJson beyond field room
  rw [eq, readBody_declared parseJson _ laterValid laterBytes declared positive room]

/-- The struct `ConnectorUser::SendJsonPacket` fills in when URL and text fit. -/
def filledBroker (memory : Nat → UInt8) (url text : List UInt8) : BrokerProtocol.PtJson where
  code := BrokerProtocol.jsonPacketValue
  url := paddedUrl url
  bodySize := UInt16.ofNat text.length
  jsonBody := writeRange memory 0 text

theorem broker_fill_ok (memory : Nat → UInt8) {url text : List UInt8}
    (urlRoom : url.length ≤ maxUrlString) (room : text.length ≤ BrokerProtocol.maxBodySize) :
    ConnectorUser.fill (.new memory) url text = .ok (filledBroker memory url text) := by
  have copied : copyBody BrokerProtocol.maxBodySize memory 0 text = .ok (writeRange memory 0 text) :=
    copyBody_ok memory (by omega)
  simp only [ConnectorUser.fill, BrokerProtocol.PtJson.new, copyUrl_zeroed urlRoom, copied, bind,
    Except.bind, pure, Except.pure, filledBroker]

/-- A longer text is copied past the end of the struct. -/
theorem broker_fill_overflow (memory : Nat → UInt8) {url text : List UInt8}
    (long : BrokerProtocol.maxBodySize < text.length) (pk : BrokerProtocol.PtJson) :
    ConnectorUser.fill (.new memory) url text ≠ .ok pk := by
  have overflow : copyBody BrokerProtocol.maxBodySize memory 0 text = .error .undefinedBehaviour :=
    copyBody_overflow memory (by omega)
  intro filled
  cases copied : copyUrl (List.replicate maxUrlString 0) url with
  | error fault =>
      simp [ConnectorUser.fill, BrokerProtocol.PtJson.new, copied, bind, Except.bind] at filled
  | ok urlField =>
      simp [ConnectorUser.fill, BrokerProtocol.PtJson.new, copied, overflow, bind, Except.bind] at filled

theorem filledBroker_url (memory : Nat → UInt8) (url text : List UInt8) :
    (filledBroker memory url text).url = paddedUrl url := rfl

theorem filledBroker_bodySize (memory : Nat → UInt8) (url : List UInt8) {text : List UInt8}
    (room : text.length ≤ BrokerProtocol.maxBodySize) :
    (filledBroker memory url text).bodySize.toNat = text.length := by
  have limit : BrokerProtocol.maxBodySize = 4000 := rfl
  exact u16_ofNat_toNat (by omega)

/-- `ConnectorUser::SendJsonPacket` on a text that fits hands `Send` the head and the text. -/
theorem connectorUser_sends (json : JsonCpp J) (memory : Nat → UInt8) {url : List UInt8} {jv : J}
    (urlRoom : url.length ≤ maxUrlString)
    (room : (json.write jv).length ≤ BrokerProtocol.maxBodySize) :
    ConnectorUser.sendJsonPacket json (.new memory) url jv =
      .ok ((filledBroker memory url (json.write jv)).head ++ json.write jv) := by
  have field : (filledBroker memory url (json.write jv)).url.length = maxUrlString :=
    paddedUrl_length urlRoom
  have image := broker_image field room
  have body : readRange (filledBroker memory url (json.write jv)).jsonBody 0 (json.write jv).length =
      json.write jv := readRange_writeRange_self memory 0 (json.write jv)
  rw [body] at image
  simp only [ConnectorUser.sendJsonPacket, broker_fill_ok memory urlRoom room, bind, Except.bind,
    filledBroker_bodySize memory url room, image]

end LobbySvr.Proofs
