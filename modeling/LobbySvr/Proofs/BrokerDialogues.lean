/-
Module: LobbySvr.Proofs.BrokerDialogues
Layer: Proofs
Purpose: What the broker gets from the lobby server over a whole run.  Every session of the broker link begins
  with `/auth`, said once; behind it come only chat messages and logouts; and nothing is said on a session
  once another one has begun.  Connections are never numbered twice, so no session begins again.  The
  broker's parser takes the frames of a session apart into these packets.
Imports: LobbySvr.Proofs.BrokerRuns, LobbySvr.Proofs.ServerRuns, LobbySvr.Proofs.NodeFrames
Trusted boundary: none
Main exports: brokerPayload, sentToBroker, opened, Share, room_step_share, InUse, numbered_step, Dialogue,
  room_dialogues, broker_dialogues
Open obligations: none
-/
import LobbySvr.Proofs.BrokerRuns
import LobbySvr.Proofs.ServerRuns
import LobbySvr.Proofs.NodeFrames

namespace LobbySvr.Proofs

open LobbySvr.Foundation
open LobbySvr.Net
open LobbySvr.Spec
open LobbySvr.Lobby

/-! ### The packets of a step -/

/-- The packet that `ConnectorUser::SendJsonPacket` makes of a text. -/
def brokerPayload (url text : List UInt8) : List UInt8 := (filledBroker (fun _ => 0) url text).head ++ text

/-- The packets among what the broker gets, each with its session. -/
def sentToBroker (actions : List (Nat × Action)) : List (Nat × List UInt8) :=
  actions.filterMap fun entry =>
    match entry.2 with
    | .sendPacket packet => some (entry.1, packet)
    | .closeReserve _ => none

theorem sentToBroker_append (actions more : List (Nat × Action)) :
    sentToBroker (actions ++ more) = sentToBroker actions ++ sentToBroker more := List.filterMap_append

section

variable {C J : Type} {json : ServerJson J} {ids : Identities C} {clientVersion : Int}
  {room later : LobbyRoom C} {delivery : Delivery C} {link : BrokerLink} {input : ServerInput C}

/-- A text that `ConnectorUser::SendJsonPacket` sends has fit into the struct. -/
theorem connectorUser_made {url packet : List UInt8} {jv : J} (urlRoom : url.length ≤ maxUrlString)
    (sends : ConnectorUser.sendJsonPacket json.toJsonCpp (.new fun _ => 0) url jv = .ok packet) :
    packet = brokerPayload url (json.write jv) ∧ (json.write jv).length ≤ BrokerProtocol.maxBodySize := by
  by_cases room : (json.write jv).length ≤ BrokerProtocol.maxBodySize
  · rw [connectorUser_sends json.toJsonCpp _ urlRoom room] at sends
    exact ⟨(Except.ok.inj sends).symm, room⟩
  · have long := @broker_fill_overflow (fun _ => 0) url _ (Nat.lt_of_not_le room)
    cases filled : ConnectorUser.fill (.new fun _ => 0) url (json.write jv) with
    | ok pk => exact absurd filled (long pk)
    | error fault => simp [ConnectorUser.sendJsonPacket, filled, bind, Except.bind] at sends

/-- The session that a call begins. -/
def opened (link : BrokerLink) (input : ServerInput C) : Option Nat :=
  match input.event with
  | .brokerLink (.onConnect _) => link.connecting.map Attempt.conn
  | _ => none

/-- What the broker gets from one call. -/
inductive Share (json : ServerJson J) (link : BrokerLink) (input : ServerInput C) :
    List (Nat × List UInt8) → Prop where
  | silent (same : opened link input = none) : Share json link input []
  | opens {session : Nat} {req : J} (begins : opened link input = some session)
      (filled : LobbyServer.authReq json = some req)
      (fits : (json.write req).length ≤ BrokerProtocol.maxBodySize) :
      Share json link input [(session, brokerPayload authUrl (json.write req))]
  | asks {session : Nat} {url : List UInt8} {jv : J} (same : opened link input = none)
      (linked : link.user = some session) (isUrl : url ∈ [chatSendMsgUrl, userLogoutUrl])
      (fits : (json.write jv).length ≤ BrokerProtocol.maxBodySize) :
      Share json link input [(session, brokerPayload url (json.write jv))]

theorem sendsOn_user {session : Nat} (sends : link.sendJsonPacket = .sendsOn session) :
    link.user = some session := by
  unfold BrokerLink.sendJsonPacket at sends
  split at sends
  · cases sends
  · rename_i conn linked
    split at sends
    · cases sends
      exact linked
    · cases sends

/-- The share of a call that says something on the link. -/
theorem toBroker_share {url : List UInt8} {jv : J} (isUrl : url ∈ [chatSendMsgUrl, userLogoutUrl])
    (same : opened link input = none)
    (sends : LobbyRoom.toBroker (C := C) json url jv link = .ok delivery) :
    Share json link input (sentToBroker delivery.toBroker) := by
  have urlRoom : ∀ url ∈ [chatSendMsgUrl, userLogoutUrl], url.length ≤ maxUrlString := by decide
  rcases toBroker_cases sends with nothing | ⟨session, packet, linked, built, given⟩
  · rw [nothing]
    exact .silent same
  · obtain ⟨rfl, fits⟩ := connectorUser_made (urlRoom url isUrl) built
    rw [given]
    exact .asks same (sendsOn_user linked) isUrl fits

/-- The share of an event of the link. -/
theorem linkSends_share {event : BrokerEvent} {outputs : List (ServerOutput C)}
    (isEvent : input.event = .brokerLink event)
    (sends : LobbyServer.linkSends json (fun _ => 0) event link = .ok outputs) :
    Share json link input (sentToBroker (Delivery.brokerActions outputs)) := by
  unfold LobbyServer.linkSends at sends
  split at sends
  · rename_i sessionOpens
    split at sends
    · rename_i idle
      cases sends
      refine .silent ?_
      rw [opened, isEvent, idle]
      rfl
    · rename_i attempt connecting
      have begins : opened link input = some attempt.conn := by
        rw [opened, isEvent, connecting]
        rfl
      split at sends
      · cases sends
      · rename_i req filled
        split at sends
        · cases sends
        · rename_i packet built
          cases sends
          obtain ⟨rfl, fits⟩ := connectorUser_made authUrl_fits built
          exact .opens begins filled fits
  · rename_i notOpening
    cases sends
    refine .silent ?_
    rw [opened, isEvent]
    split
    · rename_i same
      cases same
      exact absurd rfl (notOpening _)
    · rfl

/-- What the broker gets from a step of the room. -/
theorem room_step_share
    (stepped : LobbyRoom.step json ids clientVersion room input = .ok (later, delivery)) :
    Share json room.link input (sentToBroker delivery.toBroker) := by
  cases room_step_cases.mp stepped with
  | leaves _ _ _ sends => exact toBroker_share (by decide) rfl sends
  | requests _ requested =>
      cases requested with
      | chat _ _ sends => exact toBroker_share (by decide) rfl sends
      | _ => exact .silent rfl
  | links sends => exact linkSends_share rfl sends
  | obeys _ obeyed =>
      rw [obeyed.toBroker]
      exact .silent rfl
  | _ => exact .silent rfl

end

/-! ### Sessions are numbered once -/

section

variable {C : Type} {link : BrokerLink} {input : ServerInput C} {taken : List Nat}

/-- The numbers that are in use: those of the attempts, and those `taken`. -/
def InUse (connector : NetServiceConnector) (taken : List Nat) : List Nat :=
  connector.attempts.map Attempt.conn ++ taken

/-- Each number is in use once, and has been given out. -/
structure NumberedOnce (connector : NetServiceConnector) (taken : List Nat) : Prop where
  once : (InUse connector taken).Nodup
  given : ∀ number ∈ InUse connector taken, number < connector.created

theorem NumberedOnce.startConnect {connector : NetServiceConnector} (numbered : NumberedOnce connector taken)
    (sessionOpens : Bool) (remainCnt : UInt16) :
    NumberedOnce (connector.startConnect sessionOpens remainCnt).2 taken := by
  obtain ⟨once, given⟩ := numbered
  cases sessionOpens with
  | false => exact ⟨once, fun number member => Nat.lt_succ_of_lt (given number member)⟩
  | true =>
      have uses : InUse (connector.startConnect true remainCnt).2 taken =
          connector.attempts.map Attempt.conn ++ connector.created :: taken := by
        simp [InUse, NetServiceConnector.startConnect, NetServiceConnector.createConnectSession]
      have fresh : connector.created ∉ InUse connector taken := fun member =>
        absurd (given _ member) (Nat.lt_irrefl _)
      refine ⟨?_, ?_⟩
      · rw [uses, List.nodup_middle]
        exact List.nodup_cons.mpr ⟨fresh, once⟩
      · intro number member
        rw [uses, List.mem_append, List.mem_cons] at member
        change number < connector.created + 1
        rcases member with early | rfl | late
        · exact Nat.lt_succ_of_lt (given number (List.mem_append_left _ early))
        · exact Nat.lt_succ_self _
        · exact Nat.lt_succ_of_lt (given number (List.mem_append_right _ late))

theorem NumberedOnce.connectWait {connector : NetServiceConnector} (numbered : NumberedOnce connector taken)
    (outcome : ConnectOutcome) (sessionCnt : UInt16) :
    NumberedOnce (connector.connectWait outcome sessionCnt) taken := by
  have found : ∀ resolves, NumberedOnce (connector.setEndPoint resolves).2 taken := by
    intro resolves
    unfold NetServiceConnector.setEndPoint
    split
    · exact ⟨numbered.once, numbered.given⟩
    · exact numbered
  unfold NetServiceConnector.connectWait NetServiceConnector.connectImplement
  split
  · rename_i later endPoint
    have := found outcome.resolves
    rw [endPoint] at this
    exact this
  · rename_i later endPoint
    have := found outcome.resolves
    rw [endPoint] at this
    exact this.startConnect _ _

/-- Fewer attempts. -/
theorem NumberedOnce.finish {connector : NetServiceConnector} (numbered : NumberedOnce connector taken)
    (conn : Nat) : NumberedOnce (connector.finish conn) taken := by
  have fewer : (InUse (connector.finish conn) taken).Sublist (InUse connector taken) :=
    (List.filter_sublist.map Attempt.conn).append_right taken
  exact ⟨numbered.once.sublist fewer, fun number member => numbered.given number (fewer.subset member)⟩

/-- The number of an attempt that is over can be taken. -/
theorem NumberedOnce.take {connector : NetServiceConnector} (numbered : NumberedOnce connector taken) {conn : Nat}
    {attempt : Attempt} (found : connector.attemptFor conn = some attempt) :
    NumberedOnce (connector.finish conn) (taken ++ [attempt.conn]) := by
  have member := List.mem_of_find?_eq_some found
  have same : attempt.conn = conn := by simpa using List.find?_some found
  have used : attempt.conn ∈ connector.attempts.map Attempt.conn := List.mem_map_of_mem member
  have less := numbered.finish conn
  have unused : attempt.conn ∉ InUse (connector.finish conn) taken := by
    intro still
    rcases List.mem_append.mp still with early | late
    · obtain ⟨other, left, number⟩ := List.mem_map.mp early
      have different := (List.mem_filter.mp left).2
      rw [number, same] at different
      simp at different
    · exact List.disjoint_of_nodup_append numbered.once used late
  have uses : InUse (connector.finish conn) (taken ++ [attempt.conn]) =
      InUse (connector.finish conn) taken ++ [attempt.conn] := (List.append_assoc ..).symm
  refine ⟨?_, ?_⟩
  · rw [uses, List.nodup_append_comm]
    exact List.nodup_cons.mpr ⟨unused, less.once⟩
  · intro number inUse
    rw [uses] at inUse
    rcases List.mem_append.mp inUse with early | late
    · exact less.given number early
    · rw [List.mem_singleton.mp late]
      exact numbered.given _ (List.mem_append_left _ used)

/-- The sessions that have begun, and the one that is about to. -/
def begun (sessions : List Nat) (link : BrokerLink) : List Nat :=
  sessions ++ link.connecting.toList.map Attempt.conn

/-- Only `onConnect` begins a session, and it returns. -/
theorem linkBehind_cases (link : BrokerLink) (input : ServerInput C) :
    (opened link input = none ∧ linkBehind link input = link) ∨
      ∃ event, input.event = .brokerLink event ∧ LinkStep link event (linkBehind link input) := by
  obtain ⟨event, around⟩ := input
  cases event with
  | brokerLink event =>
      cases goesOn : link.step event with
      | ok later =>
          refine .inr ⟨event, rfl, ?_⟩
          simp only [linkBehind, goesOn]
          exact link_step_cases goesOn
      | error fault =>
          refine .inl ⟨?_, by simp only [linkBehind, goesOn]⟩
          cases event with
          | onConnect sessionOpens =>
              rw [BrokerLink.step] at goesOn
              split at goesOn
              · simp only at goesOn
                split at goesOn
                · cases goesOn
                · cases goesOn
              · cases goesOn
          | _ => rfl
  | _ => exact .inl ⟨rfl, rfl⟩

/-- A call of the link keeps the numbers apart. -/
theorem numbered_step {sessions : List Nat} (numbered : NumberedOnce link.connector (begun sessions link))
    (input : ServerInput C) :
    NumberedOnce (linkBehind link input).connector
      (begun (sessions ++ (opened link input).toList) (linkBehind link input)) := by
  rcases linkBehind_cases link input with ⟨none, same⟩ | ⟨event, isEvent, took⟩
  · rw [none, same, Option.toList_none, List.append_nil]
    exact numbered
  generalize linkBehind link input = later at took ⊢
  cases took with
  | idles quiet =>
      have none : opened link input = none := by
        rw [opened, isEvent]
        split
        · rename_i same
          cases same
          rw [quiet _ rfl]
          rfl
        · rfl
      rw [none, Option.toList_none, List.append_nil]
      exact numbered
  | @retries conn outcome =>
      simp only [opened, isEvent, Option.toList_none, List.append_nil]
      exact (numbered.finish conn).connectWait outcome 1
  | @startFails conn =>
      simp only [opened, isEvent, Option.toList_none, List.append_nil]
      exact numbered.finish conn
  | starts idle found =>
      simp only [opened, isEvent, Option.toList_none, List.append_nil]
      rw [begun, idle, Option.toList_none, List.map_nil, List.append_nil] at numbered
      exact numbered.take found
  | @opens attempt sessionOpens connecting =>
      simp only [opened, isEvent, connecting, Option.map_some, Option.toList_some]
      rw [begun, connecting] at numbered
      change NumberedOnce link.connector (sessions ++ [attempt.conn] ++ [])
      rw [List.append_nil]
      exact numbered
  | @opensNext attempt sessionOpens connecting =>
      simp only [opened, isEvent, connecting, Option.map_some, Option.toList_some]
      rw [begun, connecting] at numbered
      change NumberedOnce _ (sessions ++ [attempt.conn] ++ [])
      rw [List.append_nil]
      exact numbered.startConnect sessionOpens _
  | @closes conn outcome users =>
      simp only [opened, isEvent, Option.toList_none, List.append_nil]
      exact numbered.connectWait outcome 1

/-- The user of the link is that of the session that began last. -/
theorem user_step (link : BrokerLink) (input : ServerInput C) :
    (linkBehind link input).user = (opened link input).or link.user := by
  rcases linkBehind_cases link input with ⟨none, same⟩ | ⟨event, isEvent, took⟩
  · rw [none, same, Option.none_or]
  generalize linkBehind link input = later at took ⊢
  cases took with
  | idles quiet =>
      rw [opened, isEvent]
      split
      · rename_i same
        cases same
        rw [quiet _ rfl, Option.map_none, Option.none_or]
      · rw [Option.none_or]
  | opens connecting =>
      simp only [opened, isEvent, connecting, Option.map_some, Option.some_or]
      rfl
  | opensNext connecting =>
      simp only [opened, isEvent, connecting, Option.map_some, Option.some_or]
      rfl
  | retries => simp only [opened, isEvent, Option.none_or, BrokerLink.tryConnect]
  | closes => simp only [opened, isEvent, Option.none_or, BrokerLink.tryConnect]
  | startFails => simp only [opened, isEvent, Option.none_or]
  | starts => simp only [opened, isEvent, Option.none_or]

/-- Before the first event, at most the attempt that `main` has started is numbered. -/
theorem numbered_start (connector : Option ConnectOutcome) :
    NumberedOnce (LobbyServer.startLink connector).connector (begun [] (LobbyServer.startLink connector)) := by
  have fresh : NumberedOnce NetServiceConnector.fresh [] := ⟨List.nodup_nil, fun _ member => by cases member⟩
  cases connector with
  | none => exact fresh
  | some outcome => exact fresh.connectWait outcome 1

end

/-! ### Dialogues -/

/-- What is said on one session: `/auth`, and then chat messages and logouts. -/
structure Dialogue {J : Type} (json : ServerJson J) where
  session : Nat
  req : J
  said : List (List UInt8 × J)
  filled : LobbyServer.authReq json = some req
  fits : (json.write req).length ≤ BrokerProtocol.maxBodySize
  requests : ∀ request ∈ said, request.1 ∈ [chatSendMsgUrl, userLogoutUrl] ∧
    (json.write request.2).length ≤ BrokerProtocol.maxBodySize

section

variable {C J : Type} {json : ServerJson J} {ids : Identities C} {clientVersion : Int}
  {connector : Option ConnectOutcome}

/-- The packets of a dialogue. -/
def Dialogue.packets (dialogue : Dialogue json) : List (List UInt8) :=
  brokerPayload authUrl (json.write dialogue.req) ::
    dialogue.said.map fun request => brokerPayload request.1 (json.write request.2)

/-- The packets of dialogues that follow one another. -/
def saidIn (dialogues : List (Dialogue json)) : List (Nat × List UInt8) :=
  dialogues.flatMap fun dialogue => dialogue.packets.map (Prod.mk dialogue.session)

theorem saidIn_snoc (dialogues : List (Dialogue json)) (dialogue : Dialogue json) :
    saidIn (dialogues ++ [dialogue]) =
      saidIn dialogues ++ dialogue.packets.map (Prod.mk dialogue.session) := by
  simp [saidIn]

/-- One more request. -/
def Dialogue.asks (dialogue : Dialogue json) {url : List UInt8} {jv : J}
    (isUrl : url ∈ [chatSendMsgUrl, userLogoutUrl])
    (fits : (json.write jv).length ≤ BrokerProtocol.maxBodySize) : Dialogue json :=
  { dialogue with
    said := dialogue.said ++ [(url, jv)]
    requests := by
      intro request member
      rcases List.mem_append.mp member with early | late
      · exact dialogue.requests request early
      · rw [List.mem_singleton.mp late]
        exact ⟨isUrl, fits⟩ }

theorem Dialogue.asks_packets (dialogue : Dialogue json) {url : List UInt8} {jv : J}
    (isUrl : url ∈ [chatSendMsgUrl, userLogoutUrl])
    (fits : (json.write jv).length ≤ BrokerProtocol.maxBodySize) :
    (dialogue.asks isUrl fits).packets = dialogue.packets ++ [brokerPayload url (json.write jv)] := by
  simp [Dialogue.packets, Dialogue.asks]

/-- The dialogues of a run: one for each session that has begun, the last one on the session of the link's
    user. -/
structure Conversed (link : BrokerLink) (dialogues : List (Dialogue json)) (sent : List (Nat × List UInt8)) :
    Prop where
  numbered : NumberedOnce link.connector (begun (dialogues.map Dialogue.session) link)
  user : link.user = (dialogues.map Dialogue.session).getLast?
  sent : sent = saidIn dialogues

/-- A call adds a dialogue, or to the last one, or nothing. -/
theorem Conversed.step {link : BrokerLink} {dialogues : List (Dialogue json)}
    {sent share : List (Nat × List UInt8)} (conversed : Conversed link dialogues sent) {input : ServerInput C}
    (shares : Share json link input share) :
    ∃ later : List (Dialogue json), Conversed (linkBehind link input) later (sent ++ share) := by
  obtain ⟨numbered, user, rfl⟩ := conversed
  have numbers := numbered_step numbered input
  have users := user_step link input
  cases shares with
  | silent same =>
      rw [same] at numbers users
      refine ⟨dialogues, ?_, users.trans user, List.append_nil _⟩
      rw [Option.toList_none, List.append_nil] at numbers
      exact numbers
  | @opens session req begins filled fits =>
      rw [begins] at numbers users
      refine ⟨dialogues ++ [⟨session, req, [], filled, fits, fun _ member => by cases member⟩], ?_, ?_, ?_⟩
      · rw [List.map_append]
        exact numbers
      · rw [users, List.map_append, List.map_singleton, List.getLast?_concat]
        rfl
      · rw [saidIn_snoc]
        rfl
  | @asks session url jv same linked isUrl fits =>
      rw [same] at numbers users
      rw [Option.toList_none, List.append_nil] at numbers
      -- The link has a user, so a dialogue has begun.
      rcases List.eq_nil_or_concat dialogues with rfl | ⟨early, last, rfl⟩
      · rw [linked] at user
        cases user
      · rw [List.concat_eq_append] at *
        have sessions : (early ++ [last.asks isUrl fits]).map Dialogue.session =
            (early ++ [last]).map Dialogue.session := by
          rw [List.map_append, List.map_append]
          rfl
        have spoken : session = last.session := by
          rw [linked, List.map_append, List.map_singleton, List.getLast?_concat] at user
          exact Option.some.inj user
        refine ⟨early ++ [last.asks isUrl fits], ?_, ?_, ?_⟩
        · rw [sessions]
          exact numbers
        · rw [sessions]
          exact users.trans user
        · rw [saidIn_snoc, saidIn_snoc, Dialogue.asks_packets, List.map_append, List.append_assoc, spoken]
          rfl

/-- What the room says to the broker in a run falls into dialogues. -/
theorem room_dialogues {inputs : List (ServerInput C)} {room : LobbyRoom C}
    {deliveries : List (ServerInput C × Delivery C)}
    (ran : LobbyRoom.run json ids clientVersion connector inputs = .ok (room, deliveries)) :
    ∃ dialogues : List (Dialogue json), Conversed room.link dialogues
      (sentToBroker (deliveries.flatMap fun entry => entry.2.toBroker)) := by
  refine runTrace_invariant (fun deliveries room => ∃ dialogues : List (Dialogue json),
    Conversed room.link dialogues (sentToBroker (deliveries.flatMap fun entry => entry.2.toBroker))) ?_ ?_ ran
  · refine ⟨[], numbered_start connector, ?_, rfl⟩
    cases connector with
    | none => rfl
    | some outcome => rfl
  · rintro earlier room input later delivery ⟨dialogues, conversed⟩ stepped
    have link : later.link = linkBehind room.link input := by rw [room_step_effect stepped]
    have sent : sentToBroker ((earlier ++ [(input, delivery)]).flatMap fun entry => entry.2.toBroker) =
        sentToBroker (earlier.flatMap fun entry => entry.2.toBroker) ++ sentToBroker delivery.toBroker := by
      rw [List.flatMap_append, List.flatMap_singleton, sentToBroker_append]
    rw [link, sent]
    exact conversed.step (room_step_share stepped)

/-! ### The frames of a dialogue -/

/-- The broker's parser knows the code of the packets. -/
theorem broker_routed (url text : List UInt8) :
    packetParserBrokerTest.route (codeOf packetParserBrokerTest.codeSize (brokerPayload url text)) =
      some .readJsonPacket := by
  have layout : brokerPayload url text = u32Bytes BrokerProtocol.jsonPacketValue ++
      (paddedUrl url ++ u16Bytes (UInt16.ofNat text.length) ++ text) := by
    simp [brokerPayload, filledBroker, BrokerProtocol.PtJson.head]
  have four : packetParserBrokerTest.codeSize = (u32Bytes BrokerProtocol.jsonPacketValue).length := by
    rw [u32Bytes_length]
    rfl
  rw [codeOf, layout, four, if_pos (by simp), List.take_left, u32Of_u32Bytes]
  decide

theorem brokerPayload_length {url text : List UInt8} (urlRoom : url.length ≤ maxUrlString) :
    (brokerPayload url text).length = BrokerProtocol.headSize + text.length := by
  have field : (filledBroker (fun _ => 0) url text).url.length = maxUrlString := paddedUrl_length urlRoom
  rw [brokerPayload, List.length_append, broker_head_length field]

/-- Every packet of a dialogue is one that the broker's parser knows, and fits into a frame. -/
theorem Dialogue.packet_sound {dialogue : Dialogue json} {packet : List UInt8}
    (member : packet ∈ dialogue.packets) :
    packetParserBrokerTest.route (codeOf packetParserBrokerTest.codeSize packet) = some .readJsonPacket ∧
      sizeHeader + packet.length ≤ MessageBuffer.maxBufferSize := by
  have urlRoom : ∀ url ∈ [chatSendMsgUrl, userLogoutUrl], url.length ≤ maxUrlString := by decide
  have limit : sizeHeader + (BrokerProtocol.headSize + BrokerProtocol.maxBodySize) = 4046 := rfl
  have maxSize := MessageBuffer.maxBufferSize_eq
  rcases List.mem_cons.mp member with rfl | later
  · have length := @brokerPayload_length _ (json.write dialogue.req) authUrl_fits
    have fits := dialogue.fits
    exact ⟨broker_routed _ _, by omega⟩
  · obtain ⟨request, asked, rfl⟩ := List.mem_map.mp later
    obtain ⟨isUrl, fits⟩ := dialogue.requests request asked
    have length := @brokerPayload_length _ (json.write request.2) (urlRoom _ isUrl)
    exact ⟨broker_routed _ _, by omega⟩

/-- The frames of packets that fit. -/
theorem framesOf_fitting {packets : List (List UInt8)}
    (fits : ∀ packet ∈ packets, sizeHeader + packet.length ≤ MessageBuffer.maxBufferSize) :
    framesOf packets = packets.map fun packet => encodePacket plainCodec [packet] := by
  induction packets with
  | nil => rfl
  | cons packet packets inductionHypothesis =>
      have frame := sendPacketFrame_plain (fits packet (List.mem_cons_self ..))
      rw [List.map_cons, ← inductionHypothesis fun other member => fits other (List.mem_cons_of_mem _ member),
        framesOf, List.filterMap_cons, frame]
      rfl

/-- The call of the broker's handler for a packet. -/
def brokerCall (packet : List UInt8) : Call BrokerHandler :=
  .handler .readJsonPacket (UInt32.ofNat packet.length) packet

/-- The frames of packets, taken apart again. -/
theorem broker_takes_apart {packets : List (List UInt8)} {handlers : Handlers BrokerHandler}
    {msg : MessageBuffer} (returns : AllReturn (behaviourOf handlers)) (valid : msg.Valid)
    (known : ∀ packet ∈ packets, packetParserBrokerTest.route
      (codeOf packetParserBrokerTest.codeSize packet) = some .readJsonPacket)
    (content : msg.bytes = (packets.map fun packet => encodePacket plainCodec [packet]).flatten) :
    (parse packetParserBrokerTest handlers msg).ending = .returned true ∧
      (parse packetParserBrokerTest handlers msg).calls = packets.map brokerCall := by
  have stream : msg.bytes = encodeStream plainCodec (packets.map fun packet => [packet]) := by
    rw [content, encodeStream, List.flatMap_map, List.flatMap_def]
  have recognised : AllRecognised packetParserBrokerTest (packets.map fun packet => [packet]) := by
    intro parts member
    obtain ⟨packet, there, rfl⟩ := List.mem_map.mp member
    refine ⟨List.cons_ne_nil _ _, fun body part => ?_⟩
    rw [List.mem_singleton.mp part, Recognised, known packet there]
    exact Option.some_ne_none _
  have fits : (encodeStream plainCodec (packets.map fun packet => [packet])).length ≤
      MessageBuffer.maxBufferSize := by
    rw [← stream, MessageBuffer.bytes_length]
    exact valid.size_le
  obtain ⟨ending, -, calls⟩ :=
    parse_stream rfl valid stream (wellFormed_of_recognised returns recognised fits)
  have bodies : (packets.map fun packet => [packet]).flatten = packets := by
    rw [← List.flatMap_def, List.flatMap_singleton']
  rw [bodies] at calls
  refine ⟨ending, calls.trans (List.map_congr_left fun packet member => ?_)⟩
  simp only [callFor, known packet member, brokerCall]

/-- What a reader of the frames of a dialogue gets. -/
theorem Dialogue.frames (dialogue : Dialogue json) (first count : Nat) {handlers : Handlers BrokerHandler}
    {msg : MessageBuffer} (returns : AllReturn (behaviourOf handlers)) (valid : msg.Valid)
    (content : msg.bytes = (((framesOf dialogue.packets).drop first).take count).flatten) :
    (parse packetParserBrokerTest handlers msg).ending = .returned true ∧
      (parse packetParserBrokerTest handlers msg).calls =
        ((dialogue.packets.drop first).take count).map brokerCall := by
  rw [framesOf_fitting fun packet member => (Dialogue.packet_sound member).2, ← List.map_drop,
    ← List.map_take] at content
  refine broker_takes_apart returns valid (fun packet member => ?_) content
  exact (Dialogue.packet_sound (List.drop_subset _ _ (List.take_subset _ _ member))).1

end

/-! ### The run of the server -/

section

variable {C J : Type} [DecidableEq C] {json : ServerJson J} {ids : Identities C} {clientVersion : Int}
  {connector : Option ConnectOutcome} {inputs : List (ServerInput C)} {server : LobbyServer C}
  {trace : List (ServerInput C × List (ServerOutput C))}

/-- What the broker gets in a run, each packet with its session. -/
def brokerPackets (trace : List (ServerInput C × List (ServerOutput C))) : List (Nat × List UInt8) :=
  sentToBroker (trace.flatMap fun entry => Delivery.brokerActions entry.2)

omit [DecidableEq C] in
theorem brokerPackets_agree [DecidableEq C] {deliveries : List (ServerInput C × Delivery C)}
    (agree : TracesAgree (fun outputs delivery => Delivery.sorted outputs = delivery) trace deliveries) :
    brokerPackets trace = sentToBroker (deliveries.flatMap fun entry => entry.2.toBroker) := by
  rw [← tracesAgree_image agree, List.flatMap_map]
  rfl

/-- In every run, what the broker gets falls into dialogues, one behind the other, on different sessions.  Each
    begins with `/auth`, and goes on with chat messages and logouts; the last one is on the session of
    the link's user.  `sendPacket` throws at none of the packets, and a reader that receives consecutive
    frames of a dialogue whole gets exactly their packets. -/
theorem broker_dialogues (laws : MemberLaws json.toJsonCpp)
    (ran : LobbyServer.run json ids clientVersion connector inputs = .ok (server, trace)) :
    ∃ dialogues : List (Dialogue json),
      (dialogues.map Dialogue.session).Nodup ∧
      brokerPackets trace = saidIn dialogues ∧
      server.link.user = (dialogues.map Dialogue.session).getLast? ∧
      ∀ dialogue ∈ dialogues,
        framesOf dialogue.packets = dialogue.packets.map (fun packet => encodePacket plainCodec [packet]) ∧
        ∀ (first count : Nat) (handlers : Handlers BrokerHandler) (msg : MessageBuffer),
          AllReturn (behaviourOf handlers) → msg.Valid →
          msg.bytes = (((framesOf dialogue.packets).drop first).take count).flatten →
          (parse packetParserBrokerTest handlers msg).ending = .returned true ∧
            (parse packetParserBrokerTest handlers msg).calls =
              ((dialogue.packets.drop first).take count).map brokerCall := by
  have agrees := server_simulates laws ids clientVersion connector inputs
  rw [ran] at agrees
  obtain ⟨room, deliveries, roomRan, represents, agree⟩ := agrees.of_ok
  obtain ⟨dialogues, conversed⟩ := room_dialogues roomRan
  have once := conversed.numbered.once.sublist ((List.sublist_append_left _ _).trans
    (List.sublist_append_right _ _))
  refine ⟨dialogues, once, (brokerPackets_agree agree).trans conversed.sent, ?_, fun dialogue _ => ⟨?_, ?_⟩⟩
  · rw [← represents.link]
    exact conversed.user
  · exact framesOf_fitting fun packet member => (Dialogue.packet_sound member).2
  · intro first count handlers msg returns valid content
    exact dialogue.frames first count returns valid content

end

/-- The frame of `/auth`, received alone. -/
def Dialogue.greeting {J : Type} {json : ServerJson J} (dialogue : Dialogue json) : MessageBuffer :=
  .received (encodePacket plainCodec [brokerPayload authUrl (json.write dialogue.req)])

theorem Dialogue.greeting_valid {J : Type} {json : ServerJson J} (dialogue : Dialogue json) :
    dialogue.greeting.Valid := by
  have first : brokerPayload authUrl (json.write dialogue.req) ∈ dialogue.packets := List.mem_cons_self ..
  have small := (Dialogue.packet_sound first).2
  refine MessageBuffer.received_valid ?_
  rw [encodePacket_length, partsSize_cons, partsSize_nil]
  rw [sizeHeader] at small
  omega

/-- The broker's session comes up, and a client that has come says something. -/
theorem broker_dialogues_chat : ∃ server trace packet,
    LobbyServer.run announcer twoConnections 7 (some ⟨true, true⟩) (arrivals ++ [chatRequest]) =
      .ok (server, trace) ∧
    (0, packet) ∈ brokerPackets trace ∧
    ∃ dialogues : List (Dialogue announcer),
      (dialogues.map Dialogue.session).Nodup ∧
      brokerPackets trace = saidIn dialogues ∧
      server.link.user = (dialogues.map Dialogue.session).getLast? ∧
      ∀ dialogue ∈ dialogues,
        (parse packetParserBrokerTest (fun _ _ _ => none) dialogue.greeting).calls =
          [brokerCall (brokerPayload authUrl (announcer.write dialogue.req))] := by
  obtain ⟨server, before, packet, outputs, ran, reached⟩ := chat_succeeds
  obtain ⟨dialogues, once, sent, user, taken⟩ := broker_dialogues announcer_laws ran
  refine ⟨server, _, packet, ran, ?_, dialogues, once, sent, user, fun dialogue member => ?_⟩
  · rw [brokerPackets, List.flatMap_append, List.flatMap_singleton, sentToBroker_append]
    refine List.mem_append_right _ (List.mem_filterMap.mpr ⟨_, mem_brokerActions.mpr reached, rfl⟩)
  · obtain ⟨frames, takes⟩ := taken dialogue member
    refine (takes 0 1 _ dialogue.greeting ?_ dialogue.greeting_valid ?_).2
    · exact fun _ _ _ => rfl
    · rw [Dialogue.greeting, MessageBuffer.received_bytes, frames]
      simp [Dialogue.packets]

end LobbySvr.Proofs
