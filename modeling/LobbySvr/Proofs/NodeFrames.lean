/-
Module: LobbySvr.Proofs.NodeFrames
Layer: Proofs
Purpose: What the process puts on its connections.  Whatever the server gives a client is a JSON packet under
  one of five URLs with a text that jsoncpp has written, so `sendPacket` never throws at it, and the frames
  of a connection are the encodings of the packets that the server has given it, in order.  The parser of
  the protocol reads any stretch of these frames back to the same packets.
Imports: LobbySvr.Proofs.JsonSizeGuard, LobbySvr.Proofs.NodeRuns, LobbySvr.Proofs.WireVariants
Trusted boundary: none
Main exports: clientUrls, Written, clientPacket_written, step_packets, packetsIn, framesOf, node_step_frames,
  node_frames
Open obligations: none
-/
import LobbySvr.Proofs.JsonSizeGuard
import LobbySvr.Proofs.NodeRuns
import LobbySvr.Proofs.WireVariants

namespace LobbySvr.Proofs

open LobbySvr.Foundation
open LobbySvr.Net
open LobbySvr.Spec
open LobbySvr.Lobby

/-! ### The packets of the server -/

/-- The URLs under which the server writes to clients. -/
def clientUrls : List (List UInt8) :=
  [connectedUrl, loginUrl, friendListUrl, sendMsgUrl, receiveMsgUrl]

theorem clientUrls_fit : ∀ url ∈ clientUrls, url.length < maxUrlString ∧ 0 ∉ url := by decide

section

variable {J : Type} {json : ServerJson J}

/-- A JSON packet under one of these URLs, with a text that jsoncpp has written and a NUL behind it. -/
def Written (json : ServerJson J) (packet : JsonPacket) : Prop :=
  ∃ url ∈ clientUrls, ∃ jv, (∀ beyond, urlString packet.pk.url beyond = url) ∧
    readRange packet.pk.jsonBody 0 packet.pk.bodySize.toNat = json.write jv ++ [0]

/-- What `User::SendJsonPacket` sends is such a packet. -/
theorem clientPacket_written {url : List UInt8} {jv left : J} {packet : List UInt8} (isUrl : url ∈ clientUrls)
    (sends : LobbyRoom.clientPacket json url jv = .ok (.sent packet left)) :
    ∃ known : JsonPacket, Written json known ∧ packet = (LobbyPacket.json known).payload := by
  obtain ⟨short, noNul⟩ := clientUrls_fit url isUrl
  have urlRoom : url.length ≤ maxUrlString := Nat.le_of_lt short
  rw [LobbyRoom.clientPacket] at sends
  cases prepares : User.prepare json.toJsonCpp jv with
  | none => simp only [User.sendJsonPacket, prepares, Except.ok.injEq, reduceCtorEq] at sends
  | some prepared =>
      obtain ⟨packetSequenceNo, value⟩ := prepared
      by_cases room : (json.write value).length + 1 ≤ LobbyProtocol.maxBodySize
      · rw [user_sends json.toJsonCpp 0 (fun _ => 0) urlRoom prepares room] at sends
        cases sends
        have size := filledLobby_bodySize packetSequenceNo (fun _ => 0) url room
        have body : readRange (filledLobby packetSequenceNo (fun _ => 0) url (json.write left)).jsonBody 0
            ((json.write left).length + 1) = json.write left ++ [0] :=
          readRange_terminated (fun _ => 0) (json.write left) 0
        let known : JsonPacket :=
          { pk := filledLobby packetSequenceNo (fun _ => 0) url (json.write left)
            code := rfl
            urlField := paddedUrl_length urlRoom
            positive := size ▸ Nat.succ_pos _
            room := size ▸ room }
        have declared : readRange known.pk.jsonBody 0 known.pk.bodySize.toNat = json.write left ++ [0] := by
          rw [size]
          exact body
        refine ⟨known, ⟨url, isUrl, left, fun beyond => urlString_padded beyond short noNul, declared⟩, ?_⟩
        rw [LobbyPacket.payload, declared]
      · rw [user_sends_overflow json.toJsonCpp 0 (fun _ => 0) urlRoom prepares (Nat.lt_of_not_le room)] at sends
        cases sends

end

section

variable {C J : Type} {json : ServerJson J} {ids : Identities C} {clientVersion : Int} {conn : C}
  {room later : LobbyRoom C} {delivery : Delivery C} {packet : List UInt8}

theorem welcome_sends {actions : List Action} (welcomes : LobbyServer.welcome json (0, fun _ => 0) = .ok actions)
    (given : .sendPacket packet ∈ actions) :
    ∃ jv left, LobbyRoom.clientPacket json connectedUrl jv = .ok (.sent packet left) := by
  unfold LobbyServer.welcome at welcomes
  split at welcomes
  · cases welcomes
  · split at welcomes
    · cases welcomes
    · cases welcomes
    · cases welcomes
      exact absurd given List.not_mem_nil
    · rename_i sent left sends
      cases welcomes
      cases List.mem_singleton.mp given
      exact ⟨_, left, sends⟩

theorem sendTo_sends {clients : Set C} {url : List UInt8} {jv : J}
    (sends : LobbyRoom.sendTo json clients url jv = .ok delivery)
    (given : .sendPacket packet ∈ delivery.toClient conn) :
    ∃ left, LobbyRoom.clientPacket json url jv = .ok (.sent packet left) := by
  rcases sendTo_cases sends with rfl | ⟨sent, left, built, rfl⟩
  · exact absurd given List.not_mem_nil
  · cases (mem_forAll.mp given).2
    exact ⟨left, built⟩

/-- The packet of a refused login. -/
theorem login_sends {remoteEndpoint user : Bool} {url : List UInt8} {jv : J} {exit : LoginExit J}
    (logs : NhLobby.login json clientVersion remoteEndpoint user (.new 0 fun _ => 0) url jv = .ok exit)
    (given : .sendPacket packet ∈ LobbyServer.loginActions exit) :
    ∃ rsp left, LobbyRoom.clientPacket json url rsp = .ok (.sent packet left) := by
  obtain ⟨left, rfl⟩ : ∃ left, exit = .refused (.sent packet left) := by
    unfold LobbyServer.loginActions at given
    split at given
    · rename_i sent left
      simp only [List.mem_cons, Action.sendPacket.injEq, reduceCtorEq, List.not_mem_nil, or_false] at given
      exact ⟨left, by rw [given]⟩
    · simp at given
    · simp at given
    · simp at given
  cases user with
  | false => cases logs
  | true =>
      obtain ⟨rsp, request, -, -, -, refused⟩ := login_refuses.mp logs
      unfold NhLobby.sendDBFailed at refused
      simp only at refused
      split at refused
      · cases refused
      · rename_i filled _
        obtain ⟨answer, sends, same⟩ := map_eq_ok.mp refused
        cases same
        exact ⟨filled, left, sends⟩

/-- An order of the broker comes under one of the URLs. -/
theorem order_url {url url' : List UInt8} {jv jv' : J} {identity : UInt64}
    (read : BrokerOrder.read json.toBrokerJson url jv = .toIdentity identity url' jv') : url' ∈ clientUrls := by
  have named : ∀ {url : List UInt8} {jv : J}, url ∈ clientUrls →
      BrokerOrder.readIdentity json.toBrokerJson url jv = .toIdentity identity url' jv' → url' ∈ clientUrls := by
    intro url jv isUrl reads
    unfold BrokerOrder.readIdentity at reads
    split at reads
    · cases reads
    · split at reads
      · cases reads
      · cases reads
        exact isUrl
  unfold BrokerOrder.read at read
  split at read
  · cases read
  · split at read
    · cases read
    · split at read
      · cases read
      · cases read
  · cases read
  · split at read
    · cases read
    · exact named (by decide) read
  · exact named (by decide) read
  · unfold BrokerOrder.readChannel at read
    split at read
    · cases read
    · split at read
      · cases read
      · split at read
        · cases read
        · split at read
          · cases read
          · cases read
      · cases read

/-- What a request of a client has the server write to it. -/
theorem Requested.sends {around : Circumstances C} {other : C} {size : UInt32} {msg : MessageBuffer}
    (requested : Requested json ids clientVersion around other size msg room delivery)
    (given : .sendPacket packet ∈ delivery.toClient conn) :
    ∃ jv left, LobbyRoom.clientPacket json loginUrl jv = .ok (.sent packet left) := by
  cases requested with
  | invalidPacket => cases List.mem_singleton.mp (mem_forClient.mp given).2
  | login _ logs => exact login_sends logs (mem_forClient.mp given).2
  | chat _ _ sends =>
      rw [toBroker_private sends] at given
      exact absurd given List.not_mem_nil
  | nothing => exact absurd given List.not_mem_nil

/-- What an order of the broker has the server write to its clients. -/
theorem Obeyed.sends {url : List UInt8} {jv : J}
    (obeyed : Obeyed json ids room (BrokerOrder.read json.toBrokerJson url jv) later delivery)
    (given : .sendPacket packet ∈ delivery.toClient conn) :
    ∃ url ∈ clientUrls, ∃ jv left, LobbyRoom.clientPacket json url jv = .ok (.sent packet left) := by
  generalize order : BrokerOrder.read json.toBrokerJson url jv = read at obeyed
  cases obeyed with
  | toIdentity sends => exact ⟨_, order_url order, _, sendTo_sends sends given⟩
  | toEveryone sends => exact ⟨receiveMsgUrl, by decide, _, sendTo_sends sends given⟩
  | _ => exact absurd given List.not_mem_nil

/-- Every packet that a step gives a client is one of the server's. -/
theorem step_packets {input : ServerInput C}
    (stepped : LobbyRoom.step json ids clientVersion room input = .ok (later, delivery))
    (given : .sendPacket packet ∈ delivery.toClient conn) :
    ∃ known : JsonPacket, Written json known ∧ packet = (LobbyPacket.json known).payload := by
  cases room_step_cases.mp stepped with
  | enters _ _ welcomes =>
      obtain ⟨jv, left, sends⟩ := welcome_sends welcomes (mem_forClient.mp given).2
      exact clientPacket_written (by decide) sends
  | leaves _ _ _ sends =>
      rw [toBroker_private sends] at given
      exact absurd given List.not_mem_nil
  | expires => cases List.mem_singleton.mp (mem_forClient.mp given).2
  | noHandler => cases List.mem_singleton.mp (mem_forClient.mp given).2
  | requests _ requested =>
      obtain ⟨jv, left, sends⟩ := requested.sends given
      exact clientPacket_written (by decide) sends
  | obeys _ obeyed =>
      obtain ⟨url, isUrl, jv, left, sends⟩ := obeyed.sends given
      exact clientPacket_written isUrl sends
  | _ => exact absurd given List.not_mem_nil

end

/-! ### The frames of a connection -/

/-- The packets among some actions. -/
def packetsIn (actions : List Action) : List (List UInt8) :=
  actions.filterMap fun
    | .sendPacket packet => some packet
    | .closeReserve _ => none

theorem packetsIn_append (actions more : List Action) :
    packetsIn (actions ++ more) = packetsIn actions ++ packetsIn more := List.filterMap_append

theorem mem_packetsIn {actions : List Action} {packet : List UInt8} :
    packet ∈ packetsIn actions ↔ .sendPacket packet ∈ actions := by
  unfold packetsIn
  rw [List.mem_filterMap]
  constructor
  · rintro ⟨action, member, same⟩
    cases action with
    | sendPacket other =>
        cases same
        exact member
    | closeReserve timeAfterMs => cases same
  · intro member
    exact ⟨_, member, rfl⟩

/-- The frames of some packets; a packet at which `sendPacket` throws has none. -/
def framesOf (packets : List (List UInt8)) : List (List UInt8) :=
  packets.filterMap fun packet => (sendPacketFrame manipulatorJsonParserTest packet).toOption

theorem framesOf_append (packets more : List (List UInt8)) :
    framesOf (packets ++ more) = framesOf packets ++ framesOf more := List.filterMap_append

/-- A connection with the lobby's manipulator and these frames. -/
structure Framed (conn : ConnectionImpl LobbyHandler) (frames : List (List UInt8)) : Prop where
  manipulator : conn.msgManipulator = manipulatorJsonParserTest
  frames : conn.frames = frames

/-- Timers do not frame anything. -/
theorem OnlyTimers.framed {conn later : ConnectionImpl LobbyHandler} {frames : List (List UInt8)}
    (timers : OnlyTimers conn later) (framed : Framed conn frames) : Framed later frames :=
  ⟨timers.same.msgManipulator.trans framed.manipulator, timers.same.frames.trans framed.frames⟩

theorem Framed.startAccept {conn : ConnectionImpl LobbyHandler} {frames : List (List UInt8)}
    (framed : Framed conn frames) : Framed conn.startAccept frames :=
  (OnlyTimers.renewExpireTime _).framed ⟨framed.manipulator, framed.frames⟩

theorem Ran.framed {shutdownOk : Bool} {handler : Handler} {conn later : ConnectionImpl LobbyHandler}
    {frames : List (List UInt8)} (ran : Ran nodeProcedure shutdownOk () handler conn later)
    (framed : Framed conn frames) : Framed later frames := by
  obtain ⟨manipulator, same⟩ := framed
  cases ran with
  | reads isRead filled timers => exact timers.framed ⟨manipulator, same⟩
  | beginsClosing failed shutdown opened timers => exact timers.framed ⟨manipulator, same⟩
  | staysAsItWas failed reason timers => exact timers.framed ⟨manipulator, same⟩
  | closes asked shutdown timers => exact timers.framed ⟨manipulator, same⟩
  | idles idle timers => exact timers.framed ⟨manipulator, same⟩
  | _ => exact ⟨manipulator, same⟩

/-- Nothing that happens to a connection by itself frames anything. -/
theorem Framed.happens {label : Label Unit} {conn later : ConnectionImpl LobbyHandler}
    {frames : List (List UInt8)} (framed : Framed conn frames) (notUser : isUserCall label = false)
    (taken : conn.step nodeProcedure label = some later) : Framed later frames := by
  have noSend : ¬ IsSend label := by
    rintro (⟨msg, rfl⟩ | ⟨sendBuffer, rfl⟩ | ⟨sendBuffer, rfl⟩)
    · cases notUser
    · cases notUser
    · cases notUser
  obtain ⟨manipulator, same⟩ := framed
  cases (step_took taken).2 with
  | sends isSend => exact absurd isSend noSend
  | reserves isReserve timers => exact timers.framed ⟨manipulator, same⟩
  | expires isExpiry timers => exact timers.framed ⟨manipulator, same⟩
  | reserveExpires isExpiry timers => exact timers.framed ⟨manipulator, same⟩
  | runs isRun picked ran => exact ran.framed ⟨manipulator, same⟩
  | _ => exact ⟨manipulator, same⟩

/-- The server's actions frame its packets. -/
theorem Framed.actions {conn : ConnectionImpl LobbyHandler} {frames : List (List UInt8)}
    (framed : Framed conn frames) (actions : List Action) :
    Framed (afterActions actions conn) (frames ++ framesOf (packetsIn actions)) := by
  induction actions generalizing conn frames with
  | nil =>
      rw [show framesOf (packetsIn []) = [] from rfl, List.append_nil]
      exact framed
  | cons action actions inductionHypothesis =>
      cases action with
      | sendPacket packet =>
          have here : Framed (conn.sendPacket packet) (frames ++ framesOf [packet]) := by
            unfold ConnectionImpl.sendPacket framesOf
            rw [framed.manipulator]
            cases built : sendPacketFrame manipulatorJsonParserTest packet with
            | error fault =>
                simp only [built, Except.toOption, List.filterMap_cons, List.filterMap_nil, List.append_nil]
                exact framed
            | ok frame =>
                simp only [built, Except.toOption, List.filterMap_cons, List.filterMap_nil]
                exact ⟨framed.manipulator, by rw [← framed.frames]; rfl⟩
          have rest := inductionHypothesis here
          rw [List.append_assoc, ← framesOf_append] at rest
          exact rest
      | closeReserve timeAfterMs =>
          exact inductionHypothesis ((OnlyTimers.closeReserve conn).framed framed)

section

variable {limit : Nat} {J : Type} {json : ServerJson J} {ids : Identities (Fin limit)}
  {clientVersion : Int} {keepAliveTime : Nat} {connector : Option ConnectOutcome}
  {inputs : List (NodeInput limit)} {node : LobbyNode limit}
  {trace : List (NodeInput limit × ServerCalls limit)}

/-- The packets that some calls give a connection. -/
def packetsFor (conn : Fin limit) (calls : ServerCalls limit) : List (List UInt8) :=
  packetsIn (actionsFor conn calls)

theorem packetsFor_append (conn : Fin limit) (calls more : ServerCalls limit) :
    packetsFor conn (calls ++ more) = packetsFor conn calls ++ packetsFor conn more := by
  rw [packetsFor, actionsFor, List.flatMap_append, packetsIn_append]
  rfl

/-- A step of the node frames what its calls give. -/
theorem node_step_frames {next : LobbyNode limit} {calls : ServerCalls limit}
    (took : NodeStep json ids clientVersion node next calls) {conn : Fin limit}
    {frames : List (List UInt8)} (framed : Framed (node.conns conn) frames) :
    Framed (next.conns conn) (frames ++ framesOf (packetsFor conn calls)) := by
  have nothing : frames ++ framesOf (packetsFor conn []) = frames := List.append_nil frames
  cases took with
  | idles => exact nothing.symm ▸ framed
  | refuses accepting => exact nothing.symm ▸ framed
  | @accepts other others around acceptor served _ accepting next created serves =>
      have given := framed.actions (actionsFor conn calls)
      rw [← (serve_run serves).2.2 conn] at given
      change Framed (Function.update served.conns other (served.conns other).startAccept conn) _
      by_cases same : conn = other
      · subst same
        rw [Function.update_self]
        exact given.startAccept
      · rw [Function.update_of_ne same]
        exact given
  | @happens other label around later served _ notUser created stepped serves running =>
      have here : Framed (Function.update node.conns other later conn) frames := by
        by_cases same : conn = other
        · subst same
          rw [Function.update_self]
          exact framed.happens notUser stepped
        · rw [Function.update_of_ne same]
          exact framed
      rw [(serve_run serves).2.2 conn]
      exact here.actions _
  | obeys serves =>
      rw [(serve_run serves).2.2 conn]
      exact framed.actions _

theorem created_framed (keepAliveTime : Nat) :
    Framed (.created nodeProcedure keepAliveTime false) [] := by
  unfold ConnectionImpl.created
  exact (OnlyTimers.renewExpireTime _).framed ⟨rfl, rfl⟩

/-- The frames of a connection are those of the packets that it has been given. -/
theorem node_framed
    (ran : LobbyNode.run json ids clientVersion keepAliveTime connector inputs = .ok (node, trace))
    (conn : Fin limit) : Framed (node.conns conn) (framesOf (packetsFor conn (callsMade trace))) := by
  refine runTrace_invariant (fun trace node =>
    Framed (node.conns conn) (framesOf (packetsFor conn (callsMade trace))))
    (created_framed keepAliveTime) ?_ ran
  intro earlier state input next calls framed stepped
  rw [callsMade_snoc, packetsFor_append, framesOf_append]
  exact node_step_frames (node_step_cases stepped) framed

/-- All these packets are JSON packets of the server. -/
theorem packets_written {server : LobbyServer (Fin limit)} {calls : ServerCalls limit}
    (laws : MemberLaws json.toJsonCpp)
    (ran : LobbyServer.run json ids clientVersion connector (calls.map Prod.fst) = .ok (server, calls))
    {conn : Fin limit} {packet : List UInt8} (given : packet ∈ packetsFor conn calls) :
    ∃ known : JsonPacket, Written json known ∧ (LobbyPacket.json known).payload = packet := by
  obtain ⟨⟨input, outputs⟩, member, gives⟩ := List.mem_flatMap.mp (mem_packetsIn.mp given)
  obtain ⟨before, after, rfl⟩ := List.append_of_mem member
  obtain ⟨known, written, same⟩ := step_packets (server_step_in_run laws ran rfl) gives
  exact ⟨known, written, same.symm⟩

/-- No frame of a lobby packet fails. -/
theorem framesOf_payloads (packets : List LobbyPacket) :
    framesOf (packets.map LobbyPacket.payload) =
      packets.map fun packet => encodePacket plainCodec [packet.payload] := by
  induction packets with
  | nil => rfl
  | cons packet packets inductionHypothesis =>
      have maxSize := MessageBuffer.maxBufferSize_eq
      have length := payload_length packet
      have frame : sendPacketFrame manipulatorJsonParserTest packet.payload =
          .ok (encodePacket plainCodec [packet.payload]) :=
        sendPacketFrame_plain (by rw [sizeHeader]; omega)
      rw [List.map_cons, List.map_cons, ← inductionHypothesis, framesOf, List.filterMap_cons, frame]
      rfl

/-- The call of `readJsonPacket` for a packet. -/
def jsonCall (packet : JsonPacket) : Call LobbyHandler :=
  .handler .readJsonPacket (UInt32.ofNat (LobbyPacket.json packet).payload.length)
    (LobbyPacket.json packet).payload

/-- In every run of the process, what the server gives a client are JSON packets under its URLs, with texts that
    jsoncpp has written; the frames of the connection are the encodings of these packets in order, none
    missing; and whoever receives some consecutive ones whole and reads them with the parser of the protocol
    gets exactly these packets. -/
theorem node_frames (laws : MemberLaws json.toJsonCpp)
    (ran : LobbyNode.run json ids clientVersion keepAliveTime connector inputs = .ok (node, trace))
    (conn : Fin limit) :
    ∃ packets : List JsonPacket, (∀ packet ∈ packets, Written json packet) ∧
      packetsFor conn (callsMade trace) = packets.map (fun packet => (LobbyPacket.json packet).payload) ∧
      (node.conns conn).frames =
        packets.map (fun packet => encodePacket plainCodec [(LobbyPacket.json packet).payload]) ∧
      ∀ (first count : Nat) (handlers : Handlers LobbyHandler) (msg : MessageBuffer),
        AllReturn (behaviourOf handlers) → msg.Valid →
        msg.bytes = (((node.conns conn).frames.drop first).take count).flatten →
        (parse packetParserNotUseEncTest handlers msg).ending = .returned true ∧
          (parse packetParserNotUseEncTest handlers msg).calls =
            ((packets.drop first).take count).map jsonCall := by
  obtain ⟨packets, written, given⟩ : ∃ packets : List JsonPacket, (∀ packet ∈ packets, Written json packet) ∧
      packetsFor conn (callsMade trace) =
        packets.map (fun packet => (LobbyPacket.json packet).payload) := by
    have known : packetsFor conn (callsMade trace) ∈ Set.range (List.map fun known :
        { packet : JsonPacket // Written json packet } => (LobbyPacket.json known.val).payload) := by
      rw [Set.range_list_map]
      intro packet member
      obtain ⟨known, written, same⟩ := packets_written laws (node_invariant laws ran).serves member
      exact ⟨⟨known, written⟩, same⟩
    obtain ⟨known, same⟩ := known
    exact ⟨known.map Subtype.val, List.forall_mem_map.mpr fun packet _ => packet.property,
      by rw [List.map_map]; exact same.symm⟩
  have frames : (node.conns conn).frames =
      packets.map (fun packet => encodePacket plainCodec [(LobbyPacket.json packet).payload]) := by
    rw [(node_framed ran conn).frames, given]
    have known := framesOf_payloads (packets.map .json)
    rw [List.map_map, List.map_map] at known
    exact known
  refine ⟨packets, written, given, frames, fun first count handlers msg returns valid content => ?_⟩
  have stream : msg.bytes =
      encodeStream plainCodec (singles (((packets.drop first).take count).map .json)) := by
    rw [content, frames, ← List.map_drop, ← List.map_take, encodeStream, singles, List.map_map,
      List.flatMap_map, List.flatMap_def]
    rfl
  obtain ⟨ending, calls⟩ := parse_singles rfl returns valid stream fun packet _ => plain_recognises packet
  refine ⟨ending, calls.trans ?_⟩
  rw [List.map_map]
  refine List.map_congr_left fun packet _ => ?_
  have routed : packetParserNotUseEncTest.route (codeOf packetParserNotUseEncTest.codeSize
      (LobbyPacket.json packet).payload) = some .readJsonPacket := json_code_one_byte packet
  simp only [Function.comp_apply, callFor, routed, jsonCall]

end

/-- The frames of the visit. -/
theorem node_frames_visit : ∃ node trace,
    LobbyNode.run announcer firstIdentities 7 0 none visit = .ok (node, trace) ∧
    ∃ packets : List JsonPacket, (∀ packet ∈ packets, Written announcer packet) ∧
      packetsFor 0 (callsMade trace) = packets.map (fun packet => (LobbyPacket.json packet).payload) ∧
      (node.conns 0).frames =
        packets.map (fun packet => encodePacket plainCodec [(LobbyPacket.json packet).payload]) ∧
      ∀ (first count : Nat) (handlers : Handlers LobbyHandler) (msg : MessageBuffer),
        AllReturn (behaviourOf handlers) → msg.Valid →
        msg.bytes = (((node.conns 0).frames.drop first).take count).flatten →
        (parse packetParserNotUseEncTest handlers msg).ending = .returned true ∧
          (parse packetParserNotUseEncTest handlers msg).calls =
            ((packets.drop first).take count).map jsonCall := by
  obtain ⟨node, trace, welcoming, closing, ran, -⟩ := visit_succeeds
  exact ⟨node, trace, ran, node_frames announcer_laws ran 0⟩

end LobbySvr.Proofs
