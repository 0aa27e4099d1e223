/-
Module: LobbySvr.Proofs.ClientClosings
Layer: Proofs
Purpose: Why the server closes a client.  A call closes one exactly when the client's session has expired, its
  packet has an unknown code, its JSON packet is malformed, or it logs in with another version, and in each
  case at once.  No accepted request is answered: what a client gets for its own JSON packet comes with the
  close.
Imports: LobbySvr.Proofs.JsonAcceptance, LobbySvr.Proofs.ServerRuns
Trusted boundary: none
Main exports: ClosingReason, invalidPacket_iff, login_refuses, Requested.closes, step_closes, closings_justified
Open obligations: none
-/
import LobbySvr.Proofs.JsonAcceptance
import LobbySvr.Proofs.ServerRuns

namespace LobbySvr.Proofs

open LobbySvr.Foundation
open LobbySvr.Net
open LobbySvr.Spec
open LobbySvr.Lobby

variable {C J : Type} [DecidableEq C]

/-- The calls that close a client; `inside` says whether it is in. -/
inductive ClosingReason (json : ServerJson J) (clientVersion : Int) (conn : C) (inside : Prop) :
    ServerInput C → Prop where
  | expiredSession {around : Circumstances C} :
      ClosingReason json clientVersion conn inside ⟨.onExpiredSession conn, around⟩
  | unknownCode {around : Circumstances C} :
      ClosingReason json clientVersion conn inside ⟨.noHandler conn, around⟩
  /-- A JSON packet that has no room for a head. -/
  | malformed {around : Circumstances C} {size : UInt32} {msg : MessageBuffer} (there : inside)
      (short : size.toNat < LobbyProtocol.headSize) :
      ClosingReason json clientVersion conn inside ⟨.readJsonPacket conn size msg, around⟩
  /-- A login of another version, whose refusal `SendJsonPacket` has not thrown at. -/
  | outdated {around : Circumstances C} {size : UInt32} {msg : MessageBuffer} {text : List UInt8}
      {jv rsp : J} {request : LoginRequest} {exit : SendExit J} (there : inside)
      (reads : LobbyAcceptorReceiver.readJsonPacket json.parse true around.beyond size msg =
        .ok (.dispatched loginUrl text jv))
      (asked : NhLobby.readRequest json jv = some (rsp, request))
      (endpoint : around.remoteEndpoint = true) (differs : request.clientVersion ≠ clientVersion)
      (refused : NhLobby.sendDBFailed json (.new 0 fun _ => 0) loginUrl (-1)
        "client version".toUTF8.data.toList rsp = .ok (.refused exit))
      (answered : exit ≠ .jsonException) :
      ClosingReason json clientVersion conn inside ⟨.readJsonPacket conn size msg, around⟩

section

variable {json : ServerJson J} {ids : Identities C} {clientVersion : Int} {conn other : C}
  {room later : LobbyRoom C} {delivery : Delivery C} {around : Circumstances C}

omit [DecidableEq C] in
/-- The reader turns away what is shorter than a head, and nothing else. -/
theorem invalidPacket_iff {parseJson : List UInt8 → Option J} {beyond : List UInt8} {size : UInt32}
    {msg : MessageBuffer} :
    LobbyAcceptorReceiver.readJsonPacket parseJson true beyond size msg = .ok .invalidPacket ↔
      size.toNat < LobbyProtocol.headSize := by
  rw [LobbyAcceptorReceiver.readJsonPacket, if_neg Bool.noConfusion]
  constructor
  · intro reads
    by_contra whole
    rw [if_neg whole] at reads
    split at reads
    · cases reads
    · exact readBody_ne_invalidPacket parseJson _ _ _ _ (Except.ok.inj reads)
  · intro short
    rw [if_pos short]

/-- Only a refused login is answered. -/
theorem loginActions_nil_or (exit : LoginExit J) :
    LobbyServer.loginActions exit = [] ∨ ∃ answer, exit = .refused answer ∧ answer ≠ .jsonException := by
  cases exit with
  | refused answer =>
      cases answer with
      | jsonException => exact .inl rfl
      | bodyOverflow jv => exact .inr ⟨_, rfl, nofun⟩
      | sent packet jv => exact .inr ⟨_, rfl, nofun⟩
  | _ => exact .inl rfl

/-- A refused login closes at once. -/
theorem refusal_closes {answer : SendExit J} (answered : answer ≠ .jsonException) :
    .closeReserve 0 ∈ LobbyServer.loginActions (.refused answer) ∧
      ∀ timeAfterMs, .closeReserve timeAfterMs ∈ LobbyServer.loginActions (.refused answer) →
        timeAfterMs = 0 := by
  cases answer with
  | jsonException => exact absurd rfl answered
  | bodyOverflow jv => simp [LobbyServer.loginActions]
  | sent packet jv => simp [LobbyServer.loginActions]

/-- A refused login is one of another version. -/
theorem login_refuses {pk : LobbyProtocol.PtJson} {remoteEndpoint : Bool} {url : List UInt8} {jv : J}
    {answer : SendExit J} :
    NhLobby.login json clientVersion remoteEndpoint true pk url jv = .ok (.refused answer) ↔
      ∃ rsp request, NhLobby.readRequest json jv = some (rsp, request) ∧ remoteEndpoint = true ∧
        request.clientVersion ≠ clientVersion ∧
        NhLobby.sendDBFailed json pk url (-1) "client version".toUTF8.data.toList rsp =
          .ok (.refused answer) := by
  simp only [NhLobby.login, Bool.true_eq_false, if_false]
  cases asked : NhLobby.readRequest json jv with
  | none => simp
  | some read =>
      obtain ⟨rsp, request⟩ := read
      cases remoteEndpoint with
      | false => simp
      | true =>
          by_cases same : request.clientVersion = clientVersion
          · simp [same]
          · simp [same]

omit [DecidableEq C] in
theorem welcome_packets {json : ServerJson J} {pk : UInt32 × (Nat → UInt8)} {actions : List Action}
    (welcomes : LobbyServer.welcome json pk = .ok actions) :
    ∀ action ∈ actions, ∃ packet, action = .sendPacket packet := by
  unfold LobbyServer.welcome at welcomes
  split at welcomes
  · cases welcomes
  · split at welcomes
    · cases welcomes
    · cases welcomes
    · cases welcomes
      exact fun _ member => absurd member List.not_mem_nil
    · rename_i packet _ _
      cases welcomes
      exact fun _ member => ⟨packet, List.mem_singleton.mp member⟩

omit [DecidableEq C] in
/-- A request that gives its client something is malformed, or a login of another version. -/
theorem Requested.closes {msg : MessageBuffer} {size : UInt32} {action : Action} (there : conn ∈ room.present)
    (requested : Requested json ids clientVersion around conn size msg room delivery)
    (given : action ∈ delivery.toClient conn) :
    ClosingReason json clientVersion conn (conn ∈ room.present) ⟨.readJsonPacket conn size msg, around⟩ ∧
      .closeReserve 0 ∈ delivery.toClient conn ∧
      ∀ timeAfterMs, .closeReserve timeAfterMs ∈ delivery.toClient conn → timeAfterMs = 0 := by
  cases requested with
  | invalidPacket invalid =>
      exact ⟨.malformed there (invalidPacket_iff.mp invalid),
        mem_forClient.mpr ⟨rfl, List.mem_singleton_self _⟩,
        fun _ closes => Action.closeReserve.inj (List.mem_singleton.mp (mem_forClient.mp closes).2)⟩
  | @login text jv exit dispatched logs =>
      rw [forClient_own] at given ⊢
      rcases loginActions_nil_or exit with nothing | ⟨answer, rfl, answered⟩
      · rw [nothing] at given
        exact absurd given List.not_mem_nil
      · obtain ⟨rsp, request, asked, endpoint, differs, refused⟩ := login_refuses.mp logs
        exact ⟨.outdated there dispatched asked endpoint differs refused answered, refusal_closes answered⟩
  | chat _ _ sends =>
      rw [toBroker_private sends] at given
      exact absurd given List.not_mem_nil
  | nothing => exact absurd given List.not_mem_nil

omit [DecidableEq C] in
/-- A malformed request, or a login of another version, closes its client. -/
theorem Requested.closed {msg : MessageBuffer} {size : UInt32} {inside : Prop}
    (requested : Requested json ids clientVersion around other size msg room delivery)
    (reason : ClosingReason json clientVersion conn inside ⟨.readJsonPacket other size msg, around⟩) :
    .closeReserve 0 ∈ delivery.toClient conn := by
  rw [← jsonPacket_cases] at requested
  cases reason with
  | malformed _ short =>
      simp only [LobbyRoom.jsonPacket, invalidPacket_iff.mpr short] at requested
      cases requested
      exact mem_forClient.mpr ⟨rfl, List.mem_singleton_self _⟩
  | outdated _ dispatched asked endpoint differs refused answered =>
      simp only [LobbyRoom.jsonPacket, dispatched] at requested
      have logs := login_refuses.mpr ⟨_, _, asked, endpoint, differs, refused⟩
      rw [LobbyRoom.request, if_pos rfl, logs] at requested
      cases requested
      exact mem_forClient.mpr ⟨rfl, (refusal_closes answered).1⟩

omit [DecidableEq C] in
/-- A call closes a client exactly when there is a reason for it. -/
theorem step_closes {input : ServerInput C}
    (stepped : LobbyRoom.step json ids clientVersion room input = .ok (later, delivery))
    (timeAfterMs : UInt32) :
    .closeReserve timeAfterMs ∈ delivery.toClient conn ↔
      timeAfterMs = 0 ∧ ClosingReason json clientVersion conn (conn ∈ room.present) input := by
  -- Where only packets go out there is nothing to show but that there is no reason.
  have onlyPackets : (∀ action ∈ delivery.toClient conn, ∃ packet, action = .sendPacket packet) →
      ¬ ClosingReason json clientVersion conn (conn ∈ room.present) input →
      (.closeReserve timeAfterMs ∈ delivery.toClient conn ↔
        timeAfterMs = 0 ∧ ClosingReason json clientVersion conn (conn ∈ room.present) input) := by
    intro packets noReason
    constructor
    · intro closes
      obtain ⟨packet, different⟩ := packets _ closes
      cases different
    · rintro ⟨-, reason⟩
      exact absurd reason noReason
  have closesOwn : ∀ {other}, delivery = .forClient other [.closeReserve 0] →
      (.closeReserve timeAfterMs ∈ delivery.toClient conn ↔ conn = other ∧ timeAfterMs = 0) := by
    rintro other rfl
    rw [mem_forClient, List.mem_singleton, Action.closeReserve.injEq]
  have noAction : delivery.toClient conn = [] →
      ∀ action ∈ delivery.toClient conn, ∃ packet, action = .sendPacket packet := by
    intro nothing action given
    rw [nothing] at given
    exact absurd given List.not_mem_nil
  cases room_step_cases.mp stepped with
  | alreadyIn => exact onlyPackets (noAction rfl) (by rintro ⟨⟩)
  | enters _ _ welcomes =>
      refine onlyPackets (fun action given => ?_) (by rintro ⟨⟩)
      exact welcome_packets welcomes action (mem_forClient.mp given).2
  | alreadyOut => exact onlyPackets (noAction rfl) (by rintro ⟨⟩)
  | leaves _ _ _ sends => exact onlyPackets (noAction (toBroker_private sends conn)) (by rintro ⟨⟩)
  | expires =>
      rw [closesOwn rfl]
      constructor
      · rintro ⟨rfl, zero⟩
        exact ⟨zero, .expiredSession⟩
      · rintro ⟨zero, reason⟩
        cases reason
        exact ⟨rfl, zero⟩
  | noHandler =>
      rw [closesOwn rfl]
      constructor
      · rintro ⟨rfl, zero⟩
        exact ⟨zero, .unknownCode⟩
      · rintro ⟨zero, reason⟩
        cases reason
        exact ⟨rfl, zero⟩
  | @requests other around size msg delivery there requested =>
      constructor
      · intro closes
        by_cases own : conn = other
        · subst own
          obtain ⟨reason, -, zero⟩ := requested.closes there closes
          exact ⟨zero _ closes, reason⟩
        · rw [requested.answered own] at closes
          exact absurd closes List.not_mem_nil
      · rintro ⟨rfl, reason⟩
        exact requested.closed reason
  | notIn absent =>
      refine onlyPackets (noAction rfl) fun reason => ?_
      cases reason with
      | malformed there => exact absent there
      | outdated there => exact absent there
  | links => exact onlyPackets (noAction rfl) (by rintro ⟨⟩)
  | obeys _ obeyed => exact onlyPackets (fun _ given => (obeyed.member given).2) (by rintro ⟨⟩)
  | ignores => exact onlyPackets (noAction rfl) (by rintro ⟨⟩)
  | brokerNoHandler => exact onlyPackets (noAction rfl) (by rintro ⟨⟩)
  | brokerExpires => exact onlyPackets (noAction rfl) (by rintro ⟨⟩)

end

section

variable {json : ServerJson J} {ids : Identities C} {clientVersion : Int}
  {connector : Option ConnectOutcome}
  {inputs : List (ServerInput C)} {server : LobbyServer C}
  {trace before after : List (ServerInput C × List (ServerOutput C))} {input : ServerInput C}
  {outputs : List (ServerOutput C)}

/-- In every run, the server closes a client in a call exactly when the client's session expires, its packet has
    an unknown code, its JSON packet is malformed, or it logs in with another version; and always at once.
    And a client that gets anything for its own JSON packet is closed. -/
theorem closings_justified (laws : MemberLaws json.toJsonCpp)
    (ran : LobbyServer.run json ids clientVersion connector inputs = .ok (server, trace)) :
    ∀ before input outputs conn, CallIn trace before input outputs →
      (∀ timeAfterMs, .client conn (.closeReserve timeAfterMs) ∈ outputs ↔ timeAfterMs = 0 ∧
        ClosingReason json clientVersion conn (Inside conn (before.map Prod.fst)) input) ∧
      ∀ size msg action, input.event = .readJsonPacket conn size msg → .client conn action ∈ outputs →
        .client conn (.closeReserve 0) ∈ outputs := by
  rintro before input outputs conn ⟨after, split⟩
  have stepped := server_step_in_run laws ran split
  constructor
  · intro timeAfterMs
    rw [← mem_clientActions]
    exact step_closes stepped timeAfterMs
  · intro size msg action event given
    obtain ⟨event', around⟩ := input
    cases event
    simp only [LobbyRoom.step] at stepped
    rw [← mem_clientActions] at given ⊢
    split at stepped
    · rename_i there
      obtain ⟨delivery, reads, same⟩ := map_eq_ok.mp stepped
      have sorted : Delivery.sorted outputs = delivery := congrArg Prod.snd same
      rw [← sorted] at reads
      exact ((jsonPacket_cases.mp reads).closes there given).2.1
    · have nothing : Delivery.sorted outputs = .nothing :=
        congrArg Prod.snd (Except.ok.inj stepped).symm
      rw [outputs_nil_of_sorted nothing] at given
      exact absurd given List.not_mem_nil

/-- Who is closed during the visits, and why. -/
theorem closings_justified_visits : ∃ server trace,
    LobbyServer.run announcer twoConnections 7 none visits = .ok (server, trace) ∧
    ∀ before input outputs conn, CallIn trace before input outputs →
      (∀ timeAfterMs, .client conn (.closeReserve timeAfterMs) ∈ outputs ↔ timeAfterMs = 0 ∧
        ClosingReason announcer 7 conn (Inside conn (before.map Prod.fst)) input) ∧
      ∀ size msg action, input.event = .readJsonPacket conn size msg → .client conn action ∈ outputs →
        .client conn (.closeReserve 0) ∈ outputs := by
  obtain ⟨server, trace, ran⟩ := visits_succeed
  exact ⟨server, trace, ran, closings_justified announcer_laws ran⟩

end

end LobbySvr.Proofs
