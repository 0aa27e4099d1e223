/-
Module: LobbySvr.Proofs.ChatReply
Layer: Proofs
Purpose: The way of a chat acknowledgement.  `nh_chat::sendMsg` puts the identity of the sender's connection
  into the value for the broker, cast to 32 bits; the broker sends it back, and
  `ConnectorHandler::chatSendMsg` looks a 64-bit identity up in the registry.  Whatever happened to the
  registry in between, the answer comes to the sender alone exactly when the cast lost nothing.
Imports: LobbySvr.Lobby.ConnectorHandler, LobbySvr.Proofs.RegistryConsistency,
  LobbySvr.Proofs.MessageRouting, LobbySvr.Proofs.ChatForwarding
Trusted boundary: none
Main exports: IdentityLaws, Echoes, forwarded_identity, chatSendMsg_recipients, chat_reply_returns_iff,
  private_message_recipients
Open obligations: none
-/
import Mathlib
import LobbySvr.Lobby.ConnectorHandler
import LobbySvr.Proofs.RegistryConsistency
import LobbySvr.Proofs.MessageRouting
import LobbySvr.Proofs.ChatForwarding

namespace LobbySvr.Proofs

open LobbySvr.Foundation
open LobbySvr.Net
open LobbySvr.Spec
open LobbySvr.Lobby

variable {C J : Type} {json : BrokerJson J}

/-- What the way of the identity relies on in jsoncpp. -/
structure IdentityLaws (json : BrokerJson J) : Prop where
  /-- A member that has been set is found, and looking at it changes nothing. -/
  index_assign : ∀ value key member later, json.assign value key member = some later →
    json.index later key = some (member, later)
  /-- A number that was set from a `uint32_t` is read as itself. -/
  asUInt64_ofUInt : ∀ number, json.asUInt64 (json.ofUInt number) = some number.toUInt64

/-- The `identity` member of an answer reads as the one that was sent. -/
def Echoes (json : BrokerJson J) (sent answer : J) : Prop :=
  ∃ there thereLater back backLater, json.index sent "identity" = some (there, thereLater) ∧
    json.index answer "identity" = some (back, backLater) ∧ json.asUInt64 back = json.asUInt64 there

/-! ### The way out -/

/-- The last member that `sendMsg` sets is the identity. -/
theorem setAdditional_identity {json : JsonCpp J} {server : ChatServer} {user : ChatUser} {jv later : J}
    (set : NhChat.setAdditional json server user jv = some later) :
    ∃ earlier, json.assign earlier "identity" (json.ofUInt (UInt32.ofNat user.identity)) = some later := by
  simp only [NhChat.setAdditional, Option.bind_eq_bind, Option.bind_eq_some_iff] at set
  obtain ⟨_, _, _, _, _, _, _, _, _, _, earlier, _, last⟩ := set
  exact ⟨earlier, last⟩

/-- The checks refuse for one of two reasons. -/
theorem check_refusal {json : JsonCpp J} {jv later : J} {refusal : ChatDecision J}
    (checked : NhChat.check json jv = some (some refusal, later)) :
    refusal = .msgSizeIsZero ∨ refusal = .invalidTarget := by
  simp only [NhChat.check, Option.bind_eq_bind, Option.bind_eq_some_iff] at checked
  obtain ⟨_, -, msg, -, rest⟩ := checked
  by_cases empty : msg.length = 0
  · rw [if_pos empty] at rest
    cases rest
    exact .inl rfl
  · rw [if_neg empty, Option.bind_eq_some_iff] at rest
    obtain ⟨_, -, rest⟩ := rest
    obtain ⟨channelType, -, rest⟩ := Option.bind_eq_some_iff.mp rest
    by_cases isPrivate : channelType = 2
    · rw [if_pos isPrivate, Option.bind_eq_some_iff] at rest
      obtain ⟨_, -, rest⟩ := rest
      obtain ⟨nickname, -, rest⟩ := Option.bind_eq_some_iff.mp rest
      by_cases short : nickname.length < 2
      · rw [if_pos short] at rest
        cases rest
        exact .inr rfl
      · rw [if_neg short] at rest
        cases rest
    · rw [if_neg isPrivate] at rest
      cases rest

/-- A request is forwarded for a user, with the members set. -/
theorem decide_forward {json : JsonCpp J} {server : ChatServer} {user : Option ChatUser}
    {request forwarded : J} (forwards : NhChat.decide json server user request = .forward forwarded) :
    ∃ sender checked, user = some sender ∧ NhChat.check json request = some (none, checked) ∧
      NhChat.setAdditional json server sender checked = some forwarded := by
  cases user with
  | none => cases forwards
  | some sender =>
      simp only [NhChat.decide] at forwards
      split at forwards
      · cases forwards
      · rename_i refused
        rcases check_refusal refused with rfl | rfl
        · cases forwards
        · cases forwards
      · rename_i checked passed
        split at forwards
        · cases forwards
        · rename_i set
          cases forwards
          exact ⟨sender, checked, rfl, passed, set⟩

variable {ids : Identities C} {manager : LobbyUserManager C}

/-- The identity that a forwarded request carries is that of the sender's connection, cast to 32 bits. -/
theorem forwarded_identity (laws : IdentityLaws json) (consistent : Consistent ids manager) {conn : C}
    {server : ChatServer} {request forwarded : J}
    (forwards : NhChat.decide json.toJsonCpp server ((manager.tag conn).map (LobbyUser.chatUser ids))
      request = .forward forwarded) :
    json.index forwarded "identity" =
      some (json.ofUInt (UInt32.ofNat (ids.identity conn).toNat), forwarded) := by
  obtain ⟨sender, checked, behind, -, set⟩ := decide_forward forwards
  obtain ⟨user, tagged, same⟩ := Option.map_eq_some_iff.mp behind
  obtain ⟨earlier, assigned⟩ := setAdditional_identity set
  rw [← same, consistent.own conn user tagged] at assigned
  exact laws.index_assign _ _ _ _ assigned

/-- The cast keeps an identity exactly when it is below 2 ^ 32. -/
theorem cast_identity_iff (identity : UInt64) :
    (UInt32.ofNat identity.toNat).toUInt64 = identity ↔ identity.toNat < 4294967296 := by
  rw [← UInt64.toNat_inj, UInt32.toNat_toUInt64, UInt32.toNat_ofNat']
  constructor
  · intro kept
    rw [← kept]
    exact Nat.mod_lt _ (by decide)
  · intro small
    exact Nat.mod_eq_of_lt small

/-! ### The way back -/

theorem handTo_recipients (pk : LobbyProtocol.PtJson) (url : List UInt8) (jv : J) (target : Option C) :
    (ConnectorHandler.handTo json pk url jv target).recipients = target.toList := by
  cases target with
  | none => rfl
  | some conn => rfl

/-- The answer under `/chatSendMsg` goes to a connection alone exactly when the identity it carries is the
    connection's own and the connection is registered. -/
theorem chatSendMsg_recipients (consistent : Consistent ids manager) (pk : LobbyProtocol.PtJson)
    {answer back later : J} {identity : UInt64}
    (found : json.index answer "identity" = some (back, later))
    (reads : json.asUInt64 back = some identity) (conn : C) :
    (BrokerConnector.dispatch json pk chatSendMsgUrl answer manager).recipients = [conn] ↔
      ids.identity conn = identity ∧ manager.tag conn ≠ none := by
  have url : BrokerUrl.find chatSendMsgUrl = some .chatSendMsg := by decide
  have handed : BrokerConnector.dispatch json pk chatSendMsgUrl answer manager =
      ConnectorHandler.handTo json pk sendMsgUrl later (manager.sendPacketFromBroker identity) := by
    simp only [BrokerConnector.dispatch, url, ConnectorHandler.chatSendMsg,
      ConnectorHandler.sendByIdentity, found, reads]
  rw [handed, handTo_recipients, Option.toList_eq_singleton_iff]
  exact sendPacketFromBroker_iff consistent identity conn

/-- A private message for an index whose route is exact goes to the connection it is owed to alone. -/
theorem private_message_recipients {history : RouteHistory C} (exact : RoutesExact history)
    (pk : LobbyProtocol.PtJson) {jv channelType typed toIDX later : J} {index : UInt32} {conn : C}
    (channel : json.index jv "channelType" = some (channelType, typed))
    (isPrivate : json.asInt channelType = some 2)
    (found : json.index typed "addition_toIDX" = some (toIDX, later))
    (reads : json.asUInt toIDX = some index) (owed : history.owed index = some conn) :
    (ConnectorHandler.chatReceiveMsg json pk jv history.manager).recipients = [conn] := by
  have handed : ConnectorHandler.chatReceiveMsg json pk jv history.manager =
      ConnectorHandler.handTo json pk receiveMsgUrl later
        (history.manager.sendPacketFromBrokerByUserIDX index) := by
    simp only [ConnectorHandler.chatReceiveMsg, channel, isPrivate, found, reads]
  rw [handed, handTo_recipients, exact index conn owed]
  rfl

/-! ### Out and back -/

/-- A request is forwarded, anything happens to the registry, and the broker answers while the sender is
    registered: the answer comes to the sender alone exactly when its identity is below 2 ^ 32. -/
theorem chat_reply_returns_iff [DecidableEq C] (laws : IdentityLaws json) (ids : Identities C)
    (before after : List (RegistryOp C)) (conn : C) (server : ChatServer) (pk : LobbyProtocol.PtJson)
    (request forwarded answer : J)
    (forwards : NhChat.decide json.toJsonCpp server
      (((LobbyUserManager.run ids before).tag conn).map (LobbyUser.chatUser ids)) request =
        .forward forwarded)
    (echoed : Echoes json forwarded answer)
    (registered : ids.identity conn ∈ (LobbyUserManager.run ids (before ++ after)).users) :
    (BrokerConnector.dispatch json pk chatSendMsgUrl answer
        (LobbyUserManager.run ids (before ++ after))).recipients = [conn] ↔
      (ids.identity conn).toNat < 4294967296 := by
  have sent := forwarded_identity laws (consistent_run before) forwards
  obtain ⟨there, thereLater, back, backLater, out, found, same⟩ := echoed
  rw [sent] at out
  cases out
  have consistent : Consistent ids (LobbyUserManager.run ids (before ++ after)) := consistent_run _
  have reads : json.asUInt64 back = some (UInt32.ofNat (ids.identity conn).toNat).toUInt64 := by
    rw [same, laws.asUInt64_ofUInt]
  rw [chatSendMsg_recipients consistent pk found reads conn, ← cast_identity_iff]
  constructor
  · rintro ⟨own, -⟩
    exact own.symm
  · intro kept
    exact ⟨kept.symm, (consistent.registered conn).mp registered⟩

/-- The flat library with the operations of the broker's handlers; numbers that do not fit make it throw. -/
def flatBrokerJson : BrokerJson FlatJson where
  toJsonCpp := flatJson []
  asUInt64 value := (FlatJson.asNat value).bind fun number =>
    if number < 18446744073709551616 then some (UInt64.ofNat number) else none
  ofInt value := .leaf (.uint value.toNat)

theorem lookup_setMember (key : String) (member : FlatMember) (members : List (String × FlatMember)) :
    (FlatJson.setMember key member members).lookup key = some member := by
  induction members with
  | nil => simp [FlatJson.setMember]
  | cons first rest inductionHypothesis =>
      obtain ⟨other, kept⟩ := first
      rw [FlatJson.setMember]
      split
      · simp
      · rename_i different
        split
        · simp
        · rw [List.lookup_cons, beq_false_of_ne different]
          exact inductionHypothesis

theorem flatBrokerJson_laws : IdentityLaws flatBrokerJson where
  index_assign value key member later assigned := by
    change FlatJson.assign value key member = some later at assigned
    change FlatJson.index later key = some (member, later)
    unfold FlatJson.assign at assigned
    split at assigned
    · cases assigned
      simp only [FlatJson.index, lookup_setMember]
    · cases assigned
      simp [FlatJson.index]
    · cases assigned
  asUInt64_ofUInt number := by
    have small : number.toNat < 18446744073709551616 := Nat.lt_trans number.toNat_lt (by decide)
    change (if number.toNat < 18446744073709551616 then some (UInt64.ofNat number.toNat) else none) = _
    rw [if_pos small, Option.some.injEq, ← UInt64.toNat_inj, UInt64.toNat_ofNat_of_lt' small,
      UInt32.toNat_toUInt64]

/-- The second of two connections sends a chat line; the first disconnects before the answer is there. -/
theorem chat_reply_returns_iff_second :
    (BrokerConnector.dispatch flatBrokerJson (.new 0 (fun _ => 0)) chatSendMsgUrl
        (.object [("identity", .uint 2)])
        (LobbyUserManager.run twoConnections
          ([.addUser false, .addUser true] ++ [.deleteUser false]))).recipients = [true] :=
  (chat_reply_returns_iff flatBrokerJson_laws twoConnections [.addUser false, .addUser true]
    [.deleteUser false] true ⟨3, 1700000000⟩ _ (groupMessage [104, 105]) _ _ rfl
    ⟨_, _, _, _, rfl, rfl, rfl⟩ (by decide)).mpr (by decide)

/-- The connections in the order of their construction, as many as draw different identities. -/
abbrev SeedConnection := { number : Nat // number + 1 < 18446744073709551616 }

/-- Each connection draws the next identity from `s_identitySeed`, which starts at 1. -/
def seedIdentities : Identities SeedConnection where
  identity conn := UInt64.ofNat (conn.val + 1)
  distinct := by
    intro left right same
    have equal := congrArg UInt64.toNat same
    rw [UInt64.toNat_ofNat_of_lt' left.property, UInt64.toNat_ofNat_of_lt' right.property] at equal
    exact Subtype.ext (Nat.succ.inj equal)

/-- The first connection of the server. -/
def firstConnection : SeedConnection := ⟨0, by decide⟩

/-- The connection with the identity 2 ^ 32 + 1. -/
def lateConnection : SeedConnection := ⟨4294967296, by decide⟩

/-- The registry with the two of them. -/
def longUptime : LobbyUserManager SeedConnection :=
  LobbyUserManager.run seedIdentities [.addUser firstConnection, .addUser lateConnection]

/-- The late connection's chat line is forwarded with identity 1, and the answer goes to the first one. -/
theorem late_sender_unanswered :
    (∃ forwarded, NhChat.decide flatBrokerJson.toJsonCpp ⟨3, 1700000000⟩
        ((longUptime.tag lateConnection).map (LobbyUser.chatUser seedIdentities))
        (groupMessage [104, 105]) = .forward forwarded ∧
      Echoes flatBrokerJson forwarded (.object [("identity", .uint 1)])) ∧
    seedIdentities.identity lateConnection ∈ longUptime.users ∧
    (BrokerConnector.dispatch flatBrokerJson (.new 0 (fun _ => 0)) chatSendMsgUrl
      (.object [("identity", .uint 1)]) longUptime).recipients = [firstConnection] ∧
    firstConnection ≠ lateConnection := by
  refine ⟨⟨_, rfl, ⟨_, _, _, _, rfl, rfl, rfl⟩⟩, ?_, ?_, ?_⟩
  · decide
  · decide
  · decide

end LobbySvr.Proofs
