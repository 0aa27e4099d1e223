/-
Module: LobbySvr.Proofs.BroadcastUniform
Layer: Proofs
Purpose: One value for all recipients of a broadcast.  `User::SendJsonPacket` changes the value it is given, and
  `sendPacketFromBroker_All` gives the same value to each call.  What the first call leaves behind, a
  second one does not change, so every recipient gets the same packet, and a value that jsoncpp throws at
  does so before the first packet.
Imports: LobbySvr.Proofs.JsonSizeGuard, LobbySvr.Proofs.RegistryConsistency, LobbySvr.Proofs.ChatReply
Trusted boundary: none
Main exports: MemberLaws, prepare_eq, prepare_idempotent, handToEach_left, HandedToAll, broadcast_uniform
Open obligations: none
-/
import Mathlib
import LobbySvr.Proofs.JsonSizeGuard
import LobbySvr.Proofs.RegistryConsistency
import LobbySvr.Proofs.ChatReply

namespace LobbySvr.Proofs

open LobbySvr.Foundation
open LobbySvr.Net
open LobbySvr.Spec
open LobbySvr.Lobby

variable {C J : Type} {json : JsonCpp J}

/-- What repeated calls rely on in jsoncpp. -/
structure MemberLaws (json : JsonCpp J) : Prop where
  /-- Looking at a member again finds it and changes nothing. -/
  index_again : ∀ jv key member later, json.index jv key = some (member, later) →
    json.index later key = some (member, later)
  /-- Looking at another member, which may insert it, leaves a member as it is. -/
  index_other : ∀ jv key member other inserted later, key ≠ other →
    json.index jv key = some (member, jv) → json.index jv other = some (inserted, later) →
    json.index later key = some (member, later)
  /-- A member that has been set is found. -/
  index_assign : ∀ jv key member later, json.assign jv key member = some later →
    json.index later key = some (member, later)
  /-- Setting a member to what it is changes nothing. -/
  assign_same : ∀ jv key member, json.index jv key = some (member, jv) →
    json.assign jv key member = some jv
  /-- A C string that was read and set is read as itself. -/
  asCString_ofString : ∀ value content, json.asCString value = some content →
    json.asCString (json.ofString content) = some content

/-! ### The two members -/

/-- The first half of `prepare`: the member `resultMsg`. -/
def settleResultMsg (json : JsonCpp J) (jv : J) : Option J := do
  let (resultMsg, jv) ← json.index jv rspRm
  if json.isNull resultMsg then pure jv
  else do
    let (resultMsg, jv) ← json.index jv rspRm
    let mbString ← json.asCString resultMsg
    json.assign jv rspRm (json.ofString (mb2Utf8 mbString))

/-- The second half: the member `packetSequenceNum`. -/
def takeSequenceNum (json : JsonCpp J) (jv : J) : Option (UInt32 × J) := do
  let (sequenceNum, jv) ← json.index jv rspSeq
  if json.isNull sequenceNum then pure (0, jv)
  else do
    let (sequenceNum, jv) ← json.index jv rspSeq
    let packetSequenceNo ← json.asUInt sequenceNum
    pure (packetSequenceNo, jv)

theorem prepare_eq (json : JsonCpp J) (jv : J) :
    User.prepare json jv = (settleResultMsg json jv).bind (takeSequenceNum json) := by
  unfold User.prepare settleResultMsg
  cases json.index jv rspRm with
  | none => rfl
  | some result =>
      simp only [Option.bind_eq_bind, Option.bind_some]
      split
      · rfl
      · simp only [Option.bind_assoc]
        rfl

/-- The member `resultMsg` is there, and is null or a string as a call leaves it. -/
def ResultMsgSettled (json : JsonCpp J) (jv : J) : Prop :=
  ∃ member, json.index jv rspRm = some (member, jv) ∧
    (json.isNull member = true ∨
      ∃ content, json.asCString member = some content ∧ member = json.ofString content)

theorem settled_of_settle (laws : MemberLaws json) {jv later : J}
    (settles : settleResultMsg json jv = some later) : ResultMsgSettled json later := by
  obtain ⟨⟨member, there⟩, found, rest⟩ := Option.bind_eq_some_iff.mp settles
  have again := laws.index_again _ _ _ _ found
  simp only at rest
  split at rest
  · rename_i null
    cases rest
    exact ⟨member, again, .inl null⟩
  · simp only [again, Option.bind_eq_bind, Option.bind_some] at rest
    obtain ⟨content, read, assigned⟩ := Option.bind_eq_some_iff.mp rest
    exact ⟨_, laws.index_assign _ _ _ _ assigned,
      .inr ⟨content, laws.asCString_ofString _ _ read, rfl⟩⟩

theorem settle_of_settled (laws : MemberLaws json) {jv : J} (settled : ResultMsgSettled json jv) :
    settleResultMsg json jv = some jv := by
  obtain ⟨member, found, ready⟩ := settled
  by_cases null : json.isNull member = true
  · simp only [settleResultMsg, found, Option.bind_eq_bind, Option.bind_some, if_pos null,
      Option.pure_def]
  · rcases ready with null' | ⟨content, read, rfl⟩
    · exact absurd null' null
    · have assigned := laws.assign_same _ _ _ found
      simp only [settleResultMsg, found, Option.bind_eq_bind, Option.bind_some, if_neg null, read,
        mb2Utf8, assigned]

/-- Taking the sequence number keeps `resultMsg`, and can be repeated. -/
theorem takeSequenceNum_again (laws : MemberLaws json) {jv later : J} {packetSequenceNo : UInt32}
    (settled : ResultMsgSettled json jv) (takes : takeSequenceNum json jv = some (packetSequenceNo, later)) :
    ResultMsgSettled json later ∧ takeSequenceNum json later = some (packetSequenceNo, later) := by
  obtain ⟨⟨sequenceNum, there⟩, found, rest⟩ := Option.bind_eq_some_iff.mp takes
  obtain ⟨member, msgFound, ready⟩ := settled
  have again := laws.index_again _ _ _ _ found
  have kept := laws.index_other _ _ _ _ _ _ (by decide : rspRm ≠ rspSeq) msgFound found
  simp only at rest
  split at rest
  · rename_i null
    cases rest
    refine ⟨⟨member, kept, ready⟩, ?_⟩
    simp only [takeSequenceNum, again, Option.bind_eq_bind, Option.bind_some, if_pos null,
      Option.pure_def]
  · rename_i present
    simp only [again, Option.bind_eq_bind, Option.bind_some] at rest
    obtain ⟨number, read, returned⟩ := Option.bind_eq_some_iff.mp rest
    cases returned
    refine ⟨⟨member, kept, ready⟩, ?_⟩
    simp only [takeSequenceNum, again, Option.bind_eq_bind, Option.bind_some, if_neg present, read,
      Option.pure_def]

/-- A second call does nothing to the value that the first one leaves, and takes the same number from
    it. -/
theorem prepare_idempotent (laws : MemberLaws json) {jv prepared : J} {packetSequenceNo : UInt32}
    (prepares : User.prepare json jv = some (packetSequenceNo, prepared)) :
    User.prepare json prepared = some (packetSequenceNo, prepared) := by
  rw [prepare_eq] at prepares ⊢
  obtain ⟨middle, settles, takes⟩ := Option.bind_eq_some_iff.mp prepares
  obtain ⟨settled, takesAgain⟩ := takeSequenceNum_again laws (settled_of_settle laws settles) takes
  rw [settle_of_settled laws settled, Option.bind_some, takesAgain]

/-! ### The loop -/

section

variable {ids : Identities C} {manager : LobbyUserManager C}
  (send : LobbyUser C → J → Except Fault (SendExit J))

/-- The value that a broadcast leaves, none when it did not get to its end. -/
def leftBehind : Except Fault (Option J) → Option J
  | .ok left => left
  | .error _ => none

/-- The packets are those of the calls that `sendToEach` makes, and the value left behind is the same. -/
theorem handToEach_left (pk : LobbyProtocol.PtJson) (url : List UInt8) (entries : List (UInt64 × C))
    (jv : J) :
    ((manager.handToEach (fun _ => User.sendJsonPacket json pk url) entries jv).1.map Prod.fst).Sublist
        (manager.sendToEach (LobbyUserManager.afterSend json pk url) entries jv).1 ∧
      leftBehind (manager.handToEach (fun _ => User.sendJsonPacket json pk url) entries jv).2 =
        (manager.sendToEach (LobbyUserManager.afterSend json pk url) entries jv).2 := by
  induction entries generalizing jv with
  | nil => exact ⟨List.Sublist.refl _, rfl⟩
  | cons entry entries inductionHypothesis =>
      obtain ⟨identity, conn⟩ := entry
      cases behind : manager.userBehind conn with
      | none =>
          simp only [LobbyUserManager.handToEach, LobbyUserManager.sendToEach, behind]
          exact inductionHypothesis jv
      | some user =>
          cases sent : User.sendJsonPacket json pk url jv with
          | error fault =>
              simp only [LobbyUserManager.handToEach, LobbyUserManager.sendToEach, behind, sent,
                LobbyUserManager.afterSend]
              exact ⟨List.nil_sublist _, rfl⟩
          | ok exit =>
              cases exit with
              | jsonException =>
                  simp only [LobbyUserManager.handToEach, LobbyUserManager.sendToEach, behind, sent,
                    LobbyUserManager.afterSend]
                  exact ⟨List.nil_sublist _, rfl⟩
              | bodyOverflow later =>
                  obtain ⟨front, left⟩ := inductionHypothesis later
                  simp only [LobbyUserManager.handToEach, LobbyUserManager.sendToEach, behind, sent,
                    LobbyUserManager.afterSend]
                  exact ⟨front.cons _, left⟩
              | sent packet later =>
                  obtain ⟨front, left⟩ := inductionHypothesis later
                  simp only [LobbyUserManager.handToEach, LobbyUserManager.sendToEach, behind, sent,
                    LobbyUserManager.afterSend, List.map_cons]
                  exact ⟨front.cons_cons _, left⟩

/-- Calls that find the value as they leave it hand the same packet to everybody. -/
theorem handToEach_fixed (consistent : Consistent ids manager) {packet : List UInt8} {prepared : J}
    (fixed : ∀ user, send user prepared = .ok (.sent packet prepared)) (entries : List (UInt64 × C))
    (known : ∀ entry ∈ entries, manager.tag entry.2 ≠ none) :
    manager.handToEach send entries prepared =
      (entries.map fun entry => (entry.2, packet), .ok (some prepared)) := by
  induction entries with
  | nil => rfl
  | cons entry entries inductionHypothesis =>
      obtain ⟨identity, conn⟩ := entry
      have behind := userBehind_eq consistent (known (identity, conn) (List.mem_cons_self ..))
      have rest := inductionHypothesis fun other member => known other (List.mem_cons_of_mem _ member)
      simp only [LobbyUserManager.handToEach, behind, fixed, rest, List.map_cons]

/-- The first call may change the value, as long as it hands out the packet that all others do. -/
theorem handToEach_uniform (consistent : Consistent ids manager) {packet : List UInt8} {jv prepared : J}
    (first : ∀ user, send user jv = .ok (.sent packet prepared))
    (fixed : ∀ user, send user prepared = .ok (.sent packet prepared)) (entries : List (UInt64 × C))
    (known : ∀ entry ∈ entries, manager.tag entry.2 ≠ none) :
    ∃ left, manager.handToEach send entries jv =
      (entries.map fun entry => (entry.2, packet), .ok (some left)) := by
  cases entries with
  | nil => exact ⟨jv, rfl⟩
  | cons entry entries =>
      obtain ⟨identity, conn⟩ := entry
      have behind := userBehind_eq consistent (known (identity, conn) (List.mem_cons_self ..))
      have rest := handToEach_fixed send consistent fixed entries
        fun other member => known other (List.mem_cons_of_mem _ member)
      refine ⟨prepared, ?_⟩
      simp only [LobbyUserManager.handToEach, behind, first, rest, List.map_cons]

theorem handToEach_raises (consistent : Consistent ids manager) {jv : J}
    (raises : ∀ user, send user jv = .ok .jsonException) {entry : UInt64 × C}
    {entries : List (UInt64 × C)} (known : manager.tag entry.2 ≠ none) :
    manager.handToEach send (entry :: entries) jv = ([], .ok none) := by
  obtain ⟨identity, conn⟩ := entry
  have behind := userBehind_eq consistent known
  simp only [LobbyUserManager.handToEach, behind, raises]

end

/-! ### The broadcast -/

/-- One packet for every registered connection, and nothing else. -/
structure HandedToAll (ids : Identities C) (manager : LobbyUserManager C)
    (handed : List (C × List UInt8)) (packet : List UInt8) : Prop where
  uniform : ∀ pair ∈ handed, pair.2 = packet
  everyone : ∀ conn, conn ∈ handed.map Prod.fst ↔ ids.identity conn ∈ manager.users
  once : (handed.map Prod.fst).Nodup

theorem handedToAll {ids : Identities C} {manager : LobbyUserManager C}
    (consistent : Consistent ids manager) (packet : List UInt8) :
    HandedToAll ids manager (manager.users.toList.map fun entry => (entry.2, packet)) packet := by
  obtain ⟨once, members⟩ := registered_order consistent
  have conns : (manager.users.toList.map fun entry => (entry.2, packet)).map Prod.fst =
      manager.users.toList.map Prod.snd := by
    rw [List.map_map]
    rfl
  constructor
  · intro pair member
    obtain ⟨entry, -, rfl⟩ := List.mem_map.mp member
    rfl
  · rw [conns]
    exact members
  · rw [conns]
    exact once

variable [DecidableEq C]

/-- A broadcast of a value whose text fits hands one packet to every registered connection, the one that
    `SendJsonPacket` makes of the url and the value for whichever of them is called first, or jsoncpp throws
    before the first packet; either way the value that a call leaves behind is one that the next call does
    not change. -/
theorem broadcast_uniform (laws : MemberLaws json) (ids : Identities C) (ops : List (RegistryOp C))
    (memory : C → UInt32 × (Nat → UInt8)) {url : List UInt8} (room : url.length ≤ maxUrlString) (jv : J)
    (short : ∀ packetSequenceNo prepared, User.prepare json jv = some (packetSequenceNo, prepared) →
      (json.write prepared).length ≤ 29999) :
    ((∃ handed packet left,
        (LobbyUserManager.run ids ops).packetsFromBrokerAll json memory url jv = (handed, .ok (some left)) ∧
          HandedToAll ids (LobbyUserManager.run ids ops) handed packet ∧
          ∀ conn, ids.identity conn ∈ (LobbyUserManager.run ids ops).users → ∃ prepared,
            User.sendJsonPacket json (.new (memory conn).1 (memory conn).2) url jv =
              .ok (.sent packet prepared)) ∨
      (User.prepare json jv = none ∧
        (LobbyUserManager.run ids ops).packetsFromBrokerAll json memory url jv = ([], .ok none))) ∧
    ∀ packetSequenceNo prepared, User.prepare json jv = some (packetSequenceNo, prepared) →
      User.prepare json prepared = some (packetSequenceNo, prepared) := by
  have consistent : Consistent ids (LobbyUserManager.run ids ops) := consistent_run ops
  refine ⟨?_, fun _ _ prepares => prepare_idempotent laws prepares⟩
  generalize LobbyUserManager.run ids ops = manager at consistent ⊢
  have known : ∀ entry ∈ manager.users.toList, manager.tag entry.2 ≠ none := by
    rintro ⟨identity, conn⟩ member
    exact ((consistent.found identity conn).mp (entry_iff_find.mp member)).2
  unfold LobbyUserManager.packetsFromBrokerAll
  cases prepares : User.prepare json jv with
  | none =>
      cases entries : manager.users.toList with
      | nil =>
          have nobody := handedToAll consistent []
          rw [entries] at nobody
          exact .inl ⟨[], [], jv, rfl, nobody,
            fun conn registered => absurd ((nobody.everyone conn).mpr registered) List.not_mem_nil⟩
      | cons entry others =>
          refine .inr ⟨rfl, handToEach_raises _ consistent ?_ (known entry ?_)⟩
          · intro user
            rw [User.sendJsonPacket, prepares]
          · rw [entries]
            exact List.mem_cons_self ..
  | some result =>
      obtain ⟨packetSequenceNo, prepared⟩ := result
      have fits : (json.write prepared).length + 1 ≤ LobbyProtocol.maxBodySize :=
        Nat.succ_le_succ (short packetSequenceNo prepared prepares)
      have again := prepare_idempotent laws prepares
      have makes : ∀ value, User.prepare json value = some (packetSequenceNo, prepared) → ∀ conn,
          User.sendJsonPacket json (.new (memory conn).1 (memory conn).2) url value =
            .ok (.sent ((filledLobby packetSequenceNo (fun _ => 0) url (json.write prepared)).head ++
              (json.write prepared ++ [0])) prepared) :=
        fun value prepares conn => user_sends json _ _ room prepares fits
      obtain ⟨left, handed⟩ := handToEach_uniform
        (fun user jv =>
          User.sendJsonPacket json (.new (memory user.conn).1 (memory user.conn).2) url jv) consistent
        (fun user => makes jv prepares user.conn) (fun user => makes prepared again user.conn)
        manager.users.toList known
      exact .inl ⟨_, _, left, handed, handedToAll consistent _,
        fun conn _ => ⟨prepared, makes jv prepares conn⟩⟩

/-! ### A broadcast to two connections -/

theorem lookup_setMember_other {key other : String} (different : key ≠ other) (member : FlatMember)
    (members : List (String × FlatMember)) :
    (FlatJson.setMember other member members).lookup key = members.lookup key := by
  induction members with
  | nil => simp [FlatJson.setMember, List.lookup_cons, beq_false_of_ne different]
  | cons first rest inductionHypothesis =>
      obtain ⟨third, kept⟩ := first
      rw [FlatJson.setMember]
      split
      · rename_i same
        subst same
        rw [List.lookup_cons, List.lookup_cons, beq_false_of_ne different]
      · split
        · rw [List.lookup_cons, beq_false_of_ne different]
        · rw [List.lookup_cons, List.lookup_cons, inductionHypothesis]

theorem lookup_replaceMember (key : String) (member : FlatMember) (members : List (String × FlatMember)) :
    (FlatJson.replaceMember key member members).lookup key = some member := by
  unfold FlatJson.replaceMember
  split
  · exact lookup_setMember key member members
  · rename_i found
    induction members with
    | nil => cases found
    | cons first rest inductionHypothesis =>
        obtain ⟨other, kept⟩ := first
        by_cases same : key = other
        · simp [FlatJson.overwriteMember, same]
        · rw [List.lookup_cons, beq_false_of_ne same] at found
          simp only [FlatJson.overwriteMember, if_neg same, List.lookup_cons, beq_false_of_ne same]
          exact inductionHypothesis found

theorem replaceMember_same {key : String} {member : FlatMember} {members : List (String × FlatMember)}
    (found : members.lookup key = some member) :
    FlatJson.replaceMember key member members = members := by
  unfold FlatJson.replaceMember
  rw [found]
  induction members with
  | nil => cases found
  | cons first rest inductionHypothesis =>
      obtain ⟨other, kept⟩ := first
      by_cases same : key = other
      · subst same
        simp only [List.lookup_cons, beq_self_eq_true] at found
        cases found
        simp [FlatJson.overwriteMember]
      · rw [List.lookup_cons, beq_false_of_ne same] at found
        simp only [FlatJson.overwriteMember, if_neg same, List.cons.injEq, true_and]
        exact inductionHypothesis found

theorem index_found {key : String} {member : FlatMember} {members : List (String × FlatMember)}
    (found : members.lookup key = some member) :
    FlatJson.index (.object members) key = some (.leaf member, .object members) := by
  simp only [FlatJson.index, found]

/-- What was looked at is a member of the object that is left. -/
theorem index_member {jv member later : FlatJson} {key : String}
    (looked : FlatJson.index jv key = some (member, later)) :
    ∃ members leaf, later = .object members ∧ member = .leaf leaf ∧ members.lookup key = some leaf := by
  unfold FlatJson.index at looked
  split at looked
  · split at looked
    · rename_i found
      cases looked
      exact ⟨_, _, rfl, rfl, found⟩
    · cases looked
      exact ⟨_, _, rfl, rfl, lookup_setMember ..⟩
  · cases looked
    exact ⟨_, _, rfl, rfl, by simp⟩
  · cases looked

theorem flatJsonInPlace_laws : MemberLaws flatJsonInPlace where
  index_again jv key member later looked := by
    obtain ⟨members, leaf, rfl, rfl, found⟩ := index_member looked
    exact index_found found
  index_other jv key member other inserted later different there looked := by
    obtain ⟨members, leaf, rfl, rfl, found⟩ := index_member there
    change FlatJson.index (.object members) other = some (inserted, later) at looked
    rw [FlatJson.index] at looked
    split at looked
    · cases looked
      exact there
    · cases looked
      apply index_found
      rw [lookup_setMember_other different, found]
  index_assign jv key member later assigned := by
    change FlatJson.assignInPlace jv key member = some later at assigned
    unfold FlatJson.assignInPlace at assigned
    split at assigned
    · cases assigned
      exact index_found (lookup_replaceMember ..)
    · cases assigned
      exact index_found (by simp)
    · cases assigned
  assign_same jv key member there := by
    obtain ⟨members, leaf, rfl, rfl, found⟩ := index_member there
    change some (FlatJson.object (FlatJson.replaceMember key leaf members)) = some (.object members)
    rw [replaceMember_same found]
  asCString_ofString value content read := by
    cases value with
    | object members => cases read
    | leaf member =>
        cases member with
        | null => cases read
        | uint number => cases read
        | text letters =>
            cases read
            change some ((letters.takeWhile (· ≠ 0)).takeWhile (· ≠ 0)) = some (letters.takeWhile (· ≠ 0))
            rw [List.takeWhile_takeWhile]
            simp

/-- A message whose `resultMsg` has a NUL in it, to two connections: the text is cut in the first call, and
    both get the packet with the cut text. -/
theorem broadcast_uniform_cut :
    ∃ handed packet left,
      (LobbyUserManager.run twoConnections [.addUser false, .addUser true]).packetsFromBrokerAll
          flatJsonInPlace (fun _ => (0, fun _ => 0)) [47] (.object [("resultMsg", .text [111, 0, 107])]) =
        (handed, .ok (some left)) ∧
      HandedToAll twoConnections (LobbyUserManager.run twoConnections [.addUser false, .addUser true])
        handed packet ∧
      ∀ conn, twoConnections.identity conn ∈
          (LobbyUserManager.run twoConnections [.addUser false, .addUser true]).users → ∃ prepared,
        User.sendJsonPacket flatJsonInPlace (.new 0 fun _ => 0) [47]
          (.object [("resultMsg", .text [111, 0, 107])]) = .ok (.sent packet prepared) := by
  have oneLetter : ([47] : List UInt8).length ≤ maxUrlString := by decide
  have short : ∀ packetSequenceNo prepared, User.prepare flatJsonInPlace
      (.object [("resultMsg", .text [111, 0, 107])]) = some (packetSequenceNo, prepared) →
      (flatJsonInPlace.write prepared).length ≤ 29999 := by
    intro packetSequenceNo prepared prepares
    cases prepares
    decide
  obtain ⟨handed | ⟨throws, -⟩, -⟩ := broadcast_uniform flatJsonInPlace_laws twoConnections
    [.addUser false, .addUser true] (fun _ => (0, fun _ => 0)) oneLetter
    (.object [("resultMsg", .text [111, 0, 107])]) short
  · exact handed
  · cases throws

end LobbySvr.Proofs
