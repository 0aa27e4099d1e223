/-
Module: LobbySvr.Proofs.RegistryConsistency
Layer: Proofs
Purpose: The three places that know about a registered connection agree after every sequence of operations:
  its identity is a key of `m_users` exactly when its tag points at a user, the user is its own, and the
  strong reference that the user owns keeps the weak one in the map lockable.  From this the failure exits
  of the lookups are dead, and a broadcast calls each registered connection once, in the order of their
  identities, as far as the calls return.
Imports: LobbySvr.Lobby.LobbyUserManager, LobbySvr.Spec.FlatJson
Trusted boundary: none
Main exports: Consistent, sendPacketFromBroker_iff, addUser_fresh, deleteUser_registered,
  consistent_step, consistent_run, RegistryContract, registry_consistent
Open obligations: none
-/
import Mathlib
import LobbySvr.Lobby.LobbyUserManager
import LobbySvr.Spec.FlatJson

namespace LobbySvr.Proofs

open LobbySvr.Foundation
open LobbySvr.Net
open LobbySvr.Spec
open LobbySvr.Lobby

variable {C : Type} {ids : Identities C} {manager : LobbyUserManager C} {conn : C}

/-- Tags, keys and strong references agree, and no deletion has missed its entry. -/
structure Consistent (ids : Identities C) (manager : LobbyUserManager C) : Prop where
  own : ∀ conn user, manager.tag conn = some user → user = ⟨conn, 0, []⟩
  found : ∀ identity conn, manager.users[identity]? = some conn ↔
    ids.identity conn = identity ∧ manager.tag conn ≠ none
  counted : ∀ conn, manager.owners conn = if manager.tag conn = none then 0 else 1
  quiet : ∀ userIDX, .noneUser userIDX ∉ manager.log

theorem Consistent.registered (consistent : Consistent ids manager) (conn : C) :
    ids.identity conn ∈ manager.users ↔ manager.tag conn ≠ none := by
  rw [mem_iff_find]
  constructor
  · intro there
    obtain ⟨other, found⟩ := Option.ne_none_iff_exists'.mp there
    obtain ⟨same, tagged⟩ := (consistent.found _ _).mp found
    rw [← ids.distinct same]
    exact tagged
  · intro tagged absent
    have found := (consistent.found _ conn).mpr ⟨rfl, tagged⟩
    rw [absent] at found
    cases found

theorem Consistent.absent (consistent : Consistent ids manager) (untagged : manager.tag conn = none) :
    manager.users[ids.identity conn]? = none := by
  rw [← not_mem_iff_find, consistent.registered, untagged]
  exact not_not.mpr rfl

theorem Consistent.tagged (consistent : Consistent ids manager) (tagged : manager.tag conn ≠ none) :
    manager.tag conn = some ⟨conn, 0, []⟩ := by
  obtain ⟨user, same⟩ := Option.ne_none_iff_exists'.mp tagged
  rw [same, consistent.own conn user same]

/-- The user's own reference keeps the weak pointer alive. -/
theorem Consistent.lockable (consistent : Consistent ids manager) (tagged : manager.tag conn ≠ none) :
    manager.lockable conn = true := by
  have counted := consistent.counted conn
  rw [if_neg tagged] at counted
  rw [LobbyUserManager.lockable, counted]
  exact Bool.or_true _

theorem consistent_empty : Consistent ids (LobbyUserManager.empty : LobbyUserManager C) where
  own conn user tagged := by cases tagged
  found identity conn := by
    simp [LobbyUserManager.empty]
  counted conn := rfl
  quiet userIDX := List.not_mem_nil

/-- Consistency does not depend on the node map, on references held elsewhere, or on other events. -/
theorem Consistent.frame {later : LobbyUserManager C} (consistent : Consistent ids manager)
    (tag : later.tag = manager.tag) (users : later.users = manager.users)
    (owners : later.owners = manager.owners)
    (quiet : ∀ userIDX, .noneUser userIDX ∈ later.log → .noneUser userIDX ∈ manager.log) :
    Consistent ids later where
  own := by
    rw [tag]
    exact consistent.own
  found := by
    rw [tag, users]
    exact consistent.found
  counted := by
    rw [tag, owners]
    exact consistent.counted
  quiet userIDX member := consistent.quiet userIDX (quiet userIDX member)

theorem quiet_record {event : RegistryEvent C} (other : ∀ userIDX, event ≠ .noneUser userIDX)
    {log : List (RegistryEvent C)} (userIDX : UInt32) (member : .noneUser userIDX ∈ log ++ [event]) :
    .noneUser userIDX ∈ log := by
  rcases List.mem_append.mp member with earlier | last
  · exact earlier
  · exact absurd (List.mem_singleton.mp last).symm (other userIDX)

theorem consistent_userLogined (consistent : Consistent ids manager) (identity : UInt64)
    (userIDX : UInt32) : Consistent ids (manager.userLogined identity userIDX).2 := by
  unfold LobbyUserManager.userLogined
  split
  · exact consistent.frame rfl rfl rfl (quiet_record (fun _ => by simp))
  · exact consistent.frame rfl rfl rfl (fun _ member => member)

/-! ### Lookups and broadcasts -/

/-- A lookup finds the user of a registered identity and fails with -1 on any other. -/
theorem findUser_eq (consistent : Consistent ids manager) (identity : UInt64) :
    (∃ conn, ids.identity conn = identity ∧ identity ∈ manager.users ∧
        manager.findUser identity = .ok ⟨conn, 0, []⟩) ∨
      (identity ∉ manager.users ∧ manager.findUser identity = .error (-1)) := by
  cases found : manager.users[identity]? with
  | none =>
      refine Or.inr ⟨not_mem_iff_find.mpr found, ?_⟩
      simp only [LobbyUserManager.findUser, found]
  | some conn =>
      obtain ⟨same, tagged⟩ := (consistent.found identity conn).mp found
      have there : identity ∈ manager.users := by
        rw [mem_iff_find, found]
        exact Option.some_ne_none conn
      refine Or.inl ⟨conn, same, there, ?_⟩
      simp only [LobbyUserManager.findUser, found, consistent.lockable tagged, if_true,
        consistent.tagged tagged]

theorem userBehind_eq (consistent : Consistent ids manager) (tagged : manager.tag conn ≠ none) :
    manager.userBehind conn = some ⟨conn, 0, []⟩ := by
  rw [LobbyUserManager.userBehind, if_pos (consistent.lockable tagged), consistent.tagged tagged]

/-- A message for an identity goes to a connection exactly when the identity is its own and it is
    registered. -/
theorem sendPacketFromBroker_iff (consistent : Consistent ids manager) (identity : UInt64) (conn : C) :
    manager.sendPacketFromBroker identity = some conn ↔
      ids.identity conn = identity ∧ manager.tag conn ≠ none := by
  rw [← consistent.found]
  cases found : manager.users[identity]? with
  | none => simp [LobbyUserManager.sendPacketFromBroker, found]
  | some target =>
      have behind := userBehind_eq consistent ((consistent.found identity target).mp found).2
      simp only [LobbyUserManager.sendPacketFromBroker, found, behind, Option.map_some]

/-- A broadcast goes through the entries in order, up to the first call that does not return. -/
theorem sendToEach_called {J : Type} (send : J → Option J) (consistent : Consistent ids manager)
    (entries : List (UInt64 × C)) (known : ∀ entry ∈ entries, manager.tag entry.2 ≠ none) (jv : J) :
    (manager.sendToEach send entries jv).1 <+: entries.map Prod.snd ∧
      ((manager.sendToEach send entries jv).2 ≠ none →
        (manager.sendToEach send entries jv).1 = entries.map Prod.snd) := by
  induction entries generalizing jv with
  | nil => exact ⟨List.prefix_refl _, fun _ => rfl⟩
  | cons entry entries inductionHypothesis =>
      obtain ⟨identity, conn⟩ := entry
      have behind := userBehind_eq consistent (known (identity, conn) (List.mem_cons_self ..))
      cases sent : send jv with
      | none =>
          simp only [LobbyUserManager.sendToEach, behind, sent, List.map_cons]
          exact ⟨List.cons_prefix_cons.mpr ⟨rfl, List.nil_prefix⟩, fun returned => absurd rfl returned⟩
      | some later =>
          obtain ⟨initial, whole⟩ := inductionHypothesis
            (fun other member => known other (List.mem_cons_of_mem _ member)) later
          simp only [LobbyUserManager.sendToEach, behind, sent, List.map_cons]
          refine ⟨List.cons_prefix_cons.mpr ⟨rfl, initial⟩, ?_⟩
          intro returned
          rw [whole returned]

/-- The connections of the entries are the registered ones, each of them once. -/
theorem registered_order (consistent : Consistent ids manager) :
    (manager.users.toList.map Prod.snd).Nodup ∧
      ∀ conn, conn ∈ manager.users.toList.map Prod.snd ↔ ids.identity conn ∈ manager.users := by
  have keyed : ∀ entry ∈ manager.users.toList, ids.identity entry.2 = entry.1 := by
    rintro ⟨identity, conn⟩ member
    exact ((consistent.found identity conn).mp (entry_iff_find.mp member)).1
  constructor
  · rw [List.Nodup, List.pairwise_map]
    apply (entries_distinct manager.users).imp_of_mem
    intro left right leftMember rightMember distinct same
    rw [← keyed left leftMember, ← keyed right rightMember, same] at distinct
    exact distinct rfl
  · intro conn
    constructor
    · intro member
      obtain ⟨⟨identity, other⟩, inside, rfl⟩ := List.mem_map.mp member
      rw [consistent.registered]
      exact ((consistent.found identity other).mp (entry_iff_find.mp inside)).2
    · intro there
      have found := (consistent.found _ conn).mpr ⟨rfl, (consistent.registered conn).mp there⟩
      exact List.mem_map.mpr ⟨(ids.identity conn, conn), entry_iff_find.mpr found, rfl⟩

/-! ### What the operations do to a consistent registry -/

variable [DecidableEq C]

/-- A connection without a user is added under its identity. -/
theorem addUser_fresh (consistent : Consistent ids manager) (untagged : manager.tag conn = none) :
    manager.addUser ids conn =
      ({ manager.makeUser conn with
        users := (emplace manager.users (ids.identity conn) conn).2 } : LobbyUserManager C).record
          (.connected conn) := by
  have inserted : emplace manager.users (ids.identity conn) conn =
      (true, (emplace manager.users (ids.identity conn) conn).2) :=
    Prod.ext (emplace_fresh (consistent.absent untagged)) rfl
  have noTag : ¬ (manager.tag conn).isSome = true := by simp [untagged]
  rw [LobbyUserManager.addUser, if_neg noTag]
  simp only [LobbyUserManager.makeUser]
  rw [inserted]

/-- A connection that has a user is left alone. -/
theorem addUser_again (tagged : manager.tag conn ≠ none) :
    manager.addUser ids conn = manager.record (.createdAlready (ids.identity conn)) := by
  rw [LobbyUserManager.addUser, if_pos (Option.isSome_iff_ne_none.mpr tagged)]

/-- The user of a registered connection is deleted with both its entries, the second by the index 0 that
    the user still has. -/
theorem deleteUser_registered (consistent : Consistent ids manager) (tagged : manager.tag conn ≠ none) :
    manager.deleteUser ids conn =
      ({ manager.record (.userLogout 0 []) with
        nodeToUserMap := manager.nodeToUserMap.erase 0
        users := manager.users.erase (ids.identity conn) } : LobbyUserManager C).dropUser conn
          ⟨conn, 0, []⟩ := by
  have found := (consistent.found _ conn).mpr ⟨rfl, tagged⟩
  have user := consistent.tagged tagged
  simp only [LobbyUserManager.deleteUser, user, LobbyUserManager.record, found]

theorem deleteUser_unregistered (untagged : manager.tag conn = none) :
    manager.deleteUser ids conn = manager := by
  simp only [LobbyUserManager.deleteUser, untagged]

/-! ### Consistency is kept -/

/-- The map and the tags agree once a connection has been added to both. -/
theorem Consistent.found_add (consistent : Consistent ids manager) (untagged : manager.tag conn = none)
    (identity : UInt64) (other : C) :
    (emplace manager.users (ids.identity conn) conn).2[identity]? = some other ↔
      ids.identity other = identity ∧
        Function.update manager.tag conn (some ⟨conn, 0, []⟩) other ≠ none := by
  have absent := consistent.absent untagged
  rw [find_emplace]
  by_cases same : other = conn
  · rw [same, Function.update_self]
    by_cases here : ids.identity conn = identity
    · rw [if_pos ⟨here, absent⟩]
      simp [here]
    · rw [if_neg (fun both => here both.1), consistent.found]
      simp [here]
  · rw [Function.update_of_ne same, ← consistent.found]
    by_cases here : ids.identity conn = identity
    · rw [if_pos ⟨here, absent⟩, ← here, absent]
      simp [Ne.symm same]
    · rw [if_neg (fun both => here both.1)]

/-- The map and the tags agree once a connection has been taken out of both. -/
theorem Consistent.found_delete (consistent : Consistent ids manager) (conn : C) (identity : UInt64)
    (other : C) : (manager.users.erase (ids.identity conn))[identity]? = some other ↔
      ids.identity other = identity ∧ Function.update manager.tag conn none other ≠ none := by
  rw [find_erase]
  by_cases same : other = conn
  · rw [same, Function.update_self]
    by_cases here : ids.identity conn = identity
    · rw [if_pos here]
      simp
    · rw [if_neg here, consistent.found]
      simp [here]
  · rw [Function.update_of_ne same]
    by_cases here : ids.identity conn = identity
    · rw [if_pos here, ← here]
      have different : ids.identity other ≠ ids.identity conn := fun equal => same (ids.distinct equal)
      simp [different]
    · rw [if_neg here, consistent.found]

theorem consistent_addUser (consistent : Consistent ids manager) (conn : C) :
    Consistent ids (manager.addUser ids conn) := by
  by_cases untagged : manager.tag conn = none
  · rw [addUser_fresh consistent untagged]
    constructor
    · intro other user tagged
      change Function.update manager.tag conn (some ⟨conn, 0, []⟩) other = some user at tagged
      by_cases same : other = conn
      · rw [same, Function.update_self] at tagged
        rw [same, Option.some.inj tagged]
      · rw [Function.update_of_ne same] at tagged
        exact consistent.own other user tagged
    · exact consistent.found_add untagged
    · intro other
      change Function.update manager.owners conn (manager.owners conn + 1) other =
        if Function.update manager.tag conn (some ⟨conn, 0, []⟩) other = none then 0 else 1
      by_cases same : other = conn
      · rw [same, Function.update_self, Function.update_self, consistent.counted, if_pos untagged,
          if_neg (Option.some_ne_none _)]
      · rw [Function.update_of_ne same, Function.update_of_ne same, consistent.counted]
    · intro userIDX member
      exact consistent.quiet userIDX (quiet_record (fun _ => by simp) userIDX member)
  · rw [addUser_again untagged]
    exact consistent.frame rfl rfl rfl (quiet_record (fun _ => by simp))

theorem consistent_deleteUser (consistent : Consistent ids manager) (conn : C) :
    Consistent ids (manager.deleteUser ids conn) := by
  by_cases untagged : manager.tag conn = none
  · rw [deleteUser_unregistered untagged]
    exact consistent
  · rw [deleteUser_registered consistent untagged]
    constructor
    · intro other user tagged
      change Function.update manager.tag conn none other = some user at tagged
      by_cases same : other = conn
      · rw [same, Function.update_self] at tagged
        cases tagged
      · rw [Function.update_of_ne same] at tagged
        exact consistent.own other user tagged
    · exact consistent.found_delete conn
    · intro other
      change Function.update manager.owners conn (manager.owners conn - 1) other =
        if Function.update manager.tag conn none other = none then 0 else 1
      by_cases same : other = conn
      · rw [same, Function.update_self, Function.update_self, consistent.counted, if_neg untagged,
          if_pos rfl]
      · rw [Function.update_of_ne same, Function.update_of_ne same, consistent.counted]
    · intro userIDX member
      exact consistent.quiet userIDX (quiet_record (fun _ => by simp) userIDX member)

/-- Every operation keeps the registry consistent. -/
theorem consistent_step (consistent : Consistent ids manager) (op : RegistryOp C) :
    Consistent ids (manager.step ids op) := by
  cases op with
  | addUser conn =>
      simp only [LobbyUserManager.step]
      split
      · exact consistent_addUser consistent conn
      · exact consistent
  | deleteUser conn =>
      simp only [LobbyUserManager.step]
      split
      · exact consistent_deleteUser consistent conn
      · exact consistent
  | userLogined identity userIDX => exact consistent_userLogined consistent identity userIDX
  | userLogout identity userIDX => exact consistent.frame rfl rfl rfl (fun _ member => member)
  | hold conn =>
      simp only [LobbyUserManager.step]
      split
      · exact consistent.frame rfl rfl rfl (fun _ member => member)
      · exact consistent
  | release conn => exact consistent.frame rfl rfl rfl (fun _ member => member)

/-- The registry is consistent after every sequence of operations. -/
theorem consistent_run (ops : List (RegistryOp C)) :
    Consistent ids (LobbyUserManager.run ids ops) := by
  have kept : ∀ manager, Consistent ids manager →
      Consistent ids (ops.foldl (LobbyUserManager.step ids) manager) := by
    induction ops with
    | nil =>
        intro manager consistent
        exact consistent
    | cons op ops inductionHypothesis =>
        intro manager consistent
        exact inductionHypothesis _ (consistent_step consistent op)
  exact kept _ consistent_empty

/-! ### The contract -/

/-- What the callers of the registry rely on. -/
structure RegistryContract (ids : Identities C) (manager : LobbyUserManager C) : Prop where
  /-- A connection is in the map exactly when it has a user. -/
  registered : ∀ conn, ids.identity conn ∈ manager.users ↔ manager.tag conn ≠ none
  /-- The user behind a tag is the connection's own. -/
  own : ∀ conn user, manager.tag conn = some user → user.conn = conn
  /-- The weak pointer in the map is the connection's own and can be locked. -/
  lockable : ∀ conn, ids.identity conn ∈ manager.users →
    manager.users[ids.identity conn]? = some conn ∧ manager.lockable conn = true
  /-- `processUser` returns 0 for a registered identity and -1 for any other. -/
  processUser : ∀ identity,
    (manager.processUser identity).1 = if identity ∈ manager.users then 0 else -1
  /-- `processUser2` returns what its callback returns, or -1. -/
  processUser2 : ∀ identity callback,
    (identity ∉ manager.users ∧ manager.processUser2 identity callback = -1) ∨
      ∃ conn, ids.identity conn = identity ∧ identity ∈ manager.users ∧
        manager.processUser2 identity callback = callback ⟨conn, 0, []⟩
  /-- `deleteUser` has always found the entry of a connection that has a user. -/
  deleteUser : ∀ userIDX, .noneUser userIDX ∉ manager.log
  /-- A broadcast calls registered connections only, each at most once, and all of them if its calls
      return. -/
  broadcast : ∀ {J : Type} (json : JsonCpp J) (pk : LobbyProtocol.PtJson) (url : List UInt8) (jv : J),
    (manager.sendPacketFromBrokerAll json pk url jv).1.Nodup ∧
      (∀ conn ∈ (manager.sendPacketFromBrokerAll json pk url jv).1,
        ids.identity conn ∈ manager.users) ∧
      ((manager.sendPacketFromBrokerAll json pk url jv).2 ≠ none →
        ∀ conn, ids.identity conn ∈ manager.users →
          (manager.sendPacketFromBrokerAll json pk url jv).1.count conn = 1)

theorem Consistent.broadcast {J : Type} (consistent : Consistent ids manager) (json : JsonCpp J)
    (pk : LobbyProtocol.PtJson) (url : List UInt8) (jv : J) :
    (manager.sendPacketFromBrokerAll json pk url jv).1.Nodup ∧
      (∀ conn ∈ (manager.sendPacketFromBrokerAll json pk url jv).1,
        ids.identity conn ∈ manager.users) ∧
      ((manager.sendPacketFromBrokerAll json pk url jv).2 ≠ none →
        ∀ conn, ids.identity conn ∈ manager.users →
          (manager.sendPacketFromBrokerAll json pk url jv).1.count conn = 1) := by
  obtain ⟨once, members⟩ := registered_order consistent
  have known : ∀ entry ∈ manager.users.toList, manager.tag entry.2 ≠ none := by
    rintro ⟨identity, conn⟩ member
    exact ((consistent.found identity conn).mp (entry_iff_find.mp member)).2
  obtain ⟨initial, whole⟩ := sendToEach_called
    (LobbyUserManager.afterSend json pk url) consistent manager.users.toList known jv
  refine ⟨once.sublist initial.sublist, ?_, ?_⟩
  · intro conn member
    exact (members conn).mp (initial.subset member)
  · intro returned conn there
    rw [LobbyUserManager.sendPacketFromBrokerAll, whole returned]
    exact List.count_eq_one_of_mem once ((members conn).mpr there)

/-- The registry keeps its contract after every sequence of operations. -/
theorem registry_consistent (ids : Identities C) (ops : List (RegistryOp C)) :
    RegistryContract ids (LobbyUserManager.run ids ops) := by
  have consistent : Consistent ids (LobbyUserManager.run ids ops) := consistent_run ops
  constructor
  · exact consistent.registered
  · intro conn user tagged
    rw [consistent.own conn user tagged]
  · intro conn there
    have tagged := (consistent.registered conn).mp there
    exact ⟨(consistent.found _ conn).mpr ⟨rfl, tagged⟩, consistent.lockable tagged⟩
  · intro identity
    rcases findUser_eq consistent identity with ⟨conn, -, there, found⟩ | ⟨absent, failed⟩
    · simp only [LobbyUserManager.processUser, found, if_pos there]
    · simp only [LobbyUserManager.processUser, failed, if_neg absent]
  · intro identity callback
    rcases findUser_eq consistent identity with ⟨conn, same, there, found⟩ | ⟨absent, failed⟩
    · refine Or.inr ⟨conn, same, there, ?_⟩
      simp only [LobbyUserManager.processUser2, found]
    · refine Or.inl ⟨absent, ?_⟩
      simp only [LobbyUserManager.processUser2, failed]
  · exact consistent.quiet
  · intro J json pk url jv
    exact consistent.broadcast json pk url jv

/-- Two connections with the identities 1 and 2. -/
def twoConnections : Identities Bool where
  identity conn := if conn then 2 else 1
  distinct := by decide

/-- A message whose `resultMsg` is a number: jsoncpp throws in the first call, and the second registered
    connection is not called. -/
theorem broadcast_ends_at_exception :
    ¬ ∀ conn, twoConnections.identity conn ∈
        (LobbyUserManager.run twoConnections [.addUser false, .addUser true]).users →
      ((LobbyUserManager.run twoConnections [.addUser false, .addUser true]).sendPacketFromBrokerAll
        (flatJson []) (.new 0 (fun _ => 0)) [] (.object [("resultMsg", .uint 5)])).1.count conn = 1 := by
  decide

end LobbySvr.Proofs
