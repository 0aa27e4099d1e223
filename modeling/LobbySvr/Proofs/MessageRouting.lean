/-
Module: LobbySvr.Proofs.MessageRouting
Layer: Proofs
Purpose: Private messages are routed by user index.  Beside the registry stands the connection that each
  index is owed to: the one that logged in last under it, until it logs out, disconnects, or another login
  takes the index over.  The node map is erased by index without a look at whose entry it is, and a login
  that finds the index taken is reported as a success; the routes are exact as long as none of the three
  steps in which this matters is taken.
Imports: LobbySvr.Lobby.LobbyUserManager, LobbySvr.Proofs.RegistryConsistency, LobbySvr.Foundation.Runs
Trusted boundary: none
Main exports: RouteHistory, RouteHistory.step, RoutesExact, RouteHistory.KeepsRoutes, routes_step,
  private_routes_exact_iff
Open obligations: none
-/
import Mathlib
import LobbySvr.Lobby.LobbyUserManager
import LobbySvr.Proofs.RegistryConsistency
import LobbySvr.Foundation.Runs

namespace LobbySvr.Proofs

open LobbySvr.Foundation
open LobbySvr.Lobby

/-- The registry, and the connection that the route of each user index is owed to. -/
structure RouteHistory (C : Type) where
  manager : LobbyUserManager C
  owed : UInt32 → Option C

variable {C : Type}

namespace RouteHistory

/-- The start of the server: no route is owed. -/
def start : RouteHistory C := ⟨.empty, fun _ => none⟩

/-- What an operation does to the routes that are owed. -/
def owes [DecidableEq C] (ids : Identities C) (history : RouteHistory C) : RegistryOp C → UInt32 → Option C
  | .addUser _, index => history.owed index
  | .deleteUser conn, index =>
      if history.owed index = some conn then none else history.owed index
  | .userLogined identity userIDX, index =>
      -- A successful login of a registered connection takes the route over; any login ends the earlier one.
      if index = userIDX then
        if (history.manager.userLogined identity userIDX).1 then history.manager.users[identity]? else none
      else history.owed index
  | .userLogout identity userIDX, index =>
      if index = userIDX ∧ (history.owed index).map ids.identity = some identity then none
      else history.owed index
  | .hold _, index => history.owed index
  | .release _, index => history.owed index

/-- An operation, with the routes that are owed behind it. -/
def step [DecidableEq C] (ids : Identities C) (history : RouteHistory C) (op : RegistryOp C) :
    RouteHistory C :=
  ⟨history.manager.step ids op, history.owes ids op⟩

end RouteHistory

/-- A message for an index that is owed to a connection goes to that connection. -/
def RoutesExact (history : RouteHistory C) : Prop :=
  ∀ index conn, history.owed index = some conn →
    history.manager.sendPacketFromBrokerByUserIDX index = some conn

/-- The steps that leave the routes of the others alone: no registered connection other than its owner is
    deleted while index 0 is owed, an index is not logged in while the node map holds it for another
    identity, and it is not logged out by an identity other than its owner's. -/
def RouteHistory.KeepsRoutes (ids : Identities C) (history : RouteHistory C) : RegistryOp C → Prop
  | .addUser _ => True
  | .deleteUser conn =>
      history.manager.tag conn ≠ none → ∀ owner, history.owed 0 = some owner → owner = conn
  | .userLogined identity userIDX =>
      identity ∈ history.manager.users →
        ∀ other, history.manager.nodeToUserMap[userIDX]? = some other → other = identity
  | .userLogout identity userIDX =>
      ∀ owner, history.owed userIDX = some owner → ids.identity owner = identity
  | .hold _ => True
  | .release _ => True

variable {ids : Identities C} {manager : LobbyUserManager C}

/-- A message for an index goes to a connection exactly when the node map has its identity and it is
    registered. -/
theorem byUserIDX_iff (consistent : Consistent ids manager) (index : UInt32) (conn : C) :
    manager.sendPacketFromBrokerByUserIDX index = some conn ↔
      manager.nodeToUserMap[index]? = some (ids.identity conn) ∧ manager.tag conn ≠ none := by
  cases node : manager.nodeToUserMap[index]? with
  | none => simp [LobbyUserManager.sendPacketFromBrokerByUserIDX, node]
  | some identity =>
      simp only [LobbyUserManager.sendPacketFromBrokerByUserIDX, node]
      rw [sendPacketFromBroker_iff consistent, Option.some.injEq, eq_comm]

/-- Every login is reported as a success. -/
theorem userLogined_succeeds (identity : UInt64) (userIDX : UInt32) (manager : LobbyUserManager C) :
    (manager.userLogined identity userIDX).1 = true := by
  unfold LobbyUserManager.userLogined
  split
  · rfl
  · rfl

/-- What the node map holds behind a login: an index that is taken stays with its identity. -/
theorem find_userLogined (identity : UInt64) (userIDX index : UInt32) (manager : LobbyUserManager C) :
    (manager.userLogined identity userIDX).2.nodeToUserMap[index]? =
      if userIDX = index ∧ manager.nodeToUserMap[userIDX]? = none then some identity
      else manager.nodeToUserMap[index]? := by
  cases node : manager.nodeToUserMap[userIDX]? with
  | none =>
      have inserted : emplace manager.nodeToUserMap userIDX identity =
          (true, (emplace manager.nodeToUserMap userIDX identity).2) :=
        Prod.ext (emplace_fresh node) rfl
      rw [LobbyUserManager.userLogined, inserted]
      change (emplace manager.nodeToUserMap userIDX identity).2[index]? = _
      rw [find_emplace, node]
  | some other =>
      have known : manager.nodeToUserMap[userIDX]? ≠ none := by
        rw [node]
        exact Option.some_ne_none other
      have refused : emplace manager.nodeToUserMap userIDX identity =
          (false, (emplace manager.nodeToUserMap userIDX identity).2) :=
        Prod.ext (emplace_known known) rfl
      rw [LobbyUserManager.userLogined, refused, if_neg (fun both => nomatch both.2)]
      rfl

theorem userLogined_tag (identity : UInt64) (userIDX : UInt32) (manager : LobbyUserManager C) :
    (manager.userLogined identity userIDX).2.tag = manager.tag := by
  unfold LobbyUserManager.userLogined
  split
  · rfl
  · rfl

/-! ### One operation -/

section

variable {history : RouteHistory C}

/-- Routes owed in a consistent registry, in terms of the two maps. -/
theorem routesExact_iff (consistent : Consistent ids history.manager) :
    RoutesExact history ↔ ∀ index conn, history.owed index = some conn →
      history.manager.nodeToUserMap[index]? = some (ids.identity conn) ∧
        history.manager.tag conn ≠ none := by
  constructor
  · intro exact index conn owed
    exact (byUserIDX_iff consistent index conn).mp (exact index conn owed)
  · intro maps index conn owed
    exact (byUserIDX_iff consistent index conn).mpr (maps index conn owed)

/-- An operation that leaves the node map as it is, owes no new route, and takes away no tag. -/
theorem RoutesExact.frame {later : RouteHistory C} (consistent : Consistent ids history.manager)
    (laterConsistent : Consistent ids later.manager) (exact : RoutesExact history)
    (node : later.manager.nodeToUserMap = history.manager.nodeToUserMap)
    (owed : ∀ index conn, later.owed index = some conn → history.owed index = some conn)
    (tag : ∀ conn, history.manager.tag conn ≠ none → later.manager.tag conn ≠ none) :
    RoutesExact later := by
  rw [routesExact_iff laterConsistent, node]
  intro index conn route
  obtain ⟨there, tagged⟩ := (routesExact_iff consistent).mp exact index conn (owed index conn route)
  exact ⟨there, tag conn tagged⟩

variable [DecidableEq C]

/-- An operation that leaves the registry as it is and owes no new route. -/
theorem RoutesExact.unchanged {op : RegistryOp C} (exact : RoutesExact history)
    (same : history.manager.step ids op = history.manager)
    (owed : ∀ index conn, (history.step ids op).owed index = some conn →
      history.owed index = some conn) : RoutesExact (history.step ids op) := by
  intro index conn route
  change (history.manager.step ids op).sendPacketFromBrokerByUserIDX index = some conn
  rw [same]
  exact exact index conn (owed index conn route)

theorem addUser_nodeToUserMap (consistent : Consistent ids manager) (conn : C) :
    (manager.addUser ids conn).nodeToUserMap = manager.nodeToUserMap := by
  by_cases untagged : manager.tag conn = none
  · rw [addUser_fresh consistent untagged]
    rfl
  · rw [addUser_again untagged]
    rfl

theorem addUser_tag (consistent : Consistent ids manager) (conn : C) {other : C}
    (tagged : manager.tag other ≠ none) : (manager.addUser ids conn).tag other ≠ none := by
  by_cases untagged : manager.tag conn = none
  · rw [addUser_fresh consistent untagged]
    change Function.update manager.tag conn (some ⟨conn, 0, []⟩) other ≠ none
    by_cases same : other = conn
    · rw [same, Function.update_self]
      exact Option.some_ne_none _
    · rw [Function.update_of_ne same]
      exact tagged
  · rw [addUser_again untagged]
    exact tagged

theorem routes_addUser (consistent : Consistent ids history.manager) (exact : RoutesExact history)
    (conn : C) : RoutesExact (history.step ids (.addUser conn)) := by
  have later := consistent_step consistent (.addUser conn)
  by_cases held : history.manager.lockable conn = true
  · have added : history.manager.step ids (.addUser conn) = history.manager.addUser ids conn := by
      simp only [LobbyUserManager.step, if_pos held]
    refine exact.frame consistent later ?_ (fun _ _ owed => owed) ?_
    · change (history.manager.step ids (.addUser conn)).nodeToUserMap = _
      rw [added]
      exact addUser_nodeToUserMap consistent conn
    · intro other tagged
      change (history.manager.step ids (.addUser conn)).tag other ≠ none
      rw [added]
      exact addUser_tag consistent conn tagged
  · have unchanged : history.manager.step ids (.addUser conn) = history.manager := by
      simp only [LobbyUserManager.step, if_neg held]
    exact exact.unchanged unchanged (fun _ _ owed => owed)

/-- A deletion ends the routes that are owed to the connection, and no others. -/
theorem owed_deleteUser (ids : Identities C) (history : RouteHistory C) (conn : C) (index : UInt32)
    (owner : C) : (history.step ids (.deleteUser conn)).owed index = some owner ↔
      history.owed index = some owner ∧ owner ≠ conn := by
  change (if history.owed index = some conn then none else history.owed index) = some owner ↔ _
  by_cases mine : history.owed index = some conn
  · rw [if_pos mine, mine]
    constructor
    · intro absent
      cases absent
    · rintro ⟨same, different⟩
      exact absurd (Option.some.inj same).symm different
  · rw [if_neg mine]
    constructor
    · intro owned
      refine ⟨owned, ?_⟩
      rintro rfl
      exact mine owned
    · exact And.left

/-- Deleting a connection that has no user changes nothing. -/
theorem routes_delete_unregistered (exact : RoutesExact history) {conn : C}
    (untagged : history.manager.tag conn = none) : RoutesExact (history.step ids (.deleteUser conn)) := by
  have unchanged : history.manager.step ids (.deleteUser conn) = history.manager := by
    simp only [LobbyUserManager.step, deleteUser_unregistered untagged, ite_self]
  apply exact.unchanged unchanged
  intro index owner route
  exact ((owed_deleteUser ids history conn index owner).mp route).1

/-- Deleting a registered connection keeps the routes exactly when index 0 is owed to nobody else. -/
theorem routes_delete_registered (consistent : Consistent ids history.manager)
    (exact : RoutesExact history) {conn : C} (tagged : history.manager.tag conn ≠ none) :
    RoutesExact (history.step ids (.deleteUser conn)) ↔
      ∀ owner, history.owed 0 = some owner → owner = conn := by
  have later := consistent_step consistent (.deleteUser conn)
  have deleted : history.manager.step ids (.deleteUser conn) = history.manager.deleteUser ids conn := by
    simp only [LobbyUserManager.step, if_pos (consistent.lockable tagged)]
  have node : (history.step ids (.deleteUser conn)).manager.nodeToUserMap =
      history.manager.nodeToUserMap.erase 0 := by
    change (history.manager.step ids (.deleteUser conn)).nodeToUserMap = _
    rw [deleted, deleteUser_registered consistent tagged]
    rfl
  have tag : ∀ other, other ≠ conn → (history.step ids (.deleteUser conn)).manager.tag other =
      history.manager.tag other := by
    intro other different
    change (history.manager.step ids (.deleteUser conn)).tag other = _
    rw [deleted, deleteUser_registered consistent tagged]
    exact Function.update_of_ne different _ _
  rw [routesExact_iff later]
  constructor
  · intro routes owner owned
    by_contra different
    have there := (routes 0 owner ((owed_deleteUser ids history conn 0 owner).mpr ⟨owned, different⟩)).1
    rw [node, find_erase, if_pos rfl] at there
    cases there
  · intro mine index owner route
    obtain ⟨owned, different⟩ := (owed_deleteUser ids history conn index owner).mp route
    obtain ⟨there, ownerTagged⟩ := (routesExact_iff consistent).mp exact index owner owned
    rw [node, find_erase, tag owner different]
    by_cases zero : 0 = index
    · rw [← zero] at owned
      exact absurd (mine owner owned) different
    · rw [if_neg zero]
      exact ⟨there, ownerTagged⟩

/-- A login keeps the routes exactly when it does not find its index taken by another identity, or comes
    from an identity that is not registered. -/
theorem routes_userLogined (consistent : Consistent ids history.manager) (exact : RoutesExact history)
    (identity : UInt64) (userIDX : UInt32) :
    RoutesExact (history.step ids (.userLogined identity userIDX)) ↔
      (identity ∈ history.manager.users →
        ∀ other, history.manager.nodeToUserMap[userIDX]? = some other → other = identity) := by
  have later := consistent_step consistent (.userLogined identity userIDX)
  have owed : ∀ index, (history.step ids (.userLogined identity userIDX)).owed index =
      if index = userIDX then history.manager.users[identity]? else history.owed index := by
    intro index
    change (if index = userIDX then
      if (history.manager.userLogined identity userIDX).1 then history.manager.users[identity]? else none
      else history.owed index) = _
    rw [userLogined_succeeds, if_pos rfl]
  have node := fun index => find_userLogined identity userIDX index history.manager
  have tag := userLogined_tag identity userIDX history.manager
  rw [routesExact_iff later]
  constructor
  · intro routes there other taken
    obtain ⟨conn, found⟩ := Option.ne_none_iff_exists'.mp (mem_iff_find.mp there)
    have route := (routes userIDX conn (by rw [owed, if_pos rfl, found])).1
    change (history.manager.userLogined identity userIDX).2.nodeToUserMap[userIDX]? = _ at route
    rw [node, taken, if_neg (fun both => nomatch both.2)] at route
    rw [Option.some.inj route]
    exact ((consistent.found identity conn).mp found).1
  · intro free index conn route
    change (history.manager.userLogined identity userIDX).2.nodeToUserMap[index]? = _ ∧
      (history.manager.userLogined identity userIDX).2.tag conn ≠ none
    rw [node, tag]
    rw [owed] at route
    by_cases here : index = userIDX
    · rw [if_pos here] at route
      obtain ⟨same, tagged⟩ := (consistent.found identity conn).mp route
      refine ⟨?_, tagged⟩
      rw [here, same]
      cases taken : history.manager.nodeToUserMap[userIDX]? with
      | none => rw [if_pos ⟨rfl, rfl⟩]
      | some other =>
          have there : identity ∈ history.manager.users := by
            rw [mem_iff_find, route]
            exact Option.some_ne_none conn
          rw [if_neg (fun both => nomatch both.2), free there other taken]
    · rw [if_neg here] at route
      rw [if_neg (fun both => here both.1.symm)]
      exact (routesExact_iff consistent).mp exact index conn route

/-- A logout keeps the routes exactly when the index is owed to nobody, or to the identity that logs out. -/
theorem routes_userLogout (consistent : Consistent ids history.manager) (exact : RoutesExact history)
    (identity : UInt64) (userIDX : UInt32) :
    RoutesExact (history.step ids (.userLogout identity userIDX)) ↔
      ∀ owner, history.owed userIDX = some owner → ids.identity owner = identity := by
  have later := consistent_step consistent (.userLogout identity userIDX)
  have owed : ∀ index, (history.step ids (.userLogout identity userIDX)).owed index =
      if index = userIDX ∧ (history.owed index).map ids.identity = some identity then none
      else history.owed index := fun _ => rfl
  have node : (history.step ids (.userLogout identity userIDX)).manager.nodeToUserMap =
      history.manager.nodeToUserMap.erase userIDX := rfl
  have tag : (history.step ids (.userLogout identity userIDX)).manager.tag = history.manager.tag := rfl
  rw [routesExact_iff later]
  constructor
  · intro routes owner owned
    by_contra different
    have kept : (history.step ids (.userLogout identity userIDX)).owed userIDX = some owner := by
      rw [owed, owned, if_neg (fun both => different (Option.some.inj both.2))]
    have there := (routes userIDX owner kept).1
    rw [node, find_erase, if_pos rfl] at there
    cases there
  · intro mine index conn route
    rw [owed] at route
    split at route
    · cases route
    · rename_i untouched
      rw [node, tag, find_erase]
      by_cases here : userIDX = index
      · rw [← here] at route untouched
        refine absurd ⟨rfl, ?_⟩ untouched
        rw [route, Option.map_some, mine conn route]
      · rw [if_neg here]
        exact (routesExact_iff consistent).mp exact index conn route

/-- One operation keeps the routes exactly under its condition on the state before it. -/
theorem routes_step (consistent : Consistent ids history.manager) (exact : RoutesExact history)
    (op : RegistryOp C) : RoutesExact (history.step ids op) ↔ history.KeepsRoutes ids op := by
  have later := consistent_step consistent op
  cases op with
  | addUser conn => exact iff_of_true (routes_addUser consistent exact conn) trivial
  | deleteUser conn =>
      by_cases untagged : history.manager.tag conn = none
      · apply iff_of_true (routes_delete_unregistered exact untagged)
        intro tagged
        exact absurd untagged tagged
      · rw [routes_delete_registered consistent exact untagged]
        constructor
        · intro mine _
          exact mine
        · intro mine
          exact mine untagged
  | userLogined identity userIDX => exact routes_userLogined consistent exact identity userIDX
  | userLogout identity userIDX => exact routes_userLogout consistent exact identity userIDX
  | hold conn =>
      refine iff_of_true (exact.frame consistent later ?_ (fun _ _ owed => owed) ?_) trivial
      · change (history.manager.step ids (.hold conn)).nodeToUserMap = _
        simp only [LobbyUserManager.step, apply_ite LobbyUserManager.nodeToUserMap, ite_self]
      · intro other tagged
        change (history.manager.step ids (.hold conn)).tag other ≠ none
        simp only [LobbyUserManager.step, apply_ite LobbyUserManager.tag, ite_self]
        exact tagged
  | release conn =>
      apply iff_of_true _ trivial
      exact exact.frame consistent later rfl (fun _ _ owed => owed) (fun _ tagged => tagged)

end

/-! ### Whole runs -/

/-- In every run of the registry the routes are exact after each step exactly when each step is one that
    leaves the routes of the others alone. -/
theorem private_routes_exact_iff [DecidableEq C] (ids : Identities C) (ops : List (RegistryOp C)) :
    EveryStep (RouteHistory.step ids) (fun history op => RoutesExact (history.step ids op)) .start ops ↔
      EveryStep (RouteHistory.step ids) (fun history op => history.KeepsRoutes ids op) .start ops := by
  apply everyStep_iff (fun history => Consistent ids history.manager ∧ RoutesExact history)
  · rintro history op ⟨consistent, exact⟩
    exact routes_step consistent exact op
  · rintro history op ⟨consistent, exact⟩ keeps
    exact ⟨consistent_step consistent op, (routes_step consistent exact op).mpr keeps⟩
  · refine ⟨consistent_empty, ?_⟩
    intro index conn owed
    cases owed

/-- The first connection logs in under index 7 and disconnects, and the second logs in under the same index:
    the login is reported as a success, but the node map still has the first identity and a message for
    index 7 goes nowhere. -/
theorem relogin_finds_index_taken :
    ¬ EveryStep (RouteHistory.step twoConnections)
      (fun history op => RoutesExact (history.step twoConnections op)) .start
      [.addUser false, .addUser true, .userLogined 1 7, .deleteUser false, .userLogined 2 7] := by
  rintro ⟨-, -, -, -, exact, -⟩
  have route := exact 7 true (by decide)
  revert route
  decide

end LobbySvr.Proofs
