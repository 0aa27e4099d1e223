/-
Module: LobbySvr.Proofs.BrokerRuns
Layer: Proofs
Purpose: The broker link over runs of any length.  Every failure exit of `connectWait` only returns a
  boolean that nobody reads, and a user that is used after it was deleted ends the run; so the link stays
  supervised, by one attempt or one session, exactly as long as every answer of the operating system on its
  way is a good one and no close and no send finds a pointer to a deleted user.  `onClose` deletes the user
  that `m_user` points at and leaves the pointer as it is, so the pointer stays valid exactly as long as no
  session closes while it is set and none is closed before its `onConnect`.
Imports: LobbySvr.Lobby.BrokerConnector, LobbySvr.Foundation.Runs
Trusted boundary: none
Main exports: LeadsTo, Supervised, UserAlive, BrokerEvent.GoesWell, Linked, LinkStep, link_step_cases,
  StaysLinked, broker_supervised_iff, PointerValid, BrokerEvent.LeavesPointer, broker_pointer_valid_iff
Open obligations: none
-/
import LobbySvr.Lobby.BrokerConnector
import LobbySvr.Foundation.Runs

namespace LobbySvr.Proofs

open LobbySvr.Foundation
open LobbySvr.Net
open LobbySvr.Lobby

/-! ### The connector -/

section

variable {connector : NetServiceConnector} {conn : Nat} {attempt : Attempt}

/-- With an endpoint at hand, `connectWait` starts an attempt exactly when the socket can be opened. -/
theorem connectWait_pointing (pointing : connector.endpointIter = some true) (outcome : ConnectOutcome) :
    connector.connectWait outcome 1 =
      { connector with
        created := connector.created + 1
        attempts := connector.attempts ++
          if outcome.sessionOpens then [⟨connector.created, 0⟩] else [] } := by
  obtain ⟨resolves, sessionOpens⟩ := outcome
  cases sessionOpens with
  | true =>
      simp only [NetServiceConnector.connectWait, NetServiceConnector.connectImplement,
        NetServiceConnector.setEndPoint, pointing, NetServiceConnector.startConnect,
        NetServiceConnector.createConnectSession, if_true]
      rfl
  | false =>
      simp only [NetServiceConnector.connectWait, NetServiceConnector.connectImplement,
        NetServiceConnector.setEndPoint, pointing, NetServiceConnector.startConnect,
        NetServiceConnector.createConnectSession]
      simp

/-- The attempt found for a connection is the only one there is. -/
theorem attemptFor_single (found : connector.attemptFor conn = some attempt)
    (few : connector.attempts.length ≤ 1) : connector.attempts = [attempt] ∧ attempt.conn = conn := by
  have member := List.mem_of_find?_eq_some found
  have same := List.find?_some found
  refine ⟨?_, of_decide_eq_true same⟩
  cases attempts : connector.attempts with
  | nil =>
      rw [attempts] at member
      cases member
  | cons first others =>
      rw [attempts, List.length_cons] at few
      have none : others = [] := List.length_eq_zero_iff.mp (Nat.le_zero.mp (Nat.le_of_succ_le_succ few))
      rw [attempts, none] at member
      rw [none, List.mem_singleton.mp member]

theorem finish_single (alone : connector.attempts = [attempt]) (same : attempt.conn = conn) :
    connector.finish conn = { connector with attempts := [] } := by
  simp [NetServiceConnector.finish, alone, same]

end

/-! ### Events that may fail -/

/-- The handlers of an event return, and the link behind them has a property. -/
def LeadsTo (property : BrokerLink → Prop) (link : BrokerLink) (event : BrokerEvent) : Prop :=
  ∃ later, link.step event = .ok later ∧ property later

section

variable {property : BrokerLink → Prop} {link later : BrokerLink} {event : BrokerEvent}

theorem leadsTo_iff (taken : link.step event = .ok later) : LeadsTo property link event ↔ property later := by
  constructor
  · rintro ⟨other, same, holds⟩
    rw [taken] at same
    cases same
    exact holds
  · intro holds
    exact ⟨later, taken, holds⟩

theorem not_leadsTo {fault : Fault} (failed : link.step event = .error fault) :
    ¬ LeadsTo property link event := by
  rintro ⟨later, taken, -⟩
  rw [failed] at taken
  cases taken

end

/-! ### One attempt or one session -/

/-- One connect attempt is outstanding, or one session is established. -/
def Supervised (link : BrokerLink) : Prop :=
  link.connector.attempts.length + link.sessions.length = 1

/-- `m_user` is null or points at a user that has not been deleted. -/
def UserAlive (link : BrokerLink) : Prop := ∀ conn, link.user = some conn → conn ∈ link.users

/-- The answers of the operating system that an event needs are good ones: a socket can be opened for the
    next attempt, and a connected socket can be set up.  A session that closes, and a packet that is sent, do
    not find `m_user` at a user that an earlier close has deleted. -/
def BrokerEvent.GoesWell (link : BrokerLink) : BrokerEvent → Prop
  | .connectFailed conn outcome =>
      link.connecting = none → link.connector.attemptFor conn ≠ none → outcome.sessionOpens = true
  | .connected conn startThrows =>
      link.connecting = none → link.connector.attemptFor conn ≠ none → startThrows = false
  | .onConnect _ => True
  | .onClose conn outcome => conn ∈ link.sessions → UserAlive link ∧ outcome.sessionOpens = true
  | .sendJsonPacket => UserAlive link

/-- A supervised link, with an endpoint at hand and attempts for one session each. -/
structure Linked (link : BrokerLink) : Prop where
  supervised : Supervised link
  pointing : link.connector.endpointIter = some true
  single : ∀ attempt ∈ link.connector.attempts, attempt.remainCnt = 0
  singleConnecting : ∀ attempt, link.connecting = some attempt → attempt.remainCnt = 0

section

variable {link : BrokerLink} {conn : Nat} {outcome : ConnectOutcome}

/-- A link without attempt and session is supervised again exactly when a socket can be opened. -/
theorem tryConnect_idle (pointing : link.connector.endpointIter = some true)
    (idle : link.connector.attempts = []) (alone : link.sessions = []) :
    Supervised (link.tryConnect outcome) ↔ outcome.sessionOpens = true := by
  have later := connectWait_pointing pointing outcome
  rw [Supervised, BrokerLink.tryConnect]
  simp only [later, idle, alone, List.nil_append]
  cases outcome.sessionOpens with
  | true => simp
  | false => simp

theorem tryConnect_linked (pointing : link.connector.endpointIter = some true)
    (idle : link.connector.attempts = []) (alone : link.sessions = [])
    (singleConnecting : ∀ attempt, link.connecting = some attempt → attempt.remainCnt = 0)
    (opens : outcome.sessionOpens = true) : Linked (link.tryConnect outcome) := by
  have later := connectWait_pointing pointing outcome
  refine ⟨(tryConnect_idle pointing idle alone).mpr opens, ?_, ?_, singleConnecting⟩
  · rw [BrokerLink.tryConnect]
    simp only [later, pointing]
  · intro attempt member
    rw [BrokerLink.tryConnect] at member
    simp only [later, idle, opens, if_true, List.nil_append] at member
    rw [List.mem_singleton.mp member]

/-- The outstanding attempt of a supervised link is its only one, and there is no session. -/
theorem Linked.attempt (linked : Linked link) {attempt : Attempt}
    (found : link.connector.attemptFor conn = some attempt) :
    link.connector.attempts = [attempt] ∧ attempt.conn = conn ∧ link.sessions = [] := by
  have supervised := linked.supervised
  rw [Supervised] at supervised
  obtain ⟨alone, same⟩ := attemptFor_single found (by omega)
  refine ⟨alone, same, ?_⟩
  rw [alone, List.length_singleton] at supervised
  exact List.length_eq_zero_iff.mp (by omega)

/-- The session of a supervised link is its only one, and there is no attempt. -/
theorem Linked.session (linked : Linked link) (member : conn ∈ link.sessions) :
    link.sessions = [conn] ∧ link.connector.attempts = [] := by
  have supervised := linked.supervised
  rw [Supervised] at supervised
  have positive := List.length_pos_of_mem member
  obtain ⟨session, alone⟩ := List.length_eq_one_iff.mp (by omega : link.sessions.length = 1)
  rw [alone] at member
  rw [alone, List.mem_singleton.mp member]
  exact ⟨rfl, List.length_eq_zero_iff.mp (by omega)⟩

/-- The link that `tryConnect` is called on behind a failed attempt. -/
theorem step_connectFailed (idle : link.connecting = none) {attempt : Attempt}
    (found : link.connector.attemptFor conn = some attempt) (outcome : ConnectOutcome) :
    link.step (.connectFailed conn outcome) =
      .ok (BrokerLink.tryConnect outcome { link with connector := link.connector.finish conn }) := by
  simp only [BrokerLink.step, idle, found]

theorem step_connected (idle : link.connecting = none) {attempt : Attempt}
    (found : link.connector.attemptFor conn = some attempt) (startThrows : Bool) :
    link.step (.connected conn startThrows) =
      .ok (if startThrows then { link with connector := link.connector.finish conn }
      else
        { link with
          connector := link.connector.finish conn
          connecting := some attempt
          sessions := link.sessions ++ [conn] }) := by
  cases startThrows with
  | true => simp only [BrokerLink.step, idle, found, if_true]
  | false =>
      simp only [BrokerLink.step, idle, found]
      rfl

/-- A completion for which there is no attempt, or while another is being handled. -/
theorem step_not_attempted
    (impossible : ¬ (link.connecting = none ∧ link.connector.attemptFor conn ≠ none))
    (outcome : ConnectOutcome) :
    link.step (.connectFailed conn outcome) = .ok link ∧
      ∀ startThrows, link.step (.connected conn startThrows) = .ok link := by
  cases connecting : link.connecting with
  | some attempt => simp [BrokerLink.step, connecting]
  | none =>
      cases found : link.connector.attemptFor conn with
      | some attempt => exact absurd ⟨connecting, by simp [found]⟩ impossible
      | none => simp [BrokerLink.step, connecting, found]

/-- The link that `tryConnect` is called on behind `onClose`, whatever becomes of the user. -/
theorem onClose_ok {later : BrokerLink} (closed : link.onClose conn outcome = .ok later) :
    ∃ users, later = BrokerLink.tryConnect outcome
      { link with sessions := link.sessions.filter (fun session => session ≠ conn), users := users } := by
  unfold BrokerLink.onClose at closed
  simp only at closed
  split at closed
  · cases closed
    exact ⟨link.users, rfl⟩
  · cases closed
    exact ⟨_, rfl⟩
  · cases closed

/-- `onClose` returns exactly when its `delete` is one of a living user, or of none. -/
theorem onClose_returns_iff (link : BrokerLink) (conn : Nat) (outcome : ConnectOutcome) :
    (∃ later, link.onClose conn outcome = .ok later) ↔ UserAlive link := by
  cases user : link.user with
  | none => simp [BrokerLink.onClose, BrokerLink.deleteUser, UserAlive, user]
  | some other =>
      by_cases alive : other ∈ link.users
      · simp [BrokerLink.onClose, BrokerLink.deleteUser, UserAlive, user, alive]
      · simp [BrokerLink.onClose, BrokerLink.deleteUser, UserAlive, user, alive]

/-- A send returns exactly when it goes through a living user, or through none. -/
theorem send_ok_iff (link : BrokerLink) : link.step .sendJsonPacket = .ok link ↔ UserAlive link := by
  cases user : link.user with
  | none => simp [BrokerLink.step, BrokerLink.sendJsonPacket, UserAlive, user]
  | some other =>
      by_cases alive : other ∈ link.users
      · simp [BrokerLink.step, BrokerLink.sendJsonPacket, UserAlive, user, alive]
      · simp [BrokerLink.step, BrokerLink.sendJsonPacket, UserAlive, user, alive]

/-- A send that returns changes nothing. -/
theorem send_ok {later : BrokerLink} (sent : link.step .sendJsonPacket = .ok later) : later = link := by
  rw [BrokerLink.step] at sent
  split at sent
  · cases sent
  · cases sent
    rfl

end

/-- What an event that returns does to the link. -/
inductive LinkStep (link : BrokerLink) : BrokerEvent → BrokerLink → Prop where
  | idles {event : BrokerEvent}
      (quiet : ∀ sessionOpens, event = .onConnect sessionOpens → link.connecting = none) :
      LinkStep link event link
  | retries {conn : Nat} {outcome : ConnectOutcome} :
      LinkStep link (.connectFailed conn outcome)
        (BrokerLink.tryConnect outcome { link with connector := link.connector.finish conn })
  | startFails {conn : Nat} :
      LinkStep link (.connected conn true) { link with connector := link.connector.finish conn }
  | starts {conn : Nat} {attempt : Attempt} (idle : link.connecting = none)
      (found : link.connector.attemptFor conn = some attempt) :
      LinkStep link (.connected conn false)
        { link with
          connector := link.connector.finish conn
          connecting := some attempt
          sessions := link.sessions ++ [conn] }
  | opens {attempt : Attempt} {sessionOpens : Bool} (connecting : link.connecting = some attempt) :
      LinkStep link (.onConnect sessionOpens)
        (BrokerLink.onConnect attempt.conn { link with connecting := none })
  | opensNext {attempt : Attempt} {sessionOpens : Bool} (connecting : link.connecting = some attempt) :
      LinkStep link (.onConnect sessionOpens)
        { BrokerLink.onConnect attempt.conn { link with connecting := none } with
          connector := (link.connector.startConnect sessionOpens (attempt.remainCnt - 1)).2 }
  | closes {conn : Nat} {outcome : ConnectOutcome} {users : List Nat} :
      LinkStep link (.onClose conn outcome)
        (BrokerLink.tryConnect outcome
          { link with sessions := link.sessions.filter (fun session => session ≠ conn), users := users })

theorem link_step_cases {link later : BrokerLink} {event : BrokerEvent}
    (taken : link.step event = .ok later) : LinkStep link event later := by
  cases event with
  | connectFailed conn outcome =>
      rw [BrokerLink.step] at taken
      split at taken
      · cases taken
        exact .retries
      · cases taken
        exact .idles nofun
  | connected conn startThrows =>
      rw [BrokerLink.step] at taken
      split at taken
      · rename_i attempt idle found
        cases startThrows with
        | true =>
            cases taken
            exact .startFails
        | false =>
            cases taken
            exact .starts idle found
      · cases taken
        exact .idles nofun
  | onConnect sessionOpens =>
      rw [BrokerLink.step] at taken
      split at taken
      · rename_i attempt connecting
        simp only at taken
        split at taken
        · cases taken
          exact .opensNext connecting
        · cases taken
          exact .opens connecting
      · rename_i connecting
        cases taken
        exact .idles fun _ _ => connecting
  | onClose conn outcome =>
      rw [BrokerLink.step] at taken
      split at taken
      · obtain ⟨users, rfl⟩ := onClose_ok taken
        exact .closes
      · cases taken
        exact .idles nofun
  | sendJsonPacket =>
      rw [send_ok taken]
      exact .idles nofun

/-- An event keeps a link supervised exactly when it goes well, and then the link is as before. -/
def StaysLinked (link : BrokerLink) (event : BrokerEvent) : Prop :=
  (LeadsTo Supervised link event ↔ BrokerEvent.GoesWell link event) ∧
    (BrokerEvent.GoesWell link event → LeadsTo Linked link event)

section

variable {link later : BrokerLink} {event : BrokerEvent}

theorem StaysLinked.of_linked (well : BrokerEvent.GoesWell link event)
    (taken : link.step event = .ok later) (linked : Linked later) : StaysLinked link event :=
  ⟨iff_of_true ⟨later, taken, linked.supervised⟩ well, fun _ => ⟨later, taken, linked⟩⟩

/-- An event that leaves the link unsupervised, or fails, and does not go well either. -/
theorem StaysLinked.of_lost (lost : ¬ LeadsTo Supervised link event)
    (badly : ¬ BrokerEvent.GoesWell link event) : StaysLinked link event :=
  ⟨iff_of_false lost badly, fun well => absurd well badly⟩

/-- An event that leaves a link without attempt and session and then calls `tryConnect`. -/
theorem StaysLinked.of_tryConnect {idleLink : BrokerLink} {outcome : ConnectOutcome}
    (taken : link.step event = .ok (idleLink.tryConnect outcome))
    (pointing : idleLink.connector.endpointIter = some true)
    (idle : idleLink.connector.attempts = []) (alone : idleLink.sessions = [])
    (singleConnecting : ∀ attempt, idleLink.connecting = some attempt → attempt.remainCnt = 0)
    (needed : BrokerEvent.GoesWell link event ↔ outcome.sessionOpens = true) :
    StaysLinked link event := by
  rw [StaysLinked, leadsTo_iff taken, leadsTo_iff taken, needed]
  constructor
  · exact tryConnect_idle pointing idle alone
  · exact tryConnect_linked pointing idle alone singleConnecting

theorem stays_connectFailed (linked : Linked link) (conn : Nat) (outcome : ConnectOutcome) :
    StaysLinked link (.connectFailed conn outcome) := by
  by_cases possible : link.connecting = none ∧ link.connector.attemptFor conn ≠ none
  · obtain ⟨idle, there⟩ := possible
    obtain ⟨attempt, found⟩ := Option.ne_none_iff_exists'.mp there
    obtain ⟨alone, same, noSession⟩ := linked.attempt found
    have taken := step_connectFailed idle found outcome
    rw [finish_single alone same] at taken
    apply StaysLinked.of_tryConnect taken linked.pointing rfl noSession linked.singleConnecting
    constructor
    · intro well
      exact well idle there
    · intro opens _ _
      exact opens
  · refine StaysLinked.of_linked ?_ (step_not_attempted possible outcome).1 linked
    intro idle there
    exact absurd ⟨idle, there⟩ possible

theorem stays_connected (linked : Linked link) (conn : Nat) (startThrows : Bool) :
    StaysLinked link (.connected conn startThrows) := by
  by_cases possible : link.connecting = none ∧ link.connector.attemptFor conn ≠ none
  · obtain ⟨idle, there⟩ := possible
    obtain ⟨attempt, found⟩ := Option.ne_none_iff_exists'.mp there
    obtain ⟨alone, same, noSession⟩ := linked.attempt found
    have taken := step_connected idle found startThrows
    rw [finish_single alone same] at taken
    cases startThrows with
    | true =>
        -- The exception leaves neither an attempt nor a session.
        apply StaysLinked.of_lost
        · rw [leadsTo_iff taken]
          simp [Supervised, noSession]
        · intro well
          cases well idle there
    | false =>
        refine StaysLinked.of_linked (fun _ _ => rfl) taken ?_
        constructor
        · simp [Supervised, noSession]
        · exact linked.pointing
        · intro other member
          cases member
        · intro other started
          cases started
          exact linked.single _ (by rw [alone]; exact List.mem_singleton_self _)
  · refine StaysLinked.of_linked ?_ ((step_not_attempted possible ⟨true, true⟩).2 startThrows) linked
    intro idle there
    exact absurd ⟨idle, there⟩ possible

theorem stays_onConnect (linked : Linked link) (sessionOpens : Bool) :
    StaysLinked link (.onConnect sessionOpens) := by
  have well : BrokerEvent.GoesWell link (.onConnect sessionOpens) := trivial
  cases connecting : link.connecting with
  | none =>
      have taken : link.step (.onConnect sessionOpens) = .ok link := by
        simp only [BrokerLink.step, connecting]
      exact StaysLinked.of_linked well taken linked
  | some attempt =>
      have last := linked.singleConnecting attempt connecting
      have taken : link.step (.onConnect sessionOpens) =
          .ok (BrokerLink.onConnect attempt.conn { link with connecting := none }) := by
        simp only [BrokerLink.step, connecting, last]
        rfl
      refine StaysLinked.of_linked well taken ⟨linked.supervised, linked.pointing, linked.single, ?_⟩
      intro other started
      cases started

theorem stays_onClose (linked : Linked link) (conn : Nat) (outcome : ConnectOutcome) :
    StaysLinked link (.onClose conn outcome) := by
  by_cases member : conn ∈ link.sessions
  · obtain ⟨alone, idle⟩ := linked.session member
    have handled : link.step (.onClose conn outcome) = link.onClose conn outcome := by
      simp only [BrokerLink.step, if_pos member]
    have returns := onClose_returns_iff link conn outcome
    cases closed : link.onClose conn outcome with
    | error fault =>
        -- The user has been deleted before, and `tryConnect` is not reached.
        apply StaysLinked.of_lost
        · exact not_leadsTo (handled.trans closed)
        · intro well
          obtain ⟨later, returned⟩ := returns.mpr (well member).1
          rw [closed] at returned
          cases returned
    | ok later =>
        have alive := returns.mp ⟨later, closed⟩
        obtain ⟨users, rfl⟩ := onClose_ok closed
        have noSession : link.sessions.filter (fun session => session ≠ conn) = [] := by
          simp [alone]
        apply StaysLinked.of_tryConnect (handled.trans closed) linked.pointing idle noSession
          linked.singleConnecting
        constructor
        · intro well
          exact (well member).2
        · intro opens _
          exact ⟨alive, opens⟩
  · refine StaysLinked.of_linked ?_ (by simp only [BrokerLink.step, if_neg member]) linked
    intro there
    exact absurd there member

theorem stays_sendJsonPacket (linked : Linked link) : StaysLinked link .sendJsonPacket := by
  have returns := send_ok_iff link
  cases sent : link.step .sendJsonPacket with
  | error fault =>
      rw [sent] at returns
      exact .of_lost (not_leadsTo sent) fun alive => nomatch returns.mpr alive
  | ok later =>
      have same := send_ok sent
      subst same
      exact .of_linked (returns.mp sent) sent linked

theorem stays_step (linked : Linked link) (event : BrokerEvent) : StaysLinked link event := by
  cases event with
  | connectFailed conn outcome => exact stays_connectFailed linked conn outcome
  | connected conn startThrows => exact stays_connected linked conn startThrows
  | onConnect sessionOpens => exact stays_onConnect linked sessionOpens
  | onClose conn outcome => exact stays_onClose linked conn outcome
  | sendJsonPacket => exact stays_sendJsonPacket linked

end

/-- The first `tryConnect`, which resolves the name. -/
theorem first_tryConnect (outcome : ConnectOutcome) :
    (Supervised (BrokerLink.fresh.tryConnect outcome) ↔
        outcome.resolves = true ∧ outcome.sessionOpens = true) ∧
      (outcome.resolves = true ∧ outcome.sessionOpens = true →
        Linked (BrokerLink.fresh.tryConnect outcome)) := by
  obtain ⟨resolves, sessionOpens⟩ := outcome
  cases resolves with
  | false =>
      have lost : ¬ Supervised (BrokerLink.fresh.tryConnect ⟨false, sessionOpens⟩) :=
        fun supervised => Nat.zero_ne_one supervised
      exact ⟨iff_of_false lost (fun answered => nomatch answered.1), fun answered => nomatch answered.1⟩
  | true =>
      cases sessionOpens with
      | false =>
          have lost : ¬ Supervised (BrokerLink.fresh.tryConnect ⟨true, false⟩) :=
            fun supervised => Nat.zero_ne_one supervised
          exact ⟨iff_of_false lost (fun answered => nomatch answered.2),
            fun answered => nomatch answered.2⟩
      | true =>
          have linked : Linked (BrokerLink.fresh.tryConnect ⟨true, true⟩) := by
            refine ⟨rfl, rfl, ?_, ?_⟩
            · intro attempt member
              rw [List.mem_singleton.mp member]
              rfl
            · intro attempt started
              cases started
          exact ⟨iff_of_true linked.supervised ⟨rfl, rfl⟩, fun _ => linked⟩

/-- From the first `tryConnect` on, every handler returns and leaves one attempt or one session exactly when
    the name resolves, every answer of the operating system is a good one, and no close and no send finds a
    pointer to a deleted user. -/
theorem broker_supervised_iff (outcome : ConnectOutcome) (events : List BrokerEvent) :
    (Supervised (BrokerLink.fresh.tryConnect outcome) ∧
        EveryStepTried BrokerLink.step (LeadsTo Supervised) (BrokerLink.fresh.tryConnect outcome) events) ↔
      (outcome.resolves = true ∧ outcome.sessionOpens = true) ∧
        EveryStepTried BrokerLink.step BrokerEvent.GoesWell
          (BrokerLink.fresh.tryConnect outcome) events := by
  obtain ⟨first, linked⟩ := first_tryConnect outcome
  rw [first]
  apply and_congr_right
  intro answered
  apply everyStepTried_iff Linked
  · intro link event linked
    exact (stays_step linked event).1
  · intro link event later linked well taken
    exact (leadsTo_iff taken).mp ((stays_step linked event).2 well)
  · exact linked answered

/-- A session closes while no further socket can be opened: nothing is left that would connect again. -/
theorem reconnection_stops :
    ¬ (Supervised (BrokerLink.fresh.tryConnect ⟨true, true⟩) ∧
      EveryStepTried BrokerLink.step (LeadsTo Supervised) (BrokerLink.fresh.tryConnect ⟨true, true⟩)
        [.connected 0 false, .onConnect true, .onClose 0 ⟨true, false⟩]) := by
  rintro ⟨-, -, connected⟩
  obtain ⟨-, linked⟩ := connected _ rfl
  obtain ⟨⟨later, taken, supervised⟩, -⟩ := linked _ rfl
  cases taken
  exact Nat.zero_ne_one supervised

/-- The second session closes before its `onConnect`, when `m_user` still points at the user of the first. -/
example : [.connected 0 false, .onConnect true, .onClose 0 ⟨true, true⟩, .connected 1 false,
    .onClose 1 ⟨true, true⟩].foldlM BrokerLink.step (BrokerLink.fresh.tryConnect ⟨true, true⟩) =
      .error .undefinedBehaviour := rfl

/-! ### The pointer to the broker user -/

/-- The pointer is null or points at the user of an established session, so that a send returns zero or goes
    to that session, and a delete finds a user that has not been deleted. -/
structure PointerValid (link : BrokerLink) : Prop where
  current : link.user = none ∨ ∃ conn, link.user = some conn ∧ conn ∈ link.users ∧ conn ∈ link.sessions
  sends : link.sendJsonPacket = .returnsZero ∨
    ∃ conn, link.sendJsonPacket = .sendsOn conn ∧ conn ∈ link.sessions
  deletes : ∀ conn, link.deleteUser ≠ .deletesTwice conn

/-- No session closes while the pointer is set, and none is closed before its `onConnect`. -/
def BrokerEvent.LeavesPointer (link : BrokerLink) : BrokerEvent → Prop
  | .connectFailed _ _ => True
  | .connected _ _ => True
  | .onConnect _ => ∀ attempt, link.connecting = some attempt → attempt.conn ∈ link.sessions
  | .onClose conn _ => conn ∈ link.sessions → link.user = none
  | .sendJsonPacket => True

/-- What is asked of sends and deletes follows from what the pointer points at. -/
theorem pointerValid_iff (link : BrokerLink) :
    PointerValid link ↔
      (link.user = none ∨
        ∃ conn, link.user = some conn ∧ conn ∈ link.users ∧ conn ∈ link.sessions) := by
  constructor
  · exact PointerValid.current
  · intro current
    refine ⟨current, ?_, ?_⟩
    · rcases current with null | ⟨conn, set, live, established⟩
      · simp [BrokerLink.sendJsonPacket, null]
      · simp [BrokerLink.sendJsonPacket, set, live, established]
    · intro other
      rcases current with null | ⟨conn, set, live, -⟩
      · simp [BrokerLink.deleteUser, null]
      · simp [BrokerLink.deleteUser, set, live]

/-- A pointer stays valid as long as its target is neither deleted nor closed. -/
theorem PointerValid.frame {link later : BrokerLink} (valid : PointerValid link)
    (same : later.user = link.user) (users : ∀ user ∈ link.users, user ∈ later.users)
    (sessions : ∀ session ∈ link.sessions, session ∈ later.sessions) : PointerValid later := by
  rw [pointerValid_iff, same]
  rcases valid.current with null | ⟨conn, set, live, established⟩
  · exact Or.inl null
  · exact Or.inr ⟨conn, set, users conn live, sessions conn established⟩

/-- An event that finds its attempt leaves the pointer and its target alone. -/
theorem pointerValid_connectFailed {link : BrokerLink} (valid : PointerValid link) (conn : Nat)
    (outcome : ConnectOutcome) : LeadsTo PointerValid link (.connectFailed conn outcome) := by
  by_cases possible : link.connecting = none ∧ link.connector.attemptFor conn ≠ none
  · obtain ⟨idle, there⟩ := possible
    obtain ⟨attempt, found⟩ := Option.ne_none_iff_exists'.mp there
    rw [leadsTo_iff (step_connectFailed idle found outcome)]
    exact valid.frame rfl (fun _ member => member) (fun _ member => member)
  · rw [leadsTo_iff (step_not_attempted possible outcome).1]
    exact valid

theorem pointerValid_connected {link : BrokerLink} (valid : PointerValid link) (conn : Nat)
    (startThrows : Bool) : LeadsTo PointerValid link (.connected conn startThrows) := by
  by_cases possible : link.connecting = none ∧ link.connector.attemptFor conn ≠ none
  · obtain ⟨idle, there⟩ := possible
    obtain ⟨attempt, found⟩ := Option.ne_none_iff_exists'.mp there
    rw [leadsTo_iff (step_connected idle found startThrows)]
    cases startThrows with
    | true => exact valid.frame rfl (fun _ member => member) (fun _ member => member)
    | false =>
        exact valid.frame rfl (fun _ member => member) (fun _ member => List.mem_append_left _ member)
  · rw [leadsTo_iff ((step_not_attempted possible ⟨true, true⟩).2 startThrows)]
    exact valid

/-- `onConnect` points at a user of the session it is called for. -/
theorem pointerValid_onConnect {link : BrokerLink} {attempt : Attempt}
    (connecting : link.connecting = some attempt) (sessionOpens : Bool) :
    LeadsTo PointerValid link (.onConnect sessionOpens) ↔ attempt.conn ∈ link.sessions := by
  obtain ⟨later, taken, user, users, sessions⟩ : ∃ later,
      link.step (.onConnect sessionOpens) = .ok later ∧ later.user = some attempt.conn ∧
        attempt.conn ∈ later.users ∧ later.sessions = link.sessions := by
    simp only [BrokerLink.step, connecting]
    split
    · exact ⟨_, rfl, rfl, List.mem_cons_self .., rfl⟩
    · exact ⟨_, rfl, rfl, List.mem_cons_self .., rfl⟩
  rw [leadsTo_iff taken, pointerValid_iff, user, sessions]
  constructor
  · rintro (null | ⟨conn, set, -, established⟩)
    · cases null
    · cases set
      exact established
  · intro established
    exact Or.inr ⟨_, rfl, users, established⟩

/-- `onClose` leaves a pointer that is not null behind, and no user to point at. -/
theorem pointerValid_onClose {link : BrokerLink} (valid : PointerValid link) {conn : Nat}
    (member : conn ∈ link.sessions) (outcome : ConnectOutcome) :
    LeadsTo PointerValid link (.onClose conn outcome) ↔ link.user = none := by
  have handled : link.step (.onClose conn outcome) = link.onClose conn outcome := by
    simp only [BrokerLink.step, if_pos member]
  rcases valid.current with null | ⟨user, set, live, -⟩
  · obtain ⟨later, closed, still⟩ : ∃ later, link.onClose conn outcome = .ok later ∧ later.user = none := by
      simp [BrokerLink.onClose, BrokerLink.deleteUser, BrokerLink.tryConnect, null]
    refine iff_of_true ?_ null
    rw [leadsTo_iff (handled.trans closed), pointerValid_iff]
    exact Or.inl still
  · obtain ⟨later, closed, still, deleted⟩ : ∃ later, link.onClose conn outcome = .ok later ∧
        later.user = some user ∧ user ∉ later.users := by
      simp [BrokerLink.onClose, BrokerLink.deleteUser, BrokerLink.tryConnect, set, live]
    have notNull : link.user ≠ none := by
      rw [set]
      exact Option.some_ne_none user
    refine iff_of_false ?_ notNull
    rw [leadsTo_iff (handled.trans closed), pointerValid_iff, still]
    rintro (absent | ⟨other, same, otherLive, -⟩)
    · cases absent
    · cases same
      exact deleted otherLive

theorem pointerValid_step {link : BrokerLink} (valid : PointerValid link) (event : BrokerEvent) :
    LeadsTo PointerValid link event ↔ BrokerEvent.LeavesPointer link event := by
  cases event with
  | connectFailed conn outcome => exact iff_of_true (pointerValid_connectFailed valid conn outcome) trivial
  | connected conn startThrows => exact iff_of_true (pointerValid_connected valid conn startThrows) trivial
  | onConnect sessionOpens =>
      cases connecting : link.connecting with
      | none =>
          have unchanged : link.step (.onConnect sessionOpens) = .ok link := by
            simp only [BrokerLink.step, connecting]
          rw [leadsTo_iff unchanged]
          refine iff_of_true valid ?_
          intro attempt started
          rw [connecting] at started
          cases started
      | some attempt =>
          rw [pointerValid_onConnect connecting]
          constructor
          · intro established other started
            rw [connecting] at started
            cases started
            exact established
          · intro leaves
            exact leaves attempt connecting
  | onClose conn outcome =>
      by_cases member : conn ∈ link.sessions
      · rw [pointerValid_onClose valid member]
        constructor
        · intro null _
          exact null
        · intro leaves
          exact leaves member
      · have unchanged : link.step (.onClose conn outcome) = .ok link := by
          simp only [BrokerLink.step, if_neg member]
        rw [leadsTo_iff unchanged]
        exact iff_of_true valid (fun there => absurd there member)
  | sendJsonPacket =>
      have alive : UserAlive link := by
        intro conn set
        rcases valid.current with null | ⟨other, same, live, -⟩
        · rw [null] at set
          cases set
        · rw [same] at set
          cases set
          exact live
      exact iff_of_true ⟨link, (send_ok_iff link).mpr alive, valid⟩ trivial

/-- From the first `tryConnect` on, every handler returns and leaves a valid pointer exactly when no session
    closes while it is set and none is closed before its `onConnect`. -/
theorem broker_pointer_valid_iff (outcome : ConnectOutcome) (events : List BrokerEvent) :
    EveryStepTried BrokerLink.step (LeadsTo PointerValid) (BrokerLink.fresh.tryConnect outcome) events ↔
      EveryStepTried BrokerLink.step BrokerEvent.LeavesPointer
        (BrokerLink.fresh.tryConnect outcome) events := by
  apply everyStepTried_iff PointerValid
  · intro link event valid
    exact pointerValid_step valid event
  · intro link event later valid leaves taken
    exact (leadsTo_iff taken).mp ((pointerValid_step valid event).mpr leaves)
  · rw [pointerValid_iff]
    exact Or.inl rfl

/-- The broker goes away: the next chat line or logout is sent through a user that has been deleted. -/
theorem closed_session_leaves_pointer :
    ¬ EveryStepTried BrokerLink.step (LeadsTo PointerValid) (BrokerLink.fresh.tryConnect ⟨true, true⟩)
      [.connected 0 false, .onConnect true, .onClose 0 ⟨true, true⟩, .sendJsonPacket] := by
  rintro ⟨-, connected⟩
  obtain ⟨-, linked⟩ := connected _ rfl
  obtain ⟨⟨later, taken, valid⟩, -⟩ := linked _ rfl
  cases taken
  rcases valid.sends with zero | ⟨conn, sends, -⟩
  · exact absurd zero (by decide)
  · cases sends

end LobbySvr.Proofs
