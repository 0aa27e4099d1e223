/-
Module: LobbySvr.Proofs.ConnectedSessions
Layer: Proofs
Purpose: The sessions that one `connectWait` leads to.  Its attempts form a chain through the handlers: an attempt
  is outstanding, or its handler is between `onConnect` and the next attempt, or the chain is over.  Whatever
  else the connector does leaves the chain alone.  The count comes out right in every run; the identity asked
  for reaches the first session only.
Imports: LobbySvr.Proofs.ConnectorCalls, LobbySvr.Foundation.Runs
Trusted boundary: none
Main exports: startedFor, Pending, succeedsFor, CallProgress, Succeeding, OpensRequested, Phase, Chain,
  Chain.step, Chain.leads, Chain.failing, connectWait_opens_requested_iff
Open obligations: none
-/
import LobbySvr.Proofs.ConnectorCalls
import LobbySvr.Foundation.Runs

namespace LobbySvr.Proofs

open LobbySvr.Foundation
open LobbySvr.Net

variable {ε : Type}

/-! ### What is asked of a call -/

/-- How many connects have been started for a call. -/
def startedFor (call : Nat) (connector : TargetedConnector ε) : Nat :=
  (connector.sessions.filter fun session => session.call = call).length

/-- An attempt of the call is outstanding, or the handler of one is running. -/
def Pending (call : Nat) (connector : TargetedConnector ε) : Prop :=
  (∃ attempt ∈ connector.attempts, attempt.call = call) ∨
    ∃ attempt, connector.connecting = some attempt ∧ attempt.call = call

/-- A handler that comes through to its end. -/
def succeeds : ConnectorLabel ε → Bool
  | .setTargetServer _ _ => true
  | .connectWait _ _ _ _ => true
  | .connect _ _ _ => true
  | .connectFailed _ => false
  | .connected _ startThrows => !startThrows
  | .handlerEnds sessionOpens => sessionOpens

/-- The label does not belong to the call, or succeeds. -/
def succeedsFor (call : Nat) (connector : TargetedConnector ε) (label : ConnectorLabel ε) : Bool :=
  decide (subject connector label ≠ some call) || succeeds label

/-- What is asked of a call as long as its connects succeed: one `onConnect` after the other, for different
    connections that have the identity asked for, and when nothing is on its way any more there have been as
    many as asked for. -/
structure CallProgress (sessionCnt : Nat) (connectionID : UInt64) (call : Nat)
    (connector : TargetedConnector ε) : Prop where
  connects : ∀ report ∈ reportsOf call connector, report.connected = true
  identity : ∀ report ∈ reportsOf call connector,
    connector.getConnectionID report.conn = some connectionID
  distinct : ((reportsOf call connector).map ConnectorReport.conn).Nodup
  oneByOne : (reportsOf call connector).length ≤ startedFor call connector ∧
    startedFor call connector ≤ (reportsOf call connector).length + 1
  atMost : startedFor call connector ≤ sessionCnt
  complete : ¬ Pending call connector → (reportsOf call connector).length = sessionCnt

/-- Any label may be taken, as far as it does not make the call fail. -/
abbrev Succeeding (call : Nat) (start : TargetedConnector ε) : TargetedConnector ε → Prop :=
  Reaches (fun connector label => some (TargetedConnector.step connector label)) (succeedsFor call) start

/-- What is asked of a call that has just been made: its progress as long as its connects succeed, and that it
    can always be brought to its end by connects that succeed.  When a connect of it fails, the k-th one, there
    are k - 1 notifications so far, one `onConnectFailed` follows, and no other, whatever happens. -/
structure OpensRequested (sessionCnt : Nat) (connectionID : UInt64) (call : Nat)
    (start : TargetedConnector ε) : Prop where
  progress : ∀ connector, Succeeding call start connector →
    CallProgress sessionCnt connectionID call connector
  leads : ∀ connector, Succeeding call start connector →
    ∃ later, Succeeding call connector later ∧ ¬ Pending call later
  failing : ∀ connector, Succeeding call start connector → ∀ conn attempt,
    connector.attemptFor conn = some attempt → attempt.call = call → ∀ labels : List (ConnectorLabel ε),
      (reportsOf call connector).length + 1 = startedFor call connector ∧
        reportsOf call (labels.foldl TargetedConnector.step (connector.step (.connectFailed conn))) =
          reportsOf call connector ++ [⟨call, conn, false⟩]

/-! ### The chain of a call -/

/-- The `onConnect` for a connection. -/
def connectedReport (call : Nat) (made : Nat × UInt64) : ConnectorReport := ⟨call, made.1, true⟩

/-- Where the chain of a call stands: its last attempt is outstanding, the handler of its last attempt is
    running, or it is over. -/
inductive Phase (sessionCnt call : Nat) : CallView ε → Prop where
  | waiting (conns : List (Nat × UInt64)) (conn : Nat × UInt64) (endpoint : ε) (remainCnt : UInt16)
      (count : conns.length + 1 + remainCnt.toNat = sessionCnt) :
      Phase sessionCnt call
        ⟨conns ++ [conn], [⟨conn.1, endpoint, remainCnt, call⟩], none, conns.map (connectedReport call)⟩
  | between (conns : List (Nat × UInt64)) (attempt : SessionAttempt ε) (own : attempt.call = call)
      (count : conns.length + attempt.remainCnt.toNat = sessionCnt) :
      Phase sessionCnt call ⟨conns, [], some attempt, conns.map (connectedReport call)⟩
  | finished (conns : List (Nat × UInt64)) (count : conns.length = sessionCnt) :
      Phase sessionCnt call ⟨conns, [], none, conns.map (connectedReport call)⟩

/-- The first connection has the identity asked for, the others have 0. -/
def FirstOnly (connectionID : UInt64) (made : List (Nat × UInt64)) : Prop :=
  ∃ first others, made = (first, connectionID) :: others ∧ ∀ other ∈ others, other.2 = 0

theorem FirstOnly.append {connectionID : UInt64} {made : List (Nat × UInt64)}
    (firstOnly : FirstOnly connectionID made) (conn : Nat) :
    FirstOnly connectionID (made ++ [(conn, 0)]) := by
  obtain ⟨first, others, rfl, zeros⟩ := firstOnly
  refine ⟨first, others ++ [(conn, 0)], rfl, ?_⟩
  intro other member
  rcases List.mem_append.mp member with earlier | last
  · exact zeros other earlier
  · rw [List.mem_singleton.mp last]

structure Chain (sessionCnt : Nat) (connectionID : UInt64) (call : Nat) (connector : TargetedConnector ε) :
    Prop where
  sound : Sound connector
  known : call < connector.calls
  phase : Phase sessionCnt call (viewOf call connector)
  identities : FirstOnly connectionID (viewOf call connector).made

variable {sessionCnt call : Nat} {connectionID : UInt64} {connector : TargetedConnector ε}

/-- A handler of the call can only run when its attempt is outstanding. -/
theorem Phase.of_attemptFor (phase : Phase sessionCnt call (viewOf call connector)) {conn : Nat}
    {attempt : SessionAttempt ε} (found : connector.attemptFor conn = some attempt)
    (own : attempt.call = call) :
    ∃ conns conn endpoint, ∃ remainCnt : UInt16, conns.length + 1 + remainCnt.toNat = sessionCnt ∧
      viewOf call connector =
        ⟨conns ++ [conn], [⟨conn.1, endpoint, remainCnt, call⟩], none, conns.map (connectedReport call)⟩ := by
  obtain ⟨-, member, -⟩ := attemptFor_mem found
  have inView : attempt ∈ (viewOf call connector).attempts := by
    apply List.mem_filter.mpr
    exact ⟨member, decide_eq_true own⟩
  generalize viewOf call connector = view at phase inView
  cases phase with
  | waiting conns conn endpoint remainCnt count => exact ⟨conns, conn, endpoint, remainCnt, count, rfl⟩
  | between conns attempt own count => cases inView
  | finished conns count => cases inView

/-- What a handler that comes through makes of its own chain. -/
theorem own_step (chain : Chain sessionCnt connectionID call connector) {label : ConnectorLabel ε}
    (own : subject connector label = some call) (through : succeeds label = true) :
    Phase sessionCnt call (viewOf call (connector.step label)) ∧
      FirstOnly connectionID (viewOf call (connector.step label)).made := by
  obtain ⟨-, known, phase, identities⟩ := chain
  cases label with
  | setTargetServer addr port => cases own
  | connectWait resolve sessionOpens sessionCnt connectionID =>
      exact absurd (Option.some.inj own) (Nat.ne_of_gt known)
  | connect resolve sessionOpens connects =>
      exact absurd (Option.some.inj own) (Nat.ne_of_gt known)
  | connectFailed conn => cases through
  | connected conn startThrows =>
      cases startThrows with
      | true => cases through
      | false =>
          obtain ⟨attempt, found, same⟩ := Option.map_eq_some_iff.mp own
          obtain ⟨conns, last, endpoint, remainCnt, count, seen⟩ := phase.of_attemptFor found same
          have alone : (viewOf call connector).attempts = [⟨last.1, endpoint, remainCnt, call⟩] := by
            rw [seen]
          rw [viewOf_connected found same alone]
          refine ⟨?_, identities⟩
          rw [seen]
          have between : Phase sessionCnt call
              ⟨conns ++ [last], [], some ⟨last.1, endpoint, remainCnt, call⟩,
                (conns ++ [last]).map (connectedReport call)⟩ :=
            .between (conns ++ [last]) ⟨last.1, endpoint, remainCnt, call⟩ rfl (by simpa using count)
          simpa [connectedReport] using between
  | handlerEnds sessionOpens =>
      obtain ⟨attempt, running, same⟩ := Option.map_eq_some_iff.mp own
      cases sessionOpens with
      | false => cases through
      | true =>
          have inView : (viewOf call connector).connecting = some attempt := by
            simp [viewOf, running, Option.filter, same]
          generalize seen : viewOf call connector = view at phase identities inView
          cases phase with
          | waiting conns conn endpoint remainCnt count => cases inView
          | finished conns count => cases inView
          | between conns other otherOwn count =>
              cases inView
              have idle : viewOf call { connector with connecting := none } =
                  ⟨conns, [], none, conns.map (connectedReport call)⟩ := by
                change { viewOf call connector with connecting := none } = _
                rw [seen]
              simp only [TargetedConnector.step, running]
              split
              · rename_i more
                have fewer : (attempt.remainCnt - 1).toNat = attempt.remainCnt.toNat - 1 :=
                  UInt16.toNat_sub_of_le _ _ (UInt16.le_iff_toNat_le.mpr (UInt16.lt_iff_toNat_lt.mp more))
                have some : 0 < attempt.remainCnt.toNat := UInt16.lt_iff_toNat_lt.mp more
                rw [same, viewOf_startConnect_own, idle]
                refine ⟨.waiting conns (connector.sessions.length, 0) attempt.endpoint _ ?_,
                  identities.append _⟩
                omega
              · rename_i noMore
                have none : attempt.remainCnt.toNat = 0 := by
                  have := UInt16.lt_iff_toNat_lt.not.mp noMore
                  simpa using this
                rw [idle]
                refine ⟨.finished conns ?_, identities⟩
                omega

theorem Chain.step (chain : Chain sessionCnt connectionID call connector) {label : ConnectorLabel ε}
    (allowed : succeedsFor call connector label = true) :
    Chain sessionCnt connectionID call (connector.step label) := by
  have sound := sound_step chain.sound label
  have known := Nat.lt_of_lt_of_le chain.known (calls_step connector label)
  by_cases own : subject connector label = some call
  · have through : succeeds label = true := by simpa [succeedsFor, own] using allowed
    obtain ⟨phase, identities⟩ := own_step chain own through
    exact ⟨sound, known, phase, identities⟩
  · have same := viewOf_step_other chain.sound own
    refine ⟨sound, known, ?_, ?_⟩
    · rw [same]
      exact chain.phase
    · rw [same]
      exact chain.identities

theorem Chain.reached {later : TargetedConnector ε}
    (chain : Chain sessionCnt connectionID call connector) (reached : Succeeding call connector later) :
    Chain sessionCnt connectionID call later := by
  apply reached.invariant (motive := Chain sessionCnt connectionID call) chain
  intro state after label _ here allowed taken
  cases taken
  exact here.step allowed

/-! ### How far a call has come -/

theorem startedFor_eq (call : Nat) (connector : TargetedConnector ε) :
    startedFor call connector = (viewOf call connector).made.length :=
  (madeFor_length call connector.sessions).symm

theorem pending_iff (call : Nat) (connector : TargetedConnector ε) :
    Pending call connector ↔
      (viewOf call connector).attempts ≠ [] ∨ (viewOf call connector).connecting ≠ none := by
  have attempts : (viewOf call connector).attempts ≠ [] ↔
      ∃ attempt ∈ connector.attempts, attempt.call = call := by
    simp [viewOf, List.filter_eq_nil_iff]
  have connecting : (viewOf call connector).connecting ≠ none ↔
      ∃ attempt, connector.connecting = some attempt ∧ attempt.call = call := by
    cases running : connector.connecting with
    | none => simp [viewOf, running]
    | some attempt => simp [viewOf, running, Option.filter_eq_none_iff]
  rw [Pending, attempts, connecting]

/-- The connections of a call, and those of them that have been reported. -/
theorem Phase.progress {view : CallView ε} (phase : Phase sessionCnt call view) :
    ∃ conns rest, view.made = conns ++ rest ∧ view.reports = conns.map (connectedReport call) ∧
      rest.length ≤ 1 ∧ view.made.length ≤ sessionCnt ∧
      (view.attempts = [] → view.connecting = none → conns.length = sessionCnt) := by
  cases phase with
  | waiting conns conn endpoint remainCnt count =>
      refine ⟨conns, [conn], rfl, rfl, Nat.le_refl _, ?_, nofun⟩
      rw [List.length_append, List.length_singleton]
      omega
  | between conns attempt own count =>
      refine ⟨conns, [], (List.append_nil _).symm, rfl, Nat.zero_le _, ?_, nofun⟩
      change conns.length ≤ sessionCnt
      omega
  | finished conns count =>
      refine ⟨conns, [], (List.append_nil _).symm, rfl, Nat.zero_le _, ?_, ?_⟩
      · exact Nat.le_of_eq count
      · intro _ _
        exact count

/-- All that is asked of a call apart from the identities. -/
theorem Chain.callProgress (chain : Chain sessionCnt connectionID call connector)
    (identity : ∀ made ∈ (viewOf call connector).made, made.2 = connectionID) :
    CallProgress sessionCnt connectionID call connector := by
  obtain ⟨conns, rest, made, reports, short, bounded, complete⟩ := chain.phase.progress
  have reports : reportsOf call connector = conns.map (connectedReport call) := reports
  have distinct := madeFor_distinct call connector.sessions
  refine ⟨?_, ?_, ?_, ?_, ?_, ?_⟩
  · intro report member
    rw [reports] at member
    obtain ⟨conn, -, rfl⟩ := List.mem_map.mp member
    rfl
  · intro report member
    rw [reports] at member
    obtain ⟨conn, reported, rfl⟩ := List.mem_map.mp member
    have inside : conn ∈ (viewOf call connector).made := made ▸ List.mem_append_left rest reported
    rw [← identity conn inside]
    exact getConnectionID_of_made inside
  · rw [reports, List.map_map]
    change ((viewOf call connector).made.map Prod.fst).Nodup at distinct
    rw [made, List.map_append] at distinct
    exact (List.nodup_append.mp distinct).1
  · rw [startedFor_eq, made, reports, List.length_append, List.length_map]
    omega
  · rw [startedFor_eq]
    exact bounded
  · intro idle
    rw [pending_iff] at idle
    rw [reports, List.length_map]
    apply complete
    · exact Classical.byContradiction fun waiting => idle (Or.inl waiting)
    · exact Classical.byContradiction fun running => idle (Or.inr running)

/-! ### The chain goes on -/

theorem handlerEnds_idle (sessionOpens : Bool) (connector : TargetedConnector ε) :
    (connector.step (.handlerEnds sessionOpens)).connecting = none := by
  simp only [TargetedConnector.step]
  split
  · assumption
  · split
    · cases sessionOpens with
      | false => rfl
      | true => rfl
    · rfl

/-- Once no handler runs, the outstanding attempt of a call can complete. -/
theorem attemptFor_waiting (sound : Sound connector) (idle : connector.connecting = none)
    {only : SessionAttempt ε} (alone : (viewOf call connector).attempts = [only]) :
    ∃ attempt, connector.attemptFor only.conn = some attempt ∧ attempt.call = call := by
  have inView : only ∈ (viewOf call connector).attempts := by
    rw [alone]
    exact List.mem_singleton_self only
  obtain ⟨member, own⟩ := List.mem_filter.mp inView
  cases found : connector.attemptFor only.conn with
  | none =>
      simp only [TargetedConnector.attemptFor, idle, List.find?_eq_none] at found
      exact absurd (decide_eq_true rfl) (found only member)
  | some attempt =>
      obtain ⟨-, there, same⟩ := attemptFor_mem found
      refine ⟨attempt, rfl, ?_⟩
      exact (sound.distinct attempt there only member same).trans (of_decide_eq_true own)

theorem handlerEnds_log (sessionOpens : Bool) (connector : TargetedConnector ε) :
    (connector.step (.handlerEnds sessionOpens)).log = connector.log := by
  simp only [TargetedConnector.step]
  split
  · rfl
  · split
    · cases sessionOpens with
      | false => rfl
      | true => rfl
    · rfl

/-- How many parts of handlers a call has still before it. -/
def stillBefore (sessionCnt : Nat) (view : CallView ε) : Nat :=
  2 * (sessionCnt - view.reports.length) + if view.connecting.isSome then 1 else 0

/-- A chain that is not over can be taken further. -/
theorem Chain.advances (chain : Chain sessionCnt connectionID call connector)
    (pending : Pending call connector) :
    ∃ later, Succeeding call connector later ∧
      stillBefore sessionCnt (viewOf call later) < stillBefore sessionCnt (viewOf call connector) := by
  have through : succeedsFor call connector (.handlerEnds true) = true := by simp [succeedsFor, succeeds]
  have ended : Succeeding call connector (connector.step (.handlerEnds true)) :=
    .step .start through rfl
  have idle := handlerEnds_idle true connector
  have phase := chain.phase
  rw [pending_iff] at pending
  generalize seen : viewOf call connector = view at phase pending
  cases phase with
  | waiting conns conn endpoint remainCnt count =>
      -- The handler of another call may be running; its end makes room.
      have other : subject connector (.handlerEnds true) ≠ some call := by
        intro own
        obtain ⟨attempt, running, same⟩ := Option.map_eq_some_iff.mp own
        have connecting := congrArg CallView.connecting seen
        simp [viewOf, running, Option.filter, same] at connecting
      have same := (viewOf_step_other chain.sound other).trans seen
      have alone : (viewOf call (connector.step (.handlerEnds true))).attempts =
          [⟨conn.1, endpoint, remainCnt, call⟩] := by
        rw [same]
      have sound := sound_step chain.sound (.handlerEnds true)
      obtain ⟨attempt, found, own⟩ := attemptFor_waiting sound idle alone
      have comes : succeedsFor call (connector.step (.handlerEnds true)) (.connected conn.1 false) = true := by
        simp [succeedsFor, succeeds]
      refine ⟨_, .step ended comes rfl, ?_⟩
      rw [viewOf_connected found own alone, same]
      simp [stillBefore]
      omega
  | between conns attempt own count =>
      refine ⟨_, ended, ?_⟩
      have reports : (viewOf call (connector.step (.handlerEnds true))).reports =
          (viewOf call connector).reports := by
        simp only [viewOf, reportsOf, handlerEnds_log]
      have connecting : (viewOf call (connector.step (.handlerEnds true))).connecting = none := by
        simp [viewOf, idle]
      rw [stillBefore, reports, connecting, seen]
      exact Nat.lt_succ_self _
  | finished conns count => simp at pending

/-- A chain can be brought to its end. -/
theorem Chain.leads (chain : Chain sessionCnt connectionID call connector) :
    ∃ later, Succeeding call connector later ∧ ¬ Pending call later := by
  generalize measured : stillBefore sessionCnt (viewOf call connector) = measure
  induction measure using Nat.strong_induction_on generalizing connector with
  | h measure inductionHypothesis =>
      by_cases pending : Pending call connector
      · obtain ⟨middle, reached, closer⟩ := chain.advances pending
        rw [measured] at closer
        obtain ⟨later, further, idle⟩ := inductionHypothesis _ closer (chain.reached reached) rfl
        exact ⟨later, reached.trans further, idle⟩
      · exact ⟨connector, .start, pending⟩

/-! ### A connect that fails -/

/-- Nothing of a call is on its way. -/
structure Over (call : Nat) (connector : TargetedConnector ε) : Prop where
  sound : Sound connector
  known : call < connector.calls
  attempts : (viewOf call connector).attempts = []
  connecting : (viewOf call connector).connecting = none

/-- No label belongs to a call that is over. -/
theorem Over.others (ended : Over call connector) (label : ConnectorLabel ε) :
    subject connector label ≠ some call := by
  have noAttempt : ∀ conn, (connector.attemptFor conn).map SessionAttempt.call ≠ some call := by
    intro conn own
    obtain ⟨attempt, found, same⟩ := Option.map_eq_some_iff.mp own
    obtain ⟨-, member, -⟩ := attemptFor_mem found
    have inView : attempt ∈ (viewOf call connector).attempts :=
      List.mem_filter.mpr ⟨member, decide_eq_true same⟩
    rw [ended.attempts] at inView
    cases inView
  cases label with
  | setTargetServer addr port => nofun
  | connectWait resolve sessionOpens sessionCnt connectionID =>
      intro own
      exact Nat.ne_of_gt ended.known (Option.some.inj own)
  | connect resolve sessionOpens connects =>
      intro own
      exact Nat.ne_of_gt ended.known (Option.some.inj own)
  | connectFailed conn => exact noAttempt conn
  | connected conn startThrows => exact noAttempt conn
  | handlerEnds sessionOpens =>
      intro own
      obtain ⟨attempt, running, same⟩ := Option.map_eq_some_iff.mp own
      have connecting := ended.connecting
      simp [viewOf, running, Option.filter, same] at connecting

theorem Over.run (ended : Over call connector) (labels : List (ConnectorLabel ε)) :
    viewOf call (labels.foldl TargetedConnector.step connector) = viewOf call connector := by
  induction labels generalizing connector with
  | nil => rfl
  | cons label labels inductionHypothesis =>
      have same := viewOf_step_other ended.sound (ended.others label)
      rw [List.foldl_cons, inductionHypothesis, same]
      refine ⟨sound_step ended.sound label, Nat.lt_of_lt_of_le ended.known (calls_step connector label), ?_, ?_⟩
      · rw [same]
        exact ended.attempts
      · rw [same]
        exact ended.connecting

/-- The connect that fails ends the chain. -/
theorem Chain.failing (chain : Chain sessionCnt connectionID call connector) {conn : Nat}
    {attempt : SessionAttempt ε} (found : connector.attemptFor conn = some attempt)
    (own : attempt.call = call) (labels : List (ConnectorLabel ε)) :
    (reportsOf call connector).length + 1 = startedFor call connector ∧
      reportsOf call (labels.foldl TargetedConnector.step (connector.step (.connectFailed conn))) =
        reportsOf call connector ++ [⟨call, conn, false⟩] := by
  obtain ⟨conns, last, endpoint, remainCnt, -, seen⟩ := chain.phase.of_attemptFor found own
  have alone : (viewOf call connector).attempts = [⟨last.1, endpoint, remainCnt, call⟩] := by
    rw [seen]
  have failed := viewOf_connectFailed found own alone
  have ended : Over call (connector.step (.connectFailed conn)) := by
    refine ⟨sound_step chain.sound _, Nat.lt_of_lt_of_le chain.known (calls_step connector _), ?_, ?_⟩
    · rw [failed]
    · rw [failed, seen]
  have reports : reportsOf call connector = conns.map (connectedReport call) :=
    congrArg CallView.reports seen
  constructor
  · rw [startedFor_eq, seen, reports, List.length_map, List.length_append, List.length_singleton]
  · exact (congrArg CallView.reports (ended.run labels)).trans (congrArg CallView.reports failed)

/-! ### The call itself -/

/-- The chain of a call that found an endpoint and opened its first socket. -/
theorem chain_started (sound : Sound connector) {resolve : Resolve ε} {endpoint : ε}
    (found : (connector.setEndPoint resolve connector.targetAddr connector.targetPort).1 = some endpoint)
    {sessionCnt : UInt16} (positive : sessionCnt ≠ 0) (connectionID : UInt64) :
    Chain sessionCnt.toNat connectionID connector.calls
      (connector.step (.connectWait resolve true sessionCnt connectionID)) := by
  have later := sound_step sound (.connectWait resolve true sessionCnt connectionID)
  have atLeastOne : 1 ≤ sessionCnt := by
    rw [UInt16.le_iff_toNat_le]
    exact Nat.one_le_iff_ne_zero.mpr fun zero => positive (UInt16.toNat_inj.mp zero)
  have seen : viewOf connector.calls
      (connector.step (.connectWait resolve true sessionCnt connectionID)) =
      ⟨[(connector.sessions.length, connectionID)],
        [⟨connector.sessions.length, endpoint, sessionCnt - 1, connector.calls⟩], none, []⟩ := by
    have fresh : viewOf connector.calls { connector with endpointIter := some (some endpoint) } =
        ⟨[], [], none, []⟩ := viewOf_next sound
    change viewOf connector.calls (connector.connectImplement resolve true connector.targetAddr
      connector.targetPort sessionCnt connectionID) = _
    rw [TargetedConnector.connectImplement_eq, found]
    simp only
    rw [viewOf_startConnect_own, fresh]
    rfl
  refine ⟨later, Nat.lt_succ_self _, ?_, ?_⟩
  · rw [seen]
    refine .waiting [] (connector.sessions.length, connectionID) endpoint (sessionCnt - 1) ?_
    have := UInt16.le_iff_toNat_le.mp atLeastOne
    rw [UInt16.toNat_sub_of_le _ _ atLeastOne]
    simp at this ⊢
    omega
  · rw [seen]
    exact ⟨_, [], rfl, nofun⟩

/-! ### The identities -/

/-- With one session, or with the identity 0, all connections of the call have the identity asked for. -/
theorem Chain.identities_agree (chain : Chain sessionCnt connectionID call connector)
    (condition : sessionCnt = 1 ∨ connectionID = 0) :
    ∀ made ∈ (viewOf call connector).made, made.2 = connectionID := by
  obtain ⟨conns, rest, -, -, -, bounded, -⟩ := chain.phase.progress
  obtain ⟨first, others, made, zeros⟩ := chain.identities
  rw [made]
  intro conn member
  rcases List.mem_cons.mp member with rfl | later
  · rfl
  · rcases condition with one | zero
    · rw [made, List.length_cons] at bounded
      have none : others = [] := List.eq_nil_of_length_eq_zero (by omega)
      rw [none] at later
      cases later
    · rw [zeros conn later, zero]

/-- The second session that is reported shows the identity 0. -/
theorem Chain.identity_needed (chain : Chain sessionCnt connectionID call connector)
    (progress : CallProgress sessionCnt connectionID call connector) (idle : ¬ Pending call connector) :
    sessionCnt = 1 ∨ connectionID = 0 := by
  obtain ⟨conns, rest, made, reports, -, bounded, -⟩ := chain.phase.progress
  obtain ⟨first, others, firstMade, zeros⟩ := chain.identities
  have reports : reportsOf call connector = conns.map (connectedReport call) := reports
  have complete := progress.complete idle
  rw [reports, List.length_map] at complete
  have nothingMore : rest = [] := by
    rw [made, List.length_append] at bounded
    exact List.eq_nil_of_length_eq_zero (by omega)
  rw [nothingMore, List.append_nil] at made
  cases others with
  | nil =>
      left
      rw [← complete, ← made, firstMade]
      rfl
  | cons second others =>
      right
      have inside : second ∈ (viewOf call connector).made := by
        rw [firstMade]
        exact List.mem_cons_of_mem _ (List.mem_cons_self ..)
      have reported : connectedReport call second ∈ reportsOf call connector := by
        rw [reports, ← made]
        exact List.mem_map_of_mem inside
      have asked := progress.identity _ reported
      have given := getConnectionID_of_made inside
      rw [zeros second (List.mem_cons_self ..)] at given
      exact Option.some.inj (asked.symm.trans given)

/-- From every state a run leads to, a `connectWait` that finds an endpoint leads to the sessions asked for exactly
    when there is one of them or their identity is 0. -/
theorem connectWait_opens_requested_iff {addr port : String} {connector : TargetedConnector ε}
    (reached : Reaches (fun connector label => some (TargetedConnector.step connector label)) (fun _ _ => true)
      (.fresh addr port) connector)
    {resolve : Resolve ε} {endpoint : ε}
    (found : (connector.setEndPoint resolve connector.targetAddr connector.targetPort).1 = some endpoint)
    {sessionCnt : UInt16} (positive : sessionCnt ≠ 0) (connectionID : UInt64) :
    OpensRequested sessionCnt.toNat connectionID connector.calls
        (connector.step (.connectWait resolve true sessionCnt connectionID)) ↔
      sessionCnt = 1 ∨ connectionID = 0 := by
  have sound : Sound connector := by
    apply reached.invariant (motive := Sound)
    · exact ⟨nofun, nofun, nofun, nofun, nofun, nofun⟩
    · intro state later label _ sound _ taken
      cases taken
      exact sound_step sound label
  have started := chain_started sound found positive connectionID
  have one : sessionCnt = 1 ↔ sessionCnt.toNat = 1 := UInt16.toNat_inj.symm
  rw [one]
  constructor
  · intro opens
    obtain ⟨later, reached, idle⟩ := opens.leads _ .start
    exact (started.reached reached).identity_needed (opens.progress later reached) idle
  · intro condition
    refine ⟨?_, ?_, ?_⟩
    · intro later reached
      have chain := started.reached reached
      exact chain.callProgress (chain.identities_agree condition)
    · intro later reached
      exact (started.reached reached).leads
    · intro later reached conn attempt found own labels
      exact (started.reached reached).failing found own labels

/-- Three sessions with the identity 0, on a connector whose resolver has one endpoint. -/
theorem connectWait_opens_three :
    OpensRequested 3 0 0
      ((TargetedConnector.fresh "10.0.0.1" "8000").step (.connectWait (fun _ _ => some ()) true 3 0)) :=
  (@connectWait_opens_requested_iff Unit _ _ _ .start _ _ rfl 3 (by decide) 0).mpr (Or.inr rfl)

/-- Of two sessions asked for with the identity 7, the second one has the identity 0. -/
theorem second_session_without_identity :
    ¬ OpensRequested 2 7 0
      ((TargetedConnector.fresh "10.0.0.1" "8000").step (.connectWait (fun _ _ => some ()) true 2 7)) := by
  intro opens
  have ran : (runGuarded (fun connector label => some (TargetedConnector.step connector label))
      (succeedsFor 0)
      ((TargetedConnector.fresh "10.0.0.1" "8000").step (.connectWait (fun _ _ => some ()) true 2 7))
      [.connected 0 false, .handlerEnds true, .connected 1 false]).map
        (fun connector => (reportsOf 0 connector, connector.getConnectionID 1)) =
      some ([⟨0, 0, true⟩, ⟨0, 1, true⟩], some 0) := by
    decide
  obtain ⟨later, reached, same⟩ := exists_reaches _ ran
  obtain ⟨reports, identity⟩ := Prod.mk.inj same
  have progress := opens.progress later reached
  have asked := progress.identity ⟨0, 1, true⟩ (by simp [reports])
  rw [identity] at asked
  exact absurd asked (by decide)

end LobbySvr.Proofs
