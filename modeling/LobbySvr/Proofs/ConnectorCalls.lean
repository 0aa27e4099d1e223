/-
Module: LobbySvr.Proofs.ConnectorCalls
Layer: Proofs
Purpose: What belongs to one call of a connector.  Attempts, connections and notifications go back to a call;
  `viewOf` picks out those of one, and a label that does not belong to the call leaves its view alone.
Imports: LobbySvr.Net.TargetedConnector
Trusted boundary: none
Main exports: reportsOf, subject, SoundBelow, Sound, sound_step, CallView, viewOf, viewOf_step_other,
  viewOf_connected, viewOf_connectFailed
Open obligations: none
-/
import LobbySvr.Net.TargetedConnector

namespace LobbySvr.Proofs

open LobbySvr.Net

variable {ε : Type}

/-- The notifications that a call has led to. -/
def reportsOf (call : Nat) (connector : TargetedConnector ε) : List ConnectorReport :=
  connector.log.filter fun report => report.call = call

/-- The call that a label belongs to. -/
def subject (connector : TargetedConnector ε) : ConnectorLabel ε → Option Nat
  | .setTargetServer _ _ => none
  | .connectWait _ _ _ _ => some connector.calls
  | .connect _ _ _ => some connector.calls
  | .connectFailed conn => (connector.attemptFor conn).map SessionAttempt.call
  | .connected conn _ => (connector.attemptFor conn).map SessionAttempt.call
  | .handlerEnds _ => connector.connecting.map SessionAttempt.call

/-! ### Numbers -/

/-- The numbers of calls stay below a bound, those of connections are in use, and connections of different
    calls are different. -/
structure SoundBelow (bound : Nat) (connector : TargetedConnector ε) : Prop where
  conns : ∀ attempt ∈ connector.attempts, attempt.conn < connector.sessions.length
  distinct : ∀ attempt ∈ connector.attempts, ∀ other ∈ connector.attempts,
    attempt.conn = other.conn → attempt.call = other.call
  attempts : ∀ attempt ∈ connector.attempts, attempt.call < bound
  connecting : ∀ attempt, connector.connecting = some attempt → attempt.call < bound
  sessions : ∀ session ∈ connector.sessions, session.call < bound
  reports : ∀ report ∈ connector.log, report.call < bound

/-- The numbers given out so far bound all others. -/
def Sound (connector : TargetedConnector ε) : Prop := SoundBelow connector.calls connector

theorem SoundBelow.mono {bound later : Nat} {connector : TargetedConnector ε}
    (sound : SoundBelow bound connector) (grows : bound ≤ later) : SoundBelow later connector where
  conns := sound.conns
  distinct := sound.distinct
  attempts attempt member := Nat.lt_of_lt_of_le (sound.attempts attempt member) grows
  connecting attempt same := Nat.lt_of_lt_of_le (sound.connecting attempt same) grows
  sessions session member := Nat.lt_of_lt_of_le (sound.sessions session member) grows
  reports report member := Nat.lt_of_lt_of_le (sound.reports report member) grows

/-- Target, endpoint and the number of calls play no part. -/
theorem SoundBelow.of_same {bound : Nat} {connector later : TargetedConnector ε}
    (sound : SoundBelow bound connector) (sessions : later.sessions = connector.sessions)
    (attempts : later.attempts = connector.attempts) (connecting : later.connecting = connector.connecting)
    (log : later.log = connector.log) : SoundBelow bound later where
  conns := by
    rw [attempts, sessions]
    exact sound.conns
  distinct := by
    rw [attempts]
    exact sound.distinct
  attempts := by
    rw [attempts]
    exact sound.attempts
  connecting := by
    rw [connecting]
    exact sound.connecting
  sessions := by
    rw [sessions]
    exact sound.sessions
  reports := by
    rw [log]
    exact sound.reports

/-- A connection that has been created for a call. -/
theorem SoundBelow.created {bound : Nat} {connector : TargetedConnector ε}
    (sound : SoundBelow bound connector) (connectionID : UInt64) {call : Nat} (known : call < bound) :
    SoundBelow bound { connector with sessions := connector.sessions ++ [⟨connectionID, call⟩] } where
  conns attempt member := by
    have inside := sound.conns attempt member
    simp only [List.length_append, List.length_singleton]
    omega
  distinct := sound.distinct
  attempts := sound.attempts
  connecting := sound.connecting
  sessions session member := by
    rcases List.mem_append.mp member with earlier | last
    · exact sound.sessions session earlier
    · rw [List.mem_singleton.mp last]
      exact known
  reports := sound.reports

theorem SoundBelow.startConnect {bound : Nat} {connector : TargetedConnector ε}
    (sound : SoundBelow bound connector) (sessionOpens : Bool) (endpoint : ε) (remainCnt : UInt16)
    (connectionID : UInt64) {call : Nat} (known : call < bound) :
    SoundBelow bound (connector.startConnect sessionOpens endpoint remainCnt connectionID call) := by
  have created := sound.created connectionID known
  cases sessionOpens with
  | false => exact created
  | true =>
      have inside := sound.conns
      refine ⟨?_, ?_, ?_, created.connecting, created.sessions, created.reports⟩
      · intro attempt member
        rcases List.mem_append.mp member with earlier | last
        · exact created.conns attempt earlier
        · rw [List.mem_singleton.mp last]
          simp [TargetedConnector.startConnect, TargetedConnector.createConnectSession]
      · intro attempt member other otherMember same
        rcases List.mem_append.mp member with earlier | last
        · rcases List.mem_append.mp otherMember with otherEarlier | otherLast
          · exact sound.distinct attempt earlier other otherEarlier same
          · rw [List.mem_singleton.mp otherLast] at same
            exact absurd same (Nat.ne_of_lt (inside attempt earlier))
        · rcases List.mem_append.mp otherMember with otherEarlier | otherLast
          · rw [List.mem_singleton.mp last] at same
            exact absurd same (Nat.ne_of_gt (inside other otherEarlier))
          · rw [List.mem_singleton.mp last, List.mem_singleton.mp otherLast]
      · intro attempt member
        rcases List.mem_append.mp member with earlier | last
        · exact sound.attempts attempt earlier
        · rw [List.mem_singleton.mp last]
          exact known

theorem SoundBelow.reported {bound : Nat} {connector : TargetedConnector ε}
    (sound : SoundBelow bound connector) (report : ConnectorReport) (known : report.call < bound) :
    SoundBelow bound { connector with log := connector.log ++ [report] } where
  conns := sound.conns
  distinct := sound.distinct
  attempts := sound.attempts
  connecting := sound.connecting
  sessions := sound.sessions
  reports other member := by
    rcases List.mem_append.mp member with earlier | last
    · exact sound.reports other earlier
    · rw [List.mem_singleton.mp last]
      exact known

theorem SoundBelow.finish {bound : Nat} {connector : TargetedConnector ε}
    (sound : SoundBelow bound connector) (conn : Nat) : SoundBelow bound (connector.finish conn) where
  conns attempt member := sound.conns attempt (List.mem_of_mem_filter member)
  distinct attempt member other otherMember :=
    sound.distinct attempt (List.mem_of_mem_filter member) other (List.mem_of_mem_filter otherMember)
  attempts attempt member := sound.attempts attempt (List.mem_of_mem_filter member)
  connecting := sound.connecting
  sessions := sound.sessions
  reports := sound.reports

theorem attemptFor_mem {connector : TargetedConnector ε} {conn : Nat} {attempt : SessionAttempt ε}
    (found : connector.attemptFor conn = some attempt) :
    connector.connecting = none ∧ attempt ∈ connector.attempts ∧ attempt.conn = conn := by
  unfold TargetedConnector.attemptFor at found
  split at found
  · rename_i idle
    exact ⟨idle, List.mem_of_find?_eq_some found, by simpa using List.find?_some found⟩
  · cases found

theorem calls_startConnect (sessionOpens : Bool) (endpoint : ε) (remainCnt : UInt16)
    (connectionID : UInt64) (call : Nat) (connector : TargetedConnector ε) :
    (connector.startConnect sessionOpens endpoint remainCnt connectionID call).calls = connector.calls := by
  cases sessionOpens with
  | false => rfl
  | true => rfl

/-- The numbers given out never decrease. -/
theorem calls_step (connector : TargetedConnector ε) (label : ConnectorLabel ε) :
    connector.calls ≤ (connector.step label).calls := by
  cases label with
  | setTargetServer addr port => exact Nat.le_refl _
  | connectWait resolve sessionOpens sessionCnt connectionID => exact Nat.le_succ _
  | connect resolve sessionOpens connects => exact Nat.le_succ _
  | connectFailed conn =>
      simp only [TargetedConnector.step]
      split
      · exact Nat.le_refl _
      · exact Nat.le_refl _
  | connected conn startThrows =>
      simp only [TargetedConnector.step]
      split
      · exact Nat.le_refl _
      · split
        · exact Nat.le_refl _
        · exact Nat.le_refl _
  | handlerEnds sessionOpens =>
      simp only [TargetedConnector.step]
      split
      · exact Nat.le_refl _
      · split
        · rw [calls_startConnect]
        · exact Nat.le_refl _

theorem connectImplement_sound {bound : Nat} {connector : TargetedConnector ε}
    (sound : SoundBelow bound connector) (known : connector.calls < bound) (resolve : Resolve ε)
    (sessionOpens : Bool) (addr port : String) (sessionCnt : UInt16) (connectionID : UInt64) :
    SoundBelow bound
      (connector.connectImplement resolve sessionOpens addr port sessionCnt connectionID) := by
  rw [TargetedConnector.connectImplement_eq]
  cases (connector.setEndPoint resolve addr port).1 with
  | none => exact sound.of_same rfl rfl rfl rfl
  | some endpoint =>
      apply SoundBelow.startConnect
      · exact sound.of_same rfl rfl rfl rfl
      · exact known

theorem connectImplementSync_sound {bound : Nat} {connector : TargetedConnector ε}
    (sound : SoundBelow bound connector) (known : connector.calls < bound) (resolve : Resolve ε)
    (sessionOpens connects : Bool) (addr port : String) (connectionID : UInt64) :
    SoundBelow bound
      (connector.connectImplementSync resolve sessionOpens connects addr port connectionID) := by
  rw [TargetedConnector.connectImplementSync_eq]
  cases (connector.setEndPoint resolve addr port).1 with
  | none => exact sound.of_same rfl rfl rfl rfl
  | some endpoint =>
      have created := sound.created connectionID known
      have reported := created.reported ⟨connector.calls, connector.sessions.length, true⟩ known
      by_cases notified : (sessionOpens && connects) = true
      · exact reported.of_same rfl rfl rfl (if_pos notified)
      · exact created.of_same rfl rfl rfl (if_neg notified)

theorem sound_step {connector : TargetedConnector ε} (sound : Sound connector)
    (label : ConnectorLabel ε) : Sound (connector.step label) := by
  cases label with
  | setTargetServer addr port => exact sound.of_same rfl rfl rfl rfl
  | connectWait resolve sessionOpens sessionCnt connectionID =>
      have later := connectImplement_sound (SoundBelow.mono sound (Nat.le_succ _)) (Nat.lt_succ_self _) resolve
        sessionOpens connector.targetAddr connector.targetPort sessionCnt connectionID
      exact later.of_same rfl rfl rfl rfl
  | connect resolve sessionOpens connects =>
      have later := connectImplementSync_sound (SoundBelow.mono sound (Nat.le_succ _)) (Nat.lt_succ_self _)
        resolve sessionOpens connects connector.targetAddr connector.targetPort 0
      exact later.of_same rfl rfl rfl rfl
  | connectFailed conn =>
      simp only [TargetedConnector.step]
      split
      · exact sound
      · rename_i attempt found
        obtain ⟨-, member, -⟩ := attemptFor_mem found
        have known := sound.attempts attempt member
        exact (sound.finish conn).reported ⟨attempt.call, conn, false⟩ known
  | connected conn startThrows =>
      simp only [TargetedConnector.step]
      split
      · exact sound
      · rename_i attempt found
        obtain ⟨-, member, -⟩ := attemptFor_mem found
        have known := sound.attempts attempt member
        have finished := sound.finish conn
        split
        · exact finished
        · have later := finished.reported ⟨attempt.call, conn, true⟩ known
          refine ⟨later.conns, later.distinct, later.attempts, ?_, later.sessions, later.reports⟩
          intro other same
          cases same
          exact known
  | handlerEnds sessionOpens =>
      simp only [TargetedConnector.step]
      split
      · exact sound
      · rename_i attempt running
        have known := sound.connecting attempt running
        have idle : Sound { connector with connecting := none } :=
          ⟨sound.conns, sound.distinct, sound.attempts, by nofun, sound.sessions, sound.reports⟩
        split
        · unfold Sound
          rw [calls_startConnect]
          exact SoundBelow.startConnect idle sessionOpens _ _ 0 known
        · exact idle

/-! ### What belongs to a call -/

/-- What belongs to one call: its connections with their identities, its outstanding attempts, the attempt
    whose handler is running, and its notifications. -/
@[ext] structure CallView (ε : Type) where
  made : List (Nat × UInt64)
  attempts : List (SessionAttempt ε)
  connecting : Option (SessionAttempt ε)
  reports : List ConnectorReport

/-- The connections of a call among those created. -/
def madeFor (call : Nat) (sessions : List Session) : List (Nat × UInt64) :=
  (sessions.zipIdx.filter fun numbered => numbered.1.call = call).map fun numbered =>
    (numbered.2, numbered.1.connectionID)

def viewOf (call : Nat) (connector : TargetedConnector ε) : CallView ε where
  made := madeFor call connector.sessions
  attempts := connector.attempts.filter fun attempt => attempt.call = call
  connecting := connector.connecting.filter fun attempt => attempt.call = call
  reports := reportsOf call connector

theorem madeFor_append (call : Nat) (sessions : List Session) (session : Session) :
    madeFor call (sessions ++ [session]) =
      madeFor call sessions ++
        if session.call = call then [(sessions.length, session.connectionID)] else [] := by
  unfold madeFor
  rw [List.zipIdx_append, List.filter_append, List.map_append]
  by_cases own : session.call = call
  · simp [own]
  · simp [own]

/-- What is made for another call is not part of the view. -/
theorem viewOf_startConnect_other {call other : Nat} (different : other ≠ call) (sessionOpens : Bool)
    (endpoint : ε) (remainCnt : UInt16) (connectionID : UInt64) (connector : TargetedConnector ε) :
    viewOf call (connector.startConnect sessionOpens endpoint remainCnt connectionID other) =
      viewOf call connector := by
  have made : madeFor call (connector.sessions ++ [⟨connectionID, other⟩]) =
      madeFor call connector.sessions := by
    rw [madeFor_append, if_neg different, List.append_nil]
  cases sessionOpens with
  | false => simp [viewOf, TargetedConnector.startConnect, TargetedConnector.createConnectSession, made,
      reportsOf]
  | true => simp [viewOf, TargetedConnector.startConnect, TargetedConnector.createConnectSession, made,
      reportsOf, different]

theorem viewOf_startConnect_own (call : Nat) (endpoint : ε) (remainCnt : UInt16) (connectionID : UInt64)
    (connector : TargetedConnector ε) :
    viewOf call (connector.startConnect true endpoint remainCnt connectionID call) =
      { viewOf call connector with
        made := (viewOf call connector).made ++ [(connector.sessions.length, connectionID)]
        attempts := (viewOf call connector).attempts ++
          [⟨connector.sessions.length, endpoint, remainCnt, call⟩] } := by
  simp [viewOf, TargetedConnector.startConnect, TargetedConnector.createConnectSession, madeFor_append,
    reportsOf]

theorem viewOf_connectImplement_other {call : Nat} {connector : TargetedConnector ε}
    (different : connector.calls ≠ call) (resolve : Resolve ε) (sessionOpens : Bool) (addr port : String)
    (sessionCnt : UInt16) (connectionID : UInt64) :
    viewOf call (connector.connectImplement resolve sessionOpens addr port sessionCnt connectionID) =
      viewOf call connector := by
  rw [TargetedConnector.connectImplement_eq]
  cases (connector.setEndPoint resolve addr port).1 with
  | none => rfl
  | some endpoint =>
      rw [viewOf_startConnect_other different]
      rfl

theorem viewOf_connectImplementSync_other {call : Nat} {connector : TargetedConnector ε}
    (different : connector.calls ≠ call) (resolve : Resolve ε) (sessionOpens connects : Bool)
    (addr port : String) (connectionID : UInt64) :
    viewOf call (connector.connectImplementSync resolve sessionOpens connects addr port connectionID) =
      viewOf call connector := by
  rw [TargetedConnector.connectImplementSync_eq]
  cases (connector.setEndPoint resolve addr port).1 with
  | none => rfl
  | some endpoint =>
      apply CallView.ext
      · change madeFor call (connector.sessions ++ [_]) = madeFor call connector.sessions
        rw [madeFor_append, if_neg different, List.append_nil]
      · rfl
      · rfl
      · simp only [viewOf, reportsOf]
        split
        · simp [different]
        · rfl

/-- The attempts of a call are still there when one of another call is over. -/
theorem finish_other {call conn : Nat} {connector : TargetedConnector ε} {attempt : SessionAttempt ε}
    (sound : Sound connector) (found : connector.attemptFor conn = some attempt)
    (different : attempt.call ≠ call) :
    (connector.finish conn).attempts.filter (fun attempt => attempt.call = call) =
      connector.attempts.filter fun attempt => attempt.call = call := by
  obtain ⟨-, member, rfl⟩ := attemptFor_mem found
  unfold TargetedConnector.finish
  rw [List.filter_filter]
  apply List.filter_congr
  intro other otherMember
  by_cases own : other.call = call
  · have apart : other.conn ≠ attempt.conn := by
      intro same
      exact different ((sound.distinct other otherMember attempt member same).symm.trans own)
    simp [own, apart]
  · simp [own]

/-- A label that does not belong to a call leaves everything that belongs to the call alone. -/
theorem viewOf_step_other {call : Nat} {connector : TargetedConnector ε} {label : ConnectorLabel ε}
    (sound : Sound connector) (other : subject connector label ≠ some call) :
    viewOf call (connector.step label) = viewOf call connector := by
  cases label with
  | setTargetServer addr port => rfl
  | connectWait resolve sessionOpens sessionCnt connectionID =>
      have different : connector.calls ≠ call := fun same => other (congrArg some same)
      exact viewOf_connectImplement_other different resolve sessionOpens _ _ sessionCnt connectionID
  | connect resolve sessionOpens connects =>
      have different : connector.calls ≠ call := fun same => other (congrArg some same)
      exact viewOf_connectImplementSync_other different resolve sessionOpens connects _ _ 0
  | connectFailed conn =>
      rw [subject] at other
      simp only [TargetedConnector.step]
      split
      · rfl
      · rename_i attempt found
        have different : attempt.call ≠ call := by
          intro same
          rw [found] at other
          exact other (congrArg some same)
        apply CallView.ext
        · rfl
        · exact finish_other sound found different
        · rfl
        · simp [viewOf, reportsOf, TargetedConnector.finish, different]
  | connected conn startThrows =>
      rw [subject] at other
      simp only [TargetedConnector.step]
      split
      · rfl
      · rename_i attempt found
        have different : attempt.call ≠ call := by
          intro same
          rw [found] at other
          exact other (congrArg some same)
        have attempts := finish_other sound found different
        obtain ⟨idle, -, -⟩ := attemptFor_mem found
        split
        · apply CallView.ext
          · rfl
          · exact attempts
          · rfl
          · rfl
        · apply CallView.ext
          · rfl
          · exact attempts
          · simp [viewOf, idle, Option.filter, different]
          · simp [viewOf, reportsOf, TargetedConnector.finish, different]
  | handlerEnds sessionOpens =>
      rw [subject] at other
      simp only [TargetedConnector.step]
      split
      · rfl
      · rename_i attempt running
        have different : attempt.call ≠ call := by
          intro same
          rw [running] at other
          exact other (congrArg some same)
        have idle : viewOf call { connector with connecting := none } = viewOf call connector := by
          simp [viewOf, running, Option.filter, different, reportsOf]
        split
        · rw [viewOf_startConnect_other different]
          exact idle
        · exact idle

/-- The only attempt of a call is over. -/
theorem finish_own {call conn : Nat} {connector : TargetedConnector ε} {attempt only : SessionAttempt ε}
    (found : connector.attemptFor conn = some attempt) (own : attempt.call = call)
    (alone : (viewOf call connector).attempts = [only]) :
    attempt = only ∧ (connector.finish conn).attempts.filter (fun attempt => attempt.call = call) = [] := by
  obtain ⟨-, member, rfl⟩ := attemptFor_mem found
  have inView : attempt ∈ (viewOf call connector).attempts := by
    apply List.mem_filter.mpr
    exact ⟨member, decide_eq_true own⟩
  rw [alone] at inView
  obtain rfl := List.mem_singleton.mp inView
  refine ⟨rfl, ?_⟩
  have commuted : (connector.finish attempt.conn).attempts.filter (fun attempt => attempt.call = call) =
      (viewOf call connector).attempts.filter fun other => other.conn ≠ attempt.conn :=
    List.filter_comm _ _ _
  rw [commuted, alone]
  simp

theorem viewOf_connectFailed {call conn : Nat} {connector : TargetedConnector ε}
    {attempt only : SessionAttempt ε} (found : connector.attemptFor conn = some attempt)
    (own : attempt.call = call) (alone : (viewOf call connector).attempts = [only]) :
    viewOf call (connector.step (.connectFailed conn)) =
      { viewOf call connector with
        attempts := []
        reports := (viewOf call connector).reports ++ [⟨call, conn, false⟩] } := by
  simp only [TargetedConnector.step, found]
  apply CallView.ext
  · rfl
  · exact (finish_own found own alone).2
  · rfl
  · simp [viewOf, reportsOf, TargetedConnector.finish, own]

theorem viewOf_connected {call conn : Nat} {connector : TargetedConnector ε}
    {attempt only : SessionAttempt ε} (found : connector.attemptFor conn = some attempt)
    (own : attempt.call = call) (alone : (viewOf call connector).attempts = [only]) :
    viewOf call (connector.step (.connected conn false)) =
      { viewOf call connector with
        attempts := []
        connecting := some only
        reports := (viewOf call connector).reports ++ [⟨call, only.conn, true⟩] } := by
  obtain ⟨same, attempts⟩ := finish_own found own alone
  obtain ⟨-, -, conns⟩ := attemptFor_mem found
  subst same
  simp only [TargetedConnector.step, found, Bool.false_eq_true, if_false]
  apply CallView.ext
  · rfl
  · exact attempts
  · simp [viewOf, Option.filter, own]
  · simp [viewOf, reportsOf, TargetedConnector.finish, own, conns]

/-! ### The connections of a call -/

theorem madeFor_length (call : Nat) (sessions : List Session) :
    (madeFor call sessions).length = (sessions.filter fun session => session.call = call).length := by
  have sessionsAgain : (sessions.zipIdx.map Prod.fst).filter (fun session => session.call = call) =
      sessions.filter fun session => session.call = call := by
    rw [List.zipIdx_map_fst]
  rw [← sessionsAgain, List.filter_map, List.length_map, madeFor, List.length_map]
  rfl

/-- Connections are numbered one after the other. -/
theorem madeFor_distinct (call : Nat) (sessions : List Session) :
    ((madeFor call sessions).map Prod.fst).Nodup := by
  have numbers : ((sessions.zipIdx.map Prod.snd)).Nodup := by
    rw [List.zipIdx_map_snd]
    exact List.nodup_range'
  have chosen : (madeFor call sessions).map Prod.fst =
      (sessions.zipIdx.filter fun numbered => numbered.1.call = call).map Prod.snd := by
    unfold madeFor
    rw [List.map_map]
    rfl
  rw [chosen]
  exact numbers.sublist (List.filter_sublist.map Prod.snd)

theorem getConnectionID_of_made {call : Nat} {connector : TargetedConnector ε} {made : Nat × UInt64}
    (member : made ∈ (viewOf call connector).made) :
    connector.getConnectionID made.1 = some made.2 := by
  obtain ⟨⟨session, conn⟩, inside, rfl⟩ := List.mem_map.mp member
  have there := List.mk_mem_zipIdx_iff_getElem?.mp (List.mem_of_mem_filter inside)
  rw [TargetedConnector.getConnectionID, there]
  rfl

/-- Nothing belongs to a call that has not been made yet. -/
theorem viewOf_next {connector : TargetedConnector ε} (sound : Sound connector) :
    viewOf connector.calls connector = ⟨[], [], none, []⟩ := by
  apply CallView.ext
  · change madeFor connector.calls connector.sessions = []
    apply List.eq_nil_of_length_eq_zero
    rw [madeFor_length, List.length_eq_zero_iff, List.filter_eq_nil_iff]
    intro session member
    simpa using Nat.ne_of_lt (sound.sessions session member)
  · apply List.filter_eq_nil_iff.mpr
    intro attempt member
    simpa using Nat.ne_of_lt (sound.attempts attempt member)
  · cases running : connector.connecting with
    | none => simp [viewOf, running]
    | some attempt =>
        have before := Nat.ne_of_lt (sound.connecting attempt running)
        simp [viewOf, running, Option.filter, before]
  · apply List.filter_eq_nil_iff.mpr
    intro report member
    simpa using Nat.ne_of_lt (sound.reports report member)

end LobbySvr.Proofs
