/-
Module: LobbySvr.Proofs.PendingDispatches
Layer: Proofs
Purpose: The counter of pending dispatches.  A read that succeeds posts a dispatch and adds one; the dispatch
  takes one off behind its parser, and takes nothing off when the connection is no longer open by the
  time it runs.  So the counter is the number of queued dispatches in exactly those runs where every
  dispatch finds the connection open and its parser returns.
Imports: LobbySvr.Proofs.ConnectionSteps, LobbySvr.Lobby.PacketParserJson
Trusted boundary: none
Main exports: queuedDispatches, PendingExact, CountsDispatches, KeepsCount, Counted, step_counted,
  countsDispatches_iff
Open obligations: none
-/
import LobbySvr.Proofs.ConnectionSteps
import LobbySvr.Lobby.PacketParserJson

namespace LobbySvr.Proofs

open LobbySvr.Foundation
open LobbySvr.Net
open LobbySvr.Lobby

variable {κ ε : Type} {procedure : MessageProcedure κ ε}

/-- Whether a queued handler is a posted dispatch. -/
def isDispatch : Handler → Bool
  | .dispatch _ => true
  | _ => false

/-- The dispatches that have been posted and have not run. -/
def queuedDispatches (conn : ConnectionImpl κ) : Nat := conn.strand.countP isDispatch

/-- `_readHandlerPending` is the number of queued dispatches. -/
def PendingExact (conn : ConnectionImpl κ) : Prop :=
  conn.readHandlerPending.toNat = queuedDispatches conn

/-- What the counter promises of a step.  The retry branch of `read_handler` counts itself first. -/
structure CountsDispatches (procedure : MessageProcedure κ ε) (conn : ConnectionImpl κ)
    (label : Label ε) : Prop where
  exact : PendingExact (nextState procedure conn label)
  noRetry : queuedDispatches conn = 0 →
    (nextState procedure conn label).postRetryCount = conn.postRetryCount
  noWrap : (nextState procedure conn label).readHandlerPending = conn.readHandlerPending - 1 →
    conn.readHandlerPending ≠ 0

/-- What a step needs for that: a dispatch is run on an open connection and its parser returns, and a read
    is counted while the counter has room. -/
def KeepsCount (procedure : MessageProcedure κ ε) (conn : ConnectionImpl κ) (label : Label ε) : Prop :=
  match handlerRun conn label with
  | some (.dispatch msg, surroundings) =>
      conn.status = .opened ∧
        ∃ result, (procedure.packetParsingFunction surroundings msg).ending = .returned result
  | some (.readHandler ec chunk, _) =>
      ec = noError → (∃ msgRecv, conn.msg.fill chunk = .ok msgRecv) →
        conn.readHandlerPending ≠ 4294967295
  | _ => True

/-! ### What a step does to the counter and to the queue -/

/-- The ways in which a step moves the counter and the number of queued dispatches. -/
inductive Counted (procedure : MessageProcedure κ ε) (conn : ConnectionImpl κ) (label : Label ε)
    (later : ConnectionImpl κ) : Prop where
  | neither (counter : later.readHandlerPending = conn.readHandlerPending)
      (queued : queuedDispatches later = queuedDispatches conn) (keeps : KeepsCount procedure conn label)
  | posted (counter : later.readHandlerPending = conn.readHandlerPending + 1)
      (queued : queuedDispatches later = queuedDispatches conn + 1)
      (keeps : KeepsCount procedure conn label ↔ conn.readHandlerPending ≠ 4294967295)
  | finished (counter : later.readHandlerPending = conn.readHandlerPending - 1)
      (queued : queuedDispatches conn = queuedDispatches later + 1)
      (keeps : KeepsCount procedure conn label)
  | lost (counter : later.readHandlerPending = conn.readHandlerPending)
      (queued : queuedDispatches conn = queuedDispatches later + 1)
      (misses : ¬ KeepsCount procedure conn label)

theorem keepsCount_of_none {conn : ConnectionImpl κ} {label : Label ε}
    (ran : handlerRun conn label = none) : KeepsCount procedure conn label := by
  rw [KeepsCount, ran]
  trivial

theorem OnlyTimers.queuedDispatches {conn later : ConnectionImpl κ} (timers : OnlyTimers conn later) :
    queuedDispatches later = queuedDispatches conn :=
  timers.countP rfl rfl

/-- One more dispatch in the strand. -/
theorem queuedDispatches_posted {conn later : ConnectionImpl κ} {msg : MessageBuffer}
    (strand : later.strand = conn.strand ++ [.dispatch msg]) :
    queuedDispatches later = queuedDispatches conn + 1 := by
  rw [queuedDispatches, queuedDispatches, strand, List.countP_append]
  rfl

/-- One more handler that is no dispatch. -/
theorem queuedDispatches_queued {conn later : ConnectionImpl κ} {handler : Handler}
    (strand : later.strand = conn.strand ++ [handler]) (notDispatch : isDispatch handler = false) :
    queuedDispatches later = queuedDispatches conn := by
  rw [queuedDispatches, queuedDispatches, strand, List.countP_append, List.countP_singleton, notDispatch]
  rfl

/-- A dispatch taken out of the strand. -/
theorem queuedDispatches_ran {conn : ConnectionImpl κ} {index : Nat} {msg : MessageBuffer}
    {others : List Handler} (picked : pick index conn.strand = some (.dispatch msg, others)) :
    queuedDispatches conn = queuedDispatches { conn with strand := others } + 1 :=
  pick_countP picked isDispatch

/-- A handler that is no dispatch taken out of the strand. -/
theorem queuedDispatches_taken {conn : ConnectionImpl κ} {index : Nat} {handler : Handler}
    {others : List Handler} (picked : pick index conn.strand = some (handler, others))
    (notDispatch : isDispatch handler = false) :
    queuedDispatches { conn with strand := others } = queuedDispatches conn := by
  have counted := pick_countP picked isDispatch
  rw [notDispatch] at counted
  exact counted.symm

/-- A handler that is neither a dispatch nor a read that succeeded keeps both. -/
theorem keepsCount_of_other {conn : ConnectionImpl κ} {label : Label ε} {handler : Handler}
    {surroundings : ε} (ran : handlerRun conn label = some (handler, surroundings))
    (notDispatch : isDispatch handler = false)
    (notRead : ∀ chunk, handler = .readHandler noError chunk →
      ∀ msgRecv, conn.msg.fill chunk ≠ .ok msgRecv) :
    KeepsCount procedure conn label := by
  rw [KeepsCount, ran]
  cases handler with
  | dispatch msg => cases notDispatch
  | readHandler ec chunk =>
      rintro rfl ⟨msgRecv, filled⟩
      exact absurd filled (notRead chunk rfl msgRecv)
  | writeHandler ec => trivial
  | close => trivial
  | onExpireTime ec => trivial
  | onCloseReserveTime ec => trivial

theorem AsksClose.notDispatch {conn : ConnectionImpl κ} {handler : Handler}
    (asked : AsksClose conn handler) : isDispatch handler = false := by
  rcases asked with rfl | ⟨rfl, _⟩
  · rfl
  · rfl

theorem AsksClose.notRead {conn : ConnectionImpl κ} {handler : Handler} (asked : AsksClose conn handler)
    (chunk : List UInt8) : handler ≠ .readHandler noError chunk := by
  rcases asked with rfl | ⟨rfl, _⟩
  · nofun
  · nofun

theorem Failed.notDispatch {handler : Handler} (failed : Failed handler) : isDispatch handler = false := by
  obtain ⟨ec, _, rfl | ⟨chunk, rfl⟩⟩ := failed
  · rfl
  · rfl

theorem Failed.notRead {handler : Handler} (failed : Failed handler) (chunk : List UInt8) :
    handler ≠ .readHandler noError chunk := by
  obtain ⟨ec, error, rfl | ⟨_, rfl⟩⟩ := failed
  · nofun
  · intro same
    cases same
    exact error rfl

theorem MayIdle.notDispatch {handler : Handler} (idle : MayIdle handler) : isDispatch handler = false := by
  rcases idle with rfl | ⟨ec, rfl⟩ | ⟨ec, rfl⟩
  · rfl
  · rfl
  · rfl

theorem MayIdle.notRead {handler : Handler} (idle : MayIdle handler) (chunk : List UInt8) :
    handler ≠ .readHandler noError chunk := by
  rcases idle with rfl | ⟨_, rfl⟩ | ⟨_, rfl⟩
  · nofun
  · nofun
  · nofun

/-- A handler that posts no dispatch and is none. -/
theorem counted_other {conn later : ConnectionImpl κ} {label : Label ε} {index : Nat} {handler : Handler}
    {others : List Handler} {surroundings : ε}
    (picked : pick index conn.strand = some (handler, others))
    (ran : handlerRun conn label = some (handler, surroundings))
    (notDispatch : isDispatch handler = false)
    (notRead : ∀ chunk, handler = .readHandler noError chunk →
      ∀ msgRecv, conn.msg.fill chunk ≠ .ok msgRecv)
    (counter : later.readHandlerPending = conn.readHandlerPending)
    (queued : queuedDispatches later = queuedDispatches { conn with strand := others }) :
    Counted procedure conn label later := by
  refine .neither counter ?_ (keepsCount_of_other ran notDispatch notRead)
  rw [queued, queuedDispatches_taken picked notDispatch]

/-- The same for a handler that is no read that succeeded either. -/
theorem counted_quiet {conn later : ConnectionImpl κ} {label : Label ε} {index : Nat} {handler : Handler}
    {others : List Handler} {surroundings : ε}
    (picked : pick index conn.strand = some (handler, others))
    (ran : handlerRun conn label = some (handler, surroundings))
    (notDispatch : isDispatch handler = false)
    (notRead : ∀ chunk, handler ≠ .readHandler noError chunk)
    (counter : later.readHandlerPending = conn.readHandlerPending)
    (queued : queuedDispatches later = queuedDispatches { conn with strand := others }) :
    Counted procedure conn label later := by
  apply counted_other picked ran notDispatch _ counter queued
  intro chunk same
  exact absurd same (notRead chunk)

/-- One handler, by the list of what it can do. -/
theorem ran_counted {shutdownOk : Bool} {conn later : ConnectionImpl κ} {label : Label ε} {index : Nat}
    {handler : Handler} {others : List Handler} {surroundings : ε}
    (picked : pick index conn.strand = some (handler, others))
    (run : handlerRun conn label = some (handler, surroundings))
    (ran : Ran procedure shutdownOk surroundings handler { conn with strand := others } later) :
    Counted procedure conn label later := by
  cases ran with
  | reads isRead filled timers =>
      subst isRead
      refine .posted timers.same.readHandlerPending ?_ ?_
      · rw [timers.queuedDispatches, ← queuedDispatches_taken picked rfl]
        exact queuedDispatches_posted rfl
      · rw [KeepsCount, run]
        constructor
        · intro keeps
          exact keeps rfl ⟨_, filled⟩
        · intro room _ _
          exact room
  | overruns isRead filled =>
      subst isRead
      refine counted_other picked run rfl ?_ rfl rfl
      intro chunk same msgRecv stored
      cases same
      cases filled.symm.trans stored
  | retries isRead failed pending =>
      subst isRead
      refine counted_other picked run rfl ?_ rfl ?_
      · intro chunk same
        cases same
        exact absurd rfl failed
      · exact queuedDispatches_queued rfl rfl
  | beginsClosing failed shutdown opened timers =>
      exact counted_quiet picked run failed.notDispatch failed.notRead timers.same.readHandlerPending
        timers.queuedDispatches
  | staysAsItWas failed reason timers =>
      exact counted_quiet picked run failed.notDispatch failed.notRead timers.same.readHandlerPending
        timers.queuedDispatches
  | parses isDispatch opened returned =>
      subst isDispatch
      refine .finished rfl (queuedDispatches_ran picked) ?_
      rw [KeepsCount, run]
      exact ⟨opened, _, returned⟩
  | raises isDispatch opened raised =>
      subst isDispatch
      refine .lost rfl (queuedDispatches_ran picked) ?_
      rw [KeepsCount, run]
      rintro ⟨_, result, returned⟩
      rw [raised] at returned
      cases returned
  | drops isDispatch notOpened =>
      subst isDispatch
      refine .lost rfl (queuedDispatches_ran picked) ?_
      rw [KeepsCount, run]
      rintro ⟨opened, _⟩
      exact notOpened opened
  | closes asked shutdown timers =>
      exact counted_quiet picked run asked.notDispatch asked.notRead timers.same.readHandlerPending
        timers.queuedDispatches
  | closeFails asked failed =>
      exact counted_quiet picked run asked.notDispatch asked.notRead rfl rfl
  | expires isExpiry opened =>
      subst isExpiry
      exact counted_quiet picked run rfl nofun rfl rfl
  | idles idle timers =>
      exact counted_quiet picked run idle.notDispatch idle.notRead timers.same.readHandlerPending
        timers.queuedDispatches

/-- Every step, by the list of what it can do. -/
theorem step_counted {conn later : ConnectionImpl κ} {label : Label ε}
    (taken : conn.step procedure label = some later) : Counted procedure conn label later := by
  obtain ⟨running, took⟩ := step_took taken
  cases took with
  | arrives isRead readable =>
      subst isRead
      exact .neither rfl (queuedDispatches_queued rfl rfl) (keepsCount_of_none rfl)
  | breaksOff isRead reading error =>
      subst isRead
      exact .neither rfl (queuedDispatches_queued rfl rfl) (keepsCount_of_none rfl)
  | sends isSend => exact .neither rfl rfl (keepsCount_of_none (isSend.handlerRun conn))
  | refuses isSend => exact .neither rfl rfl (keepsCount_of_none (isSend.handlerRun conn))
  | transfers isTransfer outstanding usable =>
      subst isTransfer
      exact .neither rfl rfl (keepsCount_of_none rfl)
  | finishes isDone picked =>
      subst isDone
      exact .neither rfl (queuedDispatches_queued rfl rfl) (keepsCount_of_none rfl)
  | gives isFailure picked error =>
      subst isFailure
      exact .neither rfl (queuedDispatches_queued rfl rfl) (keepsCount_of_none rfl)
  | reserves isReserve timers =>
      subst isReserve
      exact .neither timers.same.readHandlerPending timers.queuedDispatches (keepsCount_of_none rfl)
  | expires isExpiry timers =>
      subst isExpiry
      refine .neither timers.same.readHandlerPending ?_ (keepsCount_of_none rfl)
      rw [timers.queuedDispatches]
      exact queuedDispatches_queued rfl rfl
  | reserveExpires isExpiry timers =>
      subst isExpiry
      refine .neither timers.same.readHandlerPending ?_ (keepsCount_of_none rfl)
      rw [timers.queuedDispatches]
      exact queuedDispatches_queued rfl rfl
  | queuesClose isPosted waiting =>
      subst isPosted
      exact .neither rfl (queuedDispatches_queued rfl rfl) (keepsCount_of_none rfl)
  | runs isRun picked ran =>
      subst isRun
      exact ran_counted picked (handlerRun_run running picked _ _) ran

/-! ### The retry branch -/

@[simp] theorem cancelKeepTimer_postRetryCount (conn : ConnectionImpl κ) :
    conn.cancelKeepTimer.postRetryCount = conn.postRetryCount := by
  unfold ConnectionImpl.cancelKeepTimer
  split <;> rfl

@[simp] theorem cancelCloseReserveTimer_postRetryCount (conn : ConnectionImpl κ) :
    conn.cancelCloseReserveTimer.postRetryCount = conn.postRetryCount := by
  unfold ConnectionImpl.cancelCloseReserveTimer
  split <;> rfl

@[simp] theorem renewExpireTime_postRetryCount (conn : ConnectionImpl κ) :
    conn.renewExpireTime.postRetryCount = conn.postRetryCount := by
  unfold ConnectionImpl.renewExpireTime
  split
  · rfl
  · exact cancelKeepTimer_postRetryCount conn

@[simp] theorem closing_postRetryCount (shutdownOk : Bool) (conn : ConnectionImpl κ) :
    (conn.closing shutdownOk).postRetryCount = conn.postRetryCount := by
  unfold ConnectionImpl.closing
  split
  · simp
  · rfl

@[simp] theorem close_postRetryCount (shutdownOk : Bool) (conn : ConnectionImpl κ) :
    (conn.close shutdownOk).postRetryCount = conn.postRetryCount := by
  unfold ConnectionImpl.close
  split
  · simp
  · rfl

theorem readHandler_postRetryCount {conn : ConnectionImpl κ} (noPending : conn.readHandlerPending = 0)
    (shutdownOk : Bool) (ec : ErrorCode) (chunk : List UInt8) :
    (conn.readHandler shutdownOk ec chunk).postRetryCount = conn.postRetryCount := by
  unfold ConnectionImpl.readHandler
  split
  · split
    · rfl
    · exact renewExpireTime_postRetryCount _
  · rw [if_neg]
    · exact closing_postRetryCount shutdownOk conn
    · rintro ⟨_, _, pending⟩
      rw [noPending] at pending
      exact absurd pending (UInt32.lt_irrefl 0)

theorem dispatch_postRetryCount (surroundings : ε) (msg : MessageBuffer) (conn : ConnectionImpl κ) :
    (conn.dispatch procedure surroundings msg).postRetryCount = conn.postRetryCount := by
  unfold ConnectionImpl.dispatch
  split
  · rfl
  · simp only
    split <;> rfl

/-- With nothing counted as pending no handler retries. -/
theorem runHandler_postRetryCount {conn : ConnectionImpl κ} (noPending : conn.readHandlerPending = 0)
    (shutdownOk : Bool) (surroundings : ε) (handler : Handler) :
    (ConnectionImpl.runHandler procedure shutdownOk surroundings handler conn).postRetryCount =
      conn.postRetryCount := by
  cases handler with
  | readHandler ec chunk => exact readHandler_postRetryCount noPending shutdownOk ec chunk
  | dispatch msg => exact dispatch_postRetryCount surroundings msg conn
  | writeHandler ec =>
      rw [ConnectionImpl.runHandler, ConnectionImpl.writeHandler]
      split
      · exact renewExpireTime_postRetryCount conn
      · exact closing_postRetryCount shutdownOk conn
  | close => exact close_postRetryCount shutdownOk conn
  | onExpireTime ec =>
      rw [ConnectionImpl.runHandler, ConnectionImpl.onExpireTime]
      split <;> rfl
  | onCloseReserveTime ec =>
      rw [ConnectionImpl.runHandler, ConnectionImpl.onCloseReserveTime]
      split
      · exact close_postRetryCount shutdownOk conn
      · rfl

/-- With nothing counted as pending no step retries. -/
theorem nextState_postRetryCount {conn : ConnectionImpl κ} (noPending : conn.readHandlerPending = 0)
    (label : Label ε) : (nextState procedure conn label).postRetryCount = conn.postRetryCount := by
  unfold nextState ConnectionImpl.step
  split
  · rfl
  · cases label with
    | run index shutdownOk surroundings =>
        simp only
        split
        · rfl
        · rename_i handler others _
          exact @runHandler_postRetryCount κ ε procedure { conn with strand := others } noPending shutdownOk
            surroundings handler
    | closeReserve => exact cancelCloseReserveTimer_postRetryCount conn
    | sendPacket sendBuffer =>
        simp only [ConnectionImpl.sendPacket, Option.getD_some]
        split <;> rfl
    | send msg => rfl
    | sendRaw sendBuffer => rfl
    | iosRuns => simp only; split <;> rfl
    | _ => simp only; repeat' (split <;> try rfl)

/-! ### Whole runs -/

/-- One more is counted unless the counter is at its largest value. -/
theorem counter_succ {counter : UInt32} (room : counter ≠ 4294967295) :
    (counter + 1).toNat = counter.toNat + 1 := by
  have bounded := counter.toNat_lt
  have notLargest : counter.toNat ≠ 4294967295 := by
    intro largest
    exact room (UInt32.toNat_inj.mp largest)
  rw [UInt32.toNat_add]
  change (counter.toNat + 1) % 2 ^ 32 = counter.toNat + 1
  omega

/-- One less is counted unless the counter is at zero. -/
theorem counter_pred {counter : UInt32} {rest : Nat} (some : counter.toNat = rest + 1) :
    (counter - 1).toNat = rest := by
  have atLeastOne : (1 : UInt32) ≤ counter := by
    rw [UInt32.le_iff_toNat_le, some]
    exact Nat.succ_le_succ (Nat.zero_le rest)
  rw [UInt32.toNat_sub_of_le _ _ atLeastOne, some]
  rfl

theorem counter_ne_pred (counter : UInt32) : counter ≠ counter - 1 := by grind

theorem counter_succ_ne_pred (counter : UInt32) : counter + 1 ≠ counter - 1 := by grind

/-- With no dispatch queued an exact counter is at zero. -/
theorem PendingExact.none_pending {conn : ConnectionImpl κ} (exact : PendingExact conn)
    (empty : queuedDispatches conn = 0) : conn.readHandlerPending = 0 :=
  UInt32.toNat_inj.mp (Eq.trans exact empty)

/-- Where the counter is exact, it stays exact exactly when the step has what it needs, and then it is not
    taken below zero. -/
theorem Counted.exact_iff {conn later : ConnectionImpl κ} {label : Label ε}
    (counted : Counted procedure conn label later) (exact : PendingExact conn) :
    (PendingExact later ↔ KeepsCount procedure conn label) ∧
      (later.readHandlerPending = conn.readHandlerPending - 1 → conn.readHandlerPending ≠ 0) := by
  unfold PendingExact at exact ⊢
  cases counted with
  | neither counter queued keeps =>
      rw [counter, queued]
      exact ⟨iff_of_true exact keeps, fun same => absurd same (counter_ne_pred _)⟩
  | posted counter queued keeps =>
      rw [counter, queued, keeps, ← exact]
      refine ⟨?_, fun same => absurd same (counter_succ_ne_pred _)⟩
      constructor
      · rintro counts full
        rw [full] at counts
        revert counts
        decide
      · exact counter_succ
  | finished counter queued keeps =>
      rw [queued] at exact
      rw [counter]
      refine ⟨iff_of_true (counter_pred exact) keeps, ?_⟩
      intro _ zero
      rw [zero] at exact
      cases exact
  | lost counter queued misses =>
      rw [counter, exact, queued]
      exact ⟨iff_of_false (Nat.succ_ne_self _) misses, fun same => absurd same (counter_ne_pred _)⟩

/-- Where the counter is exact, a step keeps what it promises exactly when it has what it needs. -/
theorem countsDispatches_iff {conn : ConnectionImpl κ} (exact : PendingExact conn) (label : Label ε) :
    CountsDispatches procedure conn label ↔ KeepsCount procedure conn label := by
  have noRetry : queuedDispatches conn = 0 →
      (nextState procedure conn label).postRetryCount = conn.postRetryCount :=
    fun empty => nextState_postRetryCount (exact.none_pending empty) label
  cases stepped : conn.step procedure label with
  | none =>
      have stays := nextState_none stepped
      have notRun : handlerRun conn label = none := by
        by_contra ran
        obtain ⟨⟨handler, surroundings⟩, ran⟩ := Option.ne_none_iff_exists'.mp ran
        obtain ⟨_, _, _, _, _, _, taken⟩ := handlerRun_step procedure ran
        cases stepped.symm.trans taken
      refine iff_of_true ⟨?_, noRetry, ?_⟩ (keepsCount_of_none notRun)
      · rw [stays]
        exact exact
      · rw [stays]
        exact fun same => absurd same (counter_ne_pred _)
  | some later =>
      have moves := nextState_some stepped
      obtain ⟨exactIff, noWrap⟩ := (step_counted stepped).exact_iff exact
      constructor
      · intro counts
        have exactLater := counts.exact
        rw [moves] at exactLater
        exact exactIff.mp exactLater
      · intro keeps
        constructor
        · rw [moves]
          exact exactIff.mpr keeps
        · exact noRetry
        · rw [moves]
          exact noWrap

/-- A connection starts with an exact counter: nothing is pending and nothing is queued. -/
theorem started_pendingExact (procedure : MessageProcedure κ ε) (keepAliveTime : Nat) (expired : Bool) :
    PendingExact (ConnectionImpl.started procedure keepAliveTime expired) := by
  have started := started_justStarted procedure keepAliveTime expired
  have empty : queuedDispatches (ConnectionImpl.started procedure keepAliveTime expired) = 0 := by
    rw [queuedDispatches, List.countP_eq_zero]
    intro handler member
    obtain ⟨ec, rfl⟩ := started.strand handler member
    simp [isDispatch]
  rw [PendingExact, started.readHandlerPending, empty]
  rfl

/-- The counter is exact at the start, and in every run each step keeps it so, retries no read while no
    dispatch is queued and takes nothing off at zero, exactly when in every step of the run a dispatch finds
    the connection open and its parser returns, and a read is counted while the counter has room. -/
theorem pending_exact_iff (procedure : MessageProcedure κ ε) (keepAliveTime : Nat) (expired : Bool)
    (labels : List (Label ε)) :
    PendingExact (ConnectionImpl.started procedure keepAliveTime expired) ∧
      (EveryStep (nextState procedure) (CountsDispatches procedure)
          (ConnectionImpl.started procedure keepAliveTime expired) labels ↔
        EveryStep (nextState procedure) (KeepsCount procedure)
          (ConnectionImpl.started procedure keepAliveTime expired) labels) := by
  have initially := started_pendingExact procedure keepAliveTime expired
  refine ⟨initially, everyStep_iff PendingExact ?_ ?_ initially labels⟩
  · intro conn label exact
    exact countsDispatches_iff exact label
  · intro conn label exact keeps
    exact ((countsDispatches_iff exact label).mpr keeps).exact

/-- A reserved close falls due just before a heartbeat is read.  The strand runs everything in posting order:
    the close, the read, and the dispatch, which finds the connection closed; the counter stays at one
    with nothing queued. -/
theorem close_before_read_miscounts :
    ¬ EveryStep (nextState (lobbyProcedure fun _ => some ())) (CountsDispatches (lobbyProcedure fun _ => some ()))
      (ConnectionImpl.started (lobbyProcedure fun _ => some ()) 15000 false)
      [.closeReserve, .closeReserveExpires, .readSome [5, 0, 0, 0, 1, 0, 0, 0, 3], .run 0 true (true, []),
        .run 0 true (true, []), .run 0 true (true, []), .run 0 true (true, []), .run 0 true (true, [])] := by
  rintro ⟨-, -, -, -, -, -, -, last, -⟩
  have exact := last.exact
  revert exact
  unfold PendingExact
  decide

end LobbySvr.Proofs
