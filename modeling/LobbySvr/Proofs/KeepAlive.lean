/-
Module: LobbySvr.Proofs.KeepAlive
Layer: Proofs
Purpose: The waits of the keep-alive timer.  Every call of `renewExpireTime` begins a wait and ends the one
  before it, but a wait that is over already stays in the strand with a success, and its handler asks for
  nothing but that success and an open connection.  So an older wait is reported exactly when a
  completion renews the time of an open connection while a successful expiry is queued.
Imports: LobbySvr.Proofs.ConnectionClose
Trusted boundary: none
Main exports: handlerRenews, renews, RenewsInTime, KeepAliveHistory, KeepAliveHistory.next, ReportsFor,
  ReportsLatest, step_strand, wait_begun, Numbered, Numbered.next, Numbered.renewsInTime
Open obligations: none
-/
import LobbySvr.Proofs.ConnectionClose

namespace LobbySvr.Proofs

open LobbySvr.Foundation
open LobbySvr.Net
open LobbySvr.Lobby

variable {κ ε : Type} {procedure : MessageProcedure κ ε}

/-- Whether a handler calls `renewExpireTime`: the completion of a read whose bytes have been stored, or of a
    write. -/
def handlerRenews (conn : ConnectionImpl κ) : Handler → Bool
  | .readHandler ec chunk => ec == noError && (conn.msg.fill chunk).isOk
  | .writeHandler ec => ec == noError
  | _ => false

/-- Whether a label runs such a handler. -/
def renews (conn : ConnectionImpl κ) (label : Label ε) : Bool :=
  match handlerRun conn label with
  | some (handler, _) => handlerRenews conn handler
  | none => false

/-- An open connection is renewed only while no successful expiry is queued. -/
def RenewsInTime (conn : ConnectionImpl κ) (label : Label ε) : Prop :=
  renews conn label = true → conn.status = .opened → .onExpireTime noError ∉ conn.strand

/-! ### Numbered waits -/

/-- A connection beside the numbers of its keep-alive waits.  The timer holds one wait, so an expiry comes
    from the wait that is the latest when it is queued. -/
structure KeepAliveHistory (κ : Type) where
  conn : ConnectionImpl κ
  /-- The latest wait: how often `renewExpireTime` has been called. -/
  armed : Nat
  /-- The handlers of the strand, each with the latest wait of the moment it was queued. -/
  queue : List (Handler × Nat)

/-- What a label leaves of a queue beside the strand. -/
def leftBy {α : Type} (label : Label ε) (queue : List α) : List α :=
  match label with
  | .run index _ _ =>
      match pick index queue with
      | some (_, others) => others
      | none => queue
  | _ => queue

namespace KeepAliveHistory

/-- The constructor has begun the first wait, and the start of the connection the second. -/
def started (procedure : MessageProcedure κ ε) (keepAliveTime : Nat) (expired : Bool) :
    KeepAliveHistory κ where
  conn := ConnectionImpl.started procedure keepAliveTime expired
  armed := 2
  queue := (ConnectionImpl.started procedure keepAliveTime expired).strand.map fun handler => (handler, 1)

def next (procedure : MessageProcedure κ ε) (history : KeepAliveHistory κ) (label : Label ε) :
    KeepAliveHistory κ :=
  match history.conn.step procedure label with
  | none => history
  | some later =>
      let left := leftBy label history.queue
      { conn := later
        armed := if renews history.conn label then history.armed + 1 else history.armed
        queue := left ++ (later.strand.drop left.length).map fun handler => (handler, history.armed) }

end KeepAliveHistory

/-- A step in which a handler calls `onExpiredSession`, with the wait the handler comes from. -/
def ReportsFor (procedure : MessageProcedure κ ε) (history : KeepAliveHistory κ) (label : Label ε)
    (wait : Nat) : Prop :=
  ∃ index shutdownOk surroundings handler others,
    label = .run index shutdownOk surroundings ∧
      pick index history.queue = some ((handler, wait), others) ∧
      (nextState procedure history.conn label).log = history.conn.log ++ [.onExpiredSession]

/-- Whatever the next step is, a call of `onExpiredSession` in it comes from the latest wait. -/
def ReportsLatest (procedure : MessageProcedure κ ε) (history : KeepAliveHistory κ) : Prop :=
  ∀ (label : Label ε) (wait : Nat), ReportsFor procedure history label wait → wait = history.armed

/-! ### What a step does to the strand -/

theorem leftBy_map {α β : Type} (label : Label ε) (image : α → β) (queue : List α) :
    leftBy label (queue.map image) = (leftBy label queue).map image := by
  cases label with
  | run index shutdownOk surroundings =>
      rw [leftBy, leftBy, pick_map]
      cases pick index queue with
      | none => rfl
      | some picked => rfl
  | _ => rfl

theorem leftBy_run {α : Type} {index : Nat} {queue others : List α} {chosen : α}
    (picked : pick index queue = some (chosen, others)) (shutdownOk : Bool) (surroundings : ε) :
    leftBy (.run index shutdownOk surroundings) queue = others := by
  rw [leftBy, picked]

theorem IsSend.leftBy {α : Type} {label : Label ε} (isSend : IsSend label) (queue : List α) :
    leftBy label queue = queue := by
  rcases isSend with ⟨_, rfl⟩ | ⟨_, rfl⟩ | ⟨_, rfl⟩
  · rfl
  · rfl
  · rfl

theorem not_aborted_expiry : ¬ Aborted (.onExpireTime noError) := by
  rintro (same | same)
  · cases same
  · cases same

/-- Behind timers no successful expiry has been added. -/
theorem OnlyTimers.noExpiry {conn later : ConnectionImpl κ} (timers : OnlyTimers conn later) :
    ∃ more, later.strand = conn.strand ++ more ∧ .onExpireTime noError ∉ more := by
  obtain ⟨cancelled, strand, aborted⟩ := timers.strand
  refine ⟨cancelled, strand, ?_⟩
  intro member
  exact not_aborted_expiry (aborted _ member)

/-- Behind a handler that is queued before the timers change, too. -/
theorem OnlyTimers.queued {middle later : ConnectionImpl κ} (timers : OnlyTimers middle later)
    {strand : List Handler} {handler : Handler} (queued : middle.strand = strand ++ [handler]) :
    ∃ more, later.strand = strand ++ more ∧
      (.onExpireTime noError ∈ more → handler = .onExpireTime noError) := by
  obtain ⟨more, behind, fresh⟩ := timers.noExpiry
  refine ⟨handler :: more, ?_, ?_⟩
  · rw [behind, queued]
    exact List.append_assoc _ _ _
  · intro member
    rcases List.mem_cons.mp member with same | member
    · exact same.symm
    · exact absurd member fresh

/-- A handler adds no successful expiry. -/
theorem ran_noExpiry {shutdownOk : Bool} {surroundings : ε} {handler : Handler}
    {conn later : ConnectionImpl κ} (ran : Ran procedure shutdownOk surroundings handler conn later) :
    ∃ more, later.strand = conn.strand ++ more ∧ .onExpireTime noError ∉ more := by
  have unchanged : ∃ more, conn.strand = conn.strand ++ more ∧ .onExpireTime noError ∉ more :=
    ⟨[], (List.append_nil _).symm, List.not_mem_nil⟩
  cases ran with
  | reads isRead filled timers =>
      obtain ⟨more, strand, onlyExpiry⟩ := timers.queued rfl
      refine ⟨more, strand, ?_⟩
      intro member
      cases onlyExpiry member
  | overruns isRead filled => exact unchanged
  | retries isRead failed pending =>
      refine ⟨_, rfl, ?_⟩
      intro member
      cases List.mem_singleton.mp member
  | beginsClosing failed shutdown opened timers => exact timers.noExpiry
  | staysAsItWas failed reason timers => exact timers.noExpiry
  | parses isDispatch opened returned => exact unchanged
  | raises isDispatch opened raised => exact unchanged
  | drops isDispatch notOpened => exact unchanged
  | closes asked shutdown timers => exact timers.noExpiry
  | closeFails asked failed => exact unchanged
  | expires isExpiry opened => exact unchanged
  | idles idle timers => exact timers.noExpiry

/-- A step takes the handler it runs out of the strand and adds others behind; a successful expiry is added
    only when the wait of the timer is over. -/
theorem step_strand {conn later : ConnectionImpl κ} {label : Label ε}
    (taken : conn.step procedure label = some later) :
    ∃ more, later.strand = leftBy label conn.strand ++ more ∧
      (.onExpireTime noError ∈ more → label = .keepExpires) := by
  have one (handler : Handler) (other : handler ≠ .onExpireTime noError) :
      .onExpireTime noError ∈ [handler] → label = .keepExpires := by
    intro member
    exact absurd (List.mem_singleton.mp member).symm other
  cases (step_took taken).2 with
  | arrives isRead readable =>
      subst isRead
      exact ⟨_, rfl, one _ nofun⟩
  | breaksOff isRead reading error =>
      subst isRead
      exact ⟨_, rfl, one _ nofun⟩
  | sends isSend =>
      refine ⟨[], ?_, nofun⟩
      rw [isSend.leftBy, List.append_nil]
  | refuses isSend =>
      refine ⟨[], ?_, nofun⟩
      rw [isSend.leftBy, List.append_nil]
  | transfers isTransfer outstanding usable =>
      subst isTransfer
      exact ⟨[], (List.append_nil _).symm, nofun⟩
  | finishes isDone picked =>
      subst isDone
      exact ⟨_, rfl, one _ nofun⟩
  | gives isFailure picked error =>
      subst isFailure
      exact ⟨_, rfl, one _ nofun⟩
  | reserves isReserve timers =>
      subst isReserve
      obtain ⟨more, strand, fresh⟩ := timers.noExpiry
      exact ⟨more, strand, fun member => absurd member fresh⟩
  | expires isExpiry timers =>
      subst isExpiry
      obtain ⟨more, strand, -⟩ := timers.queued rfl
      exact ⟨more, strand, fun _ => rfl⟩
  | reserveExpires isExpiry timers =>
      subst isExpiry
      obtain ⟨more, strand, onlyExpiry⟩ := timers.queued rfl
      refine ⟨more, strand, ?_⟩
      intro member
      cases onlyExpiry member
  | queuesClose isPosted waiting =>
      subst isPosted
      exact ⟨_, rfl, one _ nofun⟩
  | runs isRun picked ran =>
      subst isRun
      obtain ⟨more, strand, fresh⟩ := ran_noExpiry ran
      refine ⟨more, ?_, fun member => absurd member fresh⟩
      rw [leftBy_run picked]
      exact strand

/-! ### What a step reports, and what a renewal leaves -/

theorem log_unchanged {log later : List (Event κ)} (same : later = log) {event : Event κ} :
    later ≠ log ++ [event] := by
  intro grown
  rw [same] at grown
  exact absurd (List.self_eq_append_right.mp grown) (List.cons_ne_nil _ _)

/-- Only the handler of a successful expiry calls `onExpiredSession`, and only on an open connection. -/
theorem ran_reports {shutdownOk : Bool} {surroundings : ε} {handler : Handler}
    {conn later : ConnectionImpl κ} (ran : Ran procedure shutdownOk surroundings handler conn later)
    (reported : later.log = conn.log ++ [.onExpiredSession]) :
    handler = .onExpireTime noError ∧ conn.status = .opened := by
  cases ran with
  | reads isRead filled timers =>
      rw [timers.same.log] at reported
      cases List.append_cancel_left reported
  | overruns isRead filled => exact absurd reported (log_unchanged rfl)
  | retries isRead failed pending => exact absurd reported (log_unchanged rfl)
  | beginsClosing failed shutdown opened timers => exact absurd reported (log_unchanged timers.same.log)
  | staysAsItWas failed reason timers => exact absurd reported (log_unchanged timers.same.log)
  | parses isDispatch opened returned => cases List.append_cancel_left reported
  | raises isDispatch opened raised => cases List.append_cancel_left reported
  | drops isDispatch notOpened => exact absurd reported (log_unchanged rfl)
  | closes asked shutdown timers =>
      rw [timers.same.log] at reported
      cases List.append_cancel_left reported
  | closeFails asked failed => exact absurd reported (log_unchanged rfl)
  | expires isExpiry opened => exact ⟨isExpiry, opened⟩
  | idles idle timers => exact absurd reported (log_unchanged timers.same.log)

/-- The handler of a successful expiry on an open connection does call it. -/
theorem nextState_expiry (procedure : MessageProcedure κ ε) {conn : ConnectionImpl κ}
    (running : conn.terminated = none)
    (opened : conn.status = .opened) {index : Nat} {others : List Handler}
    (picked : pick index conn.strand = some (.onExpireTime noError, others)) (shutdownOk : Bool)
    (surroundings : ε) :
    (nextState procedure conn (.run index shutdownOk surroundings)).log =
      conn.log ++ [.onExpiredSession] := by
  have taken : conn.step procedure (.run index shutdownOk surroundings) =
      some (ConnectionImpl.onExpireTime noError { conn with strand := others }) := by
    rw [ConnectionImpl.step, if_neg (not_not.mpr running)]
    simp only [picked]
    rfl
  rw [nextState_some taken, ConnectionImpl.onExpireTime, if_pos ⟨rfl, opened⟩]

/-- The handlers that renew. -/
theorem renews_handler {conn : ConnectionImpl κ} {label : Label ε} (renewed : renews conn label = true) :
    ∃ handler surroundings, handlerRun conn label = some (handler, surroundings) ∧
      (handler = .writeHandler noError ∨
        ∃ chunk msgRecv, handler = .readHandler noError chunk ∧ conn.msg.fill chunk = .ok msgRecv) := by
  unfold renews at renewed
  split at renewed
  · rename_i handler surroundings ran
    refine ⟨handler, surroundings, ran, ?_⟩
    cases handler with
    | readHandler ec chunk =>
        obtain ⟨completed, filled⟩ := Bool.and_eq_true_iff.mp renewed
        have noFault : ec = noError := eq_of_beq completed
        cases stored : conn.msg.fill chunk with
        | error fault =>
            rw [stored] at filled
            cases filled
        | ok msgRecv => exact Or.inr ⟨chunk, msgRecv, by rw [noFault], stored⟩
    | writeHandler ec =>
        have noFault : ec = noError := eq_of_beq renewed
        exact Or.inl (by rw [noFault])
    | _ => cases renewed
  · cases renewed

/-- A read whose bytes have been stored ends with a renewal. -/
theorem readHandler_renews {conn : ConnectionImpl κ} {chunk : List UInt8} {msgRecv : MessageBuffer}
    (filled : conn.msg.fill chunk = .ok msgRecv) (shutdownOk : Bool) :
    ∃ before : ConnectionImpl κ, conn.readHandler shutdownOk noError chunk = before.renewExpireTime ∧
      before.status = conn.status ∧ before.terminated = conn.terminated := by
  rw [ConnectionImpl.readHandler, if_pos rfl]
  simp only [filled]
  exact ⟨_, rfl, rfl, rfl⟩

/-- A renewing step changes neither the status nor whether the connection is running, and the handler it runs
    is no expiry. -/
theorem renews_step (procedure : MessageProcedure κ ε) {conn : ConnectionImpl κ} {label : Label ε}
    (renewed : renews conn label = true) :
    ∃ index shutdownOk surroundings handler others later,
      label = .run index shutdownOk surroundings ∧ pick index conn.strand = some (handler, others) ∧
        handler ≠ .onExpireTime noError ∧ conn.step procedure label = some later ∧
        later.status = conn.status ∧ later.terminated = none := by
  obtain ⟨handler, surroundings, ran, which⟩ := renews_handler renewed
  obtain ⟨index, shutdownOk, others, isRun, running, picked, taken⟩ := handlerRun_step procedure ran
  refine ⟨index, shutdownOk, surroundings, handler, others, _, isRun, picked, ?_, taken, ?_⟩
  · rcases which with rfl | ⟨_, _, rfl, _⟩
    · nofun
    · nofun
  · rcases which with rfl | ⟨chunk, msgRecv, rfl, filled⟩
    · have timers := OnlyTimers.renewExpireTime { conn with strand := others }
      exact ⟨timers.same.status, timers.same.terminated.trans running⟩
    · obtain ⟨before, stored, status, terminated⟩ :=
        @readHandler_renews κ { conn with strand := others } chunk msgRecv filled shutdownOk
      have timers := OnlyTimers.renewExpireTime before
      rw [ConnectionImpl.runHandler, stored]
      exact ⟨timers.same.status.trans status, timers.same.terminated.trans (terminated.trans running)⟩

/-! ### Only a renewal begins a wait -/

theorem cancelKeepTimer_keepTimer (conn : ConnectionImpl κ) : conn.cancelKeepTimer.keepTimer = false := by
  unfold ConnectionImpl.cancelKeepTimer
  split
  · rfl
  · rename_i none
    exact Bool.not_eq_true _ ▸ none

theorem cancelCloseReserveTimer_keepTimer (conn : ConnectionImpl κ) :
    conn.cancelCloseReserveTimer.keepTimer = conn.keepTimer := by
  unfold ConnectionImpl.cancelCloseReserveTimer
  split <;> rfl

theorem closing_keepTimer {conn : ConnectionImpl κ} {shutdownOk : Bool}
    (waits : (conn.closing shutdownOk).keepTimer = true) : conn.keepTimer = true := by
  unfold ConnectionImpl.closing at waits
  split at waits
  · have ended := cancelKeepTimer_keepTimer { conn with status := .closing }
    rw [← cancelCloseReserveTimer_keepTimer] at ended
    exact absurd (ended.symm.trans waits) Bool.false_ne_true
  · exact waits

theorem close_keepTimer {conn : ConnectionImpl κ} {shutdownOk : Bool}
    (waits : (conn.close shutdownOk).keepTimer = true) : conn.keepTimer = true := by
  unfold ConnectionImpl.close at waits
  split at waits
  · have ended := cancelKeepTimer_keepTimer { conn with status := .close }
    rw [← cancelCloseReserveTimer_keepTimer] at ended
    exact absurd (ended.symm.trans waits) Bool.false_ne_true
  · exact waits

theorem readHandler_keepTimer {conn : ConnectionImpl κ} {shutdownOk : Bool} {ec : ErrorCode}
    {chunk : List UInt8} (waits : (conn.readHandler shutdownOk ec chunk).keepTimer = true) :
    conn.keepTimer = true ∨ handlerRenews conn (.readHandler ec chunk) = true := by
  unfold ConnectionImpl.readHandler at waits
  split at waits
  · rename_i completed
    split at waits
    · exact Or.inl waits
    · rename_i msgRecv filled
      right
      rw [handlerRenews, completed, filled]
      rfl
  · left
    split at waits
    · split at waits
      · exact waits
      · exact @closing_keepTimer κ { conn with postRetryCount := conn.postRetryCount + 1 } shutdownOk waits
    · exact closing_keepTimer waits

theorem dispatch_keepTimer (surroundings : ε) (msg : MessageBuffer) (conn : ConnectionImpl κ) :
    (conn.dispatch procedure surroundings msg).keepTimer = conn.keepTimer := by
  unfold ConnectionImpl.dispatch
  split
  · rfl
  · simp only
    split <;> rfl

theorem writeHandler_keepTimer {conn : ConnectionImpl κ} {shutdownOk : Bool} {ec : ErrorCode}
    (waits : (conn.writeHandler shutdownOk ec).keepTimer = true) :
    conn.keepTimer = true ∨ handlerRenews conn (.writeHandler ec) = true := by
  unfold ConnectionImpl.writeHandler at waits
  split at waits
  · rename_i completed
    right
    rw [handlerRenews, completed]
    rfl
  · exact Or.inl (closing_keepTimer waits)

theorem onExpireTime_keepTimer (ec : ErrorCode) (conn : ConnectionImpl κ) :
    (conn.onExpireTime ec).keepTimer = conn.keepTimer := by
  unfold ConnectionImpl.onExpireTime
  split <;> rfl

theorem onCloseReserveTime_keepTimer {conn : ConnectionImpl κ} {shutdownOk : Bool} {ec : ErrorCode}
    (waits : (conn.onCloseReserveTime shutdownOk ec).keepTimer = true) : conn.keepTimer = true := by
  unfold ConnectionImpl.onCloseReserveTime at waits
  split at waits
  · exact close_keepTimer waits
  · exact waits

/-- One handler begins a wait only when it renews. -/
theorem runHandler_keepTimer {conn : ConnectionImpl κ} {shutdownOk : Bool} {surroundings : ε}
    {handler : Handler}
    (waits : (ConnectionImpl.runHandler procedure shutdownOk surroundings handler conn).keepTimer = true) :
    conn.keepTimer = true ∨ handlerRenews conn handler = true := by
  cases handler with
  | readHandler ec chunk => exact readHandler_keepTimer waits
  | dispatch msg => exact Or.inl ((dispatch_keepTimer surroundings msg conn).symm.trans waits)
  | writeHandler ec => exact writeHandler_keepTimer waits
  | close => exact Or.inl (close_keepTimer waits)
  | onExpireTime ec => exact Or.inl ((onExpireTime_keepTimer ec conn).symm.trans waits)
  | onCloseReserveTime ec => exact Or.inl (onCloseReserveTime_keepTimer waits)

/-- A wait that is outstanding after a step was outstanding before it, or a renewal has begun it. -/
theorem wait_begun {conn later : ConnectionImpl κ} {label : Label ε}
    (taken : conn.step procedure label = some later) (waits : later.keepTimer = true) :
    conn.keepTimer = true ∨ renews conn label = true := by
  obtain ⟨running, took⟩ := step_took taken
  cases took with
  | runs isRun picked ran =>
      rename_i index shutdownOk surroundings handler others
      subst isRun
      have run := handlerRun_run running picked shutdownOk surroundings
      obtain ⟨_, _, _, isRun, -, pickedAgain, next⟩ := handlerRun_step procedure run
      cases isRun
      cases picked.symm.trans pickedAgain
      rw [next] at taken
      cases taken
      rw [renews, run]
      exact @runHandler_keepTimer κ ε procedure { conn with strand := others } shutdownOk surroundings handler
        waits
  | reserves isReserve timers =>
      subst isReserve
      rw [ConnectionImpl.step, if_neg (not_not.mpr running)] at taken
      cases taken
      exact Or.inl ((cancelCloseReserveTimer_keepTimer conn).symm.trans waits)
  | expires isExpiry timers =>
      subst isExpiry
      rw [ConnectionImpl.step, if_neg (not_not.mpr running)] at taken
      split at taken
      · rename_i waited
        exact Or.inl waited
      · cases taken
  | reserveExpires isExpiry timers =>
      subst isExpiry
      rw [ConnectionImpl.step, if_neg (not_not.mpr running)] at taken
      split at taken
      · cases taken
        exact Or.inl waits
      · cases taken
  | _ => exact Or.inl waits

/-! ### The invariant -/

/-- The numbers beside the strand, and what holds of them while no wait has been overtaken. -/
structure Numbered (history : KeepAliveHistory κ) : Prop where
  strand : history.queue.map Prod.fst = history.conn.strand
  once : CloseOnce history.conn
  latest : history.conn.status = .opened →
    ∀ wait, (.onExpireTime noError, wait) ∈ history.queue → wait = history.armed

/-- A queued handler has a number, and is picked with it. -/
theorem Numbered.pick_strand {history : KeepAliveHistory κ} (numbered : Numbered history) (index : Nat) :
    pick index history.conn.strand =
      (pick index history.queue).map fun picked => (picked.1.1, picked.2.map Prod.fst) := by
  rw [← numbered.strand, pick_map]

/-- With the invariant only the latest wait can be reported. -/
theorem Numbered.reportsLatest {history : KeepAliveHistory κ} (numbered : Numbered history) :
    ReportsLatest procedure history := by
  rintro label wait ⟨index, shutdownOk, surroundings, handler, others, rfl, picked, reported⟩
  have pickedStrand := numbered.pick_strand index
  rw [picked, Option.map_some] at pickedStrand
  cases stepped : history.conn.step procedure (.run index shutdownOk surroundings) with
  | none =>
      rw [nextState_none stepped] at reported
      exact absurd reported (log_unchanged rfl)
  | some later =>
      have run := handlerRun_run (step_took stepped).1 pickedStrand shutdownOk surroundings
      obtain ⟨_, _, _, isRun, -, pickedAgain, taken⟩ := handlerRun_step procedure run
      cases isRun
      cases pickedStrand.symm.trans pickedAgain
      rw [nextState_some taken] at reported
      have ran := runHandler_ran procedure shutdownOk surroundings handler
        { history.conn with strand := others.map Prod.fst }
      obtain ⟨rfl, opened⟩ := ran_reports ran reported
      exact numbered.latest opened wait (mem_of_pick picked)

/-- The state of a step that is possible. -/
theorem KeepAliveHistory.next_some {procedure : MessageProcedure κ ε} {history : KeepAliveHistory κ}
    {label : Label ε} {later : ConnectionImpl κ} (taken : history.conn.step procedure label = some later) :
    history.next procedure label =
      { conn := later
        armed := if renews history.conn label then history.armed + 1 else history.armed
        queue := leftBy label history.queue ++
          (later.strand.drop (leftBy label history.queue).length).map
            fun handler => (handler, history.armed) } := by
  rw [KeepAliveHistory.next, taken]

/-- The numbers stay beside the handlers. -/
theorem Numbered.next_queue {history : KeepAliveHistory κ} (numbered : Numbered history) {label : Label ε}
    {later : ConnectionImpl κ} {more : List Handler}
    (strand : later.strand = leftBy label history.conn.strand ++ more) :
    later.strand.drop (leftBy label history.queue).length = more ∧
      (leftBy label history.queue).map Prod.fst ++ more = later.strand := by
  have left : (leftBy label history.queue).map Prod.fst = leftBy label history.conn.strand := by
    rw [← leftBy_map, numbered.strand]
  have length := congrArg List.length left
  rw [List.length_map] at length
  rw [strand, length, List.drop_left, left]
  exact ⟨rfl, rfl⟩

theorem Numbered.next_strand (procedure : MessageProcedure κ ε) {history : KeepAliveHistory κ}
    (numbered : Numbered history) (label : Label ε) :
    (history.next procedure label).queue.map Prod.fst = (history.next procedure label).conn.strand := by
  cases stepped : history.conn.step procedure label with
  | none =>
      rw [KeepAliveHistory.next, stepped]
      exact numbered.strand
  | some later =>
      obtain ⟨more, strand, -⟩ := step_strand stepped
      obtain ⟨new, queue⟩ := numbered.next_queue strand
      rw [KeepAliveHistory.next_some stepped, new, List.map_append, List.map_map]
      exact (congrArg _ (List.map_id more)).trans queue

/-- What a label leaves was there before. -/
theorem mem_of_mem_leftBy {α : Type} {label : Label ε} {queue : List α} {element : α}
    (member : element ∈ leftBy label queue) : element ∈ queue := by
  cases label with
  | run index shutdownOk surroundings =>
      unfold leftBy at member
      simp only at member
      split at member
      · rename_i chosen others picked
        exact mem_of_pick_others picked member
      · exact member
  | _ => exact member

/-- A connection that is open after a step was open before it. -/
theorem Advances.opened {before after : Status} (advances : Advances before after)
    (opened : after = .opened) : before = .opened := by
  cases advances with
  | stays => exact opened
  | begins => rfl
  | finishes => cases opened
  | closes => rfl

/-- A step that renews in time keeps the invariant. -/
theorem Numbered.next {history : KeepAliveHistory κ} (numbered : Numbered history) {label : Label ε}
    (inTime : RenewsInTime history.conn label) : Numbered (history.next procedure label) := by
  cases stepped : history.conn.step procedure label with
  | none =>
      rw [KeepAliveHistory.next, stepped]
      exact numbered
  | some later =>
      obtain ⟨more, strand, fresh⟩ := step_strand stepped
      obtain ⟨new, -⟩ := numbered.next_queue strand
      obtain ⟨once, advances⟩ := closeOnce_step numbered.once stepped
      have same := numbered.next_strand procedure label
      rw [KeepAliveHistory.next_some stepped] at same
      rw [KeepAliveHistory.next_some stepped]
      refine ⟨same, once, ?_⟩
      · rw [new]
        intro opened wait member
        have wasOpened := advances.opened opened
        rcases List.mem_append.mp member with left | added
        · -- It was queued before, so the step cannot have been a renewal.
          have before := mem_of_mem_leftBy left
          have inStrand : .onExpireTime noError ∈ history.conn.strand := by
            rw [← numbered.strand]
            exact List.mem_map_of_mem before
          have notRenewed : renews history.conn label ≠ true :=
            fun renewed => inTime renewed wasOpened inStrand
          simp only [if_neg notRenewed]
          exact numbered.latest wasOpened wait before
        · obtain ⟨handler, inMore, same⟩ := List.mem_map.mp added
          cases same
          -- The wait of the timer is over: it is the latest, and nothing is renewed.
          cases fresh inMore
          rfl

/-- A step after which only the latest wait can be reported renews in time. -/
theorem Numbered.renewsInTime {history : KeepAliveHistory κ} (numbered : Numbered history)
    {label : Label ε} (latest : ReportsLatest procedure (history.next procedure label)) :
    RenewsInTime history.conn label := by
  intro renewed opened inStrand
  obtain ⟨index, shutdownOk, surroundings, handler, others, later, isRun, picked, notExpiry, taken, status,
    running⟩ := renews_step procedure renewed
  rw [← numbered.strand] at inStrand
  obtain ⟨⟨_, wait⟩, member, rfl⟩ := List.mem_map.mp inStrand
  have wasLatest : wait = history.armed := numbered.latest opened wait member
  have next := KeepAliveHistory.next_some taken
  -- The renewing handler is another one, so the expiry is still queued afterwards.
  have stillQueued : (Handler.onExpireTime noError, wait) ∈ (history.next procedure label).queue := by
    rw [next]
    apply List.mem_append_left
    obtain ⟨⟨_, number⟩, pickedQueue, same⟩ := Option.map_eq_some_iff.mp
      ((numbered.pick_strand index).symm.trans picked)
    cases same
    rw [isRun, leftBy_run pickedQueue]
    rcases pick_mem pickedQueue member with expiry | left
    · rw [← expiry] at notExpiry
      exact absurd rfl notExpiry
    · exact left
  obtain ⟨place, behind, pickedNext⟩ := exists_pick stillQueued
  have pickedStrand : pick place later.strand = some (.onExpireTime noError, behind.map Prod.fst) := by
    have same := numbered.next_strand procedure label
    rw [next] at same pickedNext
    rw [← same, pick_map, pickedNext, Option.map_some]
  have reported := nextState_expiry procedure running (status.trans opened) pickedStrand true surroundings
  have isLatest : wait = (history.next procedure label).armed := by
    apply latest (.run place true surroundings) wait
    refine ⟨place, true, surroundings, _, behind, rfl, pickedNext, ?_⟩
    rw [next]
    exact reported
  rw [next] at isLatest
  simp only [if_pos renewed, wasLatest] at isLatest
  exact Nat.succ_ne_self _ isLatest.symm

/-! ### Whole runs -/

/-- The strand at the start: the wait of the constructor, cancelled or over. -/
theorem started_strand (procedure : MessageProcedure κ ε) {keepAliveTime : Nat}
    (limited : keepAliveTime ≠ 0) (expired : Bool) :
    (ConnectionImpl.started procedure keepAliveTime expired).strand =
      [.onExpireTime (if expired = true then noError else operationAborted)] := by
  cases expired with
  | false =>
      simp [ConnectionImpl.started, ConnectionImpl.created, ConnectionImpl.startAccept,
        ConnectionImpl.renewExpireTime, ConnectionImpl.cancelKeepTimer, limited]
  | true =>
      simp [ConnectionImpl.started, ConnectionImpl.created, ConnectionImpl.startAccept,
        ConnectionImpl.renewExpireTime, ConnectionImpl.cancelKeepTimer, limited]

theorem started_strand_forever (procedure : MessageProcedure κ ε) (expired : Bool) :
    (ConnectionImpl.started procedure 0 expired).strand = [] := by
  simp [ConnectionImpl.started, ConnectionImpl.created, ConnectionImpl.startAccept,
    ConnectionImpl.renewExpireTime]

/-- The invariant at the start, unless the wait of the constructor was over before the connection started. -/
theorem started_numbered (procedure : MessageProcedure κ ε) {keepAliveTime : Nat} {expired : Bool}
    (inTime : expired = false ∨ keepAliveTime = 0) :
    Numbered (KeepAliveHistory.started procedure keepAliveTime expired) := by
  have noExpiry :
      .onExpireTime noError ∉ (ConnectionImpl.started procedure keepAliveTime expired).strand := by
    by_cases forever : keepAliveTime = 0
    · rw [forever, started_strand_forever]
      exact List.not_mem_nil
    · rw [started_strand procedure forever, inTime.resolve_right forever]
      intro member
      cases List.mem_singleton.mp member
  constructor
  · rw [KeepAliveHistory.started, List.map_map]
    exact List.map_id _
  · exact (started_justStarted procedure keepAliveTime expired).closeOnce
  · intro _ wait member
    obtain ⟨handler, inStrand, same⟩ := List.mem_map.mp member
    cases same
    exact absurd inStrand noExpiry

/-- A wait that was over before the connection started is reported as soon as its handler runs. -/
theorem started_overdue [Inhabited ε] (procedure : MessageProcedure κ ε) {keepAliveTime : Nat}
    (limited : keepAliveTime ≠ 0) :
    ReportsFor procedure (KeepAliveHistory.started procedure keepAliveTime true) (.run 0 true default) 1 := by
  have start := started_justStarted procedure keepAliveTime true
  have strand := started_strand procedure limited true
  refine ⟨0, true, default, .onExpireTime noError, [], rfl, ?_, ?_⟩
  · rw [KeepAliveHistory.started, strand]
    rfl
  · apply nextState_expiry procedure start.terminated start.status
    · rw [strand]
      rfl

/-- From a start with the invariant. -/
theorem Numbered.runs {history : KeepAliveHistory κ} (numbered : Numbered history)
    (labels : List (Label ε)) :
    EveryStep (KeepAliveHistory.next procedure)
        (fun history label => ReportsLatest procedure (history.next procedure label)) history labels ↔
      EveryStep (KeepAliveHistory.next procedure) (fun history label => RenewsInTime history.conn label)
        history labels := by
  apply everyStep_iff Numbered
  · intro history label numbered
    constructor
    · exact numbered.renewsInTime
    · intro inTime
      exact (numbered.next inTime).reportsLatest
  · intro history label numbered inTime
    exact numbered.next inTime
  · exact numbered

/-- In every run only the latest wait can ever be reported, whatever the next step is, exactly when the wait
    that the constructor begins is not over before the connection starts, and every completion that renews an
    open connection finds no successful expiry queued. -/
theorem latest_wait_reported_iff [Inhabited ε] (procedure : MessageProcedure κ ε) (keepAliveTime : Nat)
    (expired : Bool) (labels : List (Label ε)) :
    (ReportsLatest procedure (KeepAliveHistory.started procedure keepAliveTime expired) ∧
        EveryStep (KeepAliveHistory.next procedure)
          (fun history label => ReportsLatest procedure (history.next procedure label))
          (KeepAliveHistory.started procedure keepAliveTime expired) labels) ↔
      (expired = false ∨ keepAliveTime = 0) ∧
        EveryStep (KeepAliveHistory.next procedure) (fun history label => RenewsInTime history.conn label)
          (KeepAliveHistory.started procedure keepAliveTime expired) labels := by
  constructor
  · rintro ⟨latest, every⟩
    have inTime : expired = false ∨ keepAliveTime = 0 := by
      by_contra late
      obtain ⟨isExpired, limited⟩ := not_or.mp late
      rw [Bool.not_eq_false] at isExpired
      subst isExpired
      cases latest _ _ (started_overdue procedure limited)
    exact ⟨inTime, ((started_numbered procedure inTime).runs labels).mp every⟩
  · rintro ⟨inTime, every⟩
    have initially := started_numbered procedure inTime
    exact ⟨initially.reportsLatest, (initially.runs labels).mpr every⟩

/-- A heartbeat has been read when the wait is over, and both completions are queued.  The read is handled
    first and begins the third wait; then the handler of the second one reports the session as expired. -/
theorem renewed_session_reported :
    ¬ EveryStep (KeepAliveHistory.next (lobbyProcedure fun _ => some ()))
      (fun history label => ReportsLatest (lobbyProcedure fun _ => some ())
        (history.next (lobbyProcedure fun _ => some ()) label))
      (KeepAliveHistory.started (lobbyProcedure fun _ => some ()) 15000 false)
      [.run 0 true (true, []), .readSome [5, 0, 0, 0, 1, 0, 0, 0, 3], .keepExpires,
        .run 0 true (true, [])] := by
  rintro ⟨-, -, -, latest, -⟩
  have overtaken := latest (.run 0 true (true, [])) 2
    ⟨0, true, (true, []), .onExpireTime noError, _, rfl, rfl, by decide⟩
  revert overtaken
  decide

end LobbySvr.Proofs
