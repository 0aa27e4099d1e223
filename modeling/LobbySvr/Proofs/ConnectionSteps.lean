/-
Module: LobbySvr.Proofs.ConnectionSteps
Layer: Proofs
Purpose: What one step of a connection can do, said once.  `Ran` lists the outcomes of a strand handler and
  `Took` those of a label, each with the condition it happens under and the state it leaves.  Timers never
  decide anything else, so whatever they do to their waits is one clause.  Every invariant of a connection
  is proved from these two lists and never from the step function.
Imports: LobbySvr.Net.ConnectionImpl
Trusted boundary: none
Main exports: OnlyTimers, Ran, runHandler_ran, Took, step_took, Adds, step_adds, anyStep, nextState,
  handlerRun, handlerRun_step, JustStarted, started_justStarted
Open obligations: none
-/
import LobbySvr.Net.ConnectionImpl

namespace LobbySvr.Proofs

open LobbySvr.Foundation
open LobbySvr.Net

variable {κ ε : Type}

/-- A wait that was cancelled. -/
def Aborted (handler : Handler) : Prop :=
  handler = .onExpireTime operationAborted ∨ handler = .onCloseReserveTime operationAborted

/-- Only the waits of the timers and the retry counter have changed; cancelled waits have been queued. -/
inductive OnlyTimers (conn : ConnectionImpl κ) : ConnectionImpl κ → Prop where
  | moved (keep reserve : Bool) (retries : UInt64) (cancelled : List Handler)
      (aborted : ∀ handler ∈ cancelled, Aborted handler) :
      OnlyTimers conn
        { conn with
          keepTimer := keep
          closeReserveTimer := reserve
          postRetryCount := retries
          strand := conn.strand ++ cancelled }

namespace OnlyTimers

/-- New values for the waits and the counter, with nothing queued. -/
theorem set (conn : ConnectionImpl κ) (keep reserve : Bool) (retries : UInt64) :
    OnlyTimers conn
      { conn with keepTimer := keep, closeReserveTimer := reserve, postRetryCount := retries } := by
  have moved : OnlyTimers conn
      { conn with
        keepTimer := keep
        closeReserveTimer := reserve
        postRetryCount := retries
        strand := conn.strand ++ [] } := .moved keep reserve retries [] (by simp)
  rwa [List.append_nil] at moved

theorem refl (conn : ConnectionImpl κ) : OnlyTimers conn conn := set conn _ _ _

theorem trans {conn middle later : ConnectionImpl κ} (first : OnlyTimers conn middle)
    (second : OnlyTimers middle later) : OnlyTimers conn later := by
  obtain ⟨_, _, _, cancelled, aborted⟩ := first
  obtain ⟨keep, reserve, retries, more, moreAborted⟩ := second
  simp only [List.append_assoc]
  refine .moved keep reserve retries (cancelled ++ more) ?_
  intro handler member
  rcases List.mem_append.mp member with member | member
  · exact aborted handler member
  · exact moreAborted handler member

theorem cancelKeepTimer (conn : ConnectionImpl κ) : OnlyTimers conn conn.cancelKeepTimer := by
  unfold ConnectionImpl.cancelKeepTimer
  split
  · exact .moved _ _ _ _ (by simp [Aborted])
  · exact refl conn

theorem cancelCloseReserveTimer (conn : ConnectionImpl κ) :
    OnlyTimers conn conn.cancelCloseReserveTimer := by
  unfold ConnectionImpl.cancelCloseReserveTimer
  split
  · exact .moved _ _ _ _ (by simp [Aborted])
  · exact refl conn

theorem cancelBoth (conn : ConnectionImpl κ) :
    OnlyTimers conn conn.cancelKeepTimer.cancelCloseReserveTimer :=
  (cancelKeepTimer conn).trans (cancelCloseReserveTimer _)

theorem renewExpireTime (conn : ConnectionImpl κ) : OnlyTimers conn conn.renewExpireTime := by
  unfold ConnectionImpl.renewExpireTime
  split
  · exact refl conn
  · exact (cancelKeepTimer conn).trans (set _ true _ _)

theorem closeReserve (conn : ConnectionImpl κ) : OnlyTimers conn conn.closeReserve :=
  (cancelCloseReserveTimer conn).trans (set _ _ true _)

/-- What timers leave alone. -/
structure Same (conn later : ConnectionImpl κ) : Prop where
  status : later.status = conn.status
  msg : later.msg = conn.msg
  msgManipulator : later.msgManipulator = conn.msgManipulator
  readHandlerPending : later.readHandlerPending = conn.readHandlerPending
  posted : later.posted = conn.posted
  reading : later.reading = conn.reading
  writes : later.writes = conn.writes
  broken : later.broken = conn.broken
  wire : later.wire = conn.wire
  frames : later.frames = conn.frames
  log : later.log = conn.log
  terminated : later.terminated = conn.terminated

theorem same {conn later : ConnectionImpl κ} (timers : OnlyTimers conn later) : Same conn later := by
  obtain ⟨_, _, _, _, _⟩ := timers
  constructor <;> rfl

/-- The strand behind timers: what it held, and cancelled waits. -/
theorem strand {conn later : ConnectionImpl κ} (timers : OnlyTimers conn later) :
    ∃ cancelled, later.strand = conn.strand ++ cancelled ∧ ∀ handler ∈ cancelled, Aborted handler := by
  obtain ⟨_, _, _, cancelled, aborted⟩ := timers
  exact ⟨cancelled, rfl, aborted⟩

/-- Timers change no count over the strand that leaves cancelled waits out. -/
theorem countP {conn later : ConnectionImpl κ} (timers : OnlyTimers conn later) {test : Handler → Bool}
    (expiry : test (.onExpireTime operationAborted) = false)
    (reserve : test (.onCloseReserveTime operationAborted) = false) :
    later.strand.countP test = conn.strand.countP test := by
  obtain ⟨cancelled, strand, aborted⟩ := timers.strand
  have none : cancelled.countP test = 0 := by
    rw [List.countP_eq_zero]
    intro handler member
    rcases aborted handler member with rfl | rfl
    · rw [expiry]
      exact Bool.false_ne_true
    · rw [reserve]
      exact Bool.false_ne_true
  rw [strand, List.countP_append, none, Nat.add_zero]

/-- One more `close` posted beside what the timers do. -/
theorem withPosted {conn later : ConnectionImpl κ} (timers : OnlyTimers conn later) :
    OnlyTimers { conn with posted := conn.posted + 1 } { later with posted := later.posted + 1 } := by
  obtain ⟨_, _, _, _, aborted⟩ := timers
  exact .moved _ _ _ _ aborted

/-- Events observed beside what the timers do. -/
theorem withEvents {conn later : ConnectionImpl κ} (timers : OnlyTimers conn later)
    (events : List (Event κ)) :
    OnlyTimers { conn with log := conn.log ++ events } { later with log := later.log ++ events } := by
  obtain ⟨_, _, _, _, aborted⟩ := timers
  exact .moved _ _ _ _ aborted

end OnlyTimers

/-! ### Handlers -/

/-- A read or a write that ended with an error. -/
def Failed (handler : Handler) : Prop :=
  ∃ ec, ec ≠ noError ∧ (handler = .writeHandler ec ∨ ∃ chunk, handler = .readHandler ec chunk)

/-- A handler that calls `close`. -/
def AsksClose (conn : ConnectionImpl κ) (handler : Handler) : Prop :=
  handler = .close ∨ (handler = .onCloseReserveTime noError ∧ conn.status = .opened)

/-- A handler that can be left without an effect outside the timers. -/
def MayIdle (handler : Handler) : Prop :=
  handler = .writeHandler noError ∨ (∃ ec, handler = .onExpireTime ec) ∨
    ∃ ec, handler = .onCloseReserveTime ec

/-- The outcomes of one handler. -/
inductive Ran (procedure : MessageProcedure κ ε) (shutdownOk : Bool) (surroundings : ε)
    (handler : Handler) (conn : ConnectionImpl κ) : ConnectionImpl κ → Prop where
  /-- The bytes of a read go to a posted dispatch, and the next read is started. -/
  | reads {chunk : List UInt8} {msgRecv : MessageBuffer} {later : ConnectionImpl κ}
      (isRead : handler = .readHandler noError chunk) (filled : conn.msg.fill chunk = .ok msgRecv)
      (timers : OnlyTimers
        { conn with
          msg := newMessageBuffer conn.msgManipulator
          readHandlerPending := conn.readHandlerPending + 1
          strand := conn.strand ++ [.dispatch msgRecv]
          reading := true
          log := conn.log ++ [.received chunk] } later) :
      Ran procedure shutdownOk surroundings handler conn later
  | overruns {chunk : List UInt8} {fault : Fault} (isRead : handler = .readHandler noError chunk)
      (filled : conn.msg.fill chunk = .error fault) :
      Ran procedure shutdownOk surroundings handler conn { conn with terminated := some fault }
  /-- A failed read is posted again while dispatches are counted as pending. -/
  | retries {ec : ErrorCode} {chunk : List UInt8} (isRead : handler = .readHandler ec chunk)
      (failed : ec ≠ noError) (pending : 0 < conn.readHandlerPending) :
      Ran procedure shutdownOk surroundings handler conn
        { conn with
          postRetryCount := conn.postRetryCount + 1
          strand := conn.strand ++ [.readHandler ec chunk] }
  | beginsClosing {later : ConnectionImpl κ} (failed : Failed handler) (shutdown : shutdownOk = true)
      (opened : conn.status = .opened)
      (timers : OnlyTimers { conn with status := .closing, posted := conn.posted + 1 } later) :
      Ran procedure shutdownOk surroundings handler conn later
  | staysAsItWas {later : ConnectionImpl κ} (failed : Failed handler)
      (reason : shutdownOk = false ∨ conn.status ≠ .opened) (timers : OnlyTimers conn later) :
      Ran procedure shutdownOk surroundings handler conn later
  | parses {msg : MessageBuffer} {result : Bool} (isDispatch : handler = .dispatch msg)
      (opened : conn.status = .opened)
      (returned : (procedure.packetParsingFunction surroundings msg).ending = .returned result) :
      Ran procedure shutdownOk surroundings handler conn
        { conn with
          readHandlerPending := conn.readHandlerPending - 1
          log := conn.log ++ (Event.parsed msg.bytes ::
            (procedure.packetParsingFunction surroundings msg).calls.map Event.call) }
  | raises {msg : MessageBuffer} {fault : Fault} (isDispatch : handler = .dispatch msg)
      (opened : conn.status = .opened)
      (raised : (procedure.packetParsingFunction surroundings msg).ending = .raised fault) :
      Ran procedure shutdownOk surroundings handler conn
        { conn with
          terminated := some fault
          log := conn.log ++ (Event.parsed msg.bytes ::
            (procedure.packetParsingFunction surroundings msg).calls.map Event.call) }
  | drops {msg : MessageBuffer} (isDispatch : handler = .dispatch msg)
      (notOpened : conn.status ≠ .opened) :
      Ran procedure shutdownOk surroundings handler conn conn
  | closes {later : ConnectionImpl κ} (asked : AsksClose conn handler) (shutdown : shutdownOk = true)
      (timers : OnlyTimers { conn with status := .close, log := conn.log ++ [.onClose] } later) :
      Ran procedure shutdownOk surroundings handler conn later
  | closeFails (asked : AsksClose conn handler) (failed : shutdownOk = false) :
      Ran procedure shutdownOk surroundings handler conn conn
  | expires (isExpiry : handler = .onExpireTime noError) (opened : conn.status = .opened) :
      Ran procedure shutdownOk surroundings handler conn
        { conn with log := conn.log ++ [.onExpiredSession] }
  | idles {later : ConnectionImpl κ} (idle : MayIdle handler) (timers : OnlyTimers conn later) :
      Ran procedure shutdownOk surroundings handler conn later

variable {procedure : MessageProcedure κ ε} {shutdownOk : Bool} {surroundings : ε}

/-- `closing`, whatever handler of a failed operation it was called from. -/
theorem closing_ran {handler : Handler} (failed : Failed handler) {conn middle : ConnectionImpl κ}
    (timers : OnlyTimers conn middle) :
    Ran procedure shutdownOk surroundings handler conn (middle.closing shutdownOk) := by
  obtain ⟨keep, reserve, retries, cancelled, aborted⟩ := timers
  unfold ConnectionImpl.closing
  split
  · rename_i both
    obtain ⟨shutdown, opened⟩ := both
    have before : OnlyTimers { conn with status := .closing }
        { conn with
          status := .closing
          keepTimer := keep
          closeReserveTimer := reserve
          postRetryCount := retries
          strand := conn.strand ++ cancelled } := .moved _ _ _ _ aborted
    exact .beginsClosing failed shutdown opened (before.trans (OnlyTimers.cancelBoth _)).withPosted
  · rename_i refused
    refine .staysAsItWas failed ?_ (.moved _ _ _ _ aborted)
    by_cases shutdown : shutdownOk = true
    · right
      intro opened
      exact refused ⟨shutdown, opened⟩
    · left
      simpa using shutdown

theorem close_ran {handler : Handler} {conn : ConnectionImpl κ} (asked : AsksClose conn handler) :
    Ran procedure shutdownOk surroundings handler conn (conn.close shutdownOk) := by
  unfold ConnectionImpl.close
  split
  · rename_i shutdown
    have timers := (OnlyTimers.cancelBoth { conn with status := .close }).withEvents [.onClose]
    exact .closes asked shutdown timers
  · rename_i failed
    exact .closeFails asked (by simpa using failed)

theorem readHandler_ran (ec : ErrorCode) (chunk : List UInt8) (conn : ConnectionImpl κ) :
    Ran procedure shutdownOk surroundings (.readHandler ec chunk) conn
      (conn.readHandler shutdownOk ec chunk) := by
  unfold ConnectionImpl.readHandler
  split
  · rename_i completed
    subst completed
    split
    · rename_i fault filled
      exact .overruns rfl filled
    · rename_i msgRecv filled
      exact .reads rfl filled (OnlyTimers.renewExpireTime _)
  · rename_i error
    have failed : Failed (.readHandler ec chunk) := ⟨ec, error, Or.inr ⟨chunk, rfl⟩⟩
    split
    · rename_i counted
      split
      · exact .retries rfl error counted.2.2
      · exact closing_ran failed (OnlyTimers.set _ _ _ _)
    · exact closing_ran failed (OnlyTimers.refl conn)

theorem writeHandler_ran (ec : ErrorCode) (conn : ConnectionImpl κ) :
    Ran procedure shutdownOk surroundings (.writeHandler ec) conn
      (conn.writeHandler shutdownOk ec) := by
  unfold ConnectionImpl.writeHandler
  split
  · rename_i completed
    subst completed
    exact .idles (Or.inl rfl) (OnlyTimers.renewExpireTime conn)
  · rename_i error
    exact closing_ran ⟨ec, error, Or.inl rfl⟩ (OnlyTimers.refl conn)

theorem dispatch_ran (msg : MessageBuffer) (conn : ConnectionImpl κ) :
    Ran procedure shutdownOk surroundings (.dispatch msg) conn
      (conn.dispatch procedure surroundings msg) := by
  unfold ConnectionImpl.dispatch
  split
  · rename_i notOpened
    exact .drops rfl notOpened
  · rename_i still
    have opened : conn.status = .opened := not_not.mp still
    simp only
    split
    · rename_i fault raised
      exact .raises rfl opened raised
    · rename_i result returned
      exact .parses rfl opened returned

theorem onExpireTime_ran (ec : ErrorCode) (conn : ConnectionImpl κ) :
    Ran procedure shutdownOk surroundings (.onExpireTime ec) conn (conn.onExpireTime ec) := by
  unfold ConnectionImpl.onExpireTime
  split
  · rename_i both
    obtain ⟨completed, opened⟩ := both
    exact .expires (by rw [completed]) opened
  · exact .idles (Or.inr (Or.inl ⟨ec, rfl⟩)) (OnlyTimers.refl conn)

theorem onCloseReserveTime_ran (ec : ErrorCode) (conn : ConnectionImpl κ) :
    Ran procedure shutdownOk surroundings (.onCloseReserveTime ec) conn
      (conn.onCloseReserveTime shutdownOk ec) := by
  unfold ConnectionImpl.onCloseReserveTime
  split
  · rename_i both
    obtain ⟨completed, opened⟩ := both
    exact close_ran (Or.inr ⟨by rw [completed], opened⟩)
  · exact .idles (Or.inr (Or.inr ⟨ec, rfl⟩)) (OnlyTimers.refl conn)

/-- Every handler has one of the listed outcomes. -/
theorem runHandler_ran (procedure : MessageProcedure κ ε) (shutdownOk : Bool) (surroundings : ε)
    (handler : Handler) (conn : ConnectionImpl κ) :
    Ran procedure shutdownOk surroundings handler conn
      (ConnectionImpl.runHandler procedure shutdownOk surroundings handler conn) := by
  cases handler with
  | readHandler ec chunk => exact readHandler_ran ec chunk conn
  | dispatch msg => exact dispatch_ran msg conn
  | writeHandler ec => exact writeHandler_ran ec conn
  | close => exact close_ran (Or.inl rfl)
  | onExpireTime ec => exact onExpireTime_ran ec conn
  | onCloseReserveTime ec => exact onCloseReserveTime_ran ec conn

/-! ### Labels -/

/-- A call that hands a frame to `async_write`. -/
def IsSend (label : Label ε) : Prop :=
  (∃ msg, label = .send msg) ∨ (∃ sendBuffer, label = .sendRaw sendBuffer) ∨
    ∃ sendBuffer, label = .sendPacket sendBuffer

/-- The outcomes of one label. -/
inductive Took (procedure : MessageProcedure κ ε) (label : Label ε) (conn : ConnectionImpl κ) :
    ConnectionImpl κ → Prop where
  | arrives {chunk : List UInt8} (isRead : label = .readSome chunk) (readable : conn.Readable chunk) :
      Took procedure label conn
        { conn with reading := false, strand := conn.strand ++ [.readHandler noError chunk] }
  | breaksOff {ec : ErrorCode} (isRead : label = .readFails ec) (reading : conn.reading = true)
      (error : ec ≠ noError) :
      Took procedure label conn
        { conn with reading := false, strand := conn.strand ++ [.readHandler ec []] }
  | sends {frame : List UInt8} (isSend : IsSend label) :
      Took procedure label conn
        { conn with writes := conn.writes ++ [frame], frames := conn.frames ++ [frame] }
  | refuses (isSend : IsSend label) : Took procedure label conn conn
  | transfers {index count : Nat} {remaining : List UInt8} (isTransfer : label = .transfer index count)
      (outstanding : conn.writes[index]? = some remaining) (usable : conn.broken = false) :
      Took procedure label conn
        { conn with
          writes := conn.writes.set index (remaining.drop count)
          wire := conn.wire ++ remaining.take count }
  | finishes {index : Nat} {others : List (List UInt8)} (isDone : label = .writeDone index)
      (picked : pick index conn.writes = some ([], others)) :
      Took procedure label conn
        { conn with writes := others, strand := conn.strand ++ [.writeHandler noError] }
  | gives {index : Nat} {ec : ErrorCode} {remaining : List UInt8} {others : List (List UInt8)}
      (isFailure : label = .writeFails index ec) (picked : pick index conn.writes = some (remaining, others))
      (error : ec ≠ noError) :
      Took procedure label conn
        { conn with writes := others, broken := true, strand := conn.strand ++ [.writeHandler ec] }
  | reserves (isReserve : label = .closeReserve) {later : ConnectionImpl κ}
      (timers : OnlyTimers conn later) : Took procedure label conn later
  | expires (isExpiry : label = .keepExpires) {later : ConnectionImpl κ}
      (timers : OnlyTimers { conn with strand := conn.strand ++ [.onExpireTime noError] } later) :
      Took procedure label conn later
  | reserveExpires (isExpiry : label = .closeReserveExpires) {later : ConnectionImpl κ}
      (timers : OnlyTimers { conn with strand := conn.strand ++ [.onCloseReserveTime noError] } later) :
      Took procedure label conn later
  | queuesClose (isPosted : label = .iosRuns) (waiting : 0 < conn.posted) :
      Took procedure label conn
        { conn with posted := conn.posted - 1, strand := conn.strand ++ [.close] }
  | runs {index : Nat} {shutdownOk : Bool} {surroundings : ε} {handler : Handler}
      {others : List Handler} {later : ConnectionImpl κ}
      (isRun : label = .run index shutdownOk surroundings)
      (picked : pick index conn.strand = some (handler, others))
      (ran : Ran procedure shutdownOk surroundings handler { conn with strand := others } later) :
      Took procedure label conn later

/-- Every step has one of the listed outcomes, and no step is taken once an exception has escaped. -/
theorem step_took {conn later : ConnectionImpl κ} {label : Label ε}
    (taken : conn.step procedure label = some later) :
    conn.terminated = none ∧ Took procedure label conn later := by
  unfold ConnectionImpl.step at taken
  split at taken
  · cases taken
  · rename_i running
    refine ⟨not_not.mp running, ?_⟩
    cases label with
    | readSome chunk =>
        simp only at taken
        split at taken
        · rename_i readable
          cases taken
          exact .arrives rfl readable
        · cases taken
    | readFails ec =>
        simp only at taken
        split at taken
        · rename_i both
          cases taken
          exact .breaksOff rfl both.1 both.2
        · cases taken
    | send msg =>
        cases taken
        exact .sends (Or.inl ⟨msg, rfl⟩)
    | sendRaw sendBuffer =>
        cases taken
        exact .sends (Or.inr (Or.inl ⟨sendBuffer, rfl⟩))
    | sendPacket sendBuffer =>
        have isSend : IsSend (.sendPacket sendBuffer : Label ε) := Or.inr (Or.inr ⟨sendBuffer, rfl⟩)
        simp only [ConnectionImpl.sendPacket] at taken
        split at taken
        · cases taken
          exact .refuses isSend
        · cases taken
          exact .sends isSend
    | closeReserve =>
        cases taken
        exact .reserves rfl (OnlyTimers.closeReserve conn)
    | transfer index count =>
        simp only at taken
        split at taken
        · cases taken
        · rename_i remaining outstanding
          split at taken
          · rename_i possible
            cases taken
            exact .transfers rfl outstanding possible.1
          · cases taken
    | writeDone index =>
        simp only at taken
        split at taken
        · rename_i others picked
          cases taken
          exact .finishes rfl picked
        · cases taken
    | writeFails index ec =>
        simp only at taken
        split at taken
        · cases taken
        · rename_i remaining others picked
          split at taken
          · rename_i error
            cases taken
            exact .gives rfl picked error
          · cases taken
    | keepExpires =>
        simp only at taken
        split at taken
        · cases taken
          exact .expires rfl (OnlyTimers.set _ _ _ _)
        · cases taken
    | closeReserveExpires =>
        simp only at taken
        split at taken
        · cases taken
          exact .reserveExpires rfl (OnlyTimers.set _ _ _ _)
        · cases taken
    | iosRuns =>
        simp only at taken
        split at taken
        · rename_i waiting
          cases taken
          exact .queuesClose rfl waiting
        · cases taken
    | run index shutdownOk surroundings =>
        simp only at taken
        split at taken
        · cases taken
        · rename_i handler others picked
          cases taken
          exact .runs rfl picked (runHandler_ran procedure shutdownOk surroundings handler _)

/-- What one step adds to the log of a connection: nothing, a chunk, a notification, or a message that was
    queued with what the parser calls at it. -/
inductive Adds (procedure : MessageProcedure κ ε) (conn : ConnectionImpl κ) : List (Event κ) → Prop where
  | nothing : Adds procedure conn []
  | received (chunk : List UInt8) : Adds procedure conn [.received chunk]
  | expired : Adds procedure conn [.onExpiredSession]
  | closed : Adds procedure conn [.onClose]
  | parsed (surroundings : ε) (msg : MessageBuffer) (queued : .dispatch msg ∈ conn.strand) :
      Adds procedure conn (Event.parsed msg.bytes ::
        (procedure.packetParsingFunction surroundings msg).calls.map Event.call)

/-- A step changes the log at its end only. -/
theorem step_adds {conn later : ConnectionImpl κ} {label : Label ε}
    (taken : conn.step procedure label = some later) :
    ∃ events, later.log = conn.log ++ events ∧ Adds procedure conn events := by
  have unseen : later.log = conn.log → ∃ events, later.log = conn.log ++ events ∧ Adds procedure conn events :=
    fun log => ⟨[], log.trans (List.append_nil _).symm, .nothing⟩
  cases (step_took taken).2 with
  | reserves isReserve timers => exact unseen timers.same.log
  | expires isExpiry timers => exact unseen timers.same.log
  | reserveExpires isExpiry timers => exact unseen timers.same.log
  | runs isRun picked ran =>
      cases ran with
      | reads isRead filled timers => exact ⟨_, timers.same.log, .received _⟩
      | beginsClosing failed shutdown opened timers => exact unseen timers.same.log
      | staysAsItWas failed reason timers => exact unseen timers.same.log
      | parses isDispatch opened returned =>
          subst isDispatch
          exact ⟨_, rfl, .parsed _ _ (mem_of_pick picked)⟩
      | raises isDispatch opened raised =>
          subst isDispatch
          exact ⟨_, rfl, .parsed _ _ (mem_of_pick picked)⟩
      | closes asked shutdown timers => exact ⟨_, timers.same.log, .closed⟩
      | expires isExpiry opened => exact ⟨_, rfl, .expired⟩
      | idles idle timers => exact unseen timers.same.log
      | _ => exact unseen rfl
  | _ => exact unseen rfl

/-- No guard: any order of handlers, any completions, any outcome of a shutdown. -/
def anyStep (_ : ConnectionImpl κ) (_ : Label ε) : Bool := true

/-- The state after a label; a label that is not possible leaves the state as it is. -/
def nextState (procedure : MessageProcedure κ ε) (conn : ConnectionImpl κ) (label : Label ε) :
    ConnectionImpl κ :=
  (conn.step procedure label).getD conn

theorem nextState_some {conn later : ConnectionImpl κ} {label : Label ε}
    (taken : conn.step procedure label = some later) : nextState procedure conn label = later := by
  rw [nextState, taken, Option.getD_some]

theorem nextState_none {conn : ConnectionImpl κ} {label : Label ε}
    (impossible : conn.step procedure label = none) : nextState procedure conn label = conn := by
  rw [nextState, impossible, Option.getD_none]

/-- The handler that a label runs, with the surroundings it is run in; none once an exception has escaped. -/
def handlerRun (conn : ConnectionImpl κ) : Label ε → Option (Handler × ε)
  | .run index _ surroundings =>
      if conn.terminated ≠ none then none
      else (pick index conn.strand).map fun picked => (picked.1, surroundings)
  | _ => none

theorem handlerRun_run {conn : ConnectionImpl κ} (running : conn.terminated = none) {index : Nat}
    {handler : Handler} {others : List Handler}
    (picked : pick index conn.strand = some (handler, others)) (shutdownOk : Bool) (surroundings : ε) :
    handlerRun conn (.run index shutdownOk surroundings) = some (handler, surroundings) := by
  rw [handlerRun, if_neg (not_not.mpr running), picked]
  rfl

/-- A call that hands over a frame runs no handler. -/
theorem IsSend.handlerRun {label : Label ε} (isSend : IsSend label) (conn : ConnectionImpl κ) :
    handlerRun conn label = none := by
  rcases isSend with ⟨_, rfl⟩ | ⟨_, rfl⟩ | ⟨_, rfl⟩
  · rfl
  · rfl
  · rfl

/-- A handler that a label runs is taken out of the strand of a connection that no exception has left. -/
theorem handlerRun_step (procedure : MessageProcedure κ ε) {conn : ConnectionImpl κ} {label : Label ε}
    {handler : Handler} {surroundings : ε} (ran : handlerRun conn label = some (handler, surroundings)) :
    ∃ index shutdownOk others, label = .run index shutdownOk surroundings ∧ conn.terminated = none ∧
      pick index conn.strand = some (handler, others) ∧
      conn.step procedure label =
        some (ConnectionImpl.runHandler procedure shutdownOk surroundings handler
          { conn with strand := others }) := by
  cases label with
  | run index shutdownOk around =>
      by_cases stopped : conn.terminated ≠ none
      · rw [handlerRun, if_pos stopped] at ran
        cases ran
      · rw [handlerRun, if_neg stopped] at ran
        obtain ⟨⟨chosen, others⟩, picked, same⟩ := Option.map_eq_some_iff.mp ran
        cases same
        refine ⟨index, shutdownOk, others, rfl, not_not.mp stopped, picked, ?_⟩
        rw [ConnectionImpl.step, if_neg stopped]
        simp only [picked]
  | _ => cases ran

/-! ### The start -/

/-- A connection at its start: open, reading, and nothing else but waits of the keep-alive timer. -/
structure JustStarted (conn : ConnectionImpl κ) : Prop where
  status : conn.status = .opened
  msg : conn.msg = newMessageBuffer conn.msgManipulator
  readHandlerPending : conn.readHandlerPending = 0
  strand : ∀ handler ∈ conn.strand, ∃ ec, handler = .onExpireTime ec
  posted : conn.posted = 0
  reading : conn.reading = true
  writes : conn.writes = []
  wire : conn.wire = []
  frames : conn.frames = []
  log : conn.log = []
  terminated : conn.terminated = none

theorem started_justStarted (procedure : MessageProcedure κ ε) (keepAliveTime : Nat) (expired : Bool) :
    JustStarted (ConnectionImpl.started procedure keepAliveTime expired) := by
  by_cases forever : keepAliveTime = 0
  · constructor <;>
      simp [ConnectionImpl.started, ConnectionImpl.created, ConnectionImpl.startAccept,
        ConnectionImpl.renewExpireTime, forever]
  · cases expired with
    | false =>
        constructor <;>
          simp [ConnectionImpl.started, ConnectionImpl.created, ConnectionImpl.startAccept,
            ConnectionImpl.renewExpireTime, ConnectionImpl.cancelKeepTimer, forever]
    | true =>
        constructor <;>
          simp [ConnectionImpl.started, ConnectionImpl.created, ConnectionImpl.startAccept,
            ConnectionImpl.renewExpireTime, ConnectionImpl.cancelKeepTimer, forever]

end LobbySvr.Proofs
