/-
Module: LobbySvr.Proofs.ConnectionClose
Layer: Proofs
Purpose: Closing a connection.  A `close` call that is posted or queued exists only while the connection is
  closing, and at most one does; so `onClose` is called at most once, the status only moves forward, and
  no packet handler is called afterwards, in any order of handlers.  The notification can be lost: both
  shutdown calls drop the transition when they fail.  It is not lost in runs where they succeed.
Imports: LobbySvr.Proofs.ConnectionSteps, LobbySvr.Lobby.PacketParserJson
Trusted boundary: none
Main exports: closeTokens, closings, CloseOnce, closeOnce_step, Advances, QuietAfterClose,
  close_once_and_final, Settled, OnItsWay, settled_notified
Open obligations: none
-/
import LobbySvr.Proofs.ConnectionSteps
import LobbySvr.Lobby.PacketParserJson

namespace LobbySvr.Proofs

open LobbySvr.Foundation
open LobbySvr.Net
open LobbySvr.Lobby

variable {κ ε : Type} {procedure : MessageProcedure κ ε}

/-- Whether a queued handler is the posted `close`. -/
def isClose : Handler → Bool
  | .close => true
  | _ => false

/-- Whether an event is the close notification. -/
def isOnClose : Event κ → Bool
  | .onClose => true
  | _ => false

/-- The `close` calls on their way, in the `io_service` or in the strand. -/
def closeTokens (conn : ConnectionImpl κ) : Nat := conn.posted + conn.strand.countP isClose

/-- How often `onClose` has been called. -/
def closings (log : List (Event κ)) : Nat := log.countP isOnClose

theorem closings_append (log more : List (Event κ)) :
    closings (log ++ more) = closings log + closings more := List.countP_append ..

/-- The events of a parser run are no close notifications. -/
theorem closings_parsed (bytes : List UInt8) (calls : List (Call κ)) :
    closings (Event.parsed bytes :: calls.map Event.call) = 0 := by
  simp [closings, List.countP_eq_zero, isOnClose]

/-! ### At most one close -/

/-- What may be on its way, and what has been notified, in each status. -/
structure CloseOnce (conn : ConnectionImpl κ) : Prop where
  opened : conn.status = .opened → closeTokens conn = 0 ∧ closings conn.log = 0
  closing : conn.status = .closing → closeTokens conn ≤ 1 ∧ closings conn.log = 0
  close : conn.status = .close → closeTokens conn = 0 ∧ closings conn.log = 1

/-- The invariant only looks at the status, the tokens and the notifications. -/
theorem CloseOnce.congr {conn later : ConnectionImpl κ} (once : CloseOnce conn)
    (status : later.status = conn.status) (tokens : closeTokens later = closeTokens conn)
    (notified : closings later.log = closings conn.log) : CloseOnce later := by
  constructor
  · intro opened
    rw [tokens, notified]
    exact once.opened (status ▸ opened)
  · intro closing
    rw [tokens, notified]
    exact once.closing (status ▸ closing)
  · intro close
    rw [tokens, notified]
    exact once.close (status ▸ close)

theorem OnlyTimers.closeTokens {conn later : ConnectionImpl κ} (timers : OnlyTimers conn later) :
    closeTokens later = closeTokens conn := by
  rw [Proofs.closeTokens, Proofs.closeTokens, timers.same.posted, timers.countP rfl rfl]

theorem CloseOnce.onlyTimers {conn later : ConnectionImpl κ} (once : CloseOnce conn)
    (timers : OnlyTimers conn later) : CloseOnce later := by
  have log : closings later.log = closings conn.log := by rw [timers.same.log]
  exact once.congr timers.same.status timers.closeTokens log

/-- A queued `close` means that the connection is closing. -/
theorem CloseOnce.closing_of_token {conn : ConnectionImpl κ} (once : CloseOnce conn)
    (token : 0 < closeTokens conn) : conn.status = .closing := by
  cases status : conn.status with
  | opened =>
      have noTokens := (once.opened status).1
      omega
  | closing => rfl
  | close =>
      have noTokens := (once.close status).1
      omega

/-- The moves of a status: none, from open to closing, from closing to close, or from open to close. -/
inductive Advances : Status → Status → Prop where
  | stays (status : Status) : Advances status status
  | begins : Advances .opened .closing
  | finishes : Advances .closing .close
  | closes : Advances .opened .close

theorem Advances.trans {first second third : Status} (earlier : Advances first second)
    (later : Advances second third) : Advances first third := by
  cases earlier with
  | stays => exact later
  | begins =>
      cases later with
      | stays => exact .begins
      | finishes => exact .closes
  | finishes =>
      cases later with
      | stays => exact .finishes
  | closes =>
      cases later with
      | stays => exact .closes

/-- What a queued handler counts for. -/
theorem closeTokens_pick {conn : ConnectionImpl κ} {index : Nat} {handler : Handler}
    {others : List Handler} (picked : pick index conn.strand = some (handler, others)) :
    closeTokens conn =
      closeTokens { conn with strand := others } + if isClose handler = true then 1 else 0 := by
  simp only [closeTokens]
  rw [pick_countP picked isClose, Nat.add_assoc]

/-- When a handler calls `close`, nothing has been notified and no other `close` is on its way. -/
theorem CloseOnce.asked {conn : ConnectionImpl κ} {index : Nat} {handler : Handler}
    {others : List Handler} (once : CloseOnce conn)
    (picked : pick index conn.strand = some (handler, others))
    (asked : AsksClose { conn with strand := others } handler) :
    closeTokens { conn with strand := others } = 0 ∧ closings conn.log = 0 ∧
      Advances conn.status .close := by
  have counted := closeTokens_pick picked
  rcases asked with rfl | ⟨rfl, opened⟩
  · have isToken : 0 < closeTokens conn := by
      rw [counted]
      simp [isClose]
    have closing := once.closing_of_token isToken
    obtain ⟨atMostOne, notNotified⟩ := once.closing closing
    rw [counted] at atMostOne
    refine ⟨by simpa [isClose] using atMostOne, notNotified, ?_⟩
    rw [closing]
    exact .finishes
  · have wasOpened : conn.status = .opened := opened
    obtain ⟨noTokens, notNotified⟩ := once.opened wasOpened
    rw [counted] at noTokens
    refine ⟨by simpa [isClose] using noTokens, notNotified, ?_⟩
    rw [wasOpened]
    exact .closes

/-- One handler keeps the invariant and moves the status forward. -/
theorem closeOnce_ran {shutdownOk : Bool} {surroundings : ε} {conn later : ConnectionImpl κ}
    {index : Nat} {handler : Handler} {others : List Handler} (once : CloseOnce conn)
    (picked : pick index conn.strand = some (handler, others))
    (ran : Ran procedure shutdownOk surroundings handler { conn with strand := others } later) :
    CloseOnce later ∧ Advances conn.status later.status := by
  have counted := closeTokens_pick picked
  -- A handler other than `close` leaves the tokens as they are when it is taken out of the strand.
  have held : isClose handler = false → CloseOnce { conn with strand := others } := by
    intro other
    rw [other] at counted
    exact once.congr rfl (by simpa using counted.symm) rfl
  cases ran with
  | reads isRead filled timers =>
      subst isRead
      refine ⟨CloseOnce.onlyTimers ((held rfl).congr ?_ ?_ ?_) timers, ?_⟩
      · rfl
      · simp [closeTokens, isClose]
      · simp [closings, isOnClose]
      · rw [timers.same.status]
        exact .stays _
  | overruns isRead filled =>
      subst isRead
      exact ⟨(held rfl).congr rfl rfl rfl, .stays _⟩
  | retries isRead failed pending =>
      subst isRead
      refine ⟨(held rfl).congr rfl ?_ rfl, .stays _⟩
      simp [closeTokens, isClose]
  | beginsClosing failed shutdown opened timers =>
      have wasOpened : conn.status = .opened := opened
      obtain ⟨noTokens, notNotified⟩ := once.opened wasOpened
      refine ⟨CloseOnce.onlyTimers ?_ timers, ?_⟩
      · constructor
        · intro wrong
          cases wrong
        · intro _
          refine ⟨?_, notNotified⟩
          simp only [closeTokens] at noTokens counted ⊢
          omega
        · intro wrong
          cases wrong
      · rw [timers.same.status, wasOpened]
        exact .begins
  | staysAsItWas failed reason timers =>
      have other : isClose handler = false := by
        obtain ⟨ec, _, rfl | ⟨chunk, rfl⟩⟩ := failed
        · rfl
        · rfl
      refine ⟨(held other).onlyTimers timers, ?_⟩
      rw [timers.same.status]
      exact .stays _
  | parses isDispatch opened returned =>
      subst isDispatch
      refine ⟨(held rfl).congr rfl rfl ?_, .stays _⟩
      rw [closings_append, closings_parsed, Nat.add_zero]
  | raises isDispatch opened raised =>
      subst isDispatch
      refine ⟨(held rfl).congr rfl rfl ?_, .stays _⟩
      rw [closings_append, closings_parsed, Nat.add_zero]
  | drops isDispatch notOpened =>
      subst isDispatch
      exact ⟨held rfl, .stays _⟩
  | closes asked shutdown timers =>
      obtain ⟨noTokens, notNotified, advances⟩ := once.asked picked asked
      refine ⟨CloseOnce.onlyTimers ?_ timers, ?_⟩
      · constructor
        · intro wrong
          cases wrong
        · intro wrong
          cases wrong
        · intro _
          refine ⟨noTokens, ?_⟩
          rw [closings_append, notNotified]
          rfl
      · rw [timers.same.status]
        exact advances
  | closeFails asked failed =>
      refine ⟨?_, .stays _⟩
      rcases asked with rfl | ⟨rfl, _⟩
      · have isToken : 0 < closeTokens conn := by
          rw [counted]
          simp [isClose]
        have closing := once.closing_of_token isToken
        obtain ⟨atMostOne, notNotified⟩ := once.closing closing
        have less : closeTokens { conn with strand := others } ≤ 1 := by
          rw [counted] at atMostOne
          omega
        refine ⟨?_, fun _ => ⟨less, notNotified⟩, ?_⟩
        · intro opened
          cases closing.symm.trans opened
        · intro close
          cases closing.symm.trans close
      · exact held rfl
  | expires isExpiry opened =>
      subst isExpiry
      refine ⟨(held rfl).congr rfl rfl ?_, .stays _⟩
      simp [closings, isOnClose]
  | idles idle timers =>
      have other : isClose handler = false := by
        rcases idle with rfl | ⟨ec, rfl⟩ | ⟨ec, rfl⟩
        · rfl
        · rfl
        · rfl
      refine ⟨(held other).onlyTimers timers, ?_⟩
      rw [timers.same.status]
      exact .stays _

/-- Every step keeps the invariant and moves the status forward. -/
theorem closeOnce_step {conn later : ConnectionImpl κ} {label : Label ε} (once : CloseOnce conn)
    (taken : conn.step procedure label = some later) :
    CloseOnce later ∧ Advances conn.status later.status := by
  cases (step_took taken).2 with
  | arrives isRead readable =>
      refine ⟨once.congr rfl ?_ rfl, .stays _⟩
      simp [closeTokens, isClose]
  | breaksOff isRead reading error =>
      refine ⟨once.congr rfl ?_ rfl, .stays _⟩
      simp [closeTokens, isClose]
  | sends isSend => exact ⟨once.congr rfl rfl rfl, .stays _⟩
  | refuses isSend => exact ⟨once, .stays _⟩
  | transfers isTransfer outstanding usable => exact ⟨once.congr rfl rfl rfl, .stays _⟩
  | finishes isDone picked =>
      refine ⟨once.congr rfl ?_ rfl, .stays _⟩
      simp [closeTokens, isClose]
  | gives isFailure picked error =>
      refine ⟨once.congr rfl ?_ rfl, .stays _⟩
      simp [closeTokens, isClose]
  | reserves isReserve timers =>
      refine ⟨once.onlyTimers timers, ?_⟩
      rw [timers.same.status]
      exact .stays _
  | expires isExpiry timers =>
      refine ⟨CloseOnce.onlyTimers (once.congr ?_ ?_ ?_) timers, ?_⟩
      · rfl
      · simp [closeTokens, isClose]
      · rfl
      · rw [timers.same.status]
        exact .stays _
  | reserveExpires isExpiry timers =>
      refine ⟨CloseOnce.onlyTimers (once.congr ?_ ?_ ?_) timers, ?_⟩
      · rfl
      · simp [closeTokens, isClose]
      · rfl
      · rw [timers.same.status]
        exact .stays _
  | queuesClose isPosted waiting =>
      refine ⟨once.congr rfl ?_ rfl, .stays _⟩
      have one : [Handler.close].countP isClose = 1 := rfl
      simp only [closeTokens, List.countP_append, one]
      omega
  | runs isRun picked ran => exact closeOnce_ran once picked ran

theorem JustStarted.closeOnce {conn : ConnectionImpl κ} (start : JustStarted conn) :
    CloseOnce conn := by
  have noClose : conn.strand.countP isClose = 0 := by
    rw [List.countP_eq_zero]
    intro handler member
    obtain ⟨ec, rfl⟩ := start.strand handler member
    simp [isClose]
  constructor
  · intro _
    rw [closeTokens, start.posted, noClose, start.log]
    exact ⟨rfl, rfl⟩
  · intro closing
    cases start.status.symm.trans closing
  · intro close
    cases start.status.symm.trans close

/-! ### Nothing is handed on after the notification -/

/-- Whether an event is a call of the parser. -/
def isCall : Event κ → Bool
  | .call _ => true
  | _ => false

/-- Behind a close notification there is no call of a packet handler. -/
def QuietAfterClose (log : List (Event κ)) : Prop :=
  ∀ before after, log = before ++ Event.onClose :: after → ∀ event ∈ after, isCall event = false

theorem onClose_mem_iff (log : List (Event κ)) : Event.onClose ∈ log ↔ closings log ≠ 0 := by
  constructor
  · intro member zero
    have test := List.countP_eq_zero.mp zero Event.onClose member
    exact test rfl
  · intro notZero
    obtain ⟨event, member, test⟩ := List.countP_pos_iff.mp (Nat.pos_of_ne_zero notZero)
    cases event with
    | onClose => exact member
    | _ => cases test

/-- Events behind a log that is quiet after its close. -/
theorem QuietAfterClose.append {log more : List (Event κ)} (quiet : QuietAfterClose log)
    (notClose : closings more = 0)
    (allowed : (∀ event ∈ more, isCall event = false) ∨ closings log = 0) :
    QuietAfterClose (log ++ more) := by
  intro before after split event member
  have fresh : Event.onClose ∉ more := fun inMore => (onClose_mem_iff more).mp inMore notClose
  obtain ⟨earlier, inLog, rfl⟩ := append_eq_split fresh split
  rcases allowed with noCalls | notClosed
  · rcases List.mem_append.mp member with member | member
    · exact quiet before earlier inLog event member
    · exact noCalls event member
  · have closed : Event.onClose ∈ log := by
      rw [inLog]
      exact List.mem_append_right before (List.mem_cons_self ..)
    exact absurd notClosed ((onClose_mem_iff log).mp closed)

/-- The first close notification, at the end of a log. -/
theorem QuietAfterClose.onClose {log : List (Event κ)} (notClosed : closings log = 0) :
    QuietAfterClose (log ++ [Event.onClose]) := by
  intro before after split event member
  have fresh : Event.onClose ∉ log := fun closed => (onClose_mem_iff log).mp closed notClosed
  obtain ⟨_, rfl⟩ := append_singleton_split fresh split
  cases member

/-- One handler keeps the log quiet after its close. -/
theorem quietAfterClose_ran {shutdownOk : Bool} {surroundings : ε} {conn later : ConnectionImpl κ}
    {index : Nat} {handler : Handler} {others : List Handler} (once : CloseOnce conn)
    (quiet : QuietAfterClose conn.log) (picked : pick index conn.strand = some (handler, others))
    (ran : Ran procedure shutdownOk surroundings handler { conn with strand := others } later) :
    QuietAfterClose later.log := by
  cases ran with
  | reads isRead filled timers =>
      rw [timers.same.log]
      exact quiet.append rfl (Or.inl (by simp [isCall]))
  | overruns isRead filled => exact quiet
  | retries isRead failed pending => exact quiet
  | beginsClosing failed shutdown opened timers =>
      rw [timers.same.log]
      exact quiet
  | staysAsItWas failed reason timers =>
      rw [timers.same.log]
      exact quiet
  | parses isDispatch opened returned =>
      exact quiet.append (closings_parsed _ _) (Or.inr (once.opened opened).2)
  | raises isDispatch opened raised =>
      exact quiet.append (closings_parsed _ _) (Or.inr (once.opened opened).2)
  | drops isDispatch notOpened => exact quiet
  | closes asked shutdown timers =>
      rw [timers.same.log]
      exact QuietAfterClose.onClose (once.asked picked asked).2.1
  | closeFails asked failed => exact quiet
  | expires isExpiry opened => exact quiet.append rfl (Or.inl (by simp [isCall]))
  | idles idle timers =>
      rw [timers.same.log]
      exact quiet

theorem quietAfterClose_step {conn later : ConnectionImpl κ} {label : Label ε} (once : CloseOnce conn)
    (quiet : QuietAfterClose conn.log) (taken : conn.step procedure label = some later) :
    QuietAfterClose later.log := by
  cases (step_took taken).2 with
  | reserves isReserve timers =>
      rw [timers.same.log]
      exact quiet
  | expires isExpiry timers =>
      rw [timers.same.log]
      exact quiet
  | reserveExpires isExpiry timers =>
      rw [timers.same.log]
      exact quiet
  | runs isRun picked ran => exact quietAfterClose_ran once quiet picked ran
  | _ => exact quiet

/-- The two invariants of closing, in every state a started connection comes to. -/
theorem reaches_closeOnce {guard : ConnectionImpl κ → Label ε → Bool} {start conn : ConnectionImpl κ}
    (just : JustStarted start) (reached : Reaches (ConnectionImpl.step procedure) guard start conn) :
    CloseOnce conn ∧ QuietAfterClose conn.log := by
  refine Reaches.invariant (motive := fun conn => CloseOnce conn ∧ QuietAfterClose conn.log)
    ⟨just.closeOnce, ?_⟩ ?_ reached
  · intro before after split
    rw [just.log] at split
    cases before with
    | nil => cases split
    | cons first before => cases split
  · intro state later label _ invariants _ taken
    obtain ⟨once, quiet⟩ := invariants
    exact ⟨(closeOnce_step once taken).1, quietAfterClose_step once quiet taken⟩

/-- Along a run the status only moves forward. -/
theorem reaches_advances {guard : ConnectionImpl κ → Label ε → Bool} {conn later : ConnectionImpl κ}
    (once : CloseOnce conn) (reached : Reaches (ConnectionImpl.step procedure) guard conn later) :
    Advances conn.status later.status := by
  have both : CloseOnce later ∧ Advances conn.status later.status := by
    refine Reaches.invariant
      (motive := fun later => CloseOnce later ∧ Advances conn.status later.status)
      ⟨once, .stays _⟩ ?_ reached
    intro state later label _ invariants _ taken
    obtain ⟨onceState, advanced⟩ := invariants
    obtain ⟨onceLater, advances⟩ := closeOnce_step onceState taken
    exact ⟨onceLater, advanced.trans advances⟩
  exact both.2

/-- Closing happens at most once and is final.  In every state of every run of a started connection,
    `onClose` has been called at most once and no packet handler has been called behind it, and in
    whatever way the run goes on, the status only moves forward. -/
theorem close_once_and_final (procedure : MessageProcedure κ ε) (keepAliveTime : Nat) (expired : Bool)
    {conn : ConnectionImpl κ}
    (reached : Reaches (ConnectionImpl.step procedure) anyStep
      (ConnectionImpl.started procedure keepAliveTime expired) conn) :
    closings conn.log ≤ 1 ∧ QuietAfterClose conn.log ∧
      ∀ later, Reaches (ConnectionImpl.step procedure) anyStep conn later →
        Advances conn.status later.status := by
  obtain ⟨once, quiet⟩ := reaches_closeOnce (started_justStarted procedure keepAliveTime expired) reached
  refine ⟨?_, quiet, fun later goesOn => reaches_advances once goesOn⟩
  cases status : conn.status with
  | opened =>
      rw [(once.opened status).2]
      exact Nat.zero_le 1
  | closing =>
      rw [(once.closing status).2]
      exact Nat.zero_le 1
  | close => exact Nat.le_of_eq (once.close status).2

/-- A connection that the peer resets after a heartbeat, with shutdowns that succeed. -/
theorem close_once_and_final_reset :
    ∃ conn, Reaches (ConnectionImpl.step (lobbyProcedure fun _ => some ())) anyStep
        (ConnectionImpl.started (lobbyProcedure fun _ => some ()) 0 false) conn ∧
      conn.log = [.received [5, 0, 0, 0, 1, 0, 0, 0, 3], .parsed [5, 0, 0, 0, 1, 0, 0, 0, 3],
        .call (.handler .heartBeat 1 [3]), .onClose] ∧
      closings conn.log ≤ 1 ∧ QuietAfterClose conn.log := by
  obtain ⟨conn, reached, log⟩ := exists_reaches (fun conn : ConnectionImpl LobbyHandler => conn.log)
    (show (runGuarded (ConnectionImpl.step (lobbyProcedure fun _ => some ())) anyStep
      (ConnectionImpl.started (lobbyProcedure fun _ => some ()) 0 false)
      [.readSome [5, 0, 0, 0, 1, 0, 0, 0, 3], .run 0 true (true, []), .readFails 104,
        .run 0 true (true, []), .run 0 true (true, []), .iosRuns, .run 0 true (true, [])]).map
          (fun conn => conn.log) = some [.received [5, 0, 0, 0, 1, 0, 0, 0, 3],
            .parsed [5, 0, 0, 0, 1, 0, 0, 0, 3], .call (.handler .heartBeat 1 [3]), .onClose] by decide)
  obtain ⟨once, quiet, _⟩ := close_once_and_final _ 0 false reached
  exact ⟨conn, reached, log, once, quiet⟩

/-! ### No notification is lost while the shutdowns succeed -/

/-- The step is not a failed shutdown of a read error on an open connection, nor of a posted `close`. -/
def shutdownsSucceed (conn : ConnectionImpl κ) : Label ε → Bool
  | .run index false _ =>
      match pick index conn.strand with
      | some (.readHandler ec _, _) => ec == noError || conn.status != .opened
      | some (.close, _) => false
      | _ => true
  | _ => true

/-- Nothing is queued or outstanding, and the process still runs. -/
def Settled (conn : ConnectionImpl κ) : Prop :=
  conn.strand = [] ∧ conn.posted = 0 ∧ conn.reading = false ∧ conn.writes = [] ∧
    conn.keepTimer = false ∧ conn.closeReserveTimer = false ∧ conn.terminated = none

instance (conn : ConnectionImpl κ) : Decidable (Settled conn) :=
  inferInstanceAs (Decidable (_ ∧ _ ∧ _ ∧ _ ∧ _ ∧ _ ∧ _))

/-- Whether a handler belongs to the read chain. -/
def isRead : Handler → Bool
  | .readHandler _ _ => true
  | _ => false

/-- The read chain goes on: a read is outstanding or its completion is queued. -/
def Reading (conn : ConnectionImpl κ) : Prop :=
  conn.reading = true ∨ ∃ handler ∈ conn.strand, isRead handler = true

/-- While the connection is open the read chain goes on, and while it is closing a `close` is on its way. -/
structure OnItsWay (conn : ConnectionImpl κ) : Prop where
  opened : conn.terminated = none → conn.status = .opened → Reading conn
  closing : conn.status = .closing → 0 < closeTokens conn

/-- The read chain goes on under any change that keeps the outstanding read and what is queued. -/
theorem Reading.grows {conn later : ConnectionImpl κ} (goesOn : Reading conn) {more : List Handler}
    (reading : later.reading = conn.reading) (strand : later.strand = conn.strand ++ more) :
    Reading later := by
  rcases goesOn with outstanding | ⟨handler, member, read⟩
  · exact Or.inl (reading.trans outstanding)
  · refine Or.inr ⟨handler, ?_, read⟩
    rw [strand]
    exact List.mem_append_left more member

theorem OnItsWay.onlyTimers {conn later : ConnectionImpl κ} (onItsWay : OnItsWay conn)
    (timers : OnlyTimers conn later) : OnItsWay later := by
  obtain ⟨cancelled, strand, _⟩ := timers.strand
  constructor
  · intro running opened
    have goesOn := onItsWay.opened (timers.same.terminated ▸ running) (timers.same.status ▸ opened)
    exact goesOn.grows timers.same.reading strand
  · intro closing
    rw [timers.closeTokens]
    exact onItsWay.closing (timers.same.status ▸ closing)

/-- A step that queues handlers and leaves the rest of closing alone. -/
theorem OnItsWay.queues {conn later : ConnectionImpl κ} (onItsWay : OnItsWay conn)
    (running : conn.terminated = none) {more : List Handler}
    (strand : later.strand = conn.strand ++ more) (reading : later.reading = conn.reading)
    (status : later.status = conn.status) (posted : later.posted = conn.posted) : OnItsWay later := by
  constructor
  · intro _ opened
    exact (onItsWay.opened running (status ▸ opened)).grows reading strand
  · intro closing
    have token := onItsWay.closing (status ▸ closing)
    simp only [closeTokens, strand, posted, List.countP_append] at token ⊢
    omega

/-- One handler keeps the connection on its way to the notification. -/
theorem onItsWay_ran {shutdownOk : Bool} {surroundings : ε} {conn later : ConnectionImpl κ}
    {index : Nat} {handler : Handler} {others : List Handler} (onItsWay : OnItsWay conn)
    (running : conn.terminated = none) (picked : pick index conn.strand = some (handler, others))
    (allowed : shutdownsSucceed conn (.run index shutdownOk surroundings) = true)
    (ran : Ran procedure shutdownOk surroundings handler { conn with strand := others } later) :
    OnItsWay later := by
  have counted := closeTokens_pick picked
  -- Taking out a handler that is neither a read nor the `close` changes nothing.
  have held : isRead handler = false → isClose handler = false →
      OnItsWay { conn with strand := others } := by
    intro notRead notClose
    constructor
    · intro _ opened
      rcases onItsWay.opened running opened with outstanding | ⟨other, member, read⟩
      · exact Or.inl outstanding
      · rcases pick_mem picked member with rfl | member
        · rw [notRead] at read
          cases read
        · exact Or.inr ⟨other, member, read⟩
    · intro closing
      have token := onItsWay.closing closing
      rw [counted, notClose] at token
      simpa using token
  have heldClosing : isClose handler = false → conn.status = .closing →
      0 < closeTokens { conn with strand := others } := by
    intro notClose closing
    have token := onItsWay.closing closing
    rw [counted, notClose] at token
    simpa using token
  cases ran with
  | reads isRead filled timers =>
      subst isRead
      refine OnItsWay.onlyTimers ?_ timers
      constructor
      · intro _ _
        exact Or.inl rfl
      · intro closing
        have token := heldClosing rfl closing
        simp only [closeTokens, List.countP_append] at token ⊢
        omega
  | overruns isRead filled =>
      subst isRead
      constructor
      · intro stillRunning _
        cases stillRunning
      · intro closing
        exact heldClosing rfl closing
  | retries isRead failed pending =>
      subst isRead
      constructor
      · intro _ _
        exact Or.inr ⟨_, List.mem_append_right others (List.mem_cons_self ..), rfl⟩
      · intro closing
        have token := heldClosing rfl closing
        simp only [closeTokens, List.countP_append] at token ⊢
        omega
  | beginsClosing failed shutdown opened timers =>
      refine OnItsWay.onlyTimers ?_ timers
      constructor
      · intro _ wrong
        cases wrong
      · intro _
        simp only [closeTokens]
        omega
  | staysAsItWas failed reason timers =>
      refine OnItsWay.onlyTimers ?_ timers
      obtain ⟨ec, error, rfl | ⟨chunk, rfl⟩⟩ := failed
      · exact held rfl rfl
      · constructor
        · -- A read error on an open connection is let through only with a shutdown that succeeds.
          intro _ opened
          exfalso
          rcases reason with failed | notOpened
          · subst failed
            have wasOpened : conn.status = .opened := opened
            simp [shutdownsSucceed, picked, error, wasOpened] at allowed
          · exact notOpened opened
        · intro closing
          exact heldClosing rfl closing
  | parses isDispatch opened returned =>
      subst isDispatch
      exact (held rfl rfl).queues running (List.append_nil _).symm rfl rfl rfl
  | raises isDispatch opened raised =>
      subst isDispatch
      constructor
      · intro stillRunning _
        cases stillRunning
      · intro closing
        exact heldClosing rfl closing
  | drops isDispatch notOpened =>
      subst isDispatch
      exact held rfl rfl
  | closes asked shutdown timers =>
      refine OnItsWay.onlyTimers ?_ timers
      constructor
      · intro _ wrong
        cases wrong
      · intro wrong
        cases wrong
  | closeFails asked failed =>
      subst failed
      rcases asked with rfl | ⟨rfl, _⟩
      · simp [shutdownsSucceed, picked] at allowed
      · exact held rfl rfl
  | expires isExpiry opened =>
      subst isExpiry
      exact (held rfl rfl).queues running (List.append_nil _).symm rfl rfl rfl
  | idles idle timers =>
      refine OnItsWay.onlyTimers ?_ timers
      rcases idle with rfl | ⟨ec, rfl⟩ | ⟨ec, rfl⟩
      · exact held rfl rfl
      · exact held rfl rfl
      · exact held rfl rfl

theorem onItsWay_step {conn later : ConnectionImpl κ} {label : Label ε} (onItsWay : OnItsWay conn)
    (allowed : shutdownsSucceed conn label = true) (taken : conn.step procedure label = some later) :
    OnItsWay later := by
  obtain ⟨running, took⟩ := step_took taken
  cases took with
  | arrives isRead readable =>
      constructor
      · intro _ _
        exact Or.inr ⟨_, List.mem_append_right _ (List.mem_cons_self ..), rfl⟩
      · intro closing
        have token := onItsWay.closing closing
        simp only [closeTokens, List.countP_append] at token ⊢
        omega
  | breaksOff isRead reading error =>
      constructor
      · intro _ _
        exact Or.inr ⟨_, List.mem_append_right _ (List.mem_cons_self ..), rfl⟩
      · intro closing
        have token := onItsWay.closing closing
        simp only [closeTokens, List.countP_append] at token ⊢
        omega
  | sends isSend => exact onItsWay.queues running (List.append_nil _).symm rfl rfl rfl
  | refuses isSend => exact onItsWay
  | transfers isTransfer outstanding usable =>
      exact onItsWay.queues running (List.append_nil _).symm rfl rfl rfl
  | finishes isDone picked => exact onItsWay.queues running rfl rfl rfl rfl
  | gives isFailure picked error => exact onItsWay.queues running rfl rfl rfl rfl
  | reserves isReserve timers => exact onItsWay.onlyTimers timers
  | expires isExpiry timers =>
      refine OnItsWay.onlyTimers ?_ timers
      exact onItsWay.queues running rfl rfl rfl rfl
  | reserveExpires isExpiry timers =>
      refine OnItsWay.onlyTimers ?_ timers
      exact onItsWay.queues running rfl rfl rfl rfl
  | queuesClose isPosted waiting =>
      have one : [Handler.close].countP isClose = 1 := rfl
      constructor
      · intro _ opened
        exact (onItsWay.opened running opened).grows rfl rfl
      · intro _
        simp only [closeTokens, List.countP_append, one]
        omega
  | runs isRun picked ran =>
      subst isRun
      exact onItsWay_ran onItsWay running picked allowed ran

/-- No close notification is lost in a run whose decisive shutdowns succeed: once nothing is queued or
    outstanding any more, `onClose` has been called exactly once. -/
theorem settled_notified (procedure : MessageProcedure κ ε) (keepAliveTime : Nat) (expired : Bool)
    {conn : ConnectionImpl κ}
    (reached : Reaches (ConnectionImpl.step procedure) shutdownsSucceed
      (ConnectionImpl.started procedure keepAliveTime expired) conn)
    (settled : Settled conn) : closings conn.log = 1 := by
  have just := started_justStarted procedure keepAliveTime expired
  obtain ⟨once, _⟩ := reaches_closeOnce just reached
  have onItsWay : OnItsWay conn := by
    refine Reaches.invariant (motive := OnItsWay) ?_ ?_ reached
    · constructor
      · intro _ _
        exact Or.inl just.reading
      · intro closing
        cases just.status.symm.trans closing
    · intro state later label _ invariant allowed taken
      exact onItsWay_step invariant allowed taken
  obtain ⟨strand, posted, reading, _, _, _, running⟩ := settled
  cases status : conn.status with
  | opened =>
      exfalso
      rcases onItsWay.opened running status with outstanding | ⟨handler, member, _⟩
      · rw [reading] at outstanding
        cases outstanding
      · rw [strand] at member
        cases member
  | closing =>
      exfalso
      have token := onItsWay.closing status
      rw [closeTokens, posted, strand] at token
      exact Nat.lt_irrefl 0 token
  | close => exact (once.close status).2

/-- A read error whose shutdown succeeds, and the `close` it posts. -/
theorem settled_notified_reset :
    ∃ conn, Reaches (ConnectionImpl.step (lobbyProcedure fun _ => some ())) shutdownsSucceed
        (ConnectionImpl.started (lobbyProcedure fun _ => some ()) 0 false) conn ∧
      Settled conn ∧ closings conn.log = 1 := by
  obtain ⟨conn, reached, settled⟩ := exists_reaches
    (fun conn : ConnectionImpl LobbyHandler => decide (Settled conn))
    (show (runGuarded (ConnectionImpl.step (lobbyProcedure fun _ => some ())) shutdownsSucceed
      (ConnectionImpl.started (lobbyProcedure fun _ => some ()) 0 false)
      [.readFails 104, .run 0 true (true, []), .iosRuns, .run 0 true (true, [])]).map
        (fun conn => decide (Settled conn)) = some true by decide)
  have settled := of_decide_eq_true settled
  exact ⟨conn, reached, settled, settled_notified _ 0 false reached settled⟩

/-- The peer resets the connection and the shutdown of the read handler reports that the socket is not
    connected any more: the connection is left open for ever, and nobody is told. -/
theorem notification_lost :
    ∃ conn, Reaches (ConnectionImpl.step (lobbyProcedure fun _ => some ())) anyStep
        (ConnectionImpl.started (lobbyProcedure fun _ => some ()) 0 false) conn ∧
      Settled conn ∧ closings conn.log = 0 := by
  obtain ⟨conn, reached, facts⟩ := exists_reaches
    (fun conn : ConnectionImpl LobbyHandler => decide (Settled conn ∧ closings conn.log = 0))
    (show (runGuarded (ConnectionImpl.step (lobbyProcedure fun _ => some ())) anyStep
      (ConnectionImpl.started (lobbyProcedure fun _ => some ()) 0 false)
      [.readFails 104, .run 0 false (true, [])]).map
        (fun conn => decide (Settled conn ∧ closings conn.log = 0)) = some true by decide)
  exact ⟨conn, reached, of_decide_eq_true facts⟩

end LobbySvr.Proofs
