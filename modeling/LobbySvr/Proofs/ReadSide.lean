/-
Module: LobbySvr.Proofs.ReadSide
Layer: Proofs
Purpose: The read side of a connection whose strand runs its handlers in posting order.  Dispatches are
  always queued in front of the completion of the next read, because the read is started after the
  dispatch has been posted.  So a read error finds no dispatch behind it, the retry branch is never
  taken, and everything received has been parsed when the connection closes because of the error.  What
  is called is what the parser makes of the messages it is given.
Imports: LobbySvr.Proofs.ConnectionClose, LobbySvr.Proofs.MessageBufferQueue
Trusted boundary: none
Main exports: receivedOf, parsedOf, queuedOf, callsOf, readSideOnly, ReadSide, readSide_step,
  ParserMade, received_is_parsed
Open obligations: none
-/
import LobbySvr.Proofs.ConnectionClose
import LobbySvr.Proofs.MessageBufferQueue

namespace LobbySvr.Proofs

open LobbySvr.Foundation
open LobbySvr.Net
open LobbySvr.Lobby

variable {κ ε : Type} {procedure : MessageProcedure κ ε}

/-! ### What was received, parsed, and is still queued -/

/-- The chunks of the reads that succeeded, in order. -/
def receivedOf (log : List (Event κ)) : List (List UInt8) :=
  log.filterMap fun
    | .received chunk => some chunk
    | _ => none

/-- The messages passed to the packet parser, in order. -/
def parsedOf (log : List (Event κ)) : List (List UInt8) :=
  log.filterMap fun
    | .parsed bytes => some bytes
    | _ => none

/-- The messages of the dispatches that are queued, in order. -/
def queuedOf (strand : List Handler) : List (List UInt8) :=
  strand.filterMap fun
    | .dispatch msg => some msg.bytes
    | _ => none

theorem receivedOf_append (log more : List (Event κ)) :
    receivedOf (log ++ more) = receivedOf log ++ receivedOf more := List.filterMap_append ..

theorem parsedOf_append (log more : List (Event κ)) :
    parsedOf (log ++ more) = parsedOf log ++ parsedOf more := List.filterMap_append ..

theorem receivedOf_parsed (bytes : List UInt8) (calls : List (Call κ)) :
    receivedOf (Event.parsed bytes :: calls.map Event.call) = [] := by
  simp [receivedOf]

theorem parsedOf_parsed (bytes : List UInt8) (calls : List (Call κ)) :
    parsedOf (Event.parsed bytes :: calls.map Event.call) = [bytes] := by
  simp [parsedOf]

/-- The calls of the parser in a log. -/
def callsOf {κ : Type} (log : List (Event κ)) : List (Call κ) :=
  log.filterMap fun
    | .call call => some call
    | _ => none

theorem callsOf_append {κ : Type} (log more : List (Event κ)) :
    callsOf (log ++ more) = callsOf log ++ callsOf more := List.filterMap_append

theorem callsOf_parsed {κ : Type} (bytes : List UInt8) (calls : List (Call κ)) :
    callsOf (Event.parsed bytes :: calls.map Event.call) = calls := by
  change callsOf (calls.map Event.call) = calls
  induction calls with
  | nil => rfl
  | cons call calls inductionHypothesis => exact congrArg (call :: ·) inductionHypothesis

/-- What a queued handler of the read side waits to do. -/
inductive Waiting where
  | message (bytes : List UInt8)
  | read (ec : ErrorCode) (chunk : List UInt8)

/-- The read side of a handler. -/
def readSide : Handler → Option Waiting
  | .dispatch msg => some (.message msg.bytes)
  | .readHandler ec chunk => some (.read ec chunk)
  | _ => none

/-- The read side of a strand. -/
def waiting (strand : List Handler) : List Waiting := strand.filterMap readSide

theorem waiting_append (strand more : List Handler) :
    waiting (strand ++ more) = waiting strand ++ waiting more := List.filterMap_append ..

theorem waiting_aborted {cancelled : List Handler}
    (aborted : ∀ handler ∈ cancelled, Aborted handler) : waiting cancelled = [] := by
  rw [waiting, List.filterMap_eq_nil_iff]
  intro handler member
  rcases aborted handler member with rfl | rfl
  · rfl
  · rfl

/-- The queued messages are the messages of the read side. -/
theorem queuedOf_eq (strand : List Handler) :
    queuedOf strand = (waiting strand).filterMap fun
      | .message bytes => some bytes
      | .read _ _ => none := by
  rw [waiting, List.filterMap_filterMap, queuedOf]
  congr 1
  funext handler
  cases handler <;> rfl

/-! ### Everything received is parsed before the close -/

/-- What was parsed before a close notification is all that was ever received. -/
def FinalAccount (log : List (Event κ)) : Prop :=
  ∀ before after, log = before ++ Event.onClose :: after → parsedOf before = receivedOf log

theorem FinalAccount.append {log more : List (Event κ)} (final : FinalAccount log)
    (notClose : closings more = 0) (allowed : receivedOf more = [] ∨ closings log = 0) :
    FinalAccount (log ++ more) := by
  intro before after split
  have fresh : Event.onClose ∉ more := fun inMore => (onClose_mem_iff more).mp inMore notClose
  obtain ⟨earlier, inLog, rfl⟩ := append_eq_split fresh split
  rcases allowed with nothing | notClosed
  · rw [receivedOf_append, nothing, List.append_nil]
    exact final before earlier inLog
  · have closed : Event.onClose ∈ log := by
      rw [inLog]
      exact List.mem_append_right before (List.mem_cons_self ..)
    exact absurd notClosed ((onClose_mem_iff log).mp closed)

theorem FinalAccount.onClose {log : List (Event κ)} (notClosed : closings log = 0)
    (done : receivedOf log = parsedOf log) : FinalAccount (log ++ [Event.onClose]) := by
  intro before after split
  have fresh : Event.onClose ∉ log := fun closed => (onClose_mem_iff log).mp closed notClosed
  obtain ⟨rfl, _⟩ := append_singleton_split fresh split
  rw [receivedOf_append, done]
  exact (List.append_nil _).symm

/-! ### The invariant of the read side -/

/-- Handlers run in posting order, no write fails, and no reserved close falls due. -/
def readSideOnly (_ : ConnectionImpl κ) : Label ε → Bool
  | .writeFails _ _ => false
  | .closeReserveExpires => false
  | .run index _ _ => index == 0
  | _ => true

/-- What the strand holds in such a run: no failed write, no reserved close that is due, and messages whose
    cursors are in order. -/
def Expected (handler : Handler) : Prop :=
  (∀ ec, handler = .writeHandler ec → ec = noError) ∧ handler ≠ .onCloseReserveTime noError ∧
    ∀ msg, handler = .dispatch msg → msg.Valid

/-- The read side of a connection: the queued messages first, then at most the completion of one read. -/
structure ReadSide (conn : ConnectionImpl κ) (queued : List (List UInt8)) (chain : List Waiting) :
    Prop where
  queue : waiting conn.strand = queued.map .message ++ chain
  oneRead : chain = [] ∨ (conn.reading = false ∧
    ∃ ec chunk, chain = [.read ec chunk] ∧ chunk.length ≤ MessageBuffer.maxBufferSize)
  opened : conn.terminated = none → conn.status = .opened →
    conn.readHandlerPending = UInt32.ofNat queued.length
  stopped : conn.status ≠ .opened → conn.reading = false ∧ queued = [] ∧ chain = []
  accounted : receivedOf conn.log = parsedOf conn.log ++ queued
  final : FinalAccount conn.log
  msg : conn.msg = newMessageBuffer conn.msgManipulator
  expected : ∀ handler ∈ conn.strand, Expected handler

/-- A change outside the read side. -/
theorem ReadSide.congr {conn later : ConnectionImpl κ} {queued : List (List UInt8)}
    {chain : List Waiting} (side : ReadSide conn queued chain) {more : List Handler}
    (running : conn.terminated = none) (strand : later.strand = conn.strand ++ more)
    (outside : waiting more = []) (expected : ∀ handler ∈ more, Expected handler)
    (status : later.status = conn.status) (reading : later.reading = conn.reading)
    (pending : later.readHandlerPending = conn.readHandlerPending) (log : later.log = conn.log)
    (msg : later.msg = conn.msg) (manip : later.msgManipulator = conn.msgManipulator) :
    ReadSide later queued chain where
  queue := by rw [strand, waiting_append, outside, List.append_nil, side.queue]
  oneRead := by rw [reading]; exact side.oneRead
  opened := by rw [status, pending]; exact fun _ => side.opened running
  stopped := by rw [status, reading]; exact side.stopped
  accounted := by rw [log, side.accounted]
  final := by rw [log]; exact side.final
  msg := by rw [msg, manip, side.msg]
  expected := by
    intro handler member
    rw [strand] at member
    rcases List.mem_append.mp member with member | member
    · exact side.expected handler member
    · exact expected handler member

theorem ReadSide.onlyTimers {conn later : ConnectionImpl κ} {queued : List (List UInt8)}
    {chain : List Waiting} (side : ReadSide conn queued chain) (timers : OnlyTimers conn later)
    (running : conn.terminated = none) : ReadSide later queued chain := by
  obtain ⟨cancelled, strand, aborted⟩ := timers.strand
  refine side.congr running strand (waiting_aborted aborted) ?_ timers.same.status timers.same.reading
    timers.same.readHandlerPending timers.same.log timers.same.msg timers.same.msgManipulator
  intro handler member
  rcases aborted handler member with rfl | rfl
  · simp [Expected]
  · simp [Expected, operationAborted, noError]

/-- A completed read at the front of the strand finds no dispatch behind it, on an open connection. -/
theorem ReadSide.read_first {conn : ConnectionImpl κ} {queued : List (List UInt8)}
    {chain : List Waiting} (side : ReadSide conn queued chain) {ec : ErrorCode} {chunk : List UInt8}
    {others : List Handler} (front : conn.strand = .readHandler ec chunk :: others) :
    queued = [] ∧ waiting others = [] ∧ conn.reading = false ∧ conn.status = .opened ∧
      chunk.length ≤ MessageBuffer.maxBufferSize := by
  have queue : Waiting.read ec chunk :: waiting others = queued.map .message ++ chain := by
    rw [← side.queue, front]
    rfl
  cases queued with
  | cons bytes queued => cases queue
  | nil =>
      rw [List.map_nil, List.nil_append] at queue
      rcases side.oneRead with empty | ⟨notReading, ec, chunk, single, fits⟩
      · rw [empty] at queue
        cases queue
      · rw [single] at queue
        obtain ⟨same, nothing⟩ := List.cons.inj queue
        cases same
        refine ⟨rfl, nothing, notReading, ?_, fits⟩
        by_contra notOpened
        have noChain := (side.stopped notOpened).2.2
        rw [single] at noChain
        cases noChain

/-- A dispatch at the front of the strand holds the oldest message, on an open connection. -/
theorem ReadSide.dispatch_first {conn : ConnectionImpl κ} {queued : List (List UInt8)}
    {chain : List Waiting} (side : ReadSide conn queued chain) {msg : MessageBuffer}
    {others : List Handler} (front : conn.strand = .dispatch msg :: others) :
    ∃ rest, queued = msg.bytes :: rest ∧ waiting others = rest.map .message ++ chain ∧
      conn.status = .opened := by
  have queue : Waiting.message msg.bytes :: waiting others = queued.map .message ++ chain := by
    rw [← side.queue, front]
    rfl
  cases queued with
  | nil =>
      rcases side.oneRead with empty | ⟨_, ec, chunk, single, _⟩
      · rw [empty] at queue
        cases queue
      · rw [single] at queue
        cases queue
  | cons bytes rest =>
      obtain ⟨same, behind⟩ := List.cons.inj queue
      cases same
      refine ⟨rest, rfl, behind, ?_⟩
      by_contra notOpened
      cases (side.stopped notOpened).2.1

/-- A handler outside the read side leaves the queue as it is when it is taken out. -/
theorem ReadSide.other_first {conn : ConnectionImpl κ} {queued : List (List UInt8)}
    {chain : List Waiting} (side : ReadSide conn queued chain) {handler : Handler}
    {others : List Handler} (front : conn.strand = handler :: others) (other : readSide handler = none) :
    ReadSide { conn with strand := others } queued chain where
  queue := by
    rw [← side.queue, front]
    change waiting others = List.filterMap readSide (handler :: others)
    rw [List.filterMap_cons, other]
    rfl
  oneRead := side.oneRead
  opened := side.opened
  stopped := side.stopped
  accounted := side.accounted
  final := side.final
  msg := side.msg
  expected := by
    intro other member
    exact side.expected other (front ▸ List.mem_cons_of_mem _ member)

/-- A message that fits is received into a new buffer as it is. -/
theorem newMessageBuffer_fill {manip : MsgUserManip} {chunk : List UInt8}
    (fits : chunk.length ≤ MessageBuffer.maxBufferSize) :
    ∃ msgRecv, (newMessageBuffer manip).fill chunk = .ok msgRecv ∧ msgRecv.Valid ∧
      msgRecv.bytes = chunk := by
  have valid : (newMessageBuffer manip).Valid := ⟨Nat.le_refl _, Nat.zero_le _⟩
  have room : (newMessageBuffer manip).writePos + chunk.length ≤ MessageBuffer.maxBufferSize := by
    change 0 + chunk.length ≤ MessageBuffer.maxBufferSize
    omega
  obtain ⟨msgRecv, filled, recvValid, bytes⟩ := MessageBuffer.fill_ok valid room
  exact ⟨msgRecv, filled, recvValid, bytes⟩

/-- A read that succeeded: its bytes are queued, and the next read is outstanding. -/
theorem ReadSide.received {conn : ConnectionImpl κ} {queued : List (List UInt8)}
    {chain : List Waiting} (side : ReadSide conn queued chain) (once : CloseOnce conn)
    (running : conn.terminated = none) {chunk : List UInt8} {msgRecv : MessageBuffer}
    {others : List Handler} (front : conn.strand = .readHandler noError chunk :: others)
    (filled : conn.msg.fill chunk = .ok msgRecv) :
    ReadSide
      { conn with
        msg := newMessageBuffer conn.msgManipulator
        readHandlerPending := conn.readHandlerPending + 1
        strand := others ++ [.dispatch msgRecv]
        reading := true
        log := conn.log ++ [.received chunk] }
      [chunk] [] := by
  obtain ⟨rfl, nothing, notReading, opened, fits⟩ := side.read_first front
  have stored : msgRecv.Valid ∧ msgRecv.bytes = chunk := by
    obtain ⟨msgFilled, eq, valid, bytes⟩ := @newMessageBuffer_fill conn.msgManipulator chunk fits
    rw [side.msg, eq] at filled
    cases filled
    exact ⟨valid, bytes⟩
  obtain ⟨valid, bytes⟩ := stored
  constructor
  · rw [waiting_append, nothing, ← bytes]
    rfl
  · exact Or.inl rfl
  · intro _ _
    change conn.readHandlerPending + 1 = UInt32.ofNat 1
    rw [side.opened running opened]
    rfl
  · intro notOpened
    exact absurd opened notOpened
  · rw [receivedOf_append, parsedOf_append, side.accounted, List.append_nil]
    simp [receivedOf, parsedOf]
  · exact side.final.append rfl (Or.inr (once.opened opened).2)
  · rfl
  · intro other member
    rcases List.mem_append.mp member with member | member
    · exact side.expected other (front ▸ List.mem_cons_of_mem _ member)
    · rw [List.mem_singleton.mp member]
      simpa [Expected] using valid

/-- A message passed to the parser leaves the queue. -/
theorem ReadSide.parsed {conn later : ConnectionImpl κ} {queued : List (List UInt8)}
    {chain : List Waiting} (side : ReadSide conn queued chain) (running : conn.terminated = none)
    {msg : MessageBuffer} {others : List Handler} (front : conn.strand = .dispatch msg :: others)
    {calls : List (Call κ)} (strand : later.strand = others) (status : later.status = conn.status)
    (reading : later.reading = conn.reading)
    (pending : later.terminated = none → later.readHandlerPending = conn.readHandlerPending - 1)
    (log : later.log = conn.log ++ (Event.parsed msg.bytes :: calls.map Event.call))
    (sameMsg : later.msg = conn.msg) (manip : later.msgManipulator = conn.msgManipulator) :
    ∃ queued chain, ReadSide later queued chain := by
  obtain ⟨rest, rfl, behind, opened⟩ := side.dispatch_first front
  refine ⟨rest, chain, ?_⟩
  constructor
  · rw [strand, behind]
  · rw [reading]
    exact side.oneRead
  · intro stillRunning _
    rw [pending stillRunning, side.opened running opened, List.length_cons, UInt32.ofNat_add]
    exact UInt32.add_sub_cancel _ _
  · intro notOpened
    rw [status] at notOpened
    exact absurd opened notOpened
  · rw [log, receivedOf_append, receivedOf_parsed, parsedOf_append, parsedOf_parsed, List.append_nil,
      side.accounted, List.append_assoc]
    rfl
  · rw [log]
    exact side.final.append (closings_parsed _ _) (Or.inl (receivedOf_parsed _ _))
  · rw [sameMsg, manip]
    exact side.msg
  · intro other member
    rw [strand] at member
    exact side.expected other (front ▸ List.mem_cons_of_mem _ member)

/-- A read that failed is the last of its chain; the connection is open still, or stops here. -/
theorem ReadSide.failed {conn later : ConnectionImpl κ} {queued : List (List UInt8)}
    {chain : List Waiting} (side : ReadSide conn queued chain) (running : conn.terminated = none)
    {ec : ErrorCode} {chunk : List UInt8} {others : List Handler}
    (front : conn.strand = .readHandler ec chunk :: others) (strand : later.strand = others)
    (reading : later.reading = conn.reading)
    (pending : later.readHandlerPending = conn.readHandlerPending) (log : later.log = conn.log)
    (sameMsg : later.msg = conn.msg) (manip : later.msgManipulator = conn.msgManipulator) :
    ReadSide later [] [] := by
  obtain ⟨rfl, nothing, notReading, opened, _⟩ := side.read_first front
  constructor
  · rw [strand, nothing]
    rfl
  · exact Or.inl rfl
  · intro _ _
    rw [pending, side.opened running opened]
  · intro _
    exact ⟨reading.trans notReading, rfl, rfl⟩
  · rw [log]
    exact side.accounted
  · rw [log]
    exact side.final
  · rw [sameMsg, manip]
    exact side.msg
  · intro other member
    rw [strand] at member
    exact side.expected other (front ▸ List.mem_cons_of_mem _ member)

/-- One handler, taken from the front of the strand. -/
theorem readSide_ran {shutdownOk : Bool} {surroundings : ε} {conn later : ConnectionImpl κ}
    {handler : Handler} {others : List Handler} {queued : List (List UInt8)} {chain : List Waiting}
    (once : CloseOnce conn) (side : ReadSide conn queued chain) (running : conn.terminated = none)
    (front : conn.strand = handler :: others)
    (ran : Ran procedure shutdownOk surroundings handler { conn with strand := others } later) :
    ∃ queued chain, ReadSide later queued chain := by
  have picked : pick 0 conn.strand = some (handler, others) := by
    rw [front]
    rfl
  have expected : Expected handler := side.expected handler (front ▸ List.mem_cons_self ..)
  cases ran with
  | reads isRead filled timers =>
      subst isRead
      have received := side.received once running front filled
      exact ⟨_, _, received.onlyTimers timers running⟩
  | overruns isRead filled =>
      subst isRead
      obtain ⟨_, _, _, _, fits⟩ := side.read_first front
      obtain ⟨msgRecv, eq, _⟩ := @newMessageBuffer_fill conn.msgManipulator _ fits
      have filled : conn.msg.fill _ = .error _ := filled
      rw [side.msg, eq] at filled
      cases filled
  | retries isRead failed pending =>
      -- Nothing is counted as pending when the error comes to the front.
      subst isRead
      obtain ⟨rfl, _, _, opened, _⟩ := side.read_first front
      have counted : conn.readHandlerPending = 0 := side.opened running opened
      have wrong : 0 < conn.readHandlerPending := pending
      rw [counted] at wrong
      exact absurd wrong (UInt32.lt_irrefl 0)
  | beginsClosing failed shutdown opened timers =>
      obtain ⟨ec, error, rfl | ⟨chunk, rfl⟩⟩ := failed
      · exact absurd (expected.1 ec rfl) error
      · refine ⟨[], [], ReadSide.onlyTimers ?_ timers running⟩
        exact side.failed running front rfl rfl rfl rfl rfl rfl
  | staysAsItWas failed reason timers =>
      obtain ⟨ec, error, rfl | ⟨chunk, rfl⟩⟩ := failed
      · exact absurd (expected.1 ec rfl) error
      · refine ⟨[], [], ReadSide.onlyTimers ?_ timers running⟩
        exact side.failed running front rfl rfl rfl rfl rfl rfl
  | parses isDispatch opened returned =>
      subst isDispatch
      exact side.parsed running front rfl rfl rfl (fun _ => rfl) rfl rfl rfl
  | raises isDispatch opened raised =>
      subst isDispatch
      refine side.parsed running front rfl rfl rfl ?_ rfl rfl rfl
      intro stillRunning
      cases stillRunning
  | drops isDispatch notOpened =>
      subst isDispatch
      obtain ⟨_, _, _, opened⟩ := side.dispatch_first front
      exact absurd opened notOpened
  | closes asked shutdown timers =>
      obtain ⟨_, notNotified, _⟩ := once.asked picked asked
      rcases asked with rfl | ⟨rfl, _⟩
      · have closing : conn.status = .closing := by
          apply once.closing_of_token
          rw [closeTokens_pick picked]
          simp [isClose]
        have notOpened : conn.status ≠ .opened := by
          intro opened
          cases closing.symm.trans opened
        obtain ⟨notReading, rfl, rfl⟩ := side.stopped notOpened
        have held := side.other_first front rfl
        refine ⟨[], [], ReadSide.onlyTimers ?_ timers running⟩
        have done : receivedOf conn.log = parsedOf conn.log := by
          rw [side.accounted, List.append_nil]
        constructor
        · exact held.queue
        · exact Or.inl rfl
        · intro _ wrong
          cases wrong
        · intro _
          exact ⟨notReading, rfl, rfl⟩
        · rw [receivedOf_append, parsedOf_append, done, List.append_nil]
          rfl
        · exact FinalAccount.onClose notNotified done
        · exact held.msg
        · exact held.expected
      · exact absurd rfl expected.2.1
  | closeFails asked failed =>
      rcases asked with rfl | ⟨rfl, _⟩
      · exact ⟨_, _, side.other_first front rfl⟩
      · exact absurd rfl expected.2.1
  | expires isExpiry opened =>
      subst isExpiry
      have held := side.other_first front rfl
      refine ⟨queued, chain, ?_⟩
      constructor
      · exact held.queue
      · exact held.oneRead
      · exact held.opened
      · exact held.stopped
      · rw [receivedOf_append, parsedOf_append]
        simpa [receivedOf, parsedOf] using side.accounted
      · exact side.final.append rfl (Or.inl rfl)
      · exact held.msg
      · exact held.expected
  | idles idle timers =>
      have other : readSide handler = none := by
        rcases idle with rfl | ⟨ec, rfl⟩ | ⟨ec, rfl⟩
        · rfl
        · rfl
        · rfl
      exact ⟨queued, chain, (side.other_first front other).onlyTimers timers running⟩

/-- The completion of the outstanding read is queued behind all messages. -/
theorem ReadSide.completes {conn : ConnectionImpl κ} {queued : List (List UInt8)}
    {chain : List Waiting} (side : ReadSide conn queued chain) (reading : conn.reading = true)
    (ec : ErrorCode) {chunk : List UInt8} (fits : chunk.length ≤ MessageBuffer.maxBufferSize) :
    ReadSide { conn with reading := false, strand := conn.strand ++ [.readHandler ec chunk] } queued
      [.read ec chunk] := by
  have opened : conn.status = .opened := by
    by_contra notOpened
    rw [(side.stopped notOpened).1] at reading
    cases reading
  have noChain : chain = [] := by
    rcases side.oneRead with empty | ⟨notReading, _⟩
    · exact empty
    · rw [notReading] at reading
      cases reading
  subst noChain
  constructor
  · rw [waiting_append, side.queue, List.append_nil]
    rfl
  · exact Or.inr ⟨rfl, ec, chunk, rfl, fits⟩
  · exact side.opened
  · intro notOpened
    exact absurd opened notOpened
  · exact side.accounted
  · exact side.final
  · exact side.msg
  · intro other member
    rcases List.mem_append.mp member with member | member
    · exact side.expected other member
    · rw [List.mem_singleton.mp member]
      simp [Expected]

theorem readSide_step {conn later : ConnectionImpl κ} {label : Label ε} {queued : List (List UInt8)}
    {chain : List Waiting} (once : CloseOnce conn) (side : ReadSide conn queued chain)
    (allowed : readSideOnly conn label = true) (taken : conn.step procedure label = some later) :
    ∃ queued chain, ReadSide later queued chain := by
  obtain ⟨running, took⟩ := step_took taken
  cases took with
  | arrives isRead readable =>
      obtain ⟨reading, _, fits⟩ := readable
      refine ⟨queued, _, side.completes reading noError ?_⟩
      rw [side.msg] at fits
      exact fits
  | breaksOff isRead reading error => exact ⟨queued, _, side.completes reading _ (Nat.zero_le _)⟩
  | sends isSend =>
      refine ⟨queued, chain, side.congr running (List.append_nil _).symm rfl ?_ rfl rfl rfl rfl rfl rfl⟩
      simp
  | refuses isSend => exact ⟨queued, chain, side⟩
  | transfers isTransfer outstanding usable =>
      refine ⟨queued, chain, side.congr running (List.append_nil _).symm rfl ?_ rfl rfl rfl rfl rfl rfl⟩
      simp
  | finishes isDone picked =>
      refine ⟨queued, chain, side.congr running rfl rfl ?_ rfl rfl rfl rfl rfl rfl⟩
      simp [Expected]
  | gives isFailure picked error =>
      subst isFailure
      cases allowed
  | reserves isReserve timers => exact ⟨queued, chain, side.onlyTimers timers running⟩
  | expires isExpiry timers =>
      refine ⟨queued, chain, ReadSide.onlyTimers ?_ timers running⟩
      refine side.congr running rfl rfl ?_ rfl rfl rfl rfl rfl rfl
      simp [Expected]
  | reserveExpires isExpiry timers =>
      subst isExpiry
      cases allowed
  | queuesClose isPosted waiting =>
      refine ⟨queued, chain, side.congr running rfl rfl ?_ rfl rfl rfl rfl rfl rfl⟩
      simp [Expected]
  | @runs index _ _ _ _ _ isRun picked ran =>
      subst isRun
      have first : index = 0 := by simpa [readSideOnly] using allowed
      subst first
      exact readSide_ran once side running (pick_zero picked) ran

theorem JustStarted.readSide {conn : ConnectionImpl κ} (just : JustStarted conn) :
    ReadSide conn [] [] := by
  constructor
  · rw [waiting, List.map_nil, List.append_nil, List.filterMap_eq_nil_iff]
    intro handler member
    obtain ⟨ec, rfl⟩ := just.strand handler member
    rfl
  · exact Or.inl rfl
  · intro _ _
    exact just.readHandlerPending
  · intro notOpened
    exact absurd just.status notOpened
  · rw [just.log]
    rfl
  · intro before after split
    rw [just.log] at split
    cases before with
    | nil => cases split
    | cons first before => cases split
  · exact just.msg
  · intro handler member
    obtain ⟨ec, rfl⟩ := just.strand handler member
    simp [Expected]

/-- The read side in every state of a run in posting order. -/
theorem reaches_readSide {start conn : ConnectionImpl κ} (just : JustStarted start)
    (reached : Reaches (ConnectionImpl.step procedure) readSideOnly start conn) :
    ∃ queued chain, ReadSide conn queued chain := by
  refine Reaches.invariant (motive := fun conn => ∃ queued chain, ReadSide conn queued chain)
    ⟨[], [], just.readSide⟩ ?_ reached
  intro state later label earlier invariant allowed taken
  obtain ⟨queued, chain, side⟩ := invariant
  exact readSide_step (reaches_closeOnce just earlier).1 side allowed taken

theorem ReadSide.queuedOf_strand {conn : ConnectionImpl κ} {queued : List (List UInt8)}
    {chain : List Waiting} (side : ReadSide conn queued chain) : queuedOf conn.strand = queued := by
  rw [queuedOf_eq, side.queue, List.filterMap_append, List.filterMap_map]
  have noMessage : (chain.filterMap fun
      | .message bytes => some bytes
      | .read _ _ => none) = ([] : List (List UInt8)) := by
    rcases side.oneRead with rfl | ⟨_, _, _, rfl, _⟩
    · rfl
    · rfl
  rw [noMessage, List.append_nil]
  exact List.filterMap_some ..

/-- The chunks parsed are the bytes of messages, and the calls are those that the parser makes at each of
    these messages, in order. -/
def ParserMade (procedure : MessageProcedure κ ε) (log : List (Event κ)) : Prop :=
  ∃ parses : List (ε × MessageBuffer), (∀ parse ∈ parses, parse.2.Valid) ∧
    parsedOf log = parses.map (fun parse => parse.2.bytes) ∧
    callsOf log = parses.flatMap fun parse => (procedure.packetParsingFunction parse.1 parse.2).calls

/-- What a step adds, when the queued messages have their cursors in order. -/
theorem ParserMade.append {log events : List (Event κ)} {conn : ConnectionImpl κ}
    (made : ParserMade procedure log) (valid : ∀ msg, .dispatch msg ∈ conn.strand → msg.Valid)
    (adds : Adds procedure conn events) : ParserMade procedure (log ++ events) := by
  obtain ⟨parses, inOrder, bytes, calls⟩ := made
  have silent : parsedOf events = [] → callsOf events = [] → ParserMade procedure (log ++ events) := by
    intro unparsed uncalled
    refine ⟨parses, inOrder, ?_, ?_⟩
    · rw [parsedOf_append, unparsed, List.append_nil, bytes]
    · rw [callsOf_append, uncalled, List.append_nil, calls]
  cases adds with
  | parsed surroundings msg queued =>
      refine ⟨parses ++ [(surroundings, msg)], ?_, ?_, ?_⟩
      · intro parse member
        rcases List.mem_append.mp member with before | last
        · exact inOrder parse before
        · cases List.mem_singleton.mp last
          exact valid msg queued
      · rw [parsedOf_append, parsedOf_parsed, bytes, List.map_append, List.map_singleton]
      · rw [callsOf_append, callsOf_parsed, calls, List.flatMap_append, List.flatMap_singleton]
  | _ => exact silent rfl rfl

/-- In every state of a run in posting order. -/
theorem reaches_parserMade {start conn : ConnectionImpl κ} (just : JustStarted start)
    (reached : Reaches (ConnectionImpl.step procedure) readSideOnly start conn) :
    ParserMade procedure conn.log := by
  refine Reaches.invariant (motive := fun conn => ParserMade procedure conn.log) ?_ ?_ reached
  · rw [just.log]
    exact ⟨[], fun _ member => absurd member List.not_mem_nil, rfl, rfl⟩
  · intro state later label earlier made _ taken
    obtain ⟨queued, chain, side⟩ := reaches_readSide just earlier
    obtain ⟨events, log, adds⟩ := step_adds taken
    rw [log]
    exact made.append (fun msg member => (side.expected _ member).2.2 msg rfl) adds

/-- Received data is not lost to a close from the read side.  In every state of a run in posting order, in
    which no write fails and no reserved close falls due, the chunks received are those parsed so far,
    each once and in order, followed by those of the dispatches still queued; the calls made are those of
    the parser at the messages that hold them; and whatever was received has been parsed before `onClose` is
    called. -/
theorem received_is_parsed (procedure : MessageProcedure κ ε) (keepAliveTime : Nat) (expired : Bool)
    {conn : ConnectionImpl κ}
    (reached : Reaches (ConnectionImpl.step procedure) readSideOnly
      (ConnectionImpl.started procedure keepAliveTime expired) conn) :
    receivedOf conn.log = parsedOf conn.log ++ queuedOf conn.strand ∧
      ParserMade procedure conn.log ∧
      ∀ before after, conn.log = before ++ Event.onClose :: after →
        parsedOf before = receivedOf conn.log := by
  have just := started_justStarted procedure keepAliveTime expired
  obtain ⟨queued, chain, side⟩ := reaches_readSide just reached
  refine ⟨?_, reaches_parserMade just reached, side.final⟩
  rw [side.queuedOf_strand]
  exact side.accounted

/-- A heartbeat and then a reset by the peer: the heartbeat is parsed before the notification. -/
theorem received_is_parsed_reset :
    ∃ conn, Reaches (ConnectionImpl.step (lobbyProcedure fun _ => some ())) readSideOnly
        (ConnectionImpl.started (lobbyProcedure fun _ => some ()) 15000 true) conn ∧
      Event.onClose ∈ conn.log ∧ receivedOf conn.log = [[5, 0, 0, 0, 1, 0, 0, 0, 3]] ∧
      parsedOf conn.log ++ queuedOf conn.strand = [[5, 0, 0, 0, 1, 0, 0, 0, 3]] := by
  obtain ⟨conn, reached, facts⟩ := exists_reaches
    (fun conn : ConnectionImpl LobbyHandler =>
      decide (Event.onClose ∈ conn.log ∧ receivedOf conn.log = [[5, 0, 0, 0, 1, 0, 0, 0, 3]]))
    (show (runGuarded (ConnectionImpl.step (lobbyProcedure fun _ => some ())) readSideOnly
      (ConnectionImpl.started (lobbyProcedure fun _ => some ()) 15000 true)
      [.run 0 true (true, []), .readSome [5, 0, 0, 0, 1, 0, 0, 0, 3], .run 0 true (true, []),
        .readFails 104, .run 0 true (true, []), .run 0 true (true, []), .run 0 true (true, []),
        .iosRuns, .run 0 true (true, []), .run 0 true (true, [])]).map
        (fun conn =>
          decide (Event.onClose ∈ conn.log ∧ receivedOf conn.log = [[5, 0, 0, 0, 1, 0, 0, 0, 3]])) =
        some true by decide)
  obtain ⟨closed, received⟩ := of_decide_eq_true facts
  obtain ⟨accounted, -⟩ := received_is_parsed _ 15000 true reached
  exact ⟨conn, reached, closed, received, accounted.symm.trans received⟩

end LobbySvr.Proofs
