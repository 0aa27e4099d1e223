/-
Module: LobbySvr.Proofs.WatchdogCommands
Layer: Proofs
Purpose: Commands sent to the watchdog console as lines that end in CR LF, cut into reads in any way.  The
  session keeps up with them exactly when no read brings two line feeds and a line feed that is cut off from
  its carriage return, by a read that brings no other one, comes alone.
Imports: LobbySvr.Net.WatchDogSession
Trusted boundary: none
Main exports: wireOf, SentAs, ServedInTime, WellCut, serve, InTime, serve_weight
Open obligations: none
-/
import LobbySvr.Net.WatchDogSession
import Mathlib.Data.List.Chain
import Mathlib.Data.List.TakeWhile

namespace LobbySvr.Proofs

open LobbySvr.Net

/-! ### What is sent and what is asked for -/

/-- A byte that can stand in a command line. -/
def isPlain (byte : UInt8) : Bool := byte ≠ carriageReturn && byte ≠ lineFeed

/-- Lines with their terminators. -/
def wireOf (lines : List (List UInt8)) : List UInt8 :=
  lines.flatMap fun line => line ++ [carriageReturn, lineFeed]

/-- Command lines, and the reads that their bytes arrive in. -/
structure SentAs (lines reads : List (List UInt8)) : Prop where
  nonempty : ∀ line ∈ lines, line ≠ []
  plain : ∀ line ∈ lines, ∀ byte ∈ line, isPlain byte = true ∧ byte ≠ 0
  readsNonempty : ∀ read ∈ reads, read ≠ []
  readsShort : ∀ read ∈ reads, read.length < 4096
  noControl : ∀ read ∈ reads, read ≠ [3] ∧ read ≠ [26]
  stream : reads.flatten = wireOf lines

/-- The commands that a session has handed to its callback behind some reads. -/
def served (watchdogCallback : List UInt8 → List UInt8) (reads : List (List UInt8)) : List (List UInt8) :=
  commandsOf (watchDogSession watchdogCallback .start (reads.map .bytes))

/-- The callback gets exactly the lines, in order, and each no later than the read with the last byte of its
    terminator. -/
structure ServedInTime (watchdogCallback : List UInt8 → List UInt8) (lines reads : List (List UInt8)) :
    Prop where
  exactly : served watchdogCallback reads = lines
  inTime : ∀ done later, reads = done ++ later →
    done.flatten.count lineFeed ≤ (served watchdogCallback done).length

/-- The read ends in a carriage return and has no line feed. -/
def CutsTerminator (read : List UInt8) : Prop := read.getLast? = some carriageReturn ∧ lineFeed ∉ read

/-- No read has two line feeds, and the line feed behind a read that cuts a terminator, and has none itself,
    comes alone. -/
structure WellCut (reads : List (List UInt8)) : Prop where
  single : ∀ read ∈ reads, read.count lineFeed ≤ 1
  alone : reads.IsChain fun read next => CutsTerminator read → next = [lineFeed]

/-! ### The loop on plain reads -/

/-- The commands served in the course of some reads, from what has been carried over. -/
def serve : List UInt8 → List (List UInt8) → List (List UInt8)
  | _, [] => []
  | recvCmd, read :: reads =>
      (takeCommand (recvCmd ++ read)).1.toList ++ serve (takeCommand (recvCmd ++ read)).2 reads

/-- A read that the loop takes as it is. -/
structure PlainRead (read : List UInt8) : Prop where
  noZero : 0 ∉ read
  short : read.length < 4096
  noControl : read ≠ [3] ∧ read ≠ [26]

theorem commandsOf_session (watchdogCallback : List UInt8 → List UInt8) {reads : List (List UInt8)}
    (plain : ∀ read ∈ reads, PlainRead read) (state : WatchDogState) :
    commandsOf (watchDogSession watchdogCallback state (reads.map .bytes)) =
      serve state.recvCmd reads := by
  induction reads generalizing state with
  | nil => rfl
  | cons read reads inductionHypothesis =>
      obtain ⟨plainFirst, plainOthers⟩ := List.forall_mem_cons.mp plain
      obtain ⟨noZero, short, noCtrlC, noCtrlZ⟩ := plainFirst
      have whole : read.takeWhile (· ≠ 0) = read := by
        rw [List.takeWhile_eq_self_iff]
        intro byte member
        have nonzero : byte ≠ 0 := fun zero => noZero (zero ▸ member)
        simpa using nonzero
      have fits : ¬ (maxLength ≤ read.length ∧ 0 ∉ read) := fun full => Nat.not_le_of_lt short full.1
      have unheard : commandsOf (if state.hiMsg then [] else [.write hiMsgText]) = [] := by
        split
        · rfl
        · rfl
      rw [List.map_cons, watchDogSession, watchDogIteration, serve]
      simp only [noCtrlC, noCtrlZ, or_self, if_false, if_neg fits, whole]
      cases taken : takeCommand (state.recvCmd ++ read) with
      | mk cmd recvCmd =>
          have later := inductionHypothesis plainOthers ⟨recvCmd, true⟩
          unfold commandsOf at later unheard ⊢
          cases cmd with
          | none => simp only [List.filterMap_append, unheard, later, Option.toList_none]
          | some cmd =>
              simp only [List.filterMap_append, unheard, later, Option.toList_some]
              rfl

/-! ### Taking a command -/

theorem findFirstOf_append {front : List UInt8} (plain : ∀ byte ∈ front, isPlain byte = true)
    (rest : List UInt8) :
    findFirstOf (front ++ rest) = (findFirstOf rest).map fun pos => pos + front.length := by
  have nothing : front.findIdx? (fun byte => byte = carriageReturn || byte = lineFeed) = none := by
    rw [List.findIdx?_eq_none_iff]
    intro byte member
    have here := plain byte member
    simp only [isPlain, Bool.and_eq_true, decide_eq_true_eq] at here
    simp [here.1, here.2]
  unfold findFirstOf
  rw [List.findIdx?_append, nothing, Option.none_or]

theorem takeCommand_plain {text : List UInt8} (plain : ∀ byte ∈ text, isPlain byte = true) :
    takeCommand text = (none, text) := by
  have nothing := findFirstOf_append plain []
  rw [List.append_nil] at nothing
  unfold takeCommand
  rw [nothing]
  rfl

/-- A line with its carriage return is a command, and the byte behind is taken for its line feed. -/
theorem takeCommand_line {line : List UInt8} (nonempty : line ≠ [])
    (plain : ∀ byte ∈ line, isPlain byte = true) (rest : List UInt8) :
    takeCommand (line ++ carriageReturn :: rest) = (some line, rest.drop 1) := by
  have found := findFirstOf_append plain (carriageReturn :: rest)
  have first : findFirstOf (carriageReturn :: rest) = some 0 := rfl
  rw [first, Option.map_some, Nat.zero_add] at found
  unfold takeCommand
  rw [found]
  cases line with
  | nil => exact absurd rfl nonempty
  | cons byte line =>
      simp only [List.length_cons]
      rw [List.take_append_of_le_length (by simp), List.take_of_length_le (by simp)]
      simp [List.drop_append]

theorem takeCommand_lineFeed (rest : List UInt8) : takeCommand (lineFeed :: rest) = (none, []) := rfl

/-- Nothing is served that has not come in. -/
theorem takeCommand_weight (text : List UInt8) :
    (takeCommand text).1.toList.flatten.countP isPlain + (takeCommand text).2.countP isPlain ≤
      text.countP isPlain := by
  unfold takeCommand
  split
  · simp
  · simp
  · rename_i pos _ _
    have parts : (text.take pos ++ text.drop (pos + 2)).Sublist text := by
      have shorter : (text.drop (pos + 2)).Sublist (text.drop pos) :=
        List.drop_sublist_drop_left text (Nat.le_add_right pos 2)
      have both := (List.Sublist.refl (text.take pos)).append shorter
      rwa [List.take_append_drop] at both
    have fewer := parts.countP_le (p := isPlain)
    rw [List.countP_append] at fewer
    simpa using fewer

theorem serve_weight (recvCmd : List UInt8) (reads : List (List UInt8)) :
    (serve recvCmd reads).flatten.countP isPlain ≤
      recvCmd.countP isPlain + reads.flatten.countP isPlain := by
  induction reads generalizing recvCmd with
  | nil => simp [serve]
  | cons read reads inductionHypothesis =>
      have here := takeCommand_weight (recvCmd ++ read)
      have later := inductionHypothesis (takeCommand (recvCmd ++ read)).2
      rw [List.countP_append] at here
      rw [serve, List.flatten_append, List.countP_append, List.flatten_cons, List.countP_append]
      omega

/-! ### Keeping up -/

/-- Lines are served by the reads, and behind each read there have been at most as many line feeds as commands,
    up to a credit for a line that has been served before its line feed. -/
def InTime (credit : Nat) (recvCmd : List UInt8) (lines reads : List (List UInt8)) : Prop :=
  serve recvCmd reads = lines ∧
    ∀ done later, reads = done ++ later →
      done.flatten.count lineFeed ≤ (serve recvCmd done).length + credit

theorem inTime_cons {recvCmd read left : List UInt8} {cmd : Option (List UInt8)}
    (taken : takeCommand (recvCmd ++ read) = (cmd, left)) (credit : Nat)
    (lines reads : List (List UInt8)) :
    InTime credit recvCmd (cmd.toList ++ lines) (read :: reads) ↔
      read.count lineFeed ≤ credit + cmd.toList.length ∧
        InTime (credit + cmd.toList.length - read.count lineFeed) left lines reads := by
  have serves : ∀ done, serve recvCmd (read :: done) = cmd.toList ++ serve left done := by
    intro done
    rw [serve, taken]
  unfold InTime
  rw [serves, List.append_cancel_left_eq]
  constructor
  · rintro ⟨exactly, inTime⟩
    have here := inTime [read] reads rfl
    rw [serves, serve, List.append_nil, List.flatten_singleton] at here
    refine ⟨by omega, exactly, ?_⟩
    intro done later split
    have behind := inTime (read :: done) later (congrArg (List.cons read) split)
    rw [serves, List.flatten_cons, List.count_append, List.length_append] at behind
    omega
  · rintro ⟨here, exactly, inTime⟩
    refine ⟨exactly, ?_⟩
    intro done later split
    cases done with
    | nil => simp
    | cons first done =>
        obtain ⟨rfl, rest⟩ := List.cons.inj split
        have behind := inTime done later rest
        rw [serves, List.flatten_cons, List.count_append, List.length_append]
        omega

theorem wellCut_cons {read : List UInt8} {reads : List (List UInt8)} :
    WellCut (read :: reads) ↔
      read.count lineFeed ≤ 1 ∧ (∀ next ∈ reads.head?, CutsTerminator read → next = [lineFeed]) ∧
        WellCut reads := by
  constructor
  · rintro ⟨single, alone⟩
    obtain ⟨singleFirst, singleOthers⟩ := List.forall_mem_cons.mp single
    obtain ⟨aloneFirst, aloneOthers⟩ := List.isChain_cons.mp alone
    exact ⟨singleFirst, aloneFirst, singleOthers, aloneOthers⟩
  · rintro ⟨singleFirst, aloneFirst, singleOthers, aloneOthers⟩
    exact ⟨List.forall_mem_cons.mpr ⟨singleFirst, singleOthers⟩,
      List.isChain_cons.mpr ⟨aloneFirst, aloneOthers⟩⟩

/-- Lines that are not empty and have no terminators in them. -/
def ProperLines (lines : List (List UInt8)) : Prop :=
  ∀ line ∈ lines, line ≠ [] ∧ ∀ byte ∈ line, isPlain byte = true

/-- Bytes with a terminator among them bring a line to its carriage return. -/
theorem first_line {lines : List (List UInt8)} (proper : ProperLines lines) {front later : List UInt8}
    (stream : front ++ later = wireOf lines) (dirty : ¬ ∀ byte ∈ front, isPlain byte = true) :
    ∃ line others rest, lines = line :: others ∧ front = line ++ carriageReturn :: rest ∧
      rest ++ later = lineFeed :: wireOf others := by
  cases lines with
  | nil =>
      obtain ⟨rfl, -⟩ := List.append_eq_nil_iff.mp stream
      exact absurd nofun dirty
  | cons line others =>
      have plain := (proper line (List.mem_cons_self ..)).2
      have split : front ++ later = line ++ carriageReturn :: lineFeed :: wireOf others := by
        rw [stream, wireOf, List.flatMap_cons, List.append_assoc]
        rfl
      rcases List.append_eq_append_iff.mp split with ⟨behind, inLine, -⟩ | ⟨behind, inFront, terminator⟩
      · refine absurd ?_ dirty
        intro byte member
        exact plain byte (inLine ▸ List.mem_append_left behind member)
      · cases behind with
        | nil =>
            rw [List.append_nil] at inFront
            exact absurd (inFront ▸ plain) dirty
        | cons first rest =>
            obtain ⟨rfl, followed⟩ := List.cons.inj terminator
            exact ⟨line, others, rest, rfl, inFront, followed.symm⟩

/-- The three places at which the reads can go on: in the middle of a line whose bytes are carried over, behind
    a carriage return whose line has been served, and behind one whose line is held back. -/
structure KeepsUp (reads : List (List UInt8)) : Prop where
  carrying : ∀ carry lines, ProperLines lines → (∀ byte ∈ carry, isPlain byte = true) →
    carry ++ reads.flatten = wireOf lines → (InTime 0 carry lines reads ↔ WellCut reads)
  cut : ∀ lines, ProperLines lines → reads.flatten = lineFeed :: wireOf lines →
    (InTime 1 [] lines reads ↔ (∀ next ∈ reads.head?, next = [lineFeed]) ∧ WellCut reads)
  holding : ∀ line lines, ProperLines (line :: lines) → reads.flatten = lineFeed :: wireOf lines →
    (InTime 0 (line ++ [carriageReturn]) (line :: lines) reads ↔ WellCut reads)

/-- A read with the line feed of the line it lets be served.  A second one in it completes a line that has to
    wait for the next read. -/
theorem KeepsUp.behind_line {reads lines : List (List UInt8)} {recvCmd read line left : List UInt8}
    (keeps : KeepsUp reads) (proper : ProperLines lines)
    (taken : takeCommand (recvCmd ++ read) = (some line, left))
    (feeds : read.count lineFeed = left.count lineFeed + 1)
    (stream : left ++ reads.flatten = wireOf lines) :
    InTime 0 recvCmd (line :: lines) (read :: reads) ↔ WellCut (read :: reads) := by
  have inRead : lineFeed ∈ read := List.count_pos_iff.mp (by omega)
  have uncut : ∀ next ∈ reads.head?, CutsTerminator read → next = [lineFeed] :=
    fun _ _ cuts => absurd inRead cuts.2
  have step := inTime_cons taken 0 lines reads
  rw [Option.toList_some, List.singleton_append, List.length_singleton] at step
  rw [step, wellCut_cons]
  by_cases second : lineFeed ∈ left
  · have twice := List.count_pos_iff.mpr second
    constructor
    · rintro ⟨single, -⟩
      omega
    · rintro ⟨single, -⟩
      omega
  · have none : left.count lineFeed = 0 := List.count_eq_zero.mpr second
    have once : read.count lineFeed = 1 := by omega
    have rest : InTime 0 left lines reads ↔ WellCut reads := by
      by_cases plain : ∀ byte ∈ left, isPlain byte = true
      · exact keeps.carrying left lines proper plain stream
      · obtain ⟨next, others, behind, rfl, rfl, followed⟩ := first_line proper stream plain
        cases behind with
        | nil => exact keeps.holding next others proper followed
        | cons byte behind =>
            obtain ⟨rfl, -⟩ := List.cons.inj followed
            exact absurd (List.mem_append_right next (List.mem_cons_of_mem _ (List.mem_cons_self ..))) second
    rw [once, rest]
    constructor
    · rintro ⟨single, wellCut⟩
      exact ⟨single, uncut, wellCut⟩
    · rintro ⟨single, -, wellCut⟩
      exact ⟨single, wellCut⟩

theorem wireOf_weight {lines : List (List UInt8)} :
    (wireOf lines).countP isPlain = lines.flatten.countP isPlain := by
  induction lines with
  | nil => rfl
  | cons line lines inductionHypothesis =>
      have terminator : [carriageReturn, lineFeed].countP isPlain = 0 := by decide
      rw [wireOf, List.flatMap_cons, ← wireOf, List.countP_append, List.countP_append, inductionHypothesis,
        terminator, List.flatten_cons, List.countP_append, Nat.add_zero]

theorem lineFeed_not_plain {text : List UInt8} (plain : ∀ byte ∈ text, isPlain byte = true) :
    lineFeed ∉ text := by
  intro member
  exact absurd (plain lineFeed member) (by decide)

/-- The wire of some lines begins with a byte of a line. -/
theorem wireOf_cons {lines : List (List UInt8)} (proper : ProperLines lines) {byte : UInt8}
    {rest : List UInt8} (stream : wireOf lines = byte :: rest) : isPlain byte = true := by
  cases lines with
  | nil => cases stream
  | cons line lines =>
      obtain ⟨nonempty, plain⟩ := proper line (List.mem_cons_self ..)
      cases line with
      | nil => exact absurd rfl nonempty
      | cons first line =>
          obtain ⟨rfl, -⟩ := List.cons.inj stream
          exact plain first (List.mem_cons_self ..)

theorem keepsUp_nil : KeepsUp [] where
  carrying := by
    intro carry lines proper plain stream
    rw [List.flatten_nil, List.append_nil] at stream
    cases lines with
    | nil =>
        cases stream
        refine iff_of_true ⟨rfl, ?_⟩ ⟨nofun, .nil⟩
        intro done later split
        obtain ⟨rfl, -⟩ := List.append_eq_nil_iff.mp split.symm
        exact Nat.zero_le _
    | cons line lines =>
        have inside : lineFeed ∈ carry := by
          rw [stream, wireOf, List.flatMap_cons]
          simp
        exact absurd inside (lineFeed_not_plain plain)
  cut := by
    intro lines _ stream
    cases stream
  holding := by
    intro line lines _ stream
    cases stream

theorem KeepsUp.carrying_cons {reads : List (List UInt8)} (keeps : KeepsUp reads) {read : List UInt8}
    (nonempty : read ≠ []) {carry : List UInt8} {lines : List (List UInt8)} (proper : ProperLines lines)
    (plain : ∀ byte ∈ carry, isPlain byte = true)
    (stream : carry ++ (read :: reads).flatten = wireOf lines) :
    InTime 0 carry lines (read :: reads) ↔ WellCut (read :: reads) := by
  rw [List.flatten_cons, ← List.append_assoc] at stream
  by_cases plainFront : ∀ byte ∈ carry ++ read, isPlain byte = true
  · have plainRead : ∀ byte ∈ read, isPlain byte = true :=
      fun byte member => plainFront byte (List.mem_append_right carry member)
    have none : read.count lineFeed = 0 := List.count_eq_zero.mpr (lineFeed_not_plain plainRead)
    have uncut : ∀ next ∈ reads.head?, CutsTerminator read → next = [lineFeed] := by
      intro _ _ cuts
      exact absurd (plainRead _ (List.mem_of_getLast? cuts.1)) (by decide)
    have step := inTime_cons (takeCommand_plain plainFront) 0 lines reads
    rw [Option.toList_none, List.nil_append, none] at step
    have later := keeps.carrying (carry ++ read) lines proper plainFront stream
    rw [step, wellCut_cons, none]
    constructor
    · rintro ⟨-, inTime⟩
      exact ⟨Nat.zero_le 1, uncut, later.mp inTime⟩
    · rintro ⟨-, -, wellCut⟩
      exact ⟨Nat.zero_le _, later.mpr wellCut⟩
  · obtain ⟨line, others, rest, rfl, front, followed⟩ := first_line proper stream plainFront
    obtain ⟨lineNonempty, linePlain⟩ := proper line (List.mem_cons_self ..)
    have properOthers : ProperLines others := fun other member => proper other (List.mem_cons_of_mem _ member)
    have taken := takeCommand_line lineNonempty linePlain rest
    rw [← front] at taken
    have feeds := congrArg (List.count lineFeed) front
    rw [List.count_append, List.count_eq_zero.mpr (lineFeed_not_plain plain), Nat.zero_add,
      List.count_append, List.count_eq_zero.mpr (lineFeed_not_plain linePlain), Nat.zero_add] at feeds
    cases rest with
    | nil =>
        -- The carriage return lets the line be served; its line feed is still to come.
        have none : read.count lineFeed = 0 := feeds
        have cuts : CutsTerminator read := by
          have last := congrArg List.getLast? front
          rw [List.getLast?_append_of_ne_nil _ nonempty, List.getLast?_append_of_ne_nil _ (by simp)] at last
          exact ⟨last, List.count_eq_zero.mp none⟩
        have step := inTime_cons taken 0 others reads
        rw [Option.toList_some, List.singleton_append, none] at step
        rw [step, wellCut_cons, none]
        have behind := keeps.cut others properOthers followed
        constructor
        · rintro ⟨-, inTime⟩
          obtain ⟨alone, wellCut⟩ := behind.mp inTime
          exact ⟨Nat.zero_le 1, fun next member _ => alone next member, wellCut⟩
        · rintro ⟨-, alone, wellCut⟩
          exact ⟨Nat.zero_le _, behind.mpr ⟨fun next member => alone next member cuts, wellCut⟩⟩
    | cons byte rest =>
        obtain ⟨rfl, behind⟩ := List.cons.inj followed
        apply keeps.behind_line properOthers taken _ behind
        rw [feeds, List.count_cons_of_ne (by decide), List.count_cons_self]
        rfl

/-- Behind a carriage return whose line has been served, the line feed drops what comes with it. -/
theorem KeepsUp.cut_cons {reads : List (List UInt8)} (keeps : KeepsUp reads) {read : List UInt8}
    (nonempty : read ≠ []) {lines : List (List UInt8)} (proper : ProperLines lines)
    (stream : (read :: reads).flatten = lineFeed :: wireOf lines) :
    InTime 1 [] lines (read :: reads) ↔
      (∀ next ∈ (read :: reads).head?, next = [lineFeed]) ∧ WellCut (read :: reads) := by
  cases read with
  | nil => exact absurd rfl nonempty
  | cons byte more =>
      rw [List.flatten_cons, List.cons_append] at stream
      obtain ⟨rfl, followed⟩ := List.cons.inj stream
      have taken : takeCommand ([] ++ lineFeed :: more) = (none, []) := takeCommand_lineFeed more
      have step := inTime_cons taken 1 lines reads
      rw [Option.toList_none, List.nil_append] at step
      cases more with
      | nil =>
          have uncut : ∀ next ∈ reads.head?, CutsTerminator [lineFeed] → next = [lineFeed] :=
            fun _ _ cuts => absurd (List.mem_singleton_self lineFeed) cuts.2
          have later := keeps.carrying [] lines proper nofun followed
          rw [step, wellCut_cons]
          constructor
          · rintro ⟨single, inTime⟩
            exact ⟨fun next member => (Option.some.inj member).symm, single, uncut, later.mp inTime⟩
          · rintro ⟨-, single, -, wellCut⟩
            exact ⟨single, later.mpr wellCut⟩
      | cons byte more =>
          have plain := wireOf_cons proper followed.symm
          refine iff_of_false ?_ ?_
          · intro inTime
            have exactly := (step.mp inTime).2.1
            have weight := serve_weight [] reads
            have sent := congrArg (List.countP isPlain) followed
            rw [wireOf_weight, List.countP_append, List.countP_cons_of_pos plain] at sent
            rw [exactly, List.countP_nil] at weight
            omega
          · rintro ⟨alone, -⟩
            exact absurd (alone _ rfl) (by simp)

theorem KeepsUp.holding_cons {reads : List (List UInt8)} (keeps : KeepsUp reads) {read : List UInt8}
    (nonempty : read ≠ []) {line : List UInt8} {lines : List (List UInt8)}
    (proper : ProperLines (line :: lines))
    (stream : (read :: reads).flatten = lineFeed :: wireOf lines) :
    InTime 0 (line ++ [carriageReturn]) (line :: lines) (read :: reads) ↔ WellCut (read :: reads) := by
  obtain ⟨lineNonempty, linePlain⟩ := proper line (List.mem_cons_self ..)
  have properOthers : ProperLines lines := fun other member => proper other (List.mem_cons_of_mem _ member)
  cases read with
  | nil => exact absurd rfl nonempty
  | cons byte more =>
      rw [List.flatten_cons, List.cons_append] at stream
      obtain ⟨rfl, followed⟩ := List.cons.inj stream
      have taken := takeCommand_line lineNonempty linePlain (lineFeed :: more)
      rw [List.append_cons] at taken
      exact keeps.behind_line properOthers taken (List.count_cons_self ..) followed

theorem keepsUp {reads : List (List UInt8)} (nonempty : ∀ read ∈ reads, read ≠ []) : KeepsUp reads := by
  induction reads with
  | nil => exact keepsUp_nil
  | cons read reads inductionHypothesis =>
      obtain ⟨here, others⟩ := List.forall_mem_cons.mp nonempty
      have keeps := inductionHypothesis others
      refine ⟨?_, ?_, ?_⟩
      · intro carry lines proper plain stream
        exact keeps.carrying_cons here proper plain stream
      · intro lines proper stream
        exact keeps.cut_cons here proper stream
      · intro line lines proper stream
        exact keeps.holding_cons here proper stream

/-! ### The session -/

theorem plainReads {lines reads : List (List UInt8)} (sent : SentAs lines reads) :
    ∀ read ∈ reads, PlainRead read := by
  intro read member
  refine ⟨?_, sent.readsShort read member, sent.noControl read member⟩
  intro zero
  have inStream : (0 : UInt8) ∈ wireOf lines := by
    rw [← sent.stream]
    exact List.mem_flatten_of_mem member zero
  obtain ⟨line, inLines, inLine⟩ := List.mem_flatMap.mp inStream
  rcases List.mem_append.mp inLine with inText | inTerminator
  · exact (sent.plain line inLines 0 inText).2 rfl
  · exact absurd inTerminator (by decide)

/-- However the lines are cut, the session passes exactly them on, in order and each in time, exactly when they
    are cut well. -/
theorem watchdog_serves_iff (watchdogCallback : List UInt8 → List UInt8) {lines reads : List (List UInt8)}
    (sent : SentAs lines reads) : ServedInTime watchdogCallback lines reads ↔ WellCut reads := by
  have plain := plainReads sent
  have proper : ProperLines lines := by
    intro line member
    exact ⟨sent.nonempty line member, fun byte inside => (sent.plain line member byte inside).1⟩
  have serves : ∀ done, (∀ read ∈ done, PlainRead read) → served watchdogCallback done = serve [] done := by
    intro done plainDone
    exact commandsOf_session watchdogCallback plainDone .start
  have kept := (keepsUp sent.readsNonempty).carrying [] lines proper nofun sent.stream
  rw [← kept]
  constructor
  · rintro ⟨exactly, inTime⟩
    refine ⟨(serves reads plain).symm.trans exactly, ?_⟩
    intro done later split
    have behind := inTime done later split
    rw [serves done fun read member => plain read (split ▸ List.mem_append_left later member)] at behind
    exact behind
  · rintro ⟨exactly, inTime⟩
    refine ⟨(serves reads plain).trans exactly, ?_⟩
    intro done later split
    rw [serves done fun read member => plain read (split ▸ List.mem_append_left later member)]
    exact inTime done later split

/-- Two commands, the first one in three reads. -/
theorem watchdog_serves_three_reads :
    ServedInTime (fun cmd => cmd) [[108, 115], [113]] [[108], [115, 13], [10], [113, 13, 10]] := by
  have sent : SentAs [[108, 115], [113]] [[108], [115, 13], [10], [113, 13, 10]] :=
    ⟨by decide, by simp [isPlain, carriageReturn, lineFeed], by decide, by decide, by decide, by decide⟩
  apply (watchdog_serves_iff (fun cmd => cmd) sent).mpr
  refine ⟨by decide, ?_⟩
  simp [CutsTerminator, carriageReturn, lineFeed]

/-- Two commands in one read, of which the second one is never served, and two commands with the cut behind the
    carriage return of the first one, of which the second one is lost. -/
theorem watchdog_misses_commands :
    (SentAs [[97], [98]] [[97, 13, 10, 98, 13, 10]] ∧
      served (fun cmd => cmd) [[97, 13, 10, 98, 13, 10]] = [[97]] ∧
      ¬ ServedInTime (fun cmd => cmd) [[97], [98]] [[97, 13, 10, 98, 13, 10]]) ∧
      SentAs [[97], [98]] [[97, 13], [10, 98, 13, 10]] ∧
      served (fun cmd => cmd) [[97, 13], [10, 98, 13, 10]] = [[97]] ∧
      ¬ ServedInTime (fun cmd => cmd) [[97], [98]] [[97, 13], [10, 98, 13, 10]] := by
  refine ⟨⟨?_, by decide, ?_⟩, ?_, by decide, ?_⟩
  · exact ⟨by decide, by simp [isPlain, carriageReturn, lineFeed], by decide, by decide, by decide, by decide⟩
  · rintro ⟨exactly, -⟩
    exact absurd exactly (by decide)
  · exact ⟨by decide, by simp [isPlain, carriageReturn, lineFeed], by decide, by decide, by decide, by decide⟩
  · rintro ⟨exactly, -⟩
    exact absurd exactly (by decide)

end LobbySvr.Proofs
