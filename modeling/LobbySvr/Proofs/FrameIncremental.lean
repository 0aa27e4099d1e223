/-
Module: LobbySvr.Proofs.FrameIncremental
Layer: Proofs
Purpose: The frame parsers are incremental.  A parser that returns true has stopped between two packets, on
  a remainder that is too short for what it declares; it can be called again on that remainder with more
  bytes behind it, and nothing differs from having had all the bytes at once.  Malformed packets and
  wrapped counters are included: no step of the argument looks at what the keys say.
Imports: LobbySvr.Proofs.FrameSteps, LobbySvr.Proofs.FrameRefinement, LobbySvr.Lobby.PacketParserJson
Trusted boundary: none
Main exports: machineStep_append, runMachine_append, Resumes, ResumesAt, testParsers_resume
Open obligations: none
-/
import LobbySvr.Proofs.FrameSteps
import LobbySvr.Proofs.FrameRefinement
import LobbySvr.Lobby.PacketParserJson

namespace LobbySvr.Proofs

open LobbySvr.Foundation
open LobbySvr.Net
open LobbySvr.Spec
open LobbySvr.Lobby

section

variable {κ : Type} {parser : FrameParser κ} {behaviour : Behaviour κ}

/-- A remainder between packets that the machine waits on: no complete header, or fewer bytes than the main
    key declares. -/
def Incomplete (parser : FrameParser κ) (rest : List UInt8) : Prop :=
  rest.length < sizeHeader ∨
    rest.length < (parser.keys.mainLength (u32Of (rest.take sizeKey)) + 4).toNat

theorem partStep_append {total : UInt32} {rest more : List UInt8} {calls : List (Call κ)}
    {later : FrameState κ} (went : partStep parser behaviour total rest calls = .next later) :
    partStep parser behaviour total (rest ++ more) calls = .next (later.followedBy more) := by
  obtain ⟨key, body, behind, kind, part, rfl, rfl⟩ := partStep_next went
  have moved : key ++ (body ++ behind) ++ more = key ++ (body ++ (behind ++ more)) := by simp
  rw [moved, partStep_of_part part]
  rfl

/-- Prefix stability: a step that goes round again is the same step when more bytes follow. -/
theorem machineStep_append {state later : FrameState κ} (more : List UInt8)
    (went : machineStep parser behaviour state = .next later) :
    machineStep parser behaviour (state.followedBy more) = .next (later.followedBy more) := by
  obtain ⟨inside, rest, calls⟩ := state
  cases inside with
  | some total => exact partStep_append went
  | none =>
      rcases machineStep_between rest calls with ⟨stopped, _⟩ | rejected | ⟨key, behind, rfl, opens, eq⟩
      · rw [stopped] at went
        cases went
      · rw [rejected] at went
        cases went
      · rw [eq] at went
        have moved : FrameState.followedBy ⟨none, key ++ behind, calls⟩ more =
            (⟨none, key ++ (behind ++ more), calls⟩ : FrameState κ) := by
          simp [FrameState.followedBy]
        have partThere : sizeKey ≤ (behind ++ more).length := by
          have := opens.partThere
          simp only [List.length_append]
          omega
        have arrived :
            (parser.keys.mainLength (u32Of key) + 4).toNat ≤ (key ++ (behind ++ more)).length := by
          have := opens.arrived
          simp only [List.length_append] at this ⊢
          omega
        rw [moved, machineStep_of_mainKey opens.keyLength opens.keyOk partThere arrived]
        exact partStep_append went

theorem partStep_done_ne_true {total : UInt32} {rest : List UInt8} {calls : List (Call κ)}
    {result : FrameResult κ} (left : partStep parser behaviour total rest calls = .done result) :
    result.ending ≠ .returned true := by
  unfold partStep at left
  split at left
  · cases left
    simp
  · split at left
    · simp only at left
      split at left
      · cases left
        simp
      · unfold handOn at left
        split at left
        · cases left
          simp
        · split at left
          · cases left
            simp
          · cases left
    · cases left
      simp

/-- The only exit that returns true is the one between packets, and it changes nothing. -/
theorem machineStep_stops {state : FrameState κ} {result : FrameResult κ}
    (left : machineStep parser behaviour state = .done result)
    (stopped : result.ending = .returned true) :
    state.inside = none ∧ result = ⟨.returned true, state.rest, state.calls⟩ ∧
      Incomplete parser state.rest := by
  obtain ⟨inside, rest, calls⟩ := state
  cases inside with
  | some total => exact absurd stopped (partStep_done_ne_true left)
  | none =>
      rcases machineStep_between rest calls with ⟨eq, waits⟩ | rejected | ⟨key, behind, _, _, eq⟩
      · rw [eq] at left
        cases left
        exact ⟨rfl, rfl, waits⟩
      · rw [rejected] at left
        cases left
        simp at stopped
      · rw [eq] at left
        exact absurd stopped (partStep_done_ne_true left)

/-- What a step takes, it takes from the front. -/
theorem machineStep_suffix {state later : FrameState κ}
    (went : machineStep parser behaviour state = .next later) : later.rest <:+ state.rest := by
  obtain ⟨inside, rest, calls⟩ := state
  have part : ∀ {total : UInt32} {rest : List UInt8},
      partStep parser behaviour total rest calls = .next later → later.rest <:+ rest := by
    intro total rest went
    obtain ⟨key, body, behind, kind, _, rfl, rfl⟩ := partStep_next went
    exact ⟨key ++ body, by simp [afterPart]⟩
  cases inside with
  | some total => exact part went
  | none =>
      rcases machineStep_between rest calls with ⟨eq, _⟩ | rejected | ⟨key, behind, rfl, _, eq⟩
      · rw [eq] at went
        cases went
      · rw [rejected] at went
        cases went
      · rw [eq] at went
        exact (part went).trans (List.suffix_append key behind)

/-- A run that returns true can be resumed on its remainder. -/
theorem runMachine_append (state : FrameState κ) (more : List UInt8)
    (stopped : (runMachine parser behaviour state).ending = .returned true) :
    runMachine parser behaviour (state.followedBy more) =
        runMachine parser behaviour
          ⟨none, (runMachine parser behaviour state).rest ++ more,
            (runMachine parser behaviour state).calls⟩ ∧
      (runMachine parser behaviour state).rest <:+ state.rest ∧
      Incomplete parser (runMachine parser behaviour state).rest := by
  refine loop_rule machineStep_decreases
    (motive := fun state result => result.ending = .returned true →
      runMachine parser behaviour (state.followedBy more) =
          runMachine parser behaviour ⟨none, result.rest ++ more, result.calls⟩ ∧
        result.rest <:+ state.rest ∧ Incomplete parser result.rest)
    ?_ ?_ state stopped
  · intro state result left stopped
    obtain ⟨between, rfl, waits⟩ := machineStep_stops left stopped
    refine ⟨?_, List.suffix_rfl, waits⟩
    simp only [FrameState.followedBy, between]
  · intro state later went inductionHypothesis stopped
    obtain ⟨same, suffix, waits⟩ := inductionHypothesis stopped
    refine ⟨?_, suffix.trans (machineStep_suffix went), waits⟩
    rw [runMachine_next (machineStep_append more went)]
    exact same

/-- Two parser runs, one after the other, come to what one run came to. -/
structure Resumes (first second whole : ParseResult κ) : Prop where
  ending : whole.ending = second.ending
  remainder : whole.msg.bytes = second.msg.bytes
  calls : whole.calls = first.calls ++ second.calls

theorem parse_resumes {handlers : Handlers κ} {first whole resumed : MessageBuffer} {more : List UInt8}
    (firstValid : first.Valid) (wholeValid : whole.Valid) (resumedValid : resumed.Valid)
    (wholeBytes : whole.bytes = first.bytes ++ more)
    (stopped : (parse parser handlers first).ending = .returned true)
    (resumedBytes : resumed.bytes = (parse parser handlers first).msg.bytes ++ more) :
    Resumes (parse parser handlers first) (parse parser handlers resumed)
        (parse parser handlers whole) ∧
      (parse parser handlers first).msg.bytes <:+ first.bytes ∧
      Incomplete parser (parse parser handlers first).msg.bytes := by
  have firstRun := parse_refines parser handlers firstValid
  have wholeRun := parse_refines parser handlers wholeValid
  have resumedRun := parse_refines parser handlers resumedValid
  rw [resumedBytes, firstRun.bytes] at resumedRun
  rw [wholeBytes] at wholeRun
  have stoppedMachine : (runFrames parser (behaviourOf handlers) first.bytes).ending =
      .returned true := firstRun.ending.symm.trans stopped
  obtain ⟨same, suffix, waits⟩ := runMachine_append _ more stoppedMachine
  -- The resumed machine starts without calls; those of the first run stand in front of its own.
  have whole : runFrames parser (behaviourOf handlers) (first.bytes ++ more) =
      FrameResult.withCalls (runFrames parser (behaviourOf handlers) first.bytes).calls
        (runFrames parser (behaviourOf handlers)
          ((runFrames parser (behaviourOf handlers) first.bytes).rest ++ more)) := by
    refine same.trans (Eq.trans ?_ (runMachine_calls _ ⟨none, _, []⟩))
    simp only [FrameState.withCalls, List.append_nil]
    rfl
  rw [whole] at wholeRun
  rw [firstRun.bytes]
  refine ⟨⟨?_, ?_, ?_⟩, suffix, waits⟩
  · rw [wholeRun.ending, resumedRun.ending]
    rfl
  · rw [wholeRun.bytes, resumedRun.bytes]
    rfl
  · rw [wholeRun.calls, firstRun.calls, resumedRun.calls]
    rfl

/-- Stopping on `before`, and going on with `more` behind what was left of it, is the same as having had all
    the bytes at once; what was left is too short for what it declares. -/
def ResumesAt (parser : FrameParser κ) (handlers : Handlers κ) (before more : List UInt8) : Prop :=
  (parse parser handlers (.received before)).ending = .returned true →
    ∃ rest, (parse parser handlers (.received before)).msg.bytes = rest ∧
      Resumes (parse parser handlers (.received before)) (parse parser handlers (.received (rest ++ more)))
        (parse parser handlers (.received (before ++ more))) ∧
      rest <:+ before ∧
      (rest.length < 8 ∨ rest.length < (u32Of (rest.take 4) + 4).toNat)

theorem parse_resumesAt {handlers : Handlers κ} (plain : parser.keys = plainKeys)
    {before more : List UInt8} (fits : (before ++ more).length ≤ MessageBuffer.maxBufferSize) :
    ResumesAt parser handlers before more := by
  intro stopped
  have beforeFits : before.length ≤ MessageBuffer.maxBufferSize := by
    rw [List.length_append] at fits
    omega
  have firstValid := MessageBuffer.received_valid beforeFits
  have suffix : (parse parser handlers (.received before)).msg.bytes <:+ before := by
    have run := parse_refines parser handlers firstValid
    rw [MessageBuffer.received_bytes] at run
    have stoppedMachine := run.ending.symm.trans stopped
    rw [run.bytes]
    exact (runMachine_append _ [] stoppedMachine).2.1
  have restFits : ((parse parser handlers (.received before)).msg.bytes ++ more).length ≤
      MessageBuffer.maxBufferSize := by
    have shorter := suffix.length_le
    rw [List.length_append] at fits ⊢
    omega
  have wholeBytes : (MessageBuffer.received (before ++ more)).bytes =
      (MessageBuffer.received before).bytes ++ more := by simp
  obtain ⟨resumes, _, waits⟩ := parse_resumes firstValid (MessageBuffer.received_valid fits)
    (MessageBuffer.received_valid restFits) wholeBytes stopped (MessageBuffer.received_bytes _)
  refine ⟨_, rfl, resumes, suffix, ?_⟩
  simpa [Incomplete, plain, plainKeys, sizeHeader, sizeKey] using waits

end

/-- Both parsers of the `Test` format are incremental, whatever bytes they are given and whatever their
    handlers do with a body. -/
theorem testParsers_resume (lobby : Handlers LobbyHandler) (broker : Handlers BrokerHandler)
    (before more : List UInt8) (fits : (before ++ more).length ≤ MessageBuffer.maxBufferSize) :
    ResumesAt packetParserNotUseEncTest lobby before more ∧
      ResumesAt packetParserBrokerTest broker before more :=
  ⟨parse_resumesAt rfl fits, parse_resumesAt rfl fits⟩

/-- A heartbeat and half of another, then the other half: the call for the second one is made by the resumed
    run. -/
theorem testParsers_resume_split_heartBeat :
    (parse packetParserNotUseEncTest (fun _ _ _ => none)
        (.received ([5, 0, 0, 0, 1, 0, 0, 0, 3, 5, 0] ++ [0, 0, 1, 0, 0, 0, 3]))).calls =
      [.handler .heartBeat 1 [3]] ++
        (parse packetParserNotUseEncTest (fun _ _ _ => none)
          (.received ([5, 0] ++ [0, 0, 1, 0, 0, 0, 3]))).calls := by
  obtain ⟨rest, same, resumes, _⟩ := (testParsers_resume (fun _ _ _ => none) (fun _ _ _ => none)
    [5, 0, 0, 0, 1, 0, 0, 0, 3, 5, 0] [0, 0, 1, 0, 0, 0, 3] (by decide)).1 (by decide)
  have left : rest = [5, 0] := by
    rw [← same]
    decide
  subst left
  exact resumes.calls

end LobbySvr.Proofs
