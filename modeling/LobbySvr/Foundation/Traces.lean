/-
Module: LobbySvr.Foundation.Traces
Layer: Foundation
Purpose: Runs of a step function that may fail and that puts something out at each step.  A run is given by
  its inputs; its trace pairs each input with what it put out.  Four rules: what every step keeps of the
  trace and the state holds at the end; two step functions that agree step by step agree on whole runs;
  for a viewer who sees some inputs only, a run with all inputs looks like the run with those alone; and a
  system whose steps are runs of another one runs as that one does.
Imports: Mathlib tactics only
Trusted boundary: none
Main exports: map_eq_ok, runTrace, runTrace_cons, runTrace_inputs, runTrace_append, runTrace_split,
  runTrace_invariant, Agrees, TracesAgree, tracesAgree_image, runTrace_simulation, viewed, viewed_agree,
  runTrace_purge, runTrace_coarse
Open obligations: none
-/
import Mathlib.Tactic.Common

namespace LobbySvr.Foundation

/-- A mapped result is a success exactly when the result is. -/
theorem map_eq_ok {α β γ : Type} {image : β → γ} {result : Except α β} {mapped : γ} :
    result.map image = .ok mapped ↔ ∃ value, result = .ok value ∧ mapped = image value := by
  cases result with
  | error failure => simp [Except.map]
  | ok value => simp [Except.map, eq_comm]

section

variable {σ ι ω α : Type} {step : σ → ι → Except α (σ × ω)}

/-- The state and the trace that a list of inputs leads to.  A failure ends the run. -/
def runTrace (step : σ → ι → Except α (σ × ω)) : σ → List ι → Except α (σ × List (ι × ω))
  | state, [] => .ok (state, [])
  | state, input :: inputs =>
      match step state input with
      | .error failure => .error failure
      | .ok (state, output) =>
          match runTrace step state inputs with
          | .error failure => .error failure
          | .ok (state, trace) => .ok (state, (input, output) :: trace)

/-- A run with a first input is its step and the run from there. -/
theorem runTrace_cons {state last : σ} {input : ι} {inputs : List ι} {trace : List (ι × ω)} :
    runTrace step state (input :: inputs) = .ok (last, trace) ↔
      ∃ next output rest, step state input = .ok (next, output) ∧
        runTrace step next inputs = .ok (last, rest) ∧ trace = (input, output) :: rest := by
  constructor
  · intro ran
    rw [runTrace] at ran
    split at ran
    · cases ran
    · rename_i next output stepped
      split at ran
      · cases ran
      · rename_i final rest continued
        cases ran
        exact ⟨next, output, rest, stepped, continued, rfl⟩
  · rintro ⟨next, output, rest, stepped, continued, rfl⟩
    simp only [runTrace, stepped, continued]

/-- The inputs of a trace are those of the run. -/
theorem runTrace_inputs {state last : σ} {inputs : List ι} {trace : List (ι × ω)}
    (ran : runTrace step state inputs = .ok (last, trace)) : trace.map Prod.fst = inputs := by
  induction inputs generalizing state trace with
  | nil =>
      cases ran
      rfl
  | cons input inputs inductionHypothesis =>
      obtain ⟨next, output, rest, -, continued, rfl⟩ := runTrace_cons.mp ran
      rw [List.map_cons, inductionHypothesis continued]

/-- A run can be cut in two. -/
theorem runTrace_append {state last : σ} {before after : List ι} {trace : List (ι × ω)} :
    runTrace step state (before ++ after) = .ok (last, trace) ↔
      ∃ middle early late, runTrace step state before = .ok (middle, early) ∧
        runTrace step middle after = .ok (last, late) ∧ trace = early ++ late := by
  induction before generalizing state trace with
  | nil =>
      constructor
      · intro ran
        exact ⟨state, [], trace, rfl, ran, rfl⟩
      · rintro ⟨middle, early, late, first, second, rfl⟩
        cases first
        exact second
  | cons input before inductionHypothesis =>
      rw [List.cons_append, runTrace_cons]
      constructor
      · rintro ⟨next, output, rest, stepped, continued, rfl⟩
        obtain ⟨middle, early, late, first, second, rfl⟩ := inductionHypothesis.mp continued
        exact ⟨middle, (input, output) :: early, late,
          runTrace_cons.mpr ⟨next, output, early, stepped, first, rfl⟩, second, rfl⟩
      · rintro ⟨middle, early, late, first, second, rfl⟩
        obtain ⟨next, output, rest, stepped, continued, rfl⟩ := runTrace_cons.mp first
        exact ⟨next, output, rest ++ late, stepped,
          inductionHypothesis.mpr ⟨middle, rest, late, continued, second, rfl⟩, rfl⟩

/-- A step in the middle of a trace is a step of the state that the run up to there has reached. -/
theorem runTrace_split {start last : σ} {inputs : List ι} {before after : List (ι × ω)} {input : ι}
    {output : ω} (ran : runTrace step start inputs = .ok (last, before ++ (input, output) :: after)) :
    ∃ state next, runTrace step start (before.map Prod.fst) = .ok (state, before) ∧
      step state input = .ok (next, output) := by
  have all := runTrace_inputs ran
  rw [List.map_append, List.map_cons] at all
  rw [← all] at ran
  obtain ⟨state, early, late, first, second, cut⟩ := runTrace_append.mp ran
  obtain ⟨next, stepOutput, rest, stepped, -, rfl⟩ := runTrace_cons.mp second
  have lengths : before.length = early.length := by
    rw [← List.length_map Prod.fst, ← runTrace_inputs first, List.length_map]
  obtain ⟨rfl, same⟩ := List.append_inj cut lengths
  obtain ⟨equal, -⟩ := List.cons.inj same
  cases equal
  exact ⟨state, next, first, stepped⟩

/-- What holds of the empty trace at the start, and is kept by every step that does not fail, holds of the
    trace and the state of every run. -/
theorem runTrace_invariant {start : σ} (invariant : List (ι × ω) → σ → Prop)
    (initially : invariant [] start)
    (kept : ∀ earlier state input next output, invariant earlier state →
      step state input = .ok (next, output) → invariant (earlier ++ [(input, output)]) next)
    {inputs : List ι} {last : σ} {trace : List (ι × ω)}
    (ran : runTrace step start inputs = .ok (last, trace)) : invariant trace last := by
  have along : ∀ (inputs : List ι) (earlier : List (ι × ω)) (state last : σ) (trace : List (ι × ω)),
      invariant earlier state → runTrace step state inputs = .ok (last, trace) →
      invariant (earlier ++ trace) last := by
    intro inputs
    induction inputs with
    | nil =>
        intro earlier state last trace holds ran
        cases ran
        rw [List.append_nil]
        exact holds
    | cons input inputs inductionHypothesis =>
        intro earlier state last trace holds ran
        obtain ⟨next, output, rest, stepped, continued, rfl⟩ := runTrace_cons.mp ran
        have later := inductionHypothesis _ _ _ _ (kept _ _ _ _ _ holds stepped) continued
        rw [List.append_assoc] at later
        exact later
  exact along inputs [] start last trace initially ran

end

section

variable {σ τ ι ω ω' α : Type} {step : σ → ι → Except α (σ × ω)} {step' : τ → ι → Except α (τ × ω')}

/-- Two results of a step function, or of a run, that agree: both fail in the same way, or both succeed
    with related states and outputs. -/
inductive Agrees (states : σ → τ → Prop) (outputs : ω → ω' → Prop) :
    Except α (σ × ω) → Except α (τ × ω') → Prop where
  | fails (failure : α) : Agrees states outputs (.error failure) (.error failure)
  | succeeds {state : σ} {state' : τ} {output : ω} {output' : ω'} (related : states state state')
      (same : outputs output output') : Agrees states outputs (.ok (state, output)) (.ok (state', output'))

theorem Agrees.of_ok {states : σ → τ → Prop} {outputs : ω → ω' → Prop} {state : σ} {output : ω}
    {result : Except α (τ × ω')} (agrees : Agrees states outputs (.ok (state, output)) result) :
    ∃ state' output', result = .ok (state', output') ∧ states state state' ∧ outputs output output' := by
  cases agrees with
  | succeeds related same => exact ⟨_, _, rfl, related, same⟩

theorem Agrees.of_ok_right {states : σ → τ → Prop} {outputs : ω → ω' → Prop} {state' : τ} {output' : ω'}
    {result : Except α (σ × ω)} (agrees : Agrees states outputs result (.ok (state', output'))) :
    ∃ state output, result = .ok (state, output) ∧ states state state' ∧ outputs output output' := by
  cases agrees with
  | succeeds related same => exact ⟨_, _, rfl, related, same⟩

/-- Two traces of the same inputs whose outputs agree at each step. -/
def TracesAgree (outputs : ω → ω' → Prop) (trace : List (ι × ω)) (trace' : List (ι × ω')) : Prop :=
  List.Forall₂ (fun entry entry' => entry.1 = entry'.1 ∧ outputs entry.2 entry'.2) trace trace'

/-- When the outputs of one trace are images of the outputs of another, so is the whole trace. -/
theorem tracesAgree_image {image : ω → ω'} {trace : List (ι × ω)} {trace' : List (ι × ω')}
    (agree : TracesAgree (fun output output' => image output = output') trace trace') :
    trace.map (fun entry => (entry.1, image entry.2)) = trace' := by
  induction agree with
  | nil => rfl
  | cons here rest inductionHypothesis =>
      obtain ⟨input, output⟩ := here
      rw [List.map_cons, inductionHypothesis, input, output]

/-- Step functions that agree at every input from related states agree on every run. -/
theorem runTrace_simulation {states : σ → τ → Prop} {outputs : ω → ω' → Prop}
    (agree : ∀ state state' input, states state state' →
      Agrees states outputs (step state input) (step' state' input))
    {state : σ} {state' : τ} (related : states state state') (inputs : List ι) :
    Agrees states (TracesAgree outputs) (runTrace step state inputs) (runTrace step' state' inputs) := by
  induction inputs generalizing state state' with
  | nil => exact .succeeds related .nil
  | cons input inputs inductionHypothesis =>
      have here := agree state state' input related
      cases first : step state input with
      | error failure =>
          rw [first] at here
          generalize second : step' state' input = result at here
          cases here
          simp only [runTrace, first, second]
          exact .fails failure
      | ok result =>
          rw [first] at here
          generalize second : step' state' input = result' at here
          obtain - | ⟨next, same⟩ := here
          have rest := inductionHypothesis next
          simp only [runTrace, first, second]
          generalize runTrace step _ inputs = ran at rest
          generalize runTrace step' _ inputs = ran' at rest
          cases rest with
          | fails failure => exact .fails failure
          | succeeds final agreed => exact .succeeds final (.cons ⟨rfl, same⟩ agreed)

end

section

variable {σ ι ω α β : Type} {step : σ → ι → Except α (σ × ω)}

/-- What a viewer sees of a trace. -/
def viewed (view : ι → ω → List β) (trace : List (ι × ω)) : List β :=
  trace.flatMap fun entry => view entry.1 entry.2

/-- Traces whose outputs agree show the same to viewers who see the same of outputs that agree. -/
theorem viewed_agree {ω' : Type} {outputs : ω → ω' → Prop} {view : ι → ω → List β}
    {view' : ι → ω' → List β}
    (same : ∀ input output output', outputs output output' → view input output = view' input output')
    {trace : List (ι × ω)} {trace' : List (ι × ω')} (agree : TracesAgree outputs trace trace') :
    viewed view trace = viewed view' trace' := by
  induction agree with
  | nil => rfl
  | cons here rest inductionHypothesis =>
      obtain ⟨equal, related⟩ := here
      rw [viewed, viewed, List.flatMap_cons, List.flatMap_cons, equal, same _ _ _ related]
      exact congrArg _ inductionHypothesis

/-- Purging.  Inputs that are not visible show the viewer nothing and lead to a state that is alike; visible
    ones can be taken in every state that is alike, and show the same.  Then a run shows the viewer what
    the run with its visible inputs alone shows. -/
theorem runTrace_purge {alike : σ → σ → Prop} {visible : ι → Bool} {view : ι → ω → List β}
    (hidden : ∀ state other input next output, alike state other → visible input = false →
      step state input = .ok (next, output) → alike next other ∧ view input output = [])
    (shown : ∀ state other input next output, alike state other → visible input = true →
      step state input = .ok (next, output) → ∃ next' output', step other input = .ok (next', output') ∧
        alike next next' ∧ view input output' = view input output)
    {state other last : σ} (start : alike state other) {inputs : List ι} {trace : List (ι × ω)}
    (ran : runTrace step state inputs = .ok (last, trace)) :
    ∃ last' trace', runTrace step other (inputs.filter visible) = .ok (last', trace') ∧
      alike last last' ∧ viewed view trace' = viewed view trace := by
  induction inputs generalizing state other trace with
  | nil =>
      cases ran
      exact ⟨other, [], rfl, start, rfl⟩
  | cons input inputs inductionHypothesis =>
      obtain ⟨next, output, rest, stepped, continued, rfl⟩ := runTrace_cons.mp ran
      cases sees : visible input with
      | false =>
          obtain ⟨still, nothing⟩ := hidden _ _ _ _ _ start sees stepped
          obtain ⟨last', trace', purged, final, same⟩ := inductionHypothesis still continued
          refine ⟨last', trace', ?_, final, ?_⟩
          · rw [List.filter_cons_of_neg (by simp [sees])]
            exact purged
          · rw [same, viewed, viewed, List.flatMap_cons, nothing, List.nil_append]
      | true =>
          obtain ⟨next', output', taken, still, equal⟩ := shown _ _ _ _ _ start sees stepped
          obtain ⟨last', trace', purged, final, same⟩ := inductionHypothesis still continued
          refine ⟨last', (input, output') :: trace', ?_, final, ?_⟩
          · rw [List.filter_cons_of_pos sees]
            exact runTrace_cons.mpr ⟨next', output', trace', taken, purged, rfl⟩
          · rw [viewed, List.flatMap_cons, equal]
            exact congrArg (view input output ++ ·) same

end

/-- A step that makes several steps of another system, and says which, runs as that system does. -/
theorem runTrace_coarse {σ τ ι κ ω α : Type} {step : σ → ι → Except α (σ × ω)}
    {coarse : τ → κ → Except α (τ × List (ι × ω))} (project : τ → σ)
    (refines : ∀ {state input next calls}, coarse state input = .ok (next, calls) →
      runTrace step (project state) (calls.map Prod.fst) = .ok (project next, calls))
    {start last : τ} {inputs : List κ} {trace : List (κ × List (ι × ω))}
    (ran : runTrace coarse start inputs = .ok (last, trace)) :
    runTrace step (project start) ((trace.flatMap Prod.snd).map Prod.fst) =
      .ok (project last, trace.flatMap Prod.snd) := by
  refine runTrace_invariant (fun trace state =>
    runTrace step (project start) ((trace.flatMap Prod.snd).map Prod.fst) =
      .ok (project state, trace.flatMap Prod.snd)) rfl ?_ ran
  intro earlier state input next calls before stepped
  rw [List.flatMap_append, List.flatMap_cons, List.flatMap_nil, List.append_nil, List.map_append]
  exact runTrace_append.mpr ⟨_, _, _, before, refines stepped, rfl⟩

end LobbySvr.Foundation
