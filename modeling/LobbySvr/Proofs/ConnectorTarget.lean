/-
Module: LobbySvr.Proofs.ConnectorTarget
Layer: Proofs
Purpose: Where connect attempts go.  The connector resolves once, for the target of its first attempt, and keeps
  the answer, also when there was none.  An attempt that the resolver would answer therefore goes to an
  endpoint of its target exactly when it is the first one or the first answer serves the target as well.
Imports: LobbySvr.Net.TargetedConnector
Trusted boundary: none
Main exports: attemptOf, answerNow, TruthfulLabel, TargetHistory, TargetHistory.FollowsTarget,
  TargetHistory.FirstServes, step_endpointIter, attempt_wentTo
Open obligations: none
-/
import LobbySvr.Net.TargetedConnector

namespace LobbySvr.Proofs

open LobbySvr.Foundation
open LobbySvr.Net

variable {ε : Type}

/-- For a call of `connect` or `connectWait`, its resolver and whether its socket opens. -/
def attemptOf : ConnectorLabel ε → Option (Resolve ε × Bool)
  | .setTargetServer _ _ => none
  | .connectWait resolve sessionOpens _ _ => some (resolve, sessionOpens)
  | .connect resolve sessionOpens _ => some (resolve, sessionOpens)
  | .connectFailed _ => none
  | .connected _ _ => none
  | .handlerEnds _ => none

/-- What the resolver answers to the query of the current target. -/
def answerNow (resolve : Resolve ε) (connector : TargetedConnector ε) : Option ε :=
  resolve (TargetedConnector.ipAddr connector.targetAddr) connector.targetPort

/-! ### What a label does to the endpoint -/

@[simp] theorem startConnect_endpointIter (sessionOpens : Bool) (endpoint : ε) (remainCnt : UInt16)
    (connectionID : UInt64) (call : Nat) (connector : TargetedConnector ε) :
    (connector.startConnect sessionOpens endpoint remainCnt connectionID call).endpointIter =
      connector.endpointIter := by
  cases sessionOpens with
  | false => rfl
  | true => rfl

/-- After an attempt the iterator is what `setEndPoint` saw; nothing else moves it. -/
theorem step_endpointIter (connector : TargetedConnector ε) (label : ConnectorLabel ε) :
    (connector.step label).endpointIter =
      match attemptOf label with
      | some (resolve, _) =>
          some (connector.setEndPoint resolve connector.targetAddr connector.targetPort).1
      | none => connector.endpointIter := by
  cases label with
  | setTargetServer addr port => rfl
  | connectWait resolve sessionOpens sessionCnt connectionID =>
      simp only [TargetedConnector.step, TargetedConnector.connectWait, attemptOf,
        TargetedConnector.connectImplement_eq]
      cases (connector.setEndPoint resolve connector.targetAddr connector.targetPort).1 with
      | none => rfl
      | some endpoint => simp
  | connect resolve sessionOpens connects =>
      simp only [TargetedConnector.step, TargetedConnector.connect, attemptOf,
        TargetedConnector.connectImplementSync_eq]
      cases (connector.setEndPoint resolve connector.targetAddr connector.targetPort).1 with
      | none => rfl
      | some endpoint => rfl
  | connectFailed conn =>
      simp only [TargetedConnector.step, attemptOf]
      split
      · rfl
      · rfl
  | connected conn startThrows =>
      simp only [TargetedConnector.step, attemptOf]
      split
      · rfl
      · split
        · rfl
        · rfl
  | handlerEnds sessionOpens =>
      simp only [TargetedConnector.step, attemptOf]
      split
      · rfl
      · split
        · rw [startConnect_endpointIter]
        · rfl

/-- An attempt whose socket opens goes to the endpoint that `setEndPoint` found. -/
theorem attempt_wentTo {connector : TargetedConnector ε} {label : ConnectorLabel ε} {resolve : Resolve ε}
    (attempts : attemptOf label = some (resolve, true)) :
    (connector.step label).wentTo =
      connector.wentTo ++
        (connector.setEndPoint resolve connector.targetAddr connector.targetPort).1.toList := by
  cases label with
  | setTargetServer addr port => cases attempts
  | connectFailed conn => cases attempts
  | connected conn startThrows => cases attempts
  | handlerEnds sessionOpens => cases attempts
  | connectWait resolve sessionOpens sessionCnt connectionID =>
      cases attempts
      simp only [TargetedConnector.step, TargetedConnector.connectWait,
        TargetedConnector.connectImplement_eq]
      cases (connector.setEndPoint resolve connector.targetAddr connector.targetPort).1 with
      | none => simp
      | some endpoint => rfl
  | connect resolve sessionOpens connects =>
      cases attempts
      simp only [TargetedConnector.step, TargetedConnector.connect,
        TargetedConnector.connectImplementSync_eq]
      cases (connector.setEndPoint resolve connector.targetAddr connector.targetPort).1 with
      | none => simp
      | some endpoint => rfl

/-! ### Histories -/

/-- A label whose resolver answers a query with an endpoint that belongs to it. -/
abbrev TruthfulLabel (belongs : String → String → ε → Prop) :=
  { label : ConnectorLabel ε //
    ∀ resolve sessionOpens, attemptOf label = some (resolve, sessionOpens) →
      ∀ host service endpoint, resolve host service = some endpoint → belongs host service endpoint }

/-- A connector, and what the resolver answered or would have answered to the first attempt. -/
structure TargetHistory (ε : Type) where
  connector : TargetedConnector ε
  first : Option (Option ε)

namespace TargetHistory

def fresh (addr port : String) : TargetHistory ε := ⟨.fresh addr port, none⟩

variable {belongs : String → String → ε → Prop}

def next (history : TargetHistory ε) (label : TruthfulLabel belongs) : TargetHistory ε where
  connector := history.connector.step label.val
  first :=
    match history.first, attemptOf label.val with
    | none, some (resolve, _) => some (answerNow resolve history.connector)
    | first, _ => first

/-- An attempt that the resolver answers, and whose socket opens, goes to an endpoint of the address and the
    port that are set. -/
def FollowsTarget (history : TargetHistory ε) (label : TruthfulLabel belongs) : Prop :=
  ∀ resolve now, attemptOf label.val = some (resolve, true) →
    answerNow resolve history.connector = some now →
    ∃ used, (history.connector.step label.val).wentTo = history.connector.wentTo ++ [used] ∧
      belongs (TargetedConnector.ipAddr history.connector.targetAddr) history.connector.targetPort used

/-- Such an attempt is the first one, or the first one was answered, with an endpoint that belongs to the
    address and the port that are set now. -/
def FirstServes (history : TargetHistory ε) (label : TruthfulLabel belongs) : Prop :=
  ∀ resolve now, attemptOf label.val = some (resolve, true) →
    answerNow resolve history.connector = some now →
    history.first = none ∨
      ∃ used, history.first = some (some used) ∧
        belongs (TargetedConnector.ipAddr history.connector.targetAddr) history.connector.targetPort used

/-- The iterator keeps the first answer. -/
def Kept (history : TargetHistory ε) : Prop := history.connector.endpointIter = history.first

end TargetHistory

variable {belongs : String → String → ε → Prop}

theorem kept_next {history : TargetHistory ε} (kept : history.Kept) (label : TruthfulLabel belongs) :
    (history.next label).Kept := by
  unfold TargetHistory.Kept at kept ⊢
  simp only [TargetHistory.next, step_endpointIter]
  cases attempts : attemptOf label.val with
  | none =>
      rw [kept]
      cases history.first with
      | none => rfl
      | some first => rfl
  | some attempt =>
      simp only [TargetedConnector.setEndPoint, kept]
      cases history.first with
      | none => rfl
      | some first => rfl

theorem followsTarget_iff {history : TargetHistory ε} (kept : history.Kept)
    (label : TruthfulLabel belongs) : history.FollowsTarget label ↔ history.FirstServes label := by
  unfold TargetHistory.Kept at kept
  constructor
  · intro follows resolve now attempts answered
    obtain ⟨used, went, serves⟩ := follows resolve now attempts answered
    rw [attempt_wentTo attempts] at went
    have found := List.append_cancel_left went
    rw [TargetedConnector.setEndPoint, kept] at found
    cases first : history.first with
    | none => exact Or.inl rfl
    | some pointing =>
        rw [first] at found
        have pointed : pointing = some used := Option.toList_eq_singleton_iff.mp found
        exact Or.inr ⟨used, congrArg some pointed, serves⟩
  · intro serves resolve now attempts answered
    have truthful := label.property resolve true attempts _ _ now answered
    rw [attempt_wentTo attempts]
    simp only [TargetedConnector.setEndPoint, kept]
    rcases serves resolve now attempts answered with first | ⟨used, first, serves⟩
    · rw [first]
      unfold answerNow at answered
      exact ⟨now, by simp [answered], truthful⟩
    · rw [first]
      exact ⟨used, rfl, serves⟩

/-- Along any run every attempt that the resolver answers goes to its target exactly when every such attempt is
    the first one or is served by the first answer. -/
theorem connector_follows_target_iff (belongs : String → String → ε → Prop) (addr port : String)
    (labels : List (TruthfulLabel belongs)) :
    EveryStep TargetHistory.next TargetHistory.FollowsTarget (.fresh addr port) labels ↔
      EveryStep TargetHistory.next TargetHistory.FirstServes (.fresh addr port) labels := by
  apply everyStep_iff TargetHistory.Kept
  · intro history label kept
    exact followsTarget_iff kept label
  · intro history label kept _
    exact kept_next kept label
  · rfl

/-- A `connectWait` whose resolver answers with host and port themselves, or throws. -/
def waitFor (resolves : Bool) :
    TruthfulLabel fun host service (endpoint : String × String) => endpoint = (host, service) :=
  ⟨.connectWait (fun host service => if resolves then some (host, service) else none) true 1 0, by
    intro resolve sessionOpens same host service endpoint answered
    cases same
    cases resolves with
    | false => cases answered
    | true => exact (Option.some.inj answered).symm⟩

/-- A first attempt that cannot resolve stops all later ones, and one that can fixes where they go. -/
theorem connector_keeps_first_answer :
    ¬ EveryStep TargetHistory.next TargetHistory.FollowsTarget (.fresh "10.0.0.1" "8000")
        [waitFor false, waitFor true] ∧
      ¬ EveryStep TargetHistory.next TargetHistory.FollowsTarget (.fresh "10.0.0.1" "8000")
        [waitFor true, ⟨.setTargetServer "10.0.0.2" "8000", by nofun⟩, waitFor true] := by
  constructor
  · rintro ⟨-, follows, -⟩
    obtain ⟨used, went, -⟩ := follows _ ("10.0.0.1", "8000") rfl rfl
    cases went
  · rintro ⟨-, -, follows, -⟩
    obtain ⟨used, went, serves⟩ := follows _ ("10.0.0.2", "8000") rfl rfl
    rw [serves] at went
    exact absurd went (by decide)

end LobbySvr.Proofs
