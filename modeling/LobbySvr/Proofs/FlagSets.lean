/-
Module: LobbySvr.Proofs.FlagSets
Layer: Proofs
Purpose: When the containers of flags behave as sets.  A history goes along with a container and keeps the
  operations so far.  The container shows its history exactly as long as no flag is added that is there
  and none subtracted that is not; flags added by one call are summed before anybody looks, so there it
  is the sum of the superfluous ones that has to vanish.
Imports: LobbySvr.Foundation.BitFlags, LobbySvr.Foundation.Runs, LobbySvr.Net.FlagChecker
Trusted boundary: none
Main exports: FlagCall, FlagHistory, UsingHistory
Open obligations: none
-/
import LobbySvr.Foundation.BitFlags
import LobbySvr.Foundation.Runs
import LobbySvr.Net.FlagChecker

namespace LobbySvr.Proofs

open LobbySvr.Foundation
open LobbySvr.Net

/-! ### Histories of a `flag_checker` -/

/-- An operation on one flag. -/
structure FlagOperation where
  flag : Fin 64
  isAdd : Bool
deriving DecidableEq, Repr

/-- A call on a `flag_checker`. -/
inductive FlagCall where
  | addFlag (flag : Fin 64)
  | addFlags (flag : Fin 64) (remainFlagList : List (Fin 64))
  | subFlag (flag : Fin 64)
deriving DecidableEq, Repr

def FlagCall.run (checker : FlagChecker) : FlagCall → FlagChecker
  | .addFlag flag => checker.addFlag flag
  | .addFlags flag remainFlagList => checker.addFlags flag remainFlagList
  | .subFlag flag => checker.subFlag flag

/-- The operations a call stands for. -/
def FlagCall.operations : FlagCall → List FlagOperation
  | .addFlag flag => [⟨flag, true⟩]
  | .addFlags flag remainFlagList => (flag :: remainFlagList).map fun flag => ⟨flag, true⟩
  | .subFlag flag => [⟨flag, false⟩]

/-- Whether the last operation concerning a flag was an add. -/
def lastWasAdd (operations : List FlagOperation) (flag : Fin 64) : Bool :=
  match operations.reverse.find? fun operation => operation.flag = flag with
  | some operation => operation.isAdd
  | none => false

/-- A container and the operations on it so far. -/
structure FlagHistory where
  checker : FlagChecker
  operations : List FlagOperation

namespace FlagHistory

def fresh : FlagHistory := ⟨.fresh, []⟩

def step (history : FlagHistory) (call : FlagCall) : FlagHistory where
  checker := call.run history.checker
  operations := history.operations ++ call.operations

/-- After the call a flag is used exactly when the last operation on it was an add, and the flags the call
    does not concern are used as before. -/
def ActsAsSet (history : FlagHistory) (call : FlagCall) : Prop :=
  (∀ flag, (history.step call).checker.isUsingFlag flag =
    lastWasAdd (history.step call).operations flag) ∧
  ∀ flag, (∀ operation ∈ call.operations, operation.flag ≠ flag) →
    (history.step call).checker.isUsingFlag flag = history.checker.isUsingFlag flag

/-- The last operation on an added flag was not an add, that on a subtracted flag was one; the flags of one
    `addFlags` that are superfluous have values that add up to a multiple of `2 ^ 64`. -/
def Tidy (history : FlagHistory) : FlagCall → Prop
  | .addFlag flag => lastWasAdd history.operations flag = false
  | .addFlags flag remainFlagList =>
      ((surplus (lastWasAdd history.operations) (flag :: remainFlagList)).map
        FlagChecker.getFlagValue).sum = 0
  | .subFlag flag => lastWasAdd history.operations flag = true

/-- The word shows the flags whose last operation was an add. -/
def Shown (history : FlagHistory) : Prop :=
  Shows history.checker.flagContainer (lastWasAdd history.operations)

end FlagHistory

theorem lastWasAdd_append_singleton (operations : List FlagOperation) (operation : FlagOperation) :
    lastWasAdd (operations ++ [operation]) =
      Function.update (lastWasAdd operations) operation.flag operation.isAdd := by
  funext flag
  unfold lastWasAdd
  rw [List.reverse_append, List.reverse_singleton, List.singleton_append, List.find?_cons]
  by_cases same : operation.flag = flag
  · subst same
    simp
  · simp [same, Ne.symm same]

theorem lastWasAdd_append_adds (operations : List FlagOperation) (flags : List (Fin 64)) :
    lastWasAdd (operations ++ flags.map fun flag => ⟨flag, true⟩) =
      withFlags (lastWasAdd operations) flags := by
  induction flags generalizing operations with
  | nil => simp [withFlags]
  | cons flag flags inductionHypothesis =>
      rw [List.map_cons, List.append_cons, inductionHypothesis, lastWasAdd_append_singleton, withFlags,
        withFlags, List.foldl_cons]

/-- A flag without an operation is as it was. -/
theorem lastWasAdd_append_others {operations more : List FlagOperation} {flag : Fin 64}
    (others : ∀ operation ∈ more, operation.flag ≠ flag) :
    lastWasAdd (operations ++ more) flag = lastWasAdd operations flag := by
  have missing : more.reverse.find? (fun operation => operation.flag = flag) = none := by
    rw [List.find?_eq_none]
    intro operation member
    simpa using others operation (List.mem_reverse.mp member)
  unfold lastWasAdd
  rw [List.reverse_append, List.find?_append, missing, Option.none_or]

/-! ### One call -/

theorem isUsingFlag_eq (flag : Fin 64) (checker : FlagChecker) :
    checker.isUsingFlag flag = checker.flagContainer.getLsbD flag.val := by
  rw [Bool.eq_iff_iff, FlagChecker.isUsingFlag, decide_eq_true_iff]
  exact and_flagValue_ne_zero checker.flagContainer flag

theorem addFlags_flagContainer (flag : Fin 64) (remainFlagList : List (Fin 64)) (checker : FlagChecker) :
    (checker.addFlags flag remainFlagList).flagContainer =
      checker.flagContainer + ((flag :: remainFlagList).map FlagChecker.getFlagValue).sum := by
  induction remainFlagList generalizing flag checker with
  | nil => simp [FlagChecker.addFlags, FlagChecker.addFlag]
  | cons next remainFlagList inductionHypothesis =>
      rw [FlagChecker.addFlags, inductionHypothesis, FlagChecker.addFlag, List.map_cons, List.sum_cons,
        List.map_cons, List.map_cons, List.sum_cons, List.sum_cons, add_assoc]

/-- A call acts as a set operation exactly when the word shows the history behind it. -/
theorem actsAsSet_iff_shown {history : FlagHistory} (shown : history.Shown) (call : FlagCall) :
    history.ActsAsSet call ↔ (history.step call).Shown := by
  constructor
  · rintro ⟨reads, -⟩ flag
    rw [← reads, isUsingFlag_eq]
  · intro shownAfter
    refine ⟨?_, ?_⟩
    · intro flag
      rw [isUsingFlag_eq]
      exact shownAfter flag
    · intro flag others
      rw [isUsingFlag_eq, isUsingFlag_eq, shownAfter flag, shown flag]
      exact lastWasAdd_append_others others

/-- What a call makes of a word that shows the history. -/
theorem shown_step_iff {history : FlagHistory} (shown : history.Shown) (call : FlagCall) :
    (history.step call).Shown ↔ history.Tidy call := by
  unfold FlagHistory.Shown FlagHistory.step FlagHistory.Tidy
  cases call with
  | addFlag flag =>
      rw [FlagCall.operations, lastWasAdd_append_singleton]
      exact shows_add_iff shown flag
  | addFlags flag remainFlagList =>
      rw [FlagCall.operations, lastWasAdd_append_adds, FlagCall.run, addFlags_flagContainer]
      exact shows_sum_iff shown (flag :: remainFlagList)
  | subFlag flag =>
      rw [FlagCall.operations, lastWasAdd_append_singleton]
      exact shows_sub_iff shown flag

theorem actsAsSet_iff {history : FlagHistory} (shown : history.Shown) (call : FlagCall) :
    history.ActsAsSet call ↔ history.Tidy call :=
  (actsAsSet_iff_shown shown call).trans (shown_step_iff shown call)

/-! ### The used functions -/

/-- The functions passed in one call of `addUsingFunc`. -/
structure UsingCall where
  funcValue : Fin 64
  remainFuncList : List (Fin 64)
deriving DecidableEq, Repr

/-- `m_usingFunctions` and the functions passed so far. -/
structure UsingHistory where
  functions : UsingFunctions
  passed : List (Fin 64)

namespace UsingHistory

def fresh : UsingHistory := ⟨.fresh, []⟩

def step (history : UsingHistory) (call : UsingCall) : UsingHistory where
  functions := history.functions.addUsingFunc call.funcValue call.remainFuncList
  passed := history.passed ++ call.funcValue :: call.remainFuncList

/-- After the call exactly the functions ever passed are used. -/
def UsesPassed (history : UsingHistory) (call : UsingCall) : Prop :=
  ∀ funcValue, (history.step call).functions.isUsingFunc funcValue = true ↔
    funcValue ∈ (history.step call).passed

/-- The functions of the call that have been passed before, in this call or an earlier one, have values that
    add up to a multiple of `2 ^ 64`. -/
def Tidy (history : UsingHistory) (call : UsingCall) : Prop :=
  ((surplus (fun funcValue => decide (funcValue ∈ history.passed))
    (call.funcValue :: call.remainFuncList)).map UsingFunctions.getFuncValue).sum = 0

/-- The word shows the functions passed. -/
def Shown (history : UsingHistory) : Prop :=
  Shows history.functions.usingFunctions fun funcValue => decide (funcValue ∈ history.passed)

end UsingHistory

theorem isUsingFunc_eq (funcValue : Fin 64) (functions : UsingFunctions) :
    functions.isUsingFunc funcValue = functions.usingFunctions.getLsbD funcValue.val :=
  isUsingFlag_eq funcValue ⟨functions.usingFunctions⟩

/-- The used functions are added as the flags of a `flag_checker` are. -/
theorem addUsingFunc_eq (funcValue : Fin 64) (remainFuncList : List (Fin 64)) (functions : UsingFunctions) :
    (functions.addUsingFunc funcValue remainFuncList).usingFunctions =
      (FlagChecker.addFlags funcValue remainFuncList ⟨functions.usingFunctions⟩).flagContainer := by
  induction remainFuncList generalizing funcValue functions with
  | nil => rfl
  | cons next remainFuncList inductionHypothesis =>
      exact inductionHypothesis next (functions.addOneUsingFunc funcValue)

theorem usesPassed_iff {history : UsingHistory} (shown : history.Shown) (call : UsingCall) :
    history.UsesPassed call ↔ history.Tidy call := by
  have together : (fun funcValue => decide (funcValue ∈ (history.step call).passed)) =
      withFlags (fun funcValue => decide (funcValue ∈ history.passed))
        (call.funcValue :: call.remainFuncList) := by
    funext funcValue
    rw [withFlags_apply, UsingHistory.step, Bool.eq_iff_iff]
    simp only [decide_eq_true_iff, Bool.or_eq_true, List.mem_append]
  have summed : (history.step call).functions.usingFunctions =
      history.functions.usingFunctions + ((call.funcValue :: call.remainFuncList).map flagValue).sum :=
    (addUsingFunc_eq call.funcValue call.remainFuncList history.functions).trans
      (addFlags_flagContainer call.funcValue call.remainFuncList ⟨history.functions.usingFunctions⟩)
  have shows := shows_sum_iff shown (call.funcValue :: call.remainFuncList)
  rw [← together, ← summed] at shows
  refine Iff.trans ?_ shows
  constructor
  · intro uses funcValue
    rw [← isUsingFunc_eq, Bool.eq_iff_iff, decide_eq_true_iff]
    exact uses funcValue
  · intro showsPassed funcValue
    rw [isUsingFunc_eq, showsPassed funcValue, decide_eq_true_iff]

theorem usingShown_of_usesPassed {history : UsingHistory} {call : UsingCall}
    (uses : history.UsesPassed call) : (history.step call).Shown := by
  intro funcValue
  rw [← isUsingFunc_eq, Bool.eq_iff_iff, decide_eq_true_iff]
  exact uses funcValue

/-! ### Runs -/

/-- Along any calls the two containers act as sets exactly when every call is tidy. -/
theorem containers_act_as_sets_iff (calls : List FlagCall) (usingCalls : List UsingCall) :
    (EveryStep FlagHistory.step FlagHistory.ActsAsSet .fresh calls ↔
      EveryStep FlagHistory.step FlagHistory.Tidy .fresh calls) ∧
    (EveryStep UsingHistory.step UsingHistory.UsesPassed .fresh usingCalls ↔
      EveryStep UsingHistory.step UsingHistory.Tidy .fresh usingCalls) := by
  constructor
  · apply everyStep_iff FlagHistory.Shown
    · intro history call shown
      exact actsAsSet_iff shown call
    · intro history call shown tidy
      exact (shown_step_iff shown call).mpr tidy
    · exact shows_zero
  · apply everyStep_iff UsingHistory.Shown
    · intro history call shown
      exact usesPassed_iff shown call
    · intro history call shown tidy
      exact usingShown_of_usesPassed ((usesPassed_iff shown call).mpr tidy)
    · exact shows_zero

/-- A flag added twice is not used any more, and the next one is. -/
theorem flag_added_twice :
    ¬ EveryStep FlagHistory.step FlagHistory.ActsAsSet .fresh [.addFlag 0, .addFlag 0] ∧
      ¬ EveryStep UsingHistory.step UsingHistory.UsesPassed .fresh [⟨1, [1]⟩] := by
  constructor
  · rintro ⟨-, ⟨reads, -⟩, -⟩
    exact absurd (reads 0) (by decide)
  · rintro ⟨uses, -⟩
    exact absurd (uses 2) (by decide)

end LobbySvr.Proofs
