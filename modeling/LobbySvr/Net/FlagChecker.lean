/-
Module: LobbySvr.Net.FlagChecker
Layer: Net
Purpose: The two containers of flags: `flag_checker` of `net/flagChecker.h` and the used functions of
  `TestIntarface` in `net/test_interface.{h,cpp}`.  Both keep a 64-bit word and combine it with `+` and `-`.
Imports: Mathlib bit vectors
Trusted boundary: human-reviewed embedding of the C++ source
Main exports: FlagChecker, FlagChecker.addFlag, FlagChecker.subFlag, FlagChecker.addFlags,
  FlagChecker.isUsingFlag, UsingFunctions, UsingFunctions.addUsingFunc, UsingFunctions.isUsingFunc
Open obligations: none
-/
import Mathlib.Data.BitVec

namespace LobbySvr.Net

/-- `flag_checker`. -/
structure FlagChecker where
  flagContainer : BitVec 64
deriving DecidableEq, Repr

namespace FlagChecker

/-- A `flag_checker` as it is constructed. -/
def fresh : FlagChecker := ⟨0⟩

/-- `getFlagValue`, for the flags that the shift is defined for. -/
def getFlagValue (flag : Fin 64) : BitVec 64 := 1#64 <<< flag.val

/-- `isUsingFlag`. -/
def isUsingFlag (flag : Fin 64) (checker : FlagChecker) : Bool :=
  decide (0 ≠ checker.flagContainer &&& getFlagValue flag)

/-- `addFlag` with one flag. -/
def addFlag (flag : Fin 64) (checker : FlagChecker) : FlagChecker :=
  ⟨checker.flagContainer + getFlagValue flag⟩

/-- `subFlag`. -/
def subFlag (flag : Fin 64) (checker : FlagChecker) : FlagChecker :=
  ⟨checker.flagContainer - getFlagValue flag⟩

/-- `addFlags`, through the `addFlag` that takes one flag off its arguments and goes on with the others.  Built
    with `NDEBUG`; the CMake build checks that there are fewer than 64 of them. -/
def addFlags (flag : Fin 64) : List (Fin 64) → FlagChecker → FlagChecker
  | [], checker => checker.addFlag flag
  | next :: remainFlagList, checker => addFlags next remainFlagList (checker.addFlag flag)

end FlagChecker

/-- `m_usingFunctions` of `TestIntarface`. -/
structure UsingFunctions where
  usingFunctions : BitVec 64
deriving DecidableEq, Repr

namespace UsingFunctions

/-- The member as it is constructed. -/
def fresh : UsingFunctions := ⟨0⟩

/-- `getFuncValue`, for the values that the shift is defined for. -/
def getFuncValue (funcValue : Fin 64) : BitVec 64 := 1#64 <<< funcValue.val

/-- `isUsingFunc`. -/
def isUsingFunc (funcValue : Fin 64) (functions : UsingFunctions) : Bool :=
  decide (0 ≠ functions.usingFunctions &&& getFuncValue funcValue)

/-- `addUsingFunc` with one function. -/
def addOneUsingFunc (funcValue : Fin 64) (functions : UsingFunctions) : UsingFunctions :=
  ⟨functions.usingFunctions + getFuncValue funcValue⟩

/-- `addUsingFunc`. -/
def addUsingFunc (funcValue : Fin 64) : List (Fin 64) → UsingFunctions → UsingFunctions
  | [], functions => functions.addOneUsingFunc funcValue
  | next :: remainFuncList, functions =>
      addUsingFunc next remainFuncList (functions.addOneUsingFunc funcValue)

end UsingFunctions

end LobbySvr.Net
