/-
Module: LobbySvr.Net.WatchDogSession
Layer: Net
Purpose: `watchDogSession` of `net/test_interface.cpp`, the loop that serves one connection to the watchdog
  console.  What has been received and not yet served is carried over from one iteration to the next; an
  iteration is one `read_some`, whose outcome comes from outside, and hands at most one command to the
  callback.  Writes return; the reply is what the callback gives back.
Imports: Mathlib tactics only
Trusted boundary: human-reviewed embedding of the C++ source
Main exports: ReadSome, WatchDogEvent, WatchDogState, findFirstOf, takeCommand, watchDogIteration,
  watchDogSession, commandsOf
Open obligations: none
-/
import Mathlib.Tactic.Common

namespace LobbySvr.Net

/-- What `read_some` comes to. -/
inductive ReadSome where
  | bytes (data : List UInt8)
  | eof
  | error
deriving DecidableEq, Repr

/-- What a session does: it writes to the socket and calls the two callbacks. -/
inductive WatchDogEvent where
  | write (text : List UInt8)
  | callback (cmd : List UInt8)
  | closed
deriving DecidableEq, Repr

/-- The variables that live across iterations: `recv_cmd`, and whether the greeting has been written. -/
structure WatchDogState where
  recvCmd : List UInt8
  hiMsg : Bool
deriving DecidableEq, Repr

/-- How an iteration ends: with the next one, behind the loop, or with a read beyond `data`. -/
inductive WatchDogNext where
  | goesOn (state : WatchDogState)
  | leaves
  | undefinedBehaviour
deriving DecidableEq, Repr

def carriageReturn : UInt8 := 13

def lineFeed : UInt8 := 10

/-- `max_length`. -/
def maxLength : Nat := 4096

def hiMsgText : List UInt8 :=
  "Hi~ this is watchDog Interface. Type 'help' or 'h' and check functions\r\n".toUTF8.data.toList

def byeMsgText : List UInt8 := "good-bye~".toUTF8.data.toList

/-- `find_first_of("\r\n")`. -/
def findFirstOf (text : List UInt8) : Option Nat :=
  text.findIdx? fun byte => byte = carriageReturn || byte = lineFeed

/-- The command at the front of `recv_cmd`, and what is left of it.  The terminator counts as two bytes, and
    one at the very front drops everything. -/
def takeCommand (recvCmd : List UInt8) : Option (List UInt8) × List UInt8 :=
  match findFirstOf recvCmd with
  | none => (none, recvCmd)
  | some 0 => (none, [])
  | some pos => (some (recvCmd.take pos), recvCmd.drop (pos + 2))

/-- One iteration, and what it does. -/
def watchDogIteration (watchdogCallback : List UInt8 → List UInt8) (state : WatchDogState)
    (read : ReadSome) : WatchDogNext × List WatchDogEvent :=
  let greeting := if state.hiMsg then [] else [.write hiMsgText]
  match read with
  | .eof => (.leaves, greeting ++ [.closed])
  | .error => (.leaves, greeting)
  | .bytes data =>
      if data = [3] ∨ data = [26] then (.leaves, greeting ++ [.write byeMsgText, .closed])
      -- Only a zero ends the text in `data`, and a full array has room for none behind it.
      else if maxLength ≤ data.length ∧ 0 ∉ data then (.undefinedBehaviour, greeting)
      else
        match takeCommand (state.recvCmd ++ data.takeWhile (· ≠ 0)) with
        | (none, recvCmd) => (.goesOn ⟨recvCmd, true⟩, greeting)
        | (some cmd, recvCmd) =>
            (.goesOn ⟨recvCmd, true⟩,
              greeting ++ [.callback cmd, .write (watchdogCallback cmd ++ [carriageReturn, lineFeed])])

/-- What a session does in the course of some reads. -/
def watchDogSession (watchdogCallback : List UInt8 → List UInt8) : WatchDogState → List ReadSome →
    List WatchDogEvent
  | _, [] => []
  | state, read :: reads =>
      match watchDogIteration watchdogCallback state read with
      | (.goesOn state, events) => events ++ watchDogSession watchdogCallback state reads
      | (.leaves, events) => events
      | (.undefinedBehaviour, events) => events

/-- A session before its first iteration. -/
def WatchDogState.start : WatchDogState := ⟨[], false⟩

/-- The commands handed to the callback. -/
def commandsOf (events : List WatchDogEvent) : List (List UInt8) :=
  events.filterMap fun
    | .callback cmd => some cmd
    | .write _ => none
    | .closed => none

end LobbySvr.Net
