/-
Module: LobbySvr.Spec.FlatJson
Layer: Spec
Purpose: A concrete library behind the jsoncpp interface, for values that are null, a number, a text, or an
  object of these.  Members are kept in key order as jsoncpp keeps them, and texts are written as
  `FastWriter` writes them when no character needs an escape.  The reader knows a finite table of texts.
Imports: LobbySvr.Lobby.JsonCpp
Trusted boundary: none
Main exports: FlatMember, FlatJson, flatJson, flatJsonInPlace
Open obligations: none
-/
import LobbySvr.Lobby.JsonCpp

namespace LobbySvr.Spec

open LobbySvr.Lobby

/-- A value that is not an object. -/
inductive FlatMember where
  | null
  | uint (value : Nat)
  | text (content : List UInt8)
deriving DecidableEq, Repr

/-- A value, its members in key order when it is an object. -/
inductive FlatJson where
  | leaf (member : FlatMember)
  | object (members : List (String × FlatMember))
deriving DecidableEq, Repr

namespace FlatJson

/-- The bytes of an ASCII string. -/
def ascii (string : String) : List UInt8 := string.toList.map fun char => UInt8.ofNat char.toNat

/-- Set a member, at its place in the key order. -/
def setMember (key : String) (member : FlatMember) :
    List (String × FlatMember) → List (String × FlatMember)
  | [] => [(key, member)]
  | (other, kept) :: rest =>
      if key = other then (key, member) :: rest
      else if key < other then (key, member) :: (other, kept) :: rest
      else (other, kept) :: setMember key member rest

/-- Overwrite a member where it stands. -/
def overwriteMember (key : String) (member : FlatMember) :
    List (String × FlatMember) → List (String × FlatMember)
  | [] => []
  | (other, kept) :: rest =>
      if key = other then (key, member) :: rest else (other, kept) :: overwriteMember key member rest

/-- Set a member where it stands, at its place in the key order when it is new. -/
def replaceMember (key : String) (member : FlatMember) (members : List (String × FlatMember)) :
    List (String × FlatMember) :=
  match members.lookup key with
  | none => setMember key member members
  | some _ => overwriteMember key member members

def index : FlatJson → String → Option (FlatJson × FlatJson)
  | .object members, key =>
      match members.lookup key with
      | some member => some (.leaf member, .object members)
      | none => some (.leaf .null, .object (setMember key .null members))
  | .leaf .null, key => some (.leaf .null, .object [(key, .null)])
  | .leaf _, _ => none

def assign : FlatJson → String → FlatJson → Option FlatJson
  | .object members, key, .leaf member => some (.object (setMember key member members))
  | .leaf .null, key, .leaf member => some (.object [(key, member)])
  | _, _, _ => none

/-- `assign` for objects whose members may stand in any order. -/
def assignInPlace : FlatJson → String → FlatJson → Option FlatJson
  | .object members, key, .leaf member => some (.object (replaceMember key member members))
  | .leaf .null, key, .leaf member => some (.object [(key, member)])
  | _, _, _ => none

def decimal (value : Nat) : List UInt8 := (Nat.toDigits 10 value).map fun char => UInt8.ofNat char.toNat

def writeMember : FlatMember → List UInt8
  | .null => ascii "null"
  | .uint value => decimal value
  | .text content => ascii "\"" ++ (content ++ ascii "\"")

/-- The members of an object, separated by commas. -/
def writeMembers : List (String × FlatMember) → List UInt8
  | [] => []
  | [(key, member)] => ascii "\"" ++ (ascii key ++ (ascii "\":" ++ writeMember member))
  | (key, member) :: next :: rest =>
      ascii "\"" ++ (ascii key ++ (ascii "\":" ++ (writeMember member ++ (ascii "," ++
        writeMembers (next :: rest)))))

/-- `FastWriter` ends every text with a line feed. -/
def write : FlatJson → List UInt8
  | .leaf member => writeMember member ++ ascii "\n"
  | .object members => ascii "\x7b" ++ (writeMembers members ++ ascii "\x7d\n")

def asString : FlatJson → Option (List UInt8)
  | .leaf .null => some []
  | .leaf (.uint value) => some (decimal value)
  | .leaf (.text content) => some content
  | .object _ => none

def asNat : FlatJson → Option Nat
  | .leaf .null => some 0
  | .leaf (.uint value) => some value
  | _ => none

end FlatJson

/-- The library; `known` is the table of texts the reader accepts. -/
def flatJson (known : List (List UInt8 × FlatJson)) : JsonCpp FlatJson where
  index := FlatJson.index
  assign := FlatJson.assign
  isNull value := decide (value = .leaf .null)
  asString := FlatJson.asString
  asCString
    | .leaf (.text content) => some (content.takeWhile (· ≠ 0))
    | _ => none
  asInt value := (FlatJson.asNat value).map Int.ofNat
  asUInt value := (FlatJson.asNat value).map UInt32.ofNat
  ofString content := .leaf (.text content)
  ofUInt value := .leaf (.uint value.toNat)
  ofUInt64 value := .leaf (.uint value.toNat)
  write := FlatJson.write
  parse text := known.lookup text

/-- The library without a reader, for values whose members may stand in any order. -/
def flatJsonInPlace : JsonCpp FlatJson := { flatJson [] with assign := FlatJson.assignInPlace }

end LobbySvr.Spec
