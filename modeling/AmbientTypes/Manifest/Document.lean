import AmbientTypes.Json.Skip
import AmbientTypes.Manifest.Basic
import AmbientTypes.Manifest.Problem

namespace AmbientTypes.Manifest

open Json

structure Draft where
  name : Option String := none
  exposes : Option (List (String × Json)) := none

def expected : String := "struct RawManifest"

/-- The place of an error found in an object: its closing bracket counts as read. -/
def afterObject (s : List Char) : List Char :=
  match skipSpace s with
  | '\x7d' :: r => r
  | r => r

def readFields : (fuel : Nat) → Bool → Draft → Reader Draft
  | 0, _, _, s => failAt .endInObject s
  | fuel + 1, first, d, s => do
    match ← nextKey first s with
    | .last r => return (d, r)
    | .item r =>
      let (k, r) ← readString r
      if k = "name" then
        if d.name.isSome then failAt (.repeatedField k) (afterObject r)
        else
          let (name, r) ← expectString (← colon r)
          readFields fuel false ⟨some name, d.exposes⟩ r
      else if k = "exposes" then
        if d.exposes.isSome then failAt (.repeatedField k) (afterObject r)
        else
          let (ms, r) ← expectObject (deepest - 1) (← colon r)
          readFields fuel false ⟨d.name, some ms⟩ r
      else
        let r ← skipValue (← colon r)
        readFields fuel false d r

def readObject : Reader (String × List (String × Json)) := fun s ↦ do
  let (d, r) ← readFields (s.length + 1) true {} s
  match d.name with
  | some name => return ((name, d.exposes.getD []), r)
  | none => failAt (.missingField "name") r

def readList : Reader (String × List (String × Json)) := fun s ↦ do
  match ← nextItem true s with
  | .last r => failAt (.tooShort 0 (expected ++ " with 2 elements")) r
  | .item r =>
    let (name, r) ← expectString r
    match ← nextItem false r with
    | .last r => return ((name, []), r)
    | .item r =>
      let (ms, r) ← expectObject (deepest - 1) r
      return ((name, ms), ← closeList r)

def readDocument : Reader (String × List (String × Json)) := fun s ↦
  match skipSpace s with
  | [] => failIn .endInValue []
  | '\x7b' :: r => readObject r
  | '[' :: r => readList r
  | c :: r => mismatch expected c r

/-- A document is an object with the fields `name` and `exposes`, of which the second may be missing,
or a list of the two values. Other fields are passed over. -/
def readText (text : String) : Except ReadError (String × List (String × Json)) := do
  let (p, r) ← readDocument text.toList
  endOfText r
  return p

def parse (text path : String) : Except ManifestProblem Manifest :=
  match readText text with
  | .error e => .error (.malformed path ("invalid JSON: " ++ e.describe text.toList))
  | .ok (name, members) =>
    match ofMembers path name members with
    | .error f => .error (.malformed path f.message)
    | .ok m => .ok m

end AmbientTypes.Manifest
