import AmbientTypes.Json.Printer
import AmbientTypes.Path
import AmbientTypes.Text.Blank

namespace AmbientTypes

structure EntryPoint where
  key : String
  path : String
  deriving DecidableEq, Repr

structure Manifest where
  name : String
  exposes : List EntryPoint
  path : String
  deriving DecidableEq, Repr

namespace Manifest

def fileName : String := "federation.config.json"

def directory (m : Manifest) : String :=
  Path.directory m.path

def withoutDotSlash (path : List Char) : List Char :=
  match path with
  | '.' :: '/' :: r => r
  | r => r

def sourcePath (m : Manifest) (e : EntryPoint) : String :=
  Path.join m.directory (String.ofList (withoutDotSlash e.path.toList))

inductive Fault
  | emptyName
  | dotName (name : String)
  | reservedName (name : String)
  | forbiddenCharacter (c : Char) (name : String)
  | paddedName (name : String)
  | emptyKey
  | emptyPath (key : String)
  | pathNotString (key : String) (value : Json)

def Fault.message : Fault → String
  | emptyName => "`name` must not be empty"
  | dotName name => "`name` may not be `" ++ name ++ "`"
  | reservedName name => "`name` may not be `" ++ name ++ "`, it is reserved for the shared index"
  | forbiddenCharacter c name =>
    "`name` contains forbidden character " ++ Text.quoteChar c ++ ": " ++ name
  | paddedName name => "`name` has leading or trailing whitespace: " ++ Text.quote name
  | emptyKey => "expose keys must not be empty"
  | emptyPath key => "expose `" ++ key ++ "` has an empty path"
  | pathNotString key value =>
    "expose `" ++ key ++ "` must be a string path, found " ++ value.print

/-- Characters that would not survive in a file name or in a module identifier. -/
def forbidden : List Char :=
  ['/', '\\', '<', '>', ':', '"', '\'', '`', '|', '?', '*']

def isForbidden (c : Char) : Bool :=
  Text.isControl c || c ∈ forbidden

def reserved : String := "index"

def sameIgnoringCase (s t : String) : Bool :=
  s.toList.map Char.toLower = t.toList.map Char.toLower

def nameFault? (name : String) : Option Fault :=
  if name = "" then some .emptyName
  else if name = "." ∨ name = ".." then some (.dotName name)
  else if sameIgnoringCase reserved name then some (.reservedName name)
  else
    match name.toList.find? isForbidden with
    | some c => some (.forbiddenCharacter c name)
    | none => if Text.trim name.toList ≠ name.toList then some (.paddedName name) else none

def entryPoint (key : String) (value : Json) : Except Fault EntryPoint :=
  if key = "" then .error .emptyKey
  else
    match value with
    | .string s => if s = "" then .error (.emptyPath key) else .ok ⟨key, s⟩
    | value => .error (.pathNotString key value)

def ofMembers (path name : String) (members : List (String × Json)) : Except Fault Manifest :=
  match nameFault? name with
  | some f => .error f
  | none => do return ⟨name, ← members.mapM fun m ↦ entryPoint m.1 m.2, path⟩

end Manifest

end AmbientTypes
