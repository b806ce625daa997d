import AmbientTypes.Settings.Basic
import AmbientTypes.SharedFolder.Layout

namespace AmbientTypes

structure Plan where
  root : String
  search : Search
  choice : ManifestChoice
  sharedDir : String
  strict : Bool
  /-- What the pattern of some identifiers takes, in bytes. -/
  patternSize : List String → Nat := fun _ ↦ 0

namespace Plan

/-- A choice that cannot be read counts as unset. -/
def ofSettings (root : String) (s : Settings) : Plan where
  root := root
  search := s.search
  choice :=
    match s.searchChoice with
    | .ok c => .searched c
    | .error _ => .searched .firstMatch
  sharedDir := Path.anchor root s.outputDirOrUsual
  strict := s.isStrict

def ofRoot (root : String) : Plan :=
  ofSettings root {}

def withGiven (p : Plan) (path : String) : Plan :=
  { p with choice := .given (Path.anchor p.root path) }

def sharing (p : Plan) (dir : String) : Plan :=
  { p with sharedDir := Path.anchor p.root dir }

def choosing (p : Plan) (manifest : Option String) (choice : Option SearchChoice) : Plan :=
  let p := match choice with
    | some c => { p with choice := .searched c }
    | none => p
  match manifest with
  | some path => p.withGiven path
  | none => p

def declarationPath (p : Plan) (name : String) : String :=
  Path.join p.sharedDir (declarationName name)

end Plan

end AmbientTypes
