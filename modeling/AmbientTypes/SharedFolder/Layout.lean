import AmbientTypes.Path

namespace AmbientTypes

def indexName : String := "index.d.ts"

def stubName : String := "package.json"

def stubText : String :=
  "\x7b\n  \"name\": \"@types/__federated_types\",\n  \"version\": \"0.0.0\",\n" ++
  "  \"private\": true,\n" ++
  "  \"description\": \"Ambient type declarations for federated modules, " ++
  "generated by fedtypes\",\n" ++
  "  \"types\": \"index.d.ts\"\n\x7d\n"

def indexLine (name : String) : String :=
  "export * from './" ++ name ++ "';"

def declarationName (name : String) : String :=
  name ++ ".d.ts"

def passTypePackages : List Path.Component → Bool
  | a :: b :: cs =>
    (a = .name "node_modules" && b = .name "@types") || passTypePackages (b :: cs)
  | _ => false

def holdsTypePackages (dir : String) : Bool :=
  passTypePackages (Path.components dir)

inductive IndexChange
  | created
  | appended
  | unchanged
  deriving DecidableEq, Repr

def IndexChange.word : IndexChange → String
  | created => "created"
  | appended => "appended"
  | unchanged => "unchanged"

inductive StubChange
  | created
  | alreadyPresent
  /-- The directory holds no type packages. -/
  | notApplicable
  deriving DecidableEq, Repr

def StubChange.word : StubChange → String
  | created => "created"
  | alreadyPresent => "already-present"
  | notApplicable => "not-applicable"

structure Placement where
  declarationPath : String
  indexPath : String
  indexChange : IndexChange
  stubPath : String
  stubChange : StubChange
  deriving DecidableEq, Repr

end AmbientTypes
