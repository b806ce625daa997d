import AmbientTypes.Manifest.Basic
import AmbientTypes.SharedFolder.Layout
import AmbientTypes.Storage
import AmbientTypes.Text.Infix

namespace AmbientTypes.SharedFolder

/-- What the index lacks of a package's line; none where it forwards to the package already. An
open last line is closed first. -/
def indexAddition? (contents name : String) : Option String :=
  let line := indexLine name
  if Text.contains contents.toList line.toList then none
  else
    let separator :=
      if contents = "" ∨ contents.toList.getLast? = some '\n' then "" else "\n"
    some (separator ++ line ++ "\n")

def placeDeclarations (dir name text : String) : Action String := do
  let path := Path.join dir (declarationName name)
  Storage.replaceFile path text
  Action.log .info ("wrote " ++ path)
  return path

def placeStub (dir : String) : Action StubChange := do
  Storage.requireFolder dir
  let path := Path.join dir stubName
  if ← Storage.createFile path stubText then
    Action.log .info ("wrote " ++ path)
    return .created
  else
    Action.log .debug (path ++ " already exists")
    return .alreadyPresent

def openIndex (path : String) : Action (Location × ByteArray) := do
  let (l, bytes, f) ← Action.inspect (.openingIndex path) (·.openOrCreate path)
  Action.setFiles f
  return (l, bytes)

/-- Adds the line of a package to the index, once. Lines of other packages are never touched. -/
def addToIndex (dir name : String) : Action IndexChange := do
  Storage.requireFolder dir
  let path := Path.join dir indexName
  let existed := (← Action.files).pathExists path
  let (l, bytes) ← openIndex path
  match Text.ofUtf8? bytes with
  | none => throw (.readingFile path .invalidText)
  | some contents =>
    match indexAddition? contents name with
    | none =>
      Action.log .debug (path ++ " already forwards to `" ++ name ++ "`")
      return .unchanged
    | some addition =>
      Action.setFiles ((← Action.files).putBytes l (bytes ++ addition.toUTF8))
      if existed then
        Action.log .info ("updated " ++ path)
        return .appended
      else
        Action.log .info ("created " ++ path)
        return .created

def placeStubIfWanted (dir : String) : Action StubChange :=
  if holdsTypePackages dir then placeStub dir
  else do
    Action.log .debug (dir ++ " is not a types root, no package.json needed")
    return .notApplicable

/-- The index comes last, when the file that it forwards to is in place. A package named like the
index is refused. -/
def place (dir name text : String) : Action Placement := do
  if Manifest.sameIgnoringCase (declarationName name) indexName then
    throw (.indexOverwritten name dir)
  let declarationPath ← placeDeclarations dir name text
  let stub ← placeStubIfWanted dir
  let index ← addToIndex dir name
  return ⟨declarationPath, Path.join dir indexName, index, Path.join dir stubName, stub⟩

end AmbientTypes.SharedFolder
