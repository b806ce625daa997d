import AmbientTypes.World

namespace AmbientTypes.Storage

def requireFolder (path : String) : Action Unit := do
  let f ← Action.files
  if !f.pathExists path then
    let (result, g) := f.makeAllFolders path
    Action.setFiles g
    match result with
    | .ok () => return ()
    | .error e => throw (.makingFolder path e)

def readText (path : String) : Action String :=
  Action.inspect (.readingFile path) (·.readText path)

/-- Whether there was a file to remove. -/
def discardFile (path : String) : Action Bool := do
  match (← Action.files).removeFile path with
  | .ok f =>
    Action.setFiles f
    return true
  | .error .notFound => return false
  | .error e => throw (.removingFile path e)

def attempts : Nat := 65536

def makeTemporary (dir contents : String) : Action String := do
  match (← Action.files).makeTemporary dir contents.toUTF8 attempts 0 with
  | .ok (path, f) =>
    Action.setFiles f
    return path
  | .error (e, path) => throw (.makingTemporary dir (Path.anchor (← get).cwd path) e)

def moveInto (path temporary : String) : Action Unit := do
  let f ← Action.files
  match f.rename temporary path with
  | .ok g => Action.setFiles g
  | .error e =>
    Action.setFiles ((f.removeFile temporary).toOption.getD f)
    throw (.writingFile path e)

/-- The new contents are complete before they take the place of the old ones. -/
def replaceFile (path contents : String) : Action Unit := do
  let dir := Path.directory path
  requireFolder dir
  moveInto path (← makeTemporary dir contents)

/-- Whether the file was missing; one that exists stays as it is. -/
def createFile (path contents : String) : Action Bool := do
  match (← Action.files).createNew path contents.toUTF8 with
  | .ok f =>
    Action.setFiles f
    return true
  | .error .alreadyExists => return false
  | .error e => throw (.makingFile path e)

end AmbientTypes.Storage
