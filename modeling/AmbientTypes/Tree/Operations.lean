import AmbientTypes.Text.Digit
import AmbientTypes.Tree.Resolve

namespace AmbientTypes.Files

variable (f : Files)

def readBytes (path : String) : Except SysError ByteArray :=
  match f.lookup path with
  | .ok (_, .file g) => .ok g.bytes
  | .ok _ => .error .isADirectory
  | .error e => .error e

def readText (path : String) : Except SysError String := do
  match Text.ofUtf8? (← f.readBytes path) with
  | some s => return s
  | none => .error .invalidText

def put (l : Location) (t : Tree) : Files :=
  { f with tree := f.tree.put l t }

def erase (l : Location) : Files :=
  { f with tree := f.tree.remove l }

def putBytes (l : Location) (bytes : ByteArray) : Files :=
  f.put l (.file ⟨bytes, none⟩)

def endsInDots (path : String) : Bool :=
  match (segments path).getLast? with
  | none => true
  | some s => s = "." || s = ".."

def makeFolder (path : String) : Except SysError Files := do
  match ← f.resolveName path with
  | .present .. => .error .alreadyExists
  | .absent l n => return f.put (l ++ [n]) .empty

/-- Makes a folder and those above it that are missing; `fuel` bounds their number. -/
def makeFolders : (fuel : Nat) → String → Files → Except SysError Unit × Files
  | 0, _, f => (.error .notFound, f)
  | fuel + 1, path, f =>
    if path = "" then (.ok (), f)
    else
      match f.makeFolder path with
      | .ok g => (.ok (), g)
      | .error .notFound =>
        match Path.parent? path with
        | none => (.error .notFound, f)
        | some p =>
          match makeFolders fuel p f with
          | (.error e, g) => (.error e, g)
          | (.ok (), g) =>
            match g.makeFolder path with
            | .ok h => (.ok (), h)
            | .error e => (if g.isFolder path then .ok () else .error e, g)
      | .error e => (if f.isFolder path then .ok () else .error e, f)

def makeAllFolders (path : String) : Except SysError Unit × Files :=
  makeFolders (path.length + 1) path f

def removeFile (path : String) : Except SysError Files := do
  match ← f.resolveName path with
  | .absent .. => .error .notFound
  | .present _ (.folder _) => .error .isADirectory
  | .present l _ => if endsInSlash path then .error .notADirectory else return f.erase l

def removeAll (path : String) : Except SysError Files := do
  let (l, _) ← f.lookupLink path
  return f.erase l

/-- Opens a file for writing, behind links, making it where it is missing; gives its location and
what it holds. -/
def openOrCreate (path : String) : Except SysError (Location × ByteArray × Files) := do
  match ← f.resolve .file path with
  | .present l (.file g) => return (l, g.bytes, f)
  | .present .. => .error .isADirectory
  | .absent l n => return (l ++ [n], .empty, f.putBytes (l ++ [n]) .empty)

def writeBytes (path : String) (bytes : ByteArray) : Except SysError Files := do
  let (l, _, g) ← f.openOrCreate path
  return g.putBytes l bytes

def createNew (path : String) (bytes : ByteArray) : Except SysError Files := do
  match ← f.resolve .newFile path with
  | .present .. => .error .alreadyExists
  | .absent l n => return f.putBytes (l ++ [n]) bytes

def makeLink (path target : String) : Except SysError Files := do
  match ← f.resolveName path with
  | .present .. => .error .alreadyExists
  | .absent l n =>
    if endsInSlash path then .error .notFound else return f.put (l ++ [n]) (.link target)

def rename (source path : String) : Except SysError Files := do
  let (l, t) ← f.lookupLink source
  let target ← f.resolveName path
  if endsInDots path then .error .busy
  else if endsInSlash path then .error .notADirectory
  else
    match target with
    | .present _ (.folder _) => .error .isADirectory
    | target => return (f.erase l).put target.location t

def temporaryName (n : Nat) : String :=
  let digits := Text.decimal n
  ".tmp" ++ String.ofList (List.replicate (6 - digits.length) '0') ++ digits

/-- Makes a temporary file in a directory, under the first name from the `n`th on that is free;
`attempts` bounds the number of names. An error comes with the path that was tried. -/
def makeTemporary (dir : String) (bytes : ByteArray) :
    (attempts n : Nat) → Except (SysError × String) (String × Files)
  | 0, n => .error (.alreadyExists, Path.join dir (temporaryName n))
  | attempts + 1, n =>
    let path := Path.join dir (temporaryName n)
    match f.createNew path bytes with
    | .ok g => .ok (path, g)
    | .error .alreadyExists => makeTemporary dir bytes attempts (n + 1)
    | .error e => .error (e, path)

end AmbientTypes.Files
