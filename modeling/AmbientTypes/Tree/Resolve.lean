import AmbientTypes.Path
import AmbientTypes.Text.Utf8
import AmbientTypes.Tree.Basic
import AmbientTypes.Tree.Error

namespace AmbientTypes

structure Files where
  tree : Tree
  cwd : Location := []

/-- The end of a path: an entry, or a name that a folder does not hold yet. -/
inductive Target
  | present (location : Location) (entry : Tree)
  | absent (folder : Location) (name : String)

def Target.location : Target → Location
  | present l _ => l
  | absent l n => l ++ [n]

inductive Ending
  | entry
  | behind
  | file
  | newFile
deriving DecidableEq

namespace Ending

def follows : Ending → Bool
  | behind | file => true
  | entry | newFile => false

def refusesSlash : Ending → Bool
  | file | newFile => true
  | entry | behind => false

end Ending

namespace Files

def segments (path : String) : List String :=
  ((Path.splitSlash path.toList).filter (· ≠ [])).map String.ofList

def endsInSlash (path : String) : Bool :=
  path.toList.getLast? = some '/'

def longestName : Nat := 255

def longestPath : Nat := 4095

def mostLinks : Nat := 40

def utf8Size (s : String) : Nat :=
  Text.utf8Length s.toList

variable (tree : Tree) (ending : Ending)

/-- Walks from a location; `again` goes on after a link. -/
def walkWith (again : Location → Bool → List String → Except SysError Target) (here : Location)
    (folderWanted : Bool) : List String → Except SysError Target
  | [] =>
    match tree.get? here with
    | none => .error .notFound
    | some t =>
      if folderWanted && !t.isFolder then .error .notADirectory else .ok (.present here t)
  | s :: rest =>
    match tree.get? here with
    | none => .error .notFound
    | some (.folder entries) =>
      if s = "." then walkWith again here folderWanted rest
      else if s = ".." then walkWith again here.dropLast folderWanted rest
      else if ending.refusesSlash && folderWanted && rest = [] then .error .isADirectory
      else if longestName < utf8Size s then .error .nameTooLong
      else
        match entries.lookup s with
        | none => if rest = [] then .ok (.absent here s) else .error .notFound
        | some (.link target) =>
          if rest = [] && !ending.follows && !folderWanted then
            .ok (.present (here ++ [s]) (.link target))
          else
            again (if Path.isAbsolute target then [] else here)
              (if rest = [] then folderWanted || endsInSlash target else folderWanted)
              (segments target ++ rest)
        | some _ => walkWith again (here ++ [s]) folderWanted rest
    | some _ => .error .notADirectory

def walk : (links : Nat) → Location → Bool → List String → Except SysError Target
  | 0 => walkWith tree ending fun _ _ _ ↦ .error .tooManyLinks
  | links + 1 => walkWith tree ending (walk links)

end Files

namespace Files

variable (f : Files)

def start (path : String) : Location :=
  if Path.isAbsolute path then [] else f.cwd

def pathFault? (path : String) : Option SysError :=
  if path.toList.contains '\x00' then some .nulInPath
  else if path = "" then some .notFound
  else if longestPath < utf8Size path then some .nameTooLong
  else none

def resolveWith (folderWanted : Bool) (ending : Ending) (path : String) : Except SysError Target :=
  match pathFault? path with
  | some e => .error e
  | none => walk f.tree ending mostLinks (f.start path) folderWanted (segments path)

/-- Where a path leads; one that ends in a slash leads to a folder. -/
def resolve (ending : Ending) (path : String) : Except SysError Target :=
  f.resolveWith (endsInSlash path) ending path

def resolveName (path : String) : Except SysError Target :=
  f.resolveWith false .entry path

def lookup (path : String) : Except SysError (Location × Tree) :=
  match f.resolve .behind path with
  | .ok (.present l t) => .ok (l, t)
  | .ok (.absent ..) => .error .notFound
  | .error e => .error e

def lookupLink (path : String) : Except SysError (Location × Tree) :=
  match f.resolve .entry path with
  | .ok (.present l t) => .ok (l, t)
  | .ok (.absent ..) => .error .notFound
  | .error e => .error e

def pathExists (path : String) : Bool :=
  match f.lookup path with
  | .ok _ => true
  | .error _ => false

def isFile (path : String) : Bool :=
  match f.lookup path with
  | .ok (_, .file _) => true
  | _ => false

def isFolder (path : String) : Bool :=
  match f.lookup path with
  | .ok (_, .folder _) => true
  | _ => false

end Files

end AmbientTypes
