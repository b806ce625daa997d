import AmbientTypes.Search.Basic
import AmbientTypes.World

namespace AmbientTypes.Search

structure Branch where
  isFolder : Bool
  name : String
  found : List String

/-- Files before folders, then by name. -/
def Branch.le (a b : Branch) : Bool :=
  if a.isFolder = b.isFolder then a.name ≤ b.name else !a.isFolder

def inOrder (bs : List Branch) : List String :=
  (bs.mergeSort Branch.le).flatMap (·.found)

variable (q : Search)

mutual

/-- Manifests at or below an entry that lies at `path`. Links are not followed, and excluded folders
are not entered. -/
def below (path name : String) : Tree → List String
  | .file _ => if name = q.fileName then [path] else []
  | .link _ => []
  | .folder entries => if name ∈ q.skipped then [] else inOrder (branches path entries)

def branches (dir : String) : List (String × Tree) → List Branch
  | [] => []
  | (name, t) :: rest => ⟨t.isFolder, name, below (Path.join dir name) name t⟩ :: branches dir rest

end

/-- Every manifest under `root`, in order; an error where there is no root. A root that is a link
to a folder is searched. -/
def findings? (f : Files) (root : String) : Except SysError (List String) :=
  match f.lookupLink root with
  | .error e => .error e
  | .ok (_, .file _) =>
    .ok (if (Path.fileName? root).getD root = q.fileName then [root] else [])
  | .ok (_, .folder entries) => .ok (inOrder (q.branches root entries))
  | .ok (_, .link _) =>
    match f.lookup root with
    | .ok (_, .folder entries) => .ok (inOrder (q.branches root entries))
    | .ok _ => .ok []
    | .error e => .error e

def all (root : String) : Action (List String) := do
  match q.findings? (← Action.files) root with
  | .ok paths => return paths
  | .error e =>
    Action.log .warn
      ("skipping unreadable entry: IO error for operation on " ++ root ++ ": " ++ e.message)
    return []

def first (root : String) : Action String := do
  match ← q.all root with
  | path :: _ => return path
  | [] => throw (.manifest (q.nothingFound root))

def single (root : String) : Action String := do
  match ← q.all root with
  | [] => throw (.manifest (q.nothingFound root))
  | [path] => return path
  | paths => throw (.manifest (.ambiguous paths.length paths))

def chosen (root : String) : ManifestChoice → Action String
  | .given path => do
    if (← Action.files).isFile path then return path
    else throw (.manifest (.givenMissing path))
  | .searched .firstMatch => q.first root
  | .searched .unique => q.single root

def find (root : String) (choice : ManifestChoice) : Action String := do
  let path ← q.chosen root choice
  Action.log .debug ("located manifest " ++ path)
  return path

end AmbientTypes.Search
