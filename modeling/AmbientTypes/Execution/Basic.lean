import AmbientTypes.Compilation.Job
import AmbientTypes.World

namespace AmbientTypes

structure ProcessOutput where
  status : Option Nat
  stdout : ByteArray := .empty
  stderr : ByteArray := .empty

namespace ProcessOutput

def succeeded (o : ProcessOutput) : Bool :=
  o.status = some 0

end ProcessOutput

/-- A way to run programs. It may change the world whatever comes out. -/
abbrev Launcher := CommandLine → StateM World (Except SysError ProcessOutput)

def CommandLine.runningLine (c : CommandLine) : String :=
  "running `" ++ c.shown ++ "`"

def Action.launch (launch : Launcher) (why : String → SysError → Failure) (c : CommandLine) :
    Action ProcessOutput := do
  Action.log .debug c.runningLine
  match ← (launch c : StateM World _) with
  | .ok o => return o
  | .error e => throw (why c.program e)

namespace World

variable (w : World)

def searchDirectories : List String :=
  (Text.splitAt ':' ((w.envValue? "PATH").getD "/bin:/usr/bin").toList).map String.ofList

def isExecutable (f : Files) (path : String) : Bool :=
  match f.lookup path with
  | .ok (_, .file g) => g.program.isSome
  | _ => false

def fromCwd (path : String) : String :=
  if Path.isAbsolute path then path
  else
    ((Path.components path).dropWhile (· = .here)).foldl (fun p c ↦ Path.join p c.text) w.cwd

def executable? (name : String) : Option String :=
  if 1 < (Path.components name).length then
    some (w.fromCwd name) |>.filter (isExecutable w.files)
  else (w.searchDirectories.map (Path.join · name)).find? (isExecutable w.files)

def compilerVariable : String := "FEDTYPES_TSC"

/-- The compiler for a project: the one that the environment names, else the project's own, else
one on `PATH`. -/
def compilerPath? (projectDir : String) : Option String :=
  match (w.envValue? compilerVariable).filter (· ≠ "") with
  | some program => some program
  | none =>
    let own := Path.join (Path.join (Path.join projectDir "node_modules") ".bin") "tsc"
    if w.files.isFile own then some own else w.executable? "tsc"

end World

end AmbientTypes
