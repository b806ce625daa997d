import AmbientTypes.Execution.Evaluation

namespace AmbientTypes.Execution

def hasNul (c : CommandLine) : Bool :=
  (c.program :: c.directory.toList ++ c.arguments).any (·.toList.contains '\x00')

def runnable (f : Files) (path : String) : Except SysError (Location × File × Program) :=
  match f.lookup path with
  | .error e => .error e
  | .ok (l, .file g) =>
    match g.program with
    | some p => .ok (l, g, p)
    | none => .error .permissionDenied
  | .ok _ => .error .permissionDenied

/-- The first of several paths that can be run. A file that may not be run is remembered, one that
is missing is not. -/
def firstRunnable (f : Files) (denied : Bool) :
    List String → Except SysError (Location × File × Program)
  | [] => .error (if denied then .permissionDenied else .notFound)
  | path :: paths =>
    match runnable f path with
    | .error .permissionDenied => firstRunnable f true paths
    | .error .notFound | .error .notADirectory => firstRunnable f denied paths
    | found => found

def findProgram (w : World) (name : String) : Except SysError (Location × File × Program) :=
  if name = "" then .error .notFound
  else if name.toList.contains '/' then runnable w.files name
  else
    firstRunnable w.files false
      (w.searchDirectories.map fun dir ↦ Path.join (if dir = "" then "." else dir) name)

def outFile? : List String → Option String
  | [] => none
  | a :: as =>
    match outFile? as with
    | some p => some p
    | none => if a = "--outFile" then as.head? else none

def emitBundle (bytes : ByteArray) (args : List String) (f : Files) : Files :=
  match outFile? args with
  | none => f
  | some path =>
    let (_, g) := f.makeAllFolders (Path.directory path)
    match g.writeBytes path bytes with
    | .ok h => h
    | .error _ => g

def runTool (l : Location) (emit : Option ByteArray) (o : ProcessOutput) (args : List String) :
    StateM World ProcessOutput := fun w ↦
  let files := match emit with
    | some bytes => emitBundle bytes args w.files
    | none => w.files
  (o, { w with
    files := files
    toolRuns := w.toolRuns ++ [⟨l, w.files.cwd, args⟩] })

def reasonNotRead : SysError → String
  | .notFound => "No such file or directory"
  | .isADirectory => "Is a directory"
  | .notADirectory => "Not a directory"
  | .nameTooLong => "File name too long"
  | .tooManyLinks => "Too many levels of symbolic links"
  | _ => "Permission denied"

def concatenate (f : Files) (args : List String) : ProcessOutput :=
  args.foldl
    (fun o path ↦
      if path = "-" then o
      else
        match f.readBytes path with
        | .ok bytes => { o with stdout := o.stdout ++ bytes }
        | .error e =>
          { o with
            status := some 1
            stderr := o.stderr ++ ("cat: " ++ path ++ ": " ++ reasonNotRead e ++ "\n").toUTF8 })
    ⟨some 0, .empty, .empty⟩

def runCat (f : Files) (args : List String) : ProcessOutput :=
  match args.find? fun a ↦ a.startsWith "--" && a ≠ "--" with
  | some a =>
    ⟨some 1, .empty, ("cat: unrecognized option '" ++ a ++
      "'\nTry 'cat --help' for more information.\n").toUTF8⟩
  | none => concatenate f (args.filter (· ≠ "--"))

def refused (message : String) : ProcessOutput :=
  ⟨some 2, .empty, message.toUTF8⟩

/-- `-c` takes the script from the arguments; else the first argument names it. A tool may be run
this way too. -/
def runShell (launch : Launcher) (args : List String) : StateM World ProcessOutput := do
  match args with
  | [] => return ⟨some 0, .empty, .empty⟩
  | ["-c"] => return refused "sh: 0: -c requires an argument\n"
  | "-c" :: script :: rest => Script.run launch (rest.headD "sh") (rest.drop 1) script
  | path :: rest =>
    if path.startsWith "--" then return refused "sh: 0: Illegal option --\n"
    else
      match (← get).files.lookup path with
      | .ok (l, .file g) =>
        match g.program with
        | some (.tool emit out err exit) => runTool l emit ⟨some exit, out, err⟩ rest
        | _ => Script.run launch path rest (Text.lenient g.bytes)
      | _ => return refused ("sh: 0: cannot open " ++ path ++ ": No such file\n")

def runProgram (launch : Launcher) (l : Location) (args : List String) :
    Program → StateM World ProcessOutput
  | .tool emit out err exit => runTool l emit ⟨some exit, out, err⟩ args
  | .shell => runShell launch args
  | .cat => return runCat (← get).files args
  | .succeed => return ⟨some 0, .empty, .empty⟩
  | .fail => return ⟨some 1, .empty, .empty⟩

def startDirectory (f : Files) : Option String → Except SysError Location
  | none => .ok f.cwd
  | some dir =>
    match f.lookup dir with
    | .ok (l, .folder _) => .ok l
    | .ok _ => .error .notADirectory
    | .error e => .error e

def runIn (here : Location) (run : StateM World ProcessOutput) : StateM World ProcessOutput := do
  let back := (← get).files.cwd
  modify fun w ↦ { w with files.cwd := here }
  let o ← run
  modify fun w ↦ { w with files.cwd := back }
  return o

/-- Scripts may run programs, which may run scripts, up to `depth`. -/
def startWithin : (depth : Nat) → Launcher
  | 0, _ => return .error .busy
  | depth + 1, c => do
    let w ← get
    if hasNul c then return .error .nulInArgument
    match startDirectory w.files c.directory with
    | .error e => return .error e
    | .ok here =>
      match findProgram { w with files.cwd := here } c.program with
      | .error e => return .error e
      | .ok (l, _, p) =>
        .ok <$> runIn here (runProgram (startWithin depth) l c.arguments p)

def deepest : Nat := 64

def start : Launcher :=
  startWithin deepest

end AmbientTypes.Execution
