import AmbientTypes.Compilation.Basic
import AmbientTypes.Compilation.Printout
import AmbientTypes.Execution.Basic
import AmbientTypes.Storage

namespace AmbientTypes.CompilerProgram

variable (launch : Launcher)

def statusText : Option Nat → String
  | some n => "Some(" ++ Text.decimal n ++ ")"
  | none => "None"

/-- The message of a compiler that failed without saying so in its own form. -/
def crash? (o : ProcessOutput) (stdout stderr : String) : Option CompilerMessage :=
  let raw := if Text.trim stderr.toList = [] then stdout else stderr
  let message := Text.trim raw.toList
  if o.succeeded ∨ message = [] then none else some (.ofOutput (String.ofList message))

def readMessages (directory : String) (o : ProcessOutput) : List CompilerMessage :=
  Printout.parse (Text.lenient o.stdout) directory ++
    Printout.parse (Text.lenient o.stderr) directory

def messages (directory : String) (o : ProcessOutput) : List CompilerMessage :=
  match readMessages directory o with
  | [] => (crash? o (Text.lenient o.stdout) (Text.lenient o.stderr)).toList
  | ms => ms

def exitLine (p : CompilerProgram) (j : CompileJob) (o : ProcessOutput) : String :=
  "`" ++ p.path ++ "` exited with " ++ statusText o.status ++ ", " ++
    Text.decimal (readMessages j.directory o).length ++ " diagnostic(s)"

def readBundle (path : String) : Action (Option String) := do
  if (← Action.files).isFile path then some <$> Storage.readText path else return none

def removeStale (path : String) : Action Unit := do
  if ← Storage.discardFile path then Action.log .debug ("removed stale " ++ path)

def compile (p : CompilerProgram) (j : CompileJob) : Action CompileResult := do
  removeStale j.outFile
  let o ← Action.launch launch .startingCompiler (p.commandLine j)
  Action.log .debug (p.exitLine j o)
  let bundle ← readBundle j.outFile
  return ⟨bundle.isSome, messages j.directory o, bundle⟩

def toCompiler (p : CompilerProgram) : Compiler where
  shown := p.shown
  run := p.compile launch

def find (projectDir : String) : Action CompilerProgram := do
  match (← get).compilerPath? projectDir with
  | some path => return { path := path }
  | none => throw .noCompiler

end AmbientTypes.CompilerProgram
