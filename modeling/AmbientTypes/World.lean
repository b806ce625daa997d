import AmbientTypes.Report.Notice
import AmbientTypes.Tree.Operations

namespace AmbientTypes

structure ToolRun where
  tool : Location
  cwd : Location
  arguments : List String
  deriving DecidableEq, Repr

structure World where
  files : Files
  environment : List (String × String) := []
  toolRuns : List ToolRun := []
  notices : List Notice := []

def Location.path (l : Location) : String :=
  if l = [] then "/" else String.join (l.map ("/" ++ ·))

namespace World

def envValue? (w : World) (name : String) : Option String :=
  w.environment.lookup name

def cwd (w : World) : String :=
  Location.path w.files.cwd

end World

abbrev Action := ExceptT Failure (StateM World)

namespace Action

def files : Action Files :=
  return (← get).files

def setFiles (f : Files) : Action Unit :=
  modify fun w ↦ { w with files := f }

def tell (n : Notice) : Action Unit :=
  modify fun w ↦ { w with notices := w.notices ++ [n] }

def log (level : LogLevel) (message : String) : Action Unit :=
  tell (.log level message)

def report (r : Report) : Action Unit :=
  tell (.report r)

def inspect {α : Type} (why : SysError → Failure) (look : Files → Except SysError α) : Action α :=
  do
    match look (← files) with
    | .ok a => return a
    | .error e => throw (why e)

def change (why : SysError → Failure) (step : Files → Except SysError Files) : Action Unit := do
  setFiles (← inspect why step)

def run {α : Type} (a : Action α) (w : World) : Except Failure α × World :=
  StateT.run (ExceptT.run a) w

end Action

end AmbientTypes
