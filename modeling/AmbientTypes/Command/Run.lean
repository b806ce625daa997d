import AmbientTypes.Command.Showing

namespace AmbientTypes.Command

def perform (launch : Launcher) : Task → Action Unit
  | .build f => build launch f
  | .locate f => locate f
  | .completions shell => Action.tell (.text (completionScript shell))

/-- A failure ends the run and is the last notice. -/
def runTask (launch : Launcher) (t : Task) (w : World) : Nat × World :=
  match (perform launch t).run w with
  | (.ok _, w) => (0, w)
  | (.error f, w) => (1, { w with notices := w.notices ++ [.failed f] })

def logVariable : String := "RUST_LOG"

/-- How a run shows its notices; `terminal` says whether standard error is one. -/
def Reporting.presentation (r : Reporting) (terminal : Bool) (logSetting : Option String) :
    Presentation where
  reporter := Reporter.ofFlags terminal r.quiet r.verbose (r.format = .json) r.color
  filter := LogFilter.ofSetting logSetting r.verbose
  terminal := terminal

structure Finished where
  exit : Nat
  printed : Printed
  deriving DecidableEq, Repr

def Stop.finished : Stop → Finished
  | .failed e => ⟨2, { stderr := "error: " ++ e.message ++ "\n" }⟩
  | .help l => ⟨0, { stdout := helpText l }⟩
  | .version => ⟨0, { stdout := versionText }⟩

def run (launch : Launcher) (terminal : Bool) (args : List String) (w : World) : Finished × World :=
  match Invocation.parse args with
  | .error stop => (stop.finished, w)
  | .ok invocation =>
    let view := invocation.reporting.presentation terminal (w.envValue? logVariable)
    let (exit, console) := runShown launch view invocation.task ⟨w, {}⟩
    (⟨exit, console.printed⟩, console.world)

end AmbientTypes.Command
