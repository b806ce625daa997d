import AmbientTypes.Command.Run
import AmbientTypes.Execution.Start
import AmbientTypes.Snapshot

namespace AmbientTypes.Command

def variableNames : List String :=
  ["HOME", "PATH", logVariable, World.compilerVariable]

def snapshotOf (line : String) : Json :=
  match Json.parse line with
  | .ok j => j
  | .error _ => .object []

/-- Runs in the directory that one line of standard input describes: an object with `cwd`, `entries`
and `tools`. -/
def runOn (line : String) (args : List String) : IO UInt32 := do
  let j := snapshotOf line
  let environment ← variableNames.filterMapM fun name ↦
    return (← IO.getEnv name).map (name, ·)
  let w := Snapshot.world ((Snapshot.text? j "cwd").getD "/") environment j
  let (out, _) := run Execution.start false args w
  IO.print out.printed.stdout
  IO.eprint out.printed.stderr
  return UInt32.ofNat out.exit

end AmbientTypes.Command

def main (args : List String) : IO UInt32 := do
  AmbientTypes.Command.runOn (← (← IO.getStdin).getLine) args
