import AmbientTypes.Command.Arguments
import AmbientTypes.Pipeline.Run
import AmbientTypes.Settings.Load

namespace AmbientTypes.Command

def settings : Action Settings := do
  let w ← get
  Settings.loadLayers (Settings.userPath? w) (Settings.pathIn w.cwd)

def plan (s : Settings) (config : Option String) (discovery : Option SearchChoice) :
    Action Plan := do
  let p ← Plan.configure (← get).cwd s
  return p.choosing config discovery

end AmbientTypes.Command
