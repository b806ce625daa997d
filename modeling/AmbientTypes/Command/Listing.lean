import AmbientTypes.Command.Preparation

namespace AmbientTypes.Command

def locate (f : LocateFlags) : Action Unit := do
  let s ← settings
  let p ← plan s f.config f.discovery
  let paths ← p.manifestPaths (if f.all then .all else .chosen)
  let cwd := (← get).cwd
  Action.tell (.manifests cwd p.search.fileName f.all paths)

end AmbientTypes.Command
