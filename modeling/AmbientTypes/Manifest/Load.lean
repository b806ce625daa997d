import AmbientTypes.Manifest.Document
import AmbientTypes.World

namespace AmbientTypes.Manifest

def unreadable (path : String) (e : SysError) : ManifestProblem :=
  .malformed path ("failed to read manifest: " ++ e.message)

def load (path : String) : Action Manifest := do
  let text ← Action.inspect (.manifest ∘ unreadable path) (·.readText path)
  match parse text path with
  | .ok m => return m
  | .error e => throw (.manifest e)

end AmbientTypes.Manifest
