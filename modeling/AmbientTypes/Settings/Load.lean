import AmbientTypes.Settings.Basic
import AmbientTypes.Toml.Reader
import AmbientTypes.World

namespace AmbientTypes.Settings

def asText : Toml → Option String
  | .text s => some s
  | _ => none

def asBoolean : Toml → Option Bool
  | .boolean b => some b
  | _ => none

def asTexts : Toml → Option (List String)
  | .array items => items.mapM asText
  | _ => none

/-- What a section holds for each of its keys. An array gives values in the order of the keys, and
a date gives none. -/
def sectionOf (keys : List String) : Option Toml → Option (String → Option Toml)
  | none | some .moment => some fun _ ↦ none
  | some (.table _ es) => some fun k ↦ es.lookup k
  | some (.array items) => some fun k ↦ (keys.zip items).lookup k
  | some _ => none

def setting {α : Type} (read : Toml → Option α) : Option Toml → Option (Option α)
  | none => some none
  | some v => (read v).map some

def ofEntries (es : Toml.Entries) : Option Settings := do
  let discovery ← sectionOf ["policy", "manifest-name", "exclude"] (es.lookup "discovery")
  let output ← sectionOf ["dir"] (es.lookup "output")
  let compiler ← sectionOf ["program", "args", "strict"] (es.lookup "compiler")
  return {
    choice := ← setting asText (discovery "policy")
    manifestName := ← setting asText (discovery "manifest-name")
    skipped := ← setting asTexts (discovery "exclude")
    outputDir := ← setting asText (output "dir")
    program := ← setting asText (compiler "program")
    arguments := (← setting asTexts (compiler "args")).getD []
    strict := ← setting asBoolean (compiler "strict") }

def parse (text : String) : Option Settings :=
  (Toml.parse text).bind ofEntries

def load (path : String) : Action Settings := do
  let text ← Action.inspect (.readingSettings path) (·.readText path)
  match parse text with
  | some s => return s
  | none => throw (.invalidSettings path)

/-- Nothing is set where there is no file, or none that can be read. -/
def loadIfAny (path : String) : Action Settings := do
  if (← Action.files).pathExists path then
    try load path
    catch e =>
      Action.log .warn ("Failed to load config from " ++ path ++ ": " ++ e.message)
      return {}
  else return {}

def loadLayers (userPath : Option String) (projectPath : String) : Action Settings := do
  let user ← match userPath with
    | some path => loadIfAny path
    | none => pure {}
  return (overriddenBy {} user).overriddenBy (← loadIfAny projectPath)

def folderName : String := ".fedtypes"

def pathIn (dir : String) : String :=
  Path.join (Path.join dir folderName) "config.toml"

def homeVariable : String := "HOME"

def userPath? (w : World) : Option String :=
  ((w.envValue? homeVariable).filter (· ≠ "")).map pathIn

end AmbientTypes.Settings
