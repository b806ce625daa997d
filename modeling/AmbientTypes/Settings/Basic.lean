import AmbientTypes.Search.Basic

namespace AmbientTypes

structure Settings where
  choice : Option String := none
  manifestName : Option String := none
  skipped : Option (List String) := none
  outputDir : Option String := none
  program : Option String := none
  arguments : List String := []
  strict : Option Bool := none
  deriving DecidableEq, Repr

namespace Settings

def usualOutputDir : String := "node_modules/@types/__federated_types"

/-- Settings of `upper` win. A program comes with its own arguments, never with older ones. -/
def overriddenBy (lower upper : Settings) : Settings where
  choice := upper.choice <|> lower.choice
  manifestName := upper.manifestName <|> lower.manifestName
  skipped := upper.skipped <|> lower.skipped
  outputDir := upper.outputDir <|> lower.outputDir
  program := upper.program <|> lower.program
  arguments :=
    if upper.program.isSome ∨ upper.arguments ≠ [] then upper.arguments else lower.arguments
  strict := upper.strict <|> lower.strict

def searchChoice (s : Settings) : Except String SearchChoice :=
  match s.choice with
  | none => .ok .firstMatch
  | some t =>
    match SearchChoice.parse t with
    | .ok c => .ok c
    | .error e => .error ("invalid discovery policy in config: " ++ e)

def search (s : Settings) : Search :=
  let usual : Search := {}
  ⟨s.manifestName.getD usual.fileName, s.skipped.getD usual.skipped⟩

def isStrict (s : Settings) : Bool :=
  s.strict.getD false

def outputDirOrUsual (s : Settings) : String :=
  s.outputDir.getD usualOutputDir

end Settings

end AmbientTypes
