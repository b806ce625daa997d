import AmbientTypes.Bundle.Renaming
import AmbientTypes.Compilation.Basic
import AmbientTypes.Manifest.Load
import AmbientTypes.Pipeline.Plan
import AmbientTypes.Search.Find
import AmbientTypes.SharedFolder.Basic

namespace AmbientTypes

inductive RunOutcome
  | placed (placement : Placement) (names : Renaming)
  | skipped
  deriving DecidableEq, Repr

structure RunSummary where
  manifestPath : String
  name : String
  messages : List CompilerMessage
  outcome : RunOutcome
  deriving DecidableEq, Repr

inductive Listing
  | chosen
  | all
  deriving DecidableEq, Repr

namespace Plan

def configure (root : String) (s : Settings) : Action Plan := do
  match s.searchChoice with
  | .ok _ => pure ()
  | .error e => Action.log .warn (e ++ ", using the default")
  return ofSettings root s

variable (p : Plan)

def manifestPath : Action String :=
  p.search.find p.root p.choice

def usingLine (m : Manifest) : String :=
  "using " ++ m.path ++ " (`" ++ m.name ++ "`, " ++ Text.decimal m.exposes.length ++ " exposed)"

def manifest : Action Manifest := do
  let m ← Manifest.load (← p.manifestPath)
  Action.log .info (usingLine m)
  return m

def job (m : Manifest) : Action CompileJob := do
  match CompileJob.ofManifest (← Action.files) m (p.declarationPath m.name) with
  | .ok j => return j
  | .error e => throw (.manifest e)

def messageLine (m : CompilerMessage) : String :=
  m.place?.getD "" ++ ": " ++ m.kind.word ++ " TS" ++ Text.decimal m.code ++ ": " ++ m.text

/-- Compiles what a manifest exposes. Errors of the compiler are fatal in a strict run, which
leaves no raw bundle behind. -/
def compile (m : Manifest) (c : Compiler) : Action CompileResult := do
  let j ← p.job m
  let r ← c.run j
  r.messages.forM fun t ↦ Action.log .debug (messageLine t)
  if p.strict && 0 < r.countErrors then
    discard (Storage.discardFile j.outFile)
    throw (.strict ⟨r.countErrors, r.messages⟩)
  if r.bundle.isNone then
    Action.log .info ("compiler skipped emission for `" ++ m.name ++ "`")
  return r

def unexposed (m : Manifest) (r : Renaming) : List String :=
  (r.entries.map (·.1)).filter fun id ↦ (ModulePath.keyFor? m id).isNone

def logModules (m : Manifest) (r : Renaming) : Action Unit := do
  (unexposed m r).forM fun id ↦
    Action.log .debug ("`" ++ id ++ "` is not exposed directly, keeping its path")
  r.entries.forM fun e ↦
    Action.log .debug ("module \"" ++ e.1 ++ "\" -> \"" ++ e.2 ++ "\"")

def place (m : Manifest) (bundle : String) : Action (Renaming × Placement) := do
  let out := PublicBundle.ofBundle m bundle
  logModules m out.names
  match out.names.applied? p.patternSize bundle with
  | none => throw (.patternTooLarge Renaming.largestPattern)
  | some text => return (out.names, ← SharedFolder.place p.sharedDir m.name text)

def run (c : Compiler) : Action RunSummary := do
  let m ← p.manifest
  let r ← p.compile m c
  let outcome ← match r.bundle with
    | some bundle => do
      let (names, placement) ← p.place m bundle
      pure (.placed placement names)
    | none => pure .skipped
  return ⟨m.path, m.name, r.messages, outcome⟩

/-- A given manifest is the only one in either listing. -/
def manifestPaths (l : Listing) : Action (List String) :=
  match l, p.choice with
  | .all, .searched _ => p.search.all p.root
  | _, _ => do return [← p.manifestPath]

end Plan

end AmbientTypes
