import AmbientTypes.Command.Building
import AmbientTypes.Command.Help
import AmbientTypes.Command.Listing
import AmbientTypes.Console

namespace AmbientTypes.Command

open AmbientTypes.ConsoleAction

variable (launch : Launcher) (view : Presentation)

def showManifest (m : Manifest) : ConsoleAction Unit := do
  let dir ← cwd
  view.call (.status .uses (manifestText dir m))
  view.call (.event (manifestEvent m))

def showMessage (dir : String) (m : CompilerMessage) : ConsoleAction Unit :=
  if view.reporter.forMachines then view.call (.event m.event)
  else if view.reporter.isQuiet then pure ()
  else view.call (.block (m.block dir view.reporter.colored))

def showMessages (ms : List CompilerMessage) : ConsoleAction Unit := do
  let dir ← cwd
  ms.forM (showMessage view dir)

def showSkipped (m : Manifest) (r : CompileResult) : ConsoleAction Unit := do
  view.call (.status .skipped (skippedText m))
  view.call (.event (skippedEvent m r))

def showModules (r : Renaming) : ConsoleAction Unit :=
  if view.reporter.isVerbose then
    r.entries.forM fun e ↦ view.call (.status .rewriting (moduleText e))
  else pure ()

def showFiles (p : Placement) : ConsoleAction Unit := do
  let dir ← cwd
  view.call (.status .updated (Path.shown dir p.declarationPath))
  if p.stubChange = .created then view.call (.status .created (Path.shown dir p.stubPath))
  view.call (.status (indexLabel p.indexChange) (Path.shown dir p.indexPath))

def showPlaced (m : Manifest) (out : CompileResult) (r : Renaming) (p : Placement) :
    ConsoleAction Unit := do
  showModules view r
  showFiles view p
  view.call (.event (emittedEvent m out r p))
  view.call (.status .finished (view.finishedText m.name))

/-- The pipeline, with its progress shown as it goes. What the animation draws depends on the clock
and is left out. -/
def showPipeline (p : Plan) (c : Compiler) : ConsoleAction Unit := do
  let m ← view.logging p.manifest
  showManifest view m
  view.call (.spinner .compiling (compilingText m c) "")
  let out ← view.logging (p.compile m c)
  showMessages view out.messages
  match out.bundle with
  | none => showSkipped view m out
  | some bundle =>
    view.call (.status .rewriting (rewritingText m))
    let (names, placement) ← view.logging (p.place m bundle)
    showPlaced view m out names placement

def showBuild (f : BuildFlags) : ConsoleAction Unit := do
  let s ← view.logging settings
  let p ← view.logging (buildPlan f s)
  let c ← view.logging (chooseCompiler f s)
  showPipeline view p (c.toCompiler launch)

def showListed (dir fileName : String) (all : Bool) (paths : List String) : ConsoleAction Unit :=
  if view.reporter.forMachines then view.call (.event (Presentation.manifestsEvent paths))
  else if paths.isEmpty then view.call (.warn (Presentation.noManifestText dir fileName))
  else do
    paths.forM fun path ↦ print { stdout := Presentation.pathLine dir path }
    if all then view.call (.status .found (Presentation.countText paths))

def showLocate (f : LocateFlags) : ConsoleAction Unit := do
  let s ← view.logging settings
  let p ← view.logging (plan s f.config f.discovery)
  let paths ← view.logging (p.manifestPaths (if f.all then .all else .chosen))
  showListed view (← cwd) p.search.fileName f.all paths

def showTask : Task → ConsoleAction Unit
  | .build f => showBuild launch view f
  | .locate f => showLocate view f
  | .completions shell => print { stdout := completionScript shell }

def showFailure (f : Failure) : ConsoleAction Unit :=
  if view.reporter.forMachines then view.call (.error f.message)
  else
    match f.remark? with
    | some r => view.call (.block (r.render view.reporter.colored))
    | none => print { stderr := f.line }

/-- The exit code of a task, and what the task leaves; a failure is shown last. -/
def runShown (t : Task) (c : Console) : Nat × Console :=
  match (showTask launch view t).run c with
  | (.ok _, c) => (0, c)
  | (.error f, c) => (1, ((showFailure view f).run c).2)

end AmbientTypes.Command
