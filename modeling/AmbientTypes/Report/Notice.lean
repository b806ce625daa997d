import AmbientTypes.Compilation.Message
import AmbientTypes.Failure
import AmbientTypes.Path
import AmbientTypes.Report.Duration
import AmbientTypes.Report.Log
import AmbientTypes.Report.Reporter

namespace AmbientTypes

inductive Notice
  | log (level : LogLevel) (message : String)
  | report (r : Report)
  | detail (r : Report)
  | compilerMessage (cwd : String) (m : CompilerMessage)
  | manifests (cwd fileName : String) (all : Bool) (paths : List String)
  | finished (name : String)
  | failed (f : Failure)
  | text (s : String)

/-- How a run is shown; `elapsed` is the time that it took. -/
structure Presentation where
  reporter : Reporter
  filter : LogFilter
  terminal : Bool := false
  elapsed : Duration := ⟨0, 0⟩

namespace CompilerMessage

variable (m : CompilerMessage)

def toJson : Json :=
  .object [("file", Json.ofOption .string m.file), ("line", Json.ofOption Json.ofNat m.line),
    ("column", Json.ofOption Json.ofNat m.column), ("code", Json.ofNat m.code),
    ("severity", m.kind.word), ("message", m.text)]

def event : Json :=
  .object [("reason", "compiler-diagnostic"), ("diagnostic", m.toJson)]

def block (cwd : String) (colored : Bool) : String :=
  (({ m with file := m.file.map (Path.shown cwd) } : CompilerMessage).remark false).render colored

end CompilerMessage

def Failure.line (f : Failure) : String :=
  "error: " ++ f.message ++ "\n"

namespace Presentation

def manifestsEvent (paths : List String) : Json :=
  .object [("reason", "manifests"), ("paths", .array (paths.map .string))]

def noManifestText (cwd fileName : String) : String :=
  "no `" ++ fileName ++ "` under " ++ cwd

def pathLine (cwd path : String) : String :=
  Path.shown cwd path ++ "\n"

def countText (paths : List String) : String :=
  Text.decimal paths.length ++ " manifest(s)"

variable (p : Presentation)

def finishedText (name : String) : String :=
  "`" ++ name ++ "` types in " ++ p.elapsed.render

def compilerMessage (cwd : String) (m : CompilerMessage) : Printed :=
  if p.reporter.forMachines then p.reporter.print (.event m.event)
  else if p.reporter.isQuiet then {}
  else p.reporter.print (.block (m.block cwd p.reporter.colored))

def manifests (cwd fileName : String) (all : Bool) (paths : List String) : Printed :=
  if p.reporter.forMachines then p.reporter.print (.event (manifestsEvent paths))
  else if paths = [] then p.reporter.print (.line .warning (noManifestText cwd fileName))
  else
    ({ stdout := String.join (paths.map (pathLine cwd)) } : Printed) ++
      if all then p.reporter.print (.line .found (countText paths)) else {}

def failed (f : Failure) : Printed :=
  if p.reporter.forMachines then p.reporter.print (.error f.message)
  else
    match f.remark? with
    | some r => p.reporter.print (.block (r.render p.reporter.colored))
    | none => { stderr := f.line }

def print : Notice → Printed
  | .log level message => if p.filter.allows level then { stderr := Log.line level message } else {}
  | .report r => p.reporter.print r
  | .detail r => if p.reporter.isVerbose then p.reporter.print r else {}
  | .compilerMessage cwd m => p.compilerMessage cwd m
  | .manifests cwd name all paths => p.manifests cwd name all paths
  | .finished name => p.reporter.print (.line .finished (p.finishedText name))
  | .failed f => p.failed f
  | .text s => { stdout := s }

def printAll (ns : List Notice) : Printed :=
  ns.foldl (fun out n ↦ out ++ p.print n) {}

end Presentation

end AmbientTypes
