import AmbientTypes.Command.Preparation
import AmbientTypes.Compilation.Program

namespace AmbientTypes.Command

variable (launch : Launcher)

/-- A program with a directory part is taken from the current directory; any other is looked for
when it runs. -/
def programPath (cwd program : String) : String :=
  if 1 < (Path.components program).length then Path.anchor cwd program else program

def chooseCompiler (f : BuildFlags) (s : Settings) : Action CompilerProgram := do
  let cwd := (← get).cwd
  match f.tsc, s.program with
  | some program, _ => return { path := programPath cwd program }
  | none, some program =>
    return { path := programPath cwd program, leading := s.arguments }
  | none, none => CompilerProgram.find cwd

def buildPlan (f : BuildFlags) (s : Settings) : Action Plan := do
  let p ← plan s f.config f.discovery
  let p := match f.outputDir with
    | some dir => p.sharing dir
    | none => p
  return { p with strict := p.strict || f.strict }

def eventOf (reason : String) (members : List (String × Json)) : Json :=
  .object (("reason", reason) :: members)

def quoted (s : String) : String :=
  "`" ++ s ++ "`"

def manifestText (cwd : String) (m : Manifest) : String :=
  Path.shown cwd m.path ++ " (" ++ m.name ++ ")"

def manifestEvent (m : Manifest) : Json :=
  eventOf "manifest"
    [("path", m.path), ("name", m.name), ("exposes", Json.ofNat m.exposes.length)]

def compilingText (m : Manifest) (c : Compiler) : String :=
  Text.decimal m.exposes.length ++ " exposed module(s) with " ++ quoted c.shown

def skippedText (m : Manifest) : String :=
  "the compiler emitted no declarations for " ++ quoted m.name

def skippedEvent (m : Manifest) (r : CompileResult) : Json :=
  eventOf "skipped" [("name", m.name), ("diagnostics", Json.ofNat r.messages.length)]

def rewritingText (m : Manifest) : String :=
  "module identifiers under " ++ quoted (m.name ++ "/")

def moduleText (e : String × String) : String :=
  "\"" ++ e.1 ++ "\" -> \"" ++ e.2 ++ "\""

def indexLabel : IndexChange → Label
  | .created => .created
  | .appended => .updated
  | .unchanged => .fresh

def placementMembers (p : Placement) : Json :=
  .object [("declaration_file", p.declarationPath), ("index_file", p.indexPath),
    ("index", p.indexChange.word), ("stub_file", p.stubPath), ("stub", p.stubChange.word)]

def moduleMembers (e : String × String) : Json :=
  .object [("internal", e.1), ("public", e.2)]

def emittedEvent (m : Manifest) (out : CompileResult) (r : Renaming) (p : Placement) : Json :=
  eventOf "emitted"
    [("name", m.name), ("merge", placementMembers p),
      ("modules", .array (r.entries.map moduleMembers)),
      ("diagnostics", Json.ofNat out.messages.length)]

def line (l : Label) (message : String) : Action Unit :=
  Action.report (.line l message)

def event (value : Json) : Action Unit :=
  Action.report (.event value)

def reportManifest (m : Manifest) : Action Unit := do
  let cwd := (← get).cwd
  line .uses (manifestText cwd m)
  event (manifestEvent m)

def reportCompiling (m : Manifest) (c : Compiler) : Action Unit :=
  line .compiling (compilingText m c)

def reportMessages (ms : List CompilerMessage) : Action Unit := do
  let cwd := (← get).cwd
  ms.forM fun m ↦ Action.tell (.compilerMessage cwd m)

def reportSkipped (m : Manifest) (r : CompileResult) : Action Unit := do
  line .skipped (skippedText m)
  event (skippedEvent m r)

def reportRewriting (m : Manifest) : Action Unit :=
  line .rewriting (rewritingText m)

def reportModules (r : Renaming) : Action Unit :=
  r.entries.forM fun e ↦ Action.tell (.detail (.line .rewriting (moduleText e)))

def reportFiles (p : Placement) : Action Unit := do
  let cwd := (← get).cwd
  line .updated (Path.shown cwd p.declarationPath)
  if p.stubChange = .created then line .created (Path.shown cwd p.stubPath)
  line (indexLabel p.indexChange) (Path.shown cwd p.indexPath)

def reportPlaced (m : Manifest) (out : CompileResult) (r : Renaming) (p : Placement) :
    Action Unit := do
  reportModules r
  reportFiles p
  event (emittedEvent m out r p)
  Action.tell (.finished m.name)

/-- The pipeline with a report of each step. -/
def buildWith (p : Plan) (c : Compiler) : Action Unit := do
  let m ← p.manifest
  reportManifest m
  reportCompiling m c
  let out ← p.compile m c
  reportMessages out.messages
  match out.bundle with
  | none => reportSkipped m out
  | some bundle =>
    reportRewriting m
    let (names, placement) ← p.place m bundle
    reportPlaced m out names placement

def build (f : BuildFlags) : Action Unit := do
  let s ← settings
  let p ← buildPlan f s
  let c ← chooseCompiler f s
  buildWith p (c.toCompiler launch)

end AmbientTypes.Command
