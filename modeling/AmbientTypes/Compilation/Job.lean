import AmbientTypes.Manifest.Basic
import AmbientTypes.Manifest.Problem

namespace AmbientTypes

/-- Every package is compiled the same way. One output file for several modules needs the module
format `amd`. -/
structure CompileFlags where
  emitDeclarationOnly : Bool := true
  skipLibCheck : Bool := true
  jsx : String := "react"
  esModuleInterop : Bool := true
  module : String := "amd"
  deriving DecidableEq, Repr

structure CompileJob where
  sources : List String
  directory : String
  outFile : String
  flags : CompileFlags := {}
  deriving DecidableEq, Repr

structure CommandLine where
  program : String
  arguments : List String := []
  directory : Option String := none
  deriving DecidableEq, Repr

def CommandLine.shown (c : CommandLine) : String :=
  String.intercalate " " (c.program :: c.arguments)

structure CompilerProgram where
  path : String
  leading : List String := []
  deriving DecidableEq, Repr

namespace CompileFlags

def arguments (f : CompileFlags) : List String :=
  (if f.emitDeclarationOnly then ["--declaration", "--emitDeclarationOnly"] else []) ++
    (if f.skipLibCheck then ["--skipLibCheck"] else []) ++
    (if f.esModuleInterop then ["--esModuleInterop"] else []) ++
    ["--jsx", f.jsx, "--module", f.module, "--pretty", "false"]

end CompileFlags

namespace CompilerProgram

def commandLine (p : CompilerProgram) (j : CompileJob) : CommandLine where
  program := p.path
  arguments := p.leading ++ j.flags.arguments ++ ["--outFile", j.outFile] ++ j.sources
  directory := some j.directory

def shown (p : CompilerProgram) : String :=
  String.intercalate " " (p.path :: p.leading)

end CompilerProgram

end AmbientTypes
