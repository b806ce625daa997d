import AmbientTypes.Compilation.Job
import AmbientTypes.World

namespace AmbientTypes

structure CompileResult where
  succeeded : Bool
  messages : List CompilerMessage
  bundle : Option String
  deriving DecidableEq, Repr

def CompileResult.countErrors (r : CompileResult) : Nat :=
  AmbientTypes.countErrors r.messages

/-- A compiler removes what lies at the output file before it starts. -/
structure Compiler where
  shown : String
  run : CompileJob → Action CompileResult

namespace CompileJob

def addSource (sources : List String) (path : String) : List String :=
  if sources.any (Path.same path) then sources else sources ++ [path]

/-- The source files of a manifest; the first exposed file that is missing is an error. -/
def sourcesOf (f : Files) (m : Manifest) (sources : List String) :
    List EntryPoint → Except ManifestProblem (List String)
  | [] => .ok sources
  | e :: es =>
    let path := m.sourcePath e
    if f.isFile path then sourcesOf f m (addSource sources path) es
    else .error (.sourceMissing e.key path)

def ofManifest (f : Files) (m : Manifest) (outFile : String) :
    Except ManifestProblem CompileJob := do
  return ⟨← sourcesOf f m [] m.exposes, m.directory, outFile, {}⟩

end CompileJob

end AmbientTypes
