import AmbientTypes.Manifest.Problem
import AmbientTypes.Pipeline.StrictError
import AmbientTypes.Tree.Error

namespace AmbientTypes

inductive Failure
  | manifest (e : ManifestProblem)
  | strict (e : StrictError)
  | makingFolder (path : String) (e : SysError)
  | readingFile (path : String) (e : SysError)
  | writingFile (path : String) (e : SysError)
  | removingFile (path : String) (e : SysError)
  | makingFile (path : String) (e : SysError)
  | makingTemporary (dir temporary : String) (e : SysError)
  | openingIndex (path : String) (e : SysError)
  | indexOverwritten (name dir : String)
  | starting (program : String) (e : SysError)
  | startingCompiler (program : String) (e : SysError)
  | noCompiler
  | readingSettings (path : String) (e : SysError)
  | invalidSettings (path : String)
  | patternTooLarge (limit : Nat)
  | system (e : SysError)
  deriving DecidableEq, Repr

namespace Failure

def installCompiler : String :=
  "Install typescript in the package or pass `--tsc <path>`"

/-- What failed first, then why. -/
def chain : Failure → List String
  | manifest e => [e.message]
  | strict e => [e.message]
  | makingFolder path e => ["failed to create directory: " ++ path, e.message]
  | readingFile path e => ["failed to read file: " ++ path, e.message]
  | writingFile path e => ["failed to write file: " ++ path, e.message]
  | removingFile path e => ["failed to remove file: " ++ path, e.message]
  | makingFile path e => ["failed to create file: " ++ path, e.message]
  | makingTemporary dir temporary e =>
    ["failed to create temporary file in " ++ dir,
      e.message ++ " at path " ++ Text.quotePath temporary]
  | openingIndex path e => ["failed to open " ++ path, e.message]
  | indexOverwritten name dir =>
    ["package `" ++ name ++ "` would overwrite the shared index.d.ts in " ++ dir]
  | starting program e => ["failed to spawn `" ++ program ++ "`", e.message]
  | startingCompiler program e =>
    [installCompiler, "failed to spawn `" ++ program ++ "`", e.message]
  | noCompiler => ["could not find the TypeScript compiler `tsc`\n" ++ installCompiler]
  | readingSettings path e => ["failed to read config file: " ++ path, e.message]
  | invalidSettings path => ["failed to parse config file: " ++ path]
  | patternTooLarge limit =>
    ["failed to build module identifier pattern",
      "Compiled regex exceeds size limit of " ++ Text.decimal limit ++ " bytes."]
  | system e => [e.message]

def message (f : Failure) : String :=
  String.intercalate ": " f.chain

def remark? : Failure → Option Remark
  | manifest e => some e.remark
  | strict e => some e.remark
  | _ => none

end Failure

end AmbientTypes
