import AmbientTypes.Manifest.Basic

namespace AmbientTypes.ModulePath

def slashed (s : List Char) : List Char :=
  s.map fun c ↦ if c = '\\' then '/' else c

def dropDotSlashes : List Char → List Char
  | '.' :: '/' :: s => dropDotSlashes s
  | s => s

/-- Longer extensions come before those that they end in. -/
def extensions : List (List Char) :=
  [".d.mts", ".d.cts", ".d.ts", ".tsx", ".mts", ".cts", ".ts", ".jsx", ".mjs", ".cjs",
    ".js"].map String.toList

def before? (ending s : List Char) : Option (List Char) :=
  if ending.isSuffixOf s then some (s.take (s.length - ending.length)) else none

def stem? (s extension : List Char) : Option (List Char) :=
  (before? extension s).filter fun stem ↦ stem ≠ [] ∧ stem.getLast? ≠ some '/'

def dropExtension (s : List Char) : List Char :=
  (extensions.findSome? (stem? s)).getD s

def dropTrailingSlashes (s : List Char) : List Char :=
  (s.reverse.dropWhile (· = '/')).reverse

def normalize (s : List Char) : List Char :=
  dropTrailingSlashes (dropExtension (dropDotSlashes (slashed s)))

def endsWith (path wanted : List Char) : Bool :=
  path = wanted || ('/' :: wanted).isSuffixOf path

/-- A file `dir/index` answers to `dir` too. -/
def answers (path wanted : List Char) : Bool :=
  endsWith path wanted ||
    match before? "/index".toList path with
    | some dir => endsWith dir wanted
    | none => false

/-- The key of the first entry point whose file answers to `identifier`. -/
def keyFor? (m : Manifest) (identifier : String) : Option String :=
  let wanted := normalize identifier.toList
  if wanted = [] then none
  else
    (m.exposes.find? fun e ↦ answers (normalize (m.sourcePath e).toList) wanted).map (·.key)

end AmbientTypes.ModulePath
