import AmbientTypes.Manifest.Basic
import AmbientTypes.Manifest.Problem
import AmbientTypes.Search.Choice

namespace AmbientTypes

structure Search where
  fileName : String := Manifest.fileName
  skipped : List String := ["node_modules", ".git"]
  deriving DecidableEq, Repr

def Search.nothingFound (s : Search) (root : String) : ManifestProblem :=
  .notFound root s.fileName

end AmbientTypes
