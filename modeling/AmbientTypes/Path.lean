import AmbientTypes.Text.Split

namespace AmbientTypes.Path

inductive Component
  | root
  | here
  | up
  | name (s : String)
  deriving DecidableEq, Repr

def Component.text : Component → String
  | root => "/"
  | here => "."
  | up => ".."
  | name s => s

abbrev splitSlash : List Char → List (List Char) := Text.splitAt '/'

abbrev joinSlash : List (List Char) → List Char := Text.joinWith '/'

def isIdle (segment : List Char) : Bool :=
  segment = [] || segment = ['.']

/-- The leading slash or the leading `.` of a path, and what follows. -/
def splitHead (s : List Char) : List Char × List Char :=
  match s with
  | '/' :: r => (['/'], r)
  | ['.'] => (['.'], [])
  | '.' :: '/' :: r => (['.'], '/' :: r)
  | s => ([], s)

def headComponents : List Char → List Component
  | ['/'] => [.root]
  | ['.'] => [.here]
  | _ => []

def segmentComponent (segment : List Char) : Component :=
  if segment = ['.', '.'] then .up else .name (String.ofList segment)

def bodyComponents (s : List Char) : List Component :=
  ((splitSlash s).filter (!isIdle ·)).map segmentComponent

def components (path : String) : List Component :=
  let (head, body) := splitHead path.toList
  headComponents head ++ bodyComponents body

def isAbsolute (path : String) : Bool :=
  path.toList.head? = some '/'

def join (base path : String) : String :=
  if isAbsolute path then path
  else if base = "" ∨ base.toList.getLast? = some '/' then base ++ path
  else base ++ "/" ++ path

def same (a b : String) : Bool :=
  components a = components b

def dropIdle (segments : List (List Char)) : List (List Char) :=
  (segments.reverse.dropWhile isIdle).reverse

def parent? (path : String) : Option String :=
  let (head, body) := splitHead path.toList
  match dropIdle (splitSlash body) with
  | [] => if head = ['.'] then some "" else none
  | s :: ss => some (String.ofList (head ++ joinSlash (dropIdle ((s :: ss).dropLast))))

def fileName? (path : String) : Option String :=
  match (components path).getLast? with
  | some (.name s) => some s
  | _ => none

def directory (path : String) : String :=
  match parent? path with
  | some p => if p = "" then "." else p
  | none => "."

def startsWith (path base : String) : Bool :=
  (components base).isPrefixOf (components path)

def ofComponents (cs : List Component) : String :=
  cs.foldl (fun p c ↦ join p c.text) ""

/-- The components that lead from `base` to `path`. Equal leading components are skipped; `..` in
`base` where `path` goes on leads nowhere. -/
def difference (climbed : List Component) :
    List Component → List Component → Option (List Component)
  | [], path => some (climbed ++ path)
  | _ :: base, [] => difference (climbed ++ [.up]) base []
  | b :: base, p :: path =>
    if climbed = [] ∧ b = p then difference [] base path
    else if b = .here then difference (climbed ++ [p]) base path
    else if b = .up then none
    else some (climbed ++ List.replicate (base.length + 1) .up ++ p :: path)

/-- `path` as seen from `base`, or unchanged where no relative path leads there. -/
def relative (base path : String) : String :=
  if isAbsolute path ≠ isAbsolute base then path
  else ((difference [] (components base) (components path)).map ofComponents).getD path

def anchor (base path : String) : String :=
  if isAbsolute path then path else join base path

def shown (base path : String) : String :=
  if startsWith path base then relative base path else path

end AmbientTypes.Path
