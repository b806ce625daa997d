import AmbientTypes.Text.Blank
import AmbientTypes.Text.Infix
import AmbientTypes.Text.Pieces
import AmbientTypes.Text.Utf8
import AmbientTypes.Text.Word

namespace AmbientTypes

structure Header where
  identifier : String
  start : Nat
  stop : Nat
  deriving DecidableEq, Repr

namespace Header

def afterBlanks : List Char → Option (List Char)
  | c :: s => if Text.isBlank c then some (s.dropWhile Text.isBlank) else none
  | [] => none

/-- The body of a literal up to its quotation mark, and the text after it. A backslash takes the
next character with it; neither may leave the line, but a return may follow a backslash. -/
def literalBody (mark : Char) : List Char → Option (List Char × List Char)
  | '\\' :: c :: s =>
    if c = '\n' then none
    else (literalBody mark s).map fun p ↦ ('\\' :: c :: p.1, p.2)
  | c :: s =>
    if c = mark then some ([], s)
    else if c = '\\' ∨ c = '\r' ∨ c = '\n' then none
    else (literalBody mark s).map fun p ↦ (c :: p.1, p.2)
  | [] => none

def literal : List Char → Option (List Char × List Char)
  | c :: s => if c = '"' ∨ c = '\'' then literalBody c s else none
  | [] => none

def afterKeywords (s : List Char) : Option (List Char) := do
  let s ← Text.after? "declare".toList s
  let s ← afterBlanks s
  let s ← Text.after? "module".toList s
  afterBlanks s

def find : Text.Finder (List Char) := fun before s ↦
  if before.any Text.isWordChar then none
  else do
    let (identifier, rest) ← (afterKeywords s).bind literal
    return ⟨identifier, s.take (s.length - rest.length), rest⟩

/-- The headers among the pieces that start at `offset`. The identifier ends one byte before its
piece does. -/
def ofPieces (offset : Nat) : List (Text.Piece (List Char)) → List Header
  | [] => []
  | .plain c :: ps => ofPieces (offset + c.utf8Size) ps
  | .found identifier taken :: ps =>
    let stop := offset + Text.utf8Length taken
    ⟨String.ofList identifier, stop - 1 - Text.utf8Length identifier, stop - 1⟩ ::
      ofPieces stop ps

def scan (text : String) : List Header :=
  ofPieces 0 (Text.pieces find text.toList)

def distinct (headers : List Header) : List String :=
  headers.foldl (fun seen h ↦ if h.identifier ∈ seen then seen else seen ++ [h.identifier]) []

end Header

end AmbientTypes
