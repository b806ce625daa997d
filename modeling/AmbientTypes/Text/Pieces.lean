namespace AmbientTypes.Text

structure Match (α : Type) where
  value : α
  taken : List Char
  rest : List Char

abbrev Finder (α : Type) := Option Char → List Char → Option (Match α)

/-- Occurrences are not empty and split the text in two. -/
structure Finder.Lawful {α : Type} (find : Finder α) : Prop where
  append : ∀ {before s m}, find before s = some m → m.taken ++ m.rest = s
  ne_nil : ∀ {before s m}, find before s = some m → m.taken ≠ []

inductive Piece (α : Type)
  | plain (c : Char)
  | found (value : α) (taken : List Char)

namespace Piece

variable {α : Type}

def text : Piece α → List Char
  | plain c => [c]
  | found _ taken => taken

def value? : Piece α → Option α
  | plain _ => none
  | found a _ => some a

end Piece

variable {α : Type} (find : Finder α)

/-- `fuel` bounds the number of pieces. -/
def piecesFrom : (fuel : Nat) → Option Char → List Char → List (Piece α)
  | 0, _, s => s.map .plain
  | _ + 1, _, [] => []
  | fuel + 1, before, c :: s =>
    match find before (c :: s) with
    | some m => .found m.value m.taken :: piecesFrom fuel m.taken.getLast? m.rest
    | none => .plain c :: piecesFrom fuel (some c) s

def pieces (s : List Char) : List (Piece α) :=
  piecesFrom find s.length none s

end AmbientTypes.Text
