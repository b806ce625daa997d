namespace AmbientTypes.Text

def closedLine : List Char → List Char
  | '\r' :: l => l.reverse
  | l => l.reverse

def linesFrom (line : List Char) : List Char → List (List Char)
  | [] => if line = [] then [] else [line.reverse]
  | c :: s => if c = '\n' then closedLine line :: linesFrom [] s else linesFrom (c :: line) s

def lines (s : List Char) : List (List Char) :=
  linesFrom [] s

end AmbientTypes.Text
