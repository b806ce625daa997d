import AmbientTypes.Text.Digit

namespace AmbientTypes

inductive Severity
  | error
  | warning
  | note
  deriving DecidableEq, Repr

namespace Severity

def word : Severity → String
  | error => "error"
  | warning => "warning"
  | note => "note"

def colour : Severity → String
  | error => "\x1b[1;31m"
  | warning => "\x1b[1;33m"
  | note => "\x1b[1;36m"

end Severity

def colourReset : String := "\x1b[0m"

structure Remark where
  severity : Severity
  text : String
  details : List String := []
  advice : List String := []
  place : Option String := none
  deriving DecidableEq, Repr

namespace Remark

def adviceColour : String := "\x1b[1;32m"

def paint (colored : Bool) (code word : String) : String :=
  if colored then code ++ word ++ colourReset else word

def headLines (r : Remark) (colored : Bool) : List String :=
  [paint colored r.severity.colour r.severity.word ++ ": " ++ r.text]

def placeLines (r : Remark) : List String :=
  (r.place.map ("  --> " ++ ·)).toList

def detailLines (r : Remark) : List String :=
  r.details.map ("  = " ++ ·)

def numbered : Nat → List String → List String
  | _, [] => []
  | n, s :: ss => ("  " ++ Text.decimal n ++ ". " ++ s) :: numbered (n + 1) ss

def adviceLines (r : Remark) (colored : Bool) : List String :=
  if r.advice = [] then []
  else "" :: (paint colored adviceColour "help" ++ ": consider:") :: numbered 1 r.advice

def renderedLines (r : Remark) (colored : Bool) : List String :=
  r.headLines colored ++ r.placeLines ++ r.detailLines ++ r.adviceLines colored

def render (r : Remark) (colored : Bool) : String :=
  String.join ((r.renderedLines colored).map (· ++ "\n"))

end Remark

end AmbientTypes
