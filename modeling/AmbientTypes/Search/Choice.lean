namespace AmbientTypes

inductive SearchChoice
  | firstMatch
  | unique
  deriving DecidableEq, Repr

namespace SearchChoice

def name : SearchChoice → String
  | firstMatch => "first-match"
  | unique => "unique"

def parse (s : String) : Except String SearchChoice :=
  match String.ofList (s.toList.map Char.toLower) with
  | "first-match" | "first" => .ok firstMatch
  | "unique" | "exhaustive" => .ok unique
  | _ =>
    .error ("invalid discovery policy '" ++ s ++ "'; expected 'first-match' or 'unique'")

end SearchChoice

inductive ManifestChoice
  | given (path : String)
  | searched (choice : SearchChoice)
  deriving DecidableEq, Repr

end AmbientTypes
