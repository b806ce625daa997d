import AmbientTypes.Binary64.Shortest

namespace AmbientTypes

namespace Json

/-- Integers of 64 bits are kept exactly, other numbers are rounded. -/
inductive Number
  | integer (n : Int)
  | real (negative : Bool) (x : Binary64)
  deriving DecidableEq, Repr

def Number.layout : DecimalLayout := ⟨-5, 15⟩

def Number.render : Number → String
  | .integer (.ofNat n) => Text.decimal n
  | .integer (.negSucc n) => "-" ++ Text.decimal (n + 1)
  | .real negative x => (if negative then "-" else "") ++ layout.render x.shortest

end Json

inductive Json
  | null
  | bool (b : Bool)
  | number (n : Json.Number)
  | string (s : String)
  | array (items : List Json)
  | object (members : List (String × Json))

namespace Json

instance : Inhabited Json := ⟨.null⟩

instance : Coe String Json := ⟨.string⟩

def ofNat (n : Nat) : Json :=
  .number (.integer n)

def ofOption {α : Type} (f : α → Json) : Option α → Json
  | some a => f a
  | none => .null

def get? (j : Json) (key : String) : Option Json :=
  match j with
  | .object members => members.lookup key
  | _ => none

/-- A key takes its last value and keeps its first place. -/
def put (members : List (String × Json)) (key : String) (value : Json) : List (String × Json) :=
  if members.any (·.1 = key) then
    members.map fun m ↦ if m.1 = key then (key, value) else m
  else members ++ [(key, value)]

end Json

end AmbientTypes
