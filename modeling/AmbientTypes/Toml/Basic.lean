namespace AmbientTypes

/-- How a table came to be. A table may be opened by one header only, and one made by dotted keys
grows by dotted keys only, apart from tables below it. -/
inductive Toml.Origin
  | header
  | implied
  | dotted
  | inline
  deriving DecidableEq, Repr

/-- Numbers with a fraction and dates are checked but not kept, since no setting has one. -/
inductive Toml
  | text (s : String)
  | boolean (b : Bool)
  | integer (n : Int)
  | float
  | moment
  | array (items : List Toml)
  | tables (ts : List (List (String × Toml)))
  | table (origin : Toml.Origin) (entries : List (String × Toml))

namespace Toml

abbrev Entries := List (String × Toml)

def setEntry (key : String) (v : Toml) (es : Entries) : Entries :=
  es.map fun e ↦ if e.1 = key then (key, v) else e

def addEntry (key : String) (v : Toml) (es : Entries) : Option Entries :=
  if (es.lookup key).isSome then none else some (es ++ [(key, v)])

def admits (dotted : Bool) : Origin → Bool
  | .header => !dotted
  | .implied | .dotted => true
  | .inline => false

variable (dotted : Bool) (change : Origin → Entries → Option Entries)

/-- Changes the table that a path leads to. Missing tables on the way are made; of an array of
tables the last one counts. -/
def within : List String → Origin → Entries → Option Entries
  | [], o, es => change o es
  | key :: path, _, es =>
    match es.lookup key with
    | none => do
      let o : Origin := if dotted then .dotted else .implied
      addEntry key (.table o (← within path o [])) es
    | some (.table o ts) => do
      guard (admits dotted o)
      return setEntry key (.table o (← within path o ts)) es
    | some (.tables ts) => do
      let last ← within path .header (← ts.getLast?)
      return setEntry key (.tables (ts.dropLast ++ [last])) es
    | some _ => none

/-- Sets a key at the end of a dotted path; the table there must be made by dotted keys. -/
def assign (path : List String) (key : String) (v : Toml) (es : Entries) : Option Entries :=
  within true (fun o es ↦ if path = [] ∨ o = .dotted then addEntry key v es else none) path
    .header es

def openTable (path : List String) (key : String) : Entries → Option Entries :=
  within false
    (fun _ es ↦
      match es.lookup key with
      | none => addEntry key (.table .header []) es
      | some (.table .implied ts) => some (setEntry key (.table .header ts) es)
      | some _ => none)
    path .header

def openItem (path : List String) (key : String) : Entries → Option Entries :=
  within false
    (fun _ es ↦
      match es.lookup key with
      | none => addEntry key (.tables [[]]) es
      | some (.tables ts) => some (setEntry key (.tables (ts ++ [[]])) es)
      | some _ => none)
    path .header

end Toml

end AmbientTypes
