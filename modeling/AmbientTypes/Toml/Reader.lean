import AmbientTypes.Toml.Lexeme

namespace AmbientTypes.Toml

def deepest : Nat := 79

variable (value : Reader Toml)

def arrayItems : (fuel : Nat) → Reader (List Toml)
  | 0 => failure
  | fuel + 1 => do
    skipSpace
    match ← peek with
    | ']' :: r =>
      set r
      return []
    | _ =>
      let v ← value
      skipSpace
      match ← nextChar with
      | ',' => return v :: (← arrayItems fuel)
      | ']' => return [v]
      | _ => failure

def keyValue : Reader ((List String × String) × Toml) := do
  let k ← key
  skipChar '='
  skipGap
  let v ← value
  skipGap
  return (k, v)

def inlineEntries : (fuel : Nat) → Entries → Reader Entries
  | 0, _ => failure
  | fuel + 1, es => do
    let ((path, k), v) ← keyValue value
    let es ← (assign path k v es : Option Entries)
    match ← nextChar with
    | ',' => inlineEntries fuel es
    | '\x7d' => return es
    | _ => failure

def inlineTable : Reader Toml := do
  skipGap
  match ← peek with
  | '\x7d' :: r =>
    set r
    return .table .inline []
  | s => return .table .inline (← inlineEntries value (s.length + 1) [])

def scalar : Reader Toml := do
  let s ← peek
  match s with
  | '"' :: _ | '\'' :: _ => .text <$> string
  | 't' :: _ =>
    skipText "true"
    return .boolean true
  | 'f' :: _ =>
    skipText "false"
    return .boolean false
  | _ =>
    if isMoment s then
      dateOrTime
      return .moment
    else number

def readValue : (depth : Nat) → Reader Toml
  | 0 => do
    match (← peek).head? with
    | some '[' | some '\x7b' => failure
    | _ => scalar
  | depth + 1 => do
    match ← peek with
    | '[' :: r =>
      set r
      .array <$> arrayItems (readValue depth) (r.length + 1)
    | '\x7b' :: r =>
      set r
      inlineTable (readValue depth)
    | _ => scalar

structure Document where
  entries : Entries := []
  current : List String := []

def header (d : Document) : Reader Document := do
  let twice := (← peek).head? = some '['
  if twice then skipChar '['
  let (path, k) ← key
  skipText (if twice then "]]" else "]")
  endLine
  let es ← ((if twice then openItem path k d.entries else openTable path k d.entries) :
    Option Entries)
  return ⟨es, path ++ [k]⟩

def assignment (d : Document) : Reader Document := do
  let ((path, k), v) ← keyValue (readValue deepest)
  endLine
  let es ← (within false (fun _ es ↦ assign path k v es) d.current .header d.entries :
    Option Entries)
  return { d with entries := es }

def lineByLine : (fuel : Nat) → Document → Reader Document
  | 0, _ => failure
  | fuel + 1, d => do
    skipGap
    match ← peek with
    | [] => return d
    | '[' :: r =>
      set r
      lineByLine fuel (← header d)
    | c :: _ =>
      if c = '#' ∨ c = '\n' ∨ c = '\r' then
        endLine
        lineByLine fuel d
      else lineByLine fuel (← assignment d)

def byteOrderMark : Char := Char.ofNat 0xfeff

def parse (text : String) : Option Entries :=
  let s := text.toList
  let s := if s.head? = some byteOrderMark then s.drop 1 else s
  ((lineByLine (s.length + 1) {}).run s).map (·.1.entries)

end AmbientTypes.Toml
