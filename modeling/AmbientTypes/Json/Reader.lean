import AmbientTypes.Json.Lexeme

namespace AmbientTypes.Json

/-- The deepest nesting of lists and objects. -/
def deepest : Nat := 127

inductive Step
  | last (rest : List Char)
  | item (rest : List Char)

def nextItem (first : Bool) (s : List Char) : Except ReadError Step :=
  match skipSpace s with
  | [] => failIn .endInList []
  | c :: r =>
    if c = ']' then .ok (.last r)
    else if first then .ok (.item (c :: r))
    else if c = ',' then
      match skipSpace r with
      | [] => failIn .endInValue []
      | d :: r => if d = ']' then failIn .trailingComma (d :: r) else .ok (.item (d :: r))
    else failIn .expectedListComma (c :: r)

def nextKey (first : Bool) (s : List Char) : Except ReadError Step :=
  match skipSpace s with
  | [] => failIn .endInObject []
  | c :: r =>
    if c = '\x7d' then .ok (.last r)
    else if first then if c = '"' then .ok (.item r) else failIn .keyNotString (c :: r)
    else if c = ',' then
      match skipSpace r with
      | [] => failIn .endInValue []
      | d :: r =>
        if d = '"' then .ok (.item r)
        else if d = '\x7d' then failIn .trailingComma (d :: r)
        else failIn .keyNotString (d :: r)
    else failIn .expectedObjectComma (c :: r)

def colon (s : List Char) : Except ReadError (List Char) :=
  match skipSpace s with
  | [] => failIn .endInObject []
  | c :: r => if c = ':' then .ok r else failIn .expectedColon (c :: r)

def closeList (s : List Char) : Except ReadError (List Char) :=
  match skipSpace s with
  | [] => failIn .endInList []
  | ']' :: r => .ok r
  | ',' :: r =>
    match skipSpace r with
    | ']' :: r => failIn .trailingComma (']' :: r)
    | r => failIn .trailingCharacters r
  | r => failIn .trailingCharacters r

def endOfText (s : List Char) : Except ReadError Unit :=
  match skipSpace s with
  | [] => .ok ()
  | r => failIn .trailingCharacters r

variable (value : Reader Json)

def readItems : (fuel : Nat) → Bool → List Json → Reader (List Json)
  | 0, _, _, s => failAt .endInList s
  | fuel + 1, first, done, s => do
    match ← nextItem first s with
    | .last r => return (done.reverse, r)
    | .item r =>
      let (j, r) ← value r
      readItems fuel false (j :: done) r

def readMembers : (fuel : Nat) → Bool → List (String × Json) → Reader (List (String × Json))
  | 0, _, _, s => failAt .endInObject s
  | fuel + 1, first, done, s => do
    match ← nextKey first s with
    | .last r => return (done, r)
    | .item r =>
      let (k, r) ← readString r
      let r ← colon r
      let (j, r) ← value r
      readMembers fuel false (put done k j) r

def readValue (depth : Nat) (s : List Char) : Except ReadError (Json × List Char) :=
  match skipSpace s with
  | [] => failIn .endInValue []
  | c :: r =>
    match c with
    | 'n' => do return (.null, ← word "ull".toList r)
    | 't' => do return (.bool true, ← word "rue".toList r)
    | 'f' => do return (.bool false, ← word "alse".toList r)
    | '-' => do
      let (n, r) ← readNumber true r
      return (.number n, r)
    | '"' => do
      let (t, r) ← readString r
      return (.string t, r)
    | '[' =>
      match depth with
      | 0 => failIn .tooDeep (c :: r)
      | depth + 1 => do
        let (js, r) ← readItems (readValue depth) (r.length + 1) true [] r
        return (.array js, r)
    | '\x7b' =>
      match depth with
      | 0 => failIn .tooDeep (c :: r)
      | depth + 1 => do
        let (ms, r) ← readMembers (readValue depth) (r.length + 1) true [] r
        return (.object ms, r)
    | _ =>
      if c.isDigit then do
        let (n, r) ← readNumber false (c :: r)
        return (.number n, r)
      else failIn .expectedValue (c :: r)

/-- Refuses the value in front, which is not of the expected type. A list or an object is not
read for that. -/
def mismatch {α : Type} (expected : String) (c : Char) (r : List Char) : Except ReadError α :=
  let refuse (found : String) (r : List Char) : Except ReadError α :=
    failAt (.wrongType found expected) r
  let number (n : Number) : String :=
    match n with
    | .integer _ => "integer `" ++ n.render ++ "`"
    | .real .. => "floating point `" ++ n.render ++ "`"
  match c with
  | 'n' => do refuse "null" (← word "ull".toList r)
  | 't' => do refuse "boolean `true`" (← word "rue".toList r)
  | 'f' => do refuse "boolean `false`" (← word "alse".toList r)
  | '-' => do
    let (n, r) ← readNumber true r
    refuse (number n) r
  | '"' => do
    let (t, r) ← readString r
    refuse ("string " ++ Text.quote t) r
  | '[' => refuse "sequence" (c :: r)
  | '\x7b' => refuse "map" (c :: r)
  | _ =>
    if c.isDigit then do
      let (n, r) ← readNumber false (c :: r)
      refuse (number n) r
    else failIn .expectedValue (c :: r)

def expectString (s : List Char) : Except ReadError (String × List Char) :=
  match skipSpace s with
  | [] => failIn .endInValue []
  | '"' :: r => readString r
  | c :: r => mismatch "a string" c r

def expectObject (depth : Nat) (s : List Char) :
    Except ReadError (List (String × Json) × List Char) :=
  match skipSpace s with
  | [] => failIn .endInValue []
  | '\x7b' :: r =>
    match depth with
    | 0 => failIn .tooDeep ('\x7b' :: r)
    | depth + 1 => readMembers (readValue depth) (r.length + 1) true [] r
  | c :: r => mismatch "a map" c r

def parse (text : String) : Except ReadError Json := do
  let (j, r) ← readValue deepest text.toList
  endOfText r
  return j

end AmbientTypes.Json
