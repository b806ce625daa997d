import AmbientTypes.Binary64.Basic
import AmbientTypes.Text.Digit
import AmbientTypes.Toml.Basic

namespace AmbientTypes.Toml

abbrev Reader := StateT (List Char) Option

def peek : Reader (List Char) := get

def nextChar : Reader Char := fun s ↦
  match s with
  | [] => none
  | c :: r => some (c, r)

def charOf (p : Char → Bool) : Reader Char := do
  let c ← nextChar
  guard (p c)
  return c

def skipChar (c : Char) : Reader Unit :=
  discard (charOf (· = c))

def skipWhile (p : Char → Bool) : Reader Unit :=
  modify fun s ↦ s.dropWhile p

def skipText (t : String) : Reader Unit := do
  let s ← peek
  guard (t.toList.isPrefixOf s)
  set (s.drop t.length)

def takeSome (p : Char → Bool) : Reader (List Char) := do
  let cs := (← peek).takeWhile p
  guard (cs ≠ [])
  skipWhile p
  return cs

def isGap (c : Char) : Bool :=
  c = ' ' || c = '\t'

def isPlain (c : Char) : Bool :=
  c = '\t' || (0x20 ≤ c.toNat && c.toNat ≠ 0x7f)

def skipGap : Reader Unit :=
  skipWhile isGap

def afterNewline? : List Char → Option (List Char)
  | '\n' :: r => some r
  | '\r' :: '\n' :: r => some r
  | _ => none

def skipComment : Reader Unit := do
  match ← peek with
  | '#' :: _ => skipWhile isPlain
  | _ => return ()

def endLine : Reader Unit := do
  skipGap
  skipComment
  let s ← peek
  if s ≠ [] then set (← (afterNewline? s : Option (List Char)))

def afterSpace (inComment : Bool) : List Char → List Char
  | [] => []
  | c :: r =>
    if c = '\n' then afterSpace false r
    else if c = '\r' ∧ r.head? = some '\n' then afterSpace false r
    else if inComment then if isPlain c then afterSpace true r else c :: r
    else if isGap c then afterSpace false r
    else if c = '#' then afterSpace true r
    else c :: r

def skipSpace : Reader Unit :=
  modify (afterSpace false)

def codePoint (digits : Nat) (s : List Char) : Option (Char × List Char) := do
  let ds := s.take digits
  guard (ds.length = digits)
  let n := (← ds.mapM Text.hexValue?).foldl (fun n d ↦ n * 16 + d) 0
  if h : n.isValidChar then return (Char.ofNatAux n h, s.drop digits) else none

def escapeSequence : List Char → Option (Char × List Char)
  | 'b' :: r => some (Char.ofNat 8, r)
  | 't' :: r => some ('\t', r)
  | 'n' :: r => some ('\n', r)
  | 'f' :: r => some (Char.ofNat 12, r)
  | 'r' :: r => some ('\r', r)
  | '"' :: r => some ('"', r)
  | '\\' :: r => some ('\\', r)
  | 'u' :: r => codePoint 4 r
  | 'U' :: r => codePoint 8 r
  | _ => none

def basicBody : (fuel : Nat) → List Char → List Char → Option (String × List Char)
  | 0, _, _ => none
  | fuel + 1, done, s =>
    match s with
    | '"' :: r => some (String.ofList done.reverse, r)
    | '\\' :: r => do
      let (c, r) ← escapeSequence r
      basicBody fuel (c :: done) r
    | c :: r => if isPlain c then basicBody fuel (c :: done) r else none
    | [] => none

def basic : Reader String := do
  skipChar '"'
  fun s ↦ basicBody (s.length + 1) [] s

def literal : Reader String := do
  skipChar '\''
  let cs := (← peek).takeWhile fun c ↦ isPlain c && c ≠ '\''
  skipWhile fun c ↦ isPlain c && c ≠ '\''
  skipChar '\''
  return String.ofList cs

def afterJoin? (s : List Char) : Option (List Char) :=
  (afterNewline? (s.dropWhile isGap)).map (afterBlankLines ·)
where
  afterBlankLines : List Char → List Char
    | [] => []
    | c :: r =>
      if c = '\n' ∨ isGap c then afterBlankLines r
      else if c = '\r' ∧ r.head? = some '\n' then afterBlankLines r
      else c :: r

/-- How many quotation marks a run gives to the text, and whether it closes the text. Three close
it; up to two before them belong to it. -/
def quoteRun (n : Nat) : Nat × Bool :=
  if n < 3 then (n, false) else (min (n - 3) 2, true)

/-- Several lines between marks of three `quote`s. Every line break counts as a line feed. -/
def linesBody (quote : Char) : (fuel : Nat) → List Char → List Char →
    Option (String × List Char)
  | 0, _, _ => none
  | fuel + 1, done, s =>
    match s with
    | [] => none
    | c :: r =>
      if c = quote then
        let (kept, closed) := quoteRun (s.takeWhile (· = quote)).length
        let done := List.replicate kept quote ++ done
        if closed then some (String.ofList done.reverse, s.drop (kept + 3))
        else linesBody quote fuel done (s.drop kept)
      else if c = '\\' ∧ quote = '"' then
        match afterJoin? r with
        | some r => linesBody quote fuel done r
        | none => do
          let (c, r) ← escapeSequence r
          linesBody quote fuel (c :: done) r
      else
        match afterNewline? s with
        | some r => linesBody quote fuel ('\n' :: done) r
        | none => if isPlain c then linesBody quote fuel (c :: done) r else none

def lines (quote : Char) : Reader String := do
  skipText (String.ofList [quote, quote, quote])
  modify fun s ↦ (afterNewline? s).getD s
  fun s ↦ linesBody quote (s.length + 1) [] s

def string : Reader String :=
  lines '"' <|> basic <|> lines '\'' <|> literal

def isKeyChar (c : Char) : Bool :=
  c.isAlphanum || c = '-' || c = '_'

def simpleKey : Reader String :=
  basic <|> literal <|> String.ofList <$> takeSome isKeyChar

def longestKey : Nat := 80

def keyParts : (fuel : Nat) → Reader (List String)
  | 0 => failure
  | fuel + 1 => do
    skipGap
    let part ← simpleKey
    skipGap
    match ← peek with
    | '.' :: r =>
      set r
      return part :: (← keyParts fuel)
    | _ => return [part]

def key : Reader (List String × String) := do
  let parts ← keyParts (longestKey - 1)
  return (parts.dropLast, ← parts.getLast?)

def digitGroups (isDigit : Char → Bool) : Reader (List Char) := do
  let c ← charOf isDigit
  fun s ↦ (more s).map fun (ds, r) ↦ (c :: ds, r)
where
  more : List Char → Option (List Char × List Char)
    | [] => some ([], [])
    | '_' :: c :: r =>
      if isDigit c then (more r).map fun (ds, r) ↦ (c :: ds, r) else none
    | c :: r =>
      if c = '_' then none
      else if isDigit c then (more r).map fun (ds, r) ↦ (c :: ds, r)
      else some ([], c :: r)

def ofRadix (radix : Nat) (ds : List Char) : Option Nat := do
  return (← ds.mapM Text.hexValue?).foldl (fun n d ↦ n * radix + d) 0

def integerOf (n : Int) : Option Toml :=
  if -Nat.pow 2 63 ≤ n ∧ n < Nat.pow 2 63 then some (.integer n) else none

def radixInteger (radix : Nat) : Reader Toml := do
  let ds ← digitGroups fun c ↦ (Text.hexValue? c).any (· < radix)
  let n ← (ofRadix radix ds : Option Nat)
  integerOf n

/-- Whether digits times a power of ten are beyond the largest number. Far from it the digits need
only be counted. -/
def isTooLarge (ds : List Char) (exponent : Int) : Bool :=
  let ds := ds.dropWhile (· = '0')
  let size : Int := ds.length + exponent
  if ds = [] ∨ size < 300 then false
  else if 400 < size then true
  else
    let n := Text.ofDigits ds
    (Binary64.ofRatio? (n * Nat.pow 10 exponent.toNat) (Nat.pow 10 (-exponent).toNat)).isNone

def sign : Reader Bool := do
  match ← peek with
  | '-' :: r =>
    set r
    return true
  | '+' :: r =>
    set r
    return false
  | _ => return false

def wholePart : Reader (List Char) := do
  match ← peek with
  | '0' :: r =>
    set r
    return ['0']
  | _ => digitGroups Char.isDigit

def fraction? : Reader (Option (List Char)) := do
  match ← peek with
  | '.' :: r =>
    set r
    some <$> digitGroups Char.isDigit
  | _ => return none

def exponent? : Reader (Option Int) := do
  let some c := (← peek).head? | return none
  if c = 'e' ∨ c = 'E' then
    let _ ← nextChar
    let negative ← sign
    let n := Text.ofDigits (← digitGroups Char.isDigit)
    return some (if negative then -n else n)
  else return none

def decimalNumber (negative : Bool) : Reader Toml := do
  let whole ← wholePart
  let fraction ← fraction?
  let exponent ← exponent?
  if fraction.isNone ∧ exponent.isNone then
    let n : Int := Text.ofDigits whole
    integerOf (if negative then -n else n)
  else
    let places := fraction.getD []
    guard (negative || !isTooLarge (whole ++ places) (exponent.getD 0 - places.length))
    return .float

def number : Reader Toml := do
  match ← peek with
  | '0' :: 'x' :: r =>
    set r
    radixInteger 16
  | '0' :: 'o' :: r =>
    set r
    radixInteger 8
  | '0' :: 'b' :: r =>
    set r
    radixInteger 2
  | _ =>
    let negative ← sign
    match ← peek with
    | 'i' :: _ =>
      skipText "inf"
      return .float
    | 'n' :: _ =>
      skipText "nan"
      return .float
    | _ => decimalNumber negative

def field (digits least most : Nat) : Reader Nat := do
  let s ← peek
  let ds := s.take digits
  guard (ds.length = digits && ds.all Char.isDigit)
  let n := Text.ofDigits ds
  guard (least ≤ n && n ≤ most)
  set (s.drop digits)
  return n

def isLeapYear (y : Nat) : Bool :=
  y % 4 = 0 && (y % 100 ≠ 0 || y % 400 = 0)

def daysIn (year month : Nat) : Nat :=
  if month = 2 then if isLeapYear year then 29 else 28
  else if month ∈ [4, 6, 9, 11] then 30
  else 31

def date : Reader Unit := do
  let year ← field 4 0 9999
  skipChar '-'
  let month ← field 2 1 12
  skipChar '-'
  discard (field 2 1 (daysIn year month))

def time : Reader Unit := do
  discard (field 2 0 23)
  skipChar ':'
  discard (field 2 0 59)
  skipChar ':'
  discard (field 2 0 60)
  match ← peek with
  | '.' :: r =>
    set r
    discard (takeSome Char.isDigit)
  | _ => return ()

def offset : Reader Unit := do
  match ← peek with
  | 'Z' :: r | 'z' :: r => set r
  | '+' :: r | '-' :: r =>
    set r
    discard (field 2 0 23)
    skipChar ':'
    discard (field 2 0 59)
  | _ => return ()

def digitsThen (digits : Nat) (mark : Char) (s : List Char) : Bool :=
  (s.take digits).length = digits && (s.take digits).all Char.isDigit &&
    s[digits]? = some mark

def dateTime : Reader Unit := do
  date
  match ← peek with
  | c :: r =>
    if (c = 'T' ∨ c = 't' ∨ c = ' ') ∧ digitsThen 2 ':' r then
      set r
      time
      offset
  | [] => return ()

def dateOrTime : Reader Unit := do
  if digitsThen 2 ':' (← peek) then time else dateTime

def isMoment (s : List Char) : Bool :=
  digitsThen 4 '-' s || digitsThen 2 ':' s

end AmbientTypes.Toml
