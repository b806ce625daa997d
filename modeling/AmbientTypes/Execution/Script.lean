import AmbientTypes.Text.Digit

namespace AmbientTypes.Script

inductive Piece
  | text (s : List Char)
  | parameter (quoted : Bool) (name : List Char)
  deriving DecidableEq, Repr

abbrev Word := List Piece

inductive Token
  | word (w : Word)
  | newline
  | semicolon
  | andThen
  | orElse
  | copyStream (stream target : Nat)
  | fileStream (stream : Nat) (append : Bool)
  deriving DecidableEq, Repr

def isNameChar (c : Char) : Bool :=
  c.isAlphanum || c = '_'

/-- The name of a parameter after the dollar sign; none where the dollar sign stands for itself. -/
def parameterName? : List Char → Option (List Char × List Char)
  | '\x7b' :: r =>
    let name := r.takeWhile (· ≠ '\x7d')
    if name.length < r.length then some (name, r.drop (name.length + 1)) else none
  | c :: r =>
    if c.isDigit || c ∈ ['@', '*', '#', '?', '$'] then some ([c], r)
    else if isNameChar c then
      some ((c :: r).takeWhile isNameChar, (c :: r).dropWhile isNameChar)
    else none
  | [] => none

def quotedPieces : (fuel : Nat) → (done : List Piece) → List Char → Option (List Piece × List Char)
  | 0, _, _ => none
  | fuel + 1, done, s =>
    match s with
    | [] => none
    | '"' :: r => some (done.reverse, r)
    | '\\' :: '\n' :: r => quotedPieces fuel done r
    | '\\' :: c :: r =>
      let t := if c ∈ ['$', '"', '\\', Char.ofNat 96] then [c] else ['\\', c]
      quotedPieces fuel (.text t :: done) r
    | '$' :: r =>
      match parameterName? r with
      | some (name, r) => quotedPieces fuel (.parameter true name :: done) r
      | none => quotedPieces fuel (.text ['$'] :: done) r
    | c :: r => quotedPieces fuel (.text [c] :: done) r

def finish (word : Option Word) : List Token :=
  (word.map .word).toList

def streamOf : Option Word → Option Nat
  | some [.text [c]] => if c.isDigit then some (Text.digitValue c) else none
  | _ => none

def redirection (stream : Nat) : List Char → Token × List Char
  | '&' :: c :: r =>
    if c.isDigit then (.copyStream stream (Text.digitValue c), r)
    else (.fileStream stream false, c :: r)
  | '>' :: r => (.fileStream stream true, r)
  | r => (.fileStream stream false, r)

/-- The tokens of a script; none where a quote is not closed. -/
def tokens : (fuel : Nat) → (word : Option Word) → List Char → Option (List Token)
  | 0, _, _ => none
  | fuel + 1, word, s =>
    let add (ps : List Piece) := some (word.getD [] ++ ps)
    match s with
    | [] => some (finish word)
    | '\'' :: r =>
      let t := r.takeWhile (· ≠ '\'')
      if t.length < r.length then tokens fuel (add [.text t]) (r.drop (t.length + 1)) else none
    | '"' :: r => do
      let (ps, r) ← quotedPieces (r.length + 1) [] r
      tokens fuel (add (.text [] :: ps)) r
    | '\\' :: '\n' :: r => tokens fuel word r
    | '\\' :: c :: r => tokens fuel (add [.text [c]]) r
    | '$' :: r =>
      match parameterName? r with
      | some (name, r) => tokens fuel (add [.parameter false name]) r
      | none => tokens fuel (add [.text ['$']]) r
    | '\n' :: r => (finish word ++ .newline :: ·) <$> tokens fuel none r
    | ';' :: r => (finish word ++ .semicolon :: ·) <$> tokens fuel none r
    | '&' :: '&' :: r => (finish word ++ .andThen :: ·) <$> tokens fuel none r
    | '|' :: '|' :: r => (finish word ++ .orElse :: ·) <$> tokens fuel none r
    | '>' :: r =>
      match streamOf word with
      | some n =>
        let (t, r) := redirection n r
        (t :: ·) <$> tokens fuel none r
      | none =>
        let (t, r) := redirection 1 r
        (finish word ++ t :: ·) <$> tokens fuel none r
    | c :: r =>
      if c = ' ' ∨ c = '\t' then (finish word ++ ·) <$> tokens fuel none r
      else if c = '#' ∧ word.isNone then tokens fuel none (r.dropWhile (· ≠ '\n'))
      else tokens fuel (add [.text [c]]) r

inductive Redirection
  | copy (stream target : Nat)
  | file (stream : Nat) (append : Bool) (path : Word)
  deriving DecidableEq, Repr

inductive Condition
  | always
  | afterSuccess
  | afterFailure
  deriving DecidableEq, Repr

structure Command where
  condition : Condition := .always
  line : Nat := 1
  words : List Word := []
  redirections : List Redirection := []
  deriving DecidableEq, Repr

def gather (c : Command) : List Token → List Command
  | [] => [c]
  | .word w :: ts => gather { c with words := c.words ++ [w] } ts
  | .newline :: ts => c :: gather { line := c.line + 1 } ts
  | .semicolon :: ts => c :: gather { line := c.line } ts
  | .andThen :: ts => c :: gather { condition := .afterSuccess, line := c.line } ts
  | .orElse :: ts => c :: gather { condition := .afterFailure, line := c.line } ts
  | .copyStream n m :: ts => gather { c with redirections := c.redirections ++ [.copy n m] } ts
  | .fileStream n a :: .word w :: ts =>
    gather { c with redirections := c.redirections ++ [.file n a w] } ts
  | .fileStream .. :: ts => gather c ts

/-- The commands of a script; none where a quote is not closed. -/
def commands? (script : String) : Option (List Command) :=
  let s := script.toList
  (tokens (s.length + 1) none s).map fun ts ↦
    (gather {} ts).filter fun c ↦ c.words ≠ [] || c.redirections ≠ []

def isOctal (c : Char) : Bool :=
  '0' ≤ c && c ≤ '7'

def octalByte (most : Nat) (s : List Char) : UInt8 × List Char :=
  let ds := (s.take most).takeWhile isOctal
  (UInt8.ofNat (ds.foldl (fun n d ↦ n * 8 + Text.digitValue d) 0), s.drop ds.length)

def controlOf : Char → Option UInt8
  | 'a' => some 7
  | 'b' => some 8
  | 'f' => some 12
  | 'n' => some 10
  | 'r' => some 13
  | 't' => some 9
  | 'v' => some 11
  | '\\' => some 92
  | _ => none

def charBytes (c : Char) : List UInt8 :=
  (String.singleton c).toUTF8.toList

def echoBytes : (fuel : Nat) → List Char → List UInt8 × Bool
  | 0, _ => ([], true)
  | fuel + 1, s =>
    let more (bs : List UInt8) (r : List Char) :=
      let (rest, goesOn) := echoBytes fuel r
      (bs ++ rest, goesOn)
    match s with
    | [] => ([], true)
    | '\\' :: 'c' :: _ => ([], false)
    | '\\' :: '0' :: r =>
      let (b, r) := octalByte 3 r
      more [b] r
    | '\\' :: c :: r =>
      match controlOf c with
      | some b => more [b] r
      | none => more (92 :: charBytes c) r
    | c :: r => more (charBytes c) r

def formatBytes : (fuel : Nat) → List Char → List String → List UInt8 × List String
  | 0, _, args => ([], args)
  | fuel + 1, s, args =>
    let more (bs : List UInt8) (r : List Char) (args : List String) :=
      let (rest, args) := formatBytes fuel r args
      (bs ++ rest, args)
    match s with
    | [] => ([], args)
    | '%' :: '%' :: r => more [37] r args
    | '%' :: 's' :: r => more (args.headD "").toUTF8.toList r (args.drop 1)
    | '%' :: 'd' :: r => more (args.headD "0").toUTF8.toList r (args.drop 1)
    | '%' :: 'c' :: r => more (((args.headD "").toList.take 1).flatMap charBytes) r (args.drop 1)
    | '%' :: 'b' :: r =>
      let arg := (args.headD "").toList
      more (echoBytes (arg.length + 1) arg).1 r (args.drop 1)
    | '\\' :: c :: r =>
      if isOctal c then
        let (b, r) := octalByte 3 (c :: r)
        more [b] r args
      else
        match controlOf c with
        | some b => more [b] r args
        | none => more (92 :: charBytes c) r args
    | c :: r => more (charBytes c) r args

/-- The format is used again while it takes arguments and some are left. -/
def printf (format : String) (args : List String) : List UInt8 :=
  go (args.length + 1) args
where
  go : Nat → List String → List UInt8
    | 0, _ => []
    | fuel + 1, args =>
      let f := format.toList
      let (bs, rest) := formatBytes (f.length + 1) f args
      if rest = [] ∨ rest.length = args.length then bs else bs ++ go fuel rest

def echo (args : List String) : List UInt8 :=
  let (open', args) := match args with
    | "-n" :: r => (true, r)
    | r => (false, r)
  let s := (String.intercalate " " args).toList
  let (bs, goesOn) := echoBytes (s.length + 1) s
  if open' || !goesOn then bs else bs ++ [10]

end AmbientTypes.Script
