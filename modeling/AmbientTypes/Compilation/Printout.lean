import AmbientTypes.Compilation.Message
import AmbientTypes.Path
import AmbientTypes.Text.Blank
import AmbientTypes.Text.Infix
import AmbientTypes.Text.Lines

namespace AmbientTypes.Printout

def digits (s : List Char) : Option (List Char × List Char) :=
  let ds := s.takeWhile Text.isDecimalDigit
  if ds = [] then none else some (ds, s.drop ds.length)

def kind (s : List Char) : Option (MessageKind × List Char) :=
  [MessageKind.error, .warning, .message].findSome? fun k ↦
    (Text.after? k.word.toList s).map (k, ·)

structure Headline where
  kind : MessageKind
  code : List Char
  text : List Char

def headline (s : List Char) : Option Headline := do
  let (k, s) ← kind s
  let s ← Text.after? " TS".toList s
  let (code, s) ← digits s
  let s ← Text.after? ": ".toList s
  return ⟨k, code, s⟩

structure Mark where
  line : List Char
  column : List Char
  head : Headline

def mark (s : List Char) : Option Mark := do
  let s ← Text.after? ['('] s
  let (line, s) ← digits s
  let s ← Text.after? [','] s
  let (column, s) ← digits s
  let s ← Text.after? "): ".toList s
  return ⟨line, column, ← headline s⟩

/-- The shortest non-empty file name that a mark follows; `file` is what has been passed, in
reverse. -/
def located (file : List Char) : List Char → Option (List Char × Mark)
  | [] => none
  | c :: s =>
    match if file = [] then none else mark (c :: s) with
    | some m => some (file.reverse, m)
    | none => located (c :: file) s

def number (ds : List Char) : Option Nat :=
  Text.natBelow? (Nat.pow 2 32) ds

def Headline.message (h : Headline) : CompilerMessage where
  code := (number h.code).getD 0
  kind := h.kind
  text := String.ofList h.text

/-- The message that starts on a line: `file(line,column): error TS1: text`, or without a place
`error TS1: text`. -/
def message? (directory : String) (line : List Char) : Option CompilerMessage :=
  match located [] line with
  | some (file, m) =>
    some { m.head.message with
      file := some (Path.anchor directory (String.ofList file))
      line := number m.line
      column := number m.column }
  | none => (headline line).map Headline.message

def addLine (line : List Char) (m : CompilerMessage) : CompilerMessage :=
  { m with text := m.text ++ "\n" ++ String.ofList (Text.trimStart line) }

/-- One more line; the messages so far are in reverse. -/
def step (directory : String) (found : List CompilerMessage) (line : List Char) :
    List CompilerMessage :=
  let line := Text.trimEnd line
  match message? directory line with
  | some m => m :: found
  | none =>
    match line, found with
    | c :: _, m :: ms => if Text.isBlank c then addLine line m :: ms else found
    | _, _ => found

def parse (text directory : String) : List CompilerMessage :=
  ((Text.lines text.toList).foldl (step directory) []).reverse

end AmbientTypes.Printout
