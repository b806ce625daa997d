import AmbientTypes.Text.Quoted
import AmbientTypes.Text.Split

namespace AmbientTypes

inductive LogLevel
  | error
  | warn
  | info
  | debug
  | trace
  deriving DecidableEq, Repr

namespace LogLevel

def rank : LogLevel → Nat
  | error => 1
  | warn => 2
  | info => 3
  | debug => 4
  | trace => 5

def shown : LogLevel → String
  | error => "\x1b[31mERROR\x1b[0m"
  | warn => "\x1b[33m WARN\x1b[0m"
  | info => "\x1b[32m INFO\x1b[0m"
  | debug => "\x1b[34mDEBUG\x1b[0m"
  | trace => "\x1b[35mTRACE\x1b[0m"

end LogLevel

structure LogFilter where
  rank : Nat
  deriving DecidableEq, Repr

namespace LogFilter

def allows (f : LogFilter) (l : LogLevel) : Bool :=
  l.rank ≤ f.rank

def levelRank? (word : String) : Option Nat :=
  match String.ofList (word.toList.map Char.toLower) with
  | "off" | "0" => some 0
  | "error" | "1" => some 1
  | "warn" | "2" => some 2
  | "info" | "3" => some 3
  | "debug" | "4" => some 4
  | "trace" | "5" => some 5
  | _ => none

def targetName : String := "fedtypes"

def directive? (s : List Char) : Option (Bool × Nat) :=
  match Text.splitAt '=' s with
  | [word] =>
    match levelRank? (String.ofList word) with
    | some r => some (false, r)
    | none => if String.ofList word = targetName then some (true, 5) else none
  | [target, word] =>
    if String.ofList target = targetName then (levelRank? (String.ofList word)).map (true, ·)
    else none
  | _ => none

/-- Directives stand between commas. One that names the program wins over one for all, and the
last of a kind wins. Where none applies only errors are shown. -/
def parse (directives : String) : LogFilter :=
  let ds := (Text.splitAt ',' directives.toList).filterMap directive?
  match (ds.filter (·.1)).getLast?, (ds.filter (!·.1)).getLast? with
  | some d, _ => ⟨d.2⟩
  | none, some d => ⟨d.2⟩
  | none, none => ⟨1⟩

/-- The filter of a run: as the environment says, else by whether the run is verbose. -/
def ofSetting (setting : Option String) (verbose : Bool) : LogFilter :=
  match setting with
  | some s => if s = "" then byDefault else parse s
  | none => byDefault
where
  byDefault : LogFilter := if verbose then ⟨4⟩ else ⟨2⟩

end LogFilter

namespace Log

def escaped (c : Char) : List Char :=
  let n := c.toNat
  if n = 0x1b ∨ n = 0x07 ∨ n = 0x08 ∨ n = 0x0c ∨ n = 0x7f then
    ['\\', 'x', Text.hexDigit (n / 16), Text.hexDigit (n % 16)]
  else if 0x80 ≤ n ∧ n ≤ 0x9f then ['\\', 'u', '\x7b'] ++ Text.hexDigits n ++ ['\x7d']
  else [c]

def line (l : LogLevel) (message : String) : String :=
  l.shown ++ " " ++ String.ofList (message.toList.flatMap escaped) ++ "\n"

end Log

end AmbientTypes
