import AmbientTypes.Json.Printer
import AmbientTypes.Report.Remark

namespace AmbientTypes

inductive Loudness
  | quiet
  | normal
  | verbose
  deriving DecidableEq, Repr

inductive ColorSetting
  | auto
  | always
  | never
  deriving DecidableEq, Repr

namespace ColorSetting

def name : ColorSetting → String
  | auto => "Auto"
  | always => "Always"
  | never => "Never"

def parse (s : String) : Except String ColorSetting :=
  match String.ofList (s.toList.map Char.toLower) with
  | "auto" => .ok auto
  | "always" => .ok always
  | "never" => .ok never
  | _ => .error ("invalid color choice '" ++ s ++ "'; expected 'auto', 'always', or 'never'")

end ColorSetting

inductive Label
  | created
  | updated
  | finished
  | compiling
  | rewriting
  | uses
  | found
  | fresh
  | skipped
  | warning
  | error
  deriving DecidableEq, Repr

namespace Label

def word : Label → String
  | created => "Created"
  | updated => "Updated"
  | finished => "Finished"
  | compiling => "Compiling"
  | rewriting => "Rewriting"
  | uses => "Using"
  | found => "Found"
  | fresh => "Fresh"
  | skipped => "Skipped"
  | warning => "Warning"
  | error => "error"

def colour : Label → String
  | created | updated | finished => "\x1b[1;32m"
  | compiling | rewriting => "\x1b[1;36m"
  | uses | found | fresh => "\x1b[1;34m"
  | skipped | warning => "\x1b[1;33m"
  | error => "\x1b[1;31m"

def width : Nat := 12

def aligned (l : Label) : String :=
  String.ofList (List.replicate (width - l.word.length) ' ') ++ l.word

end Label

/-- People get labelled lines and blocks on standard error, machines one event a line on standard
output and nothing else. -/
inductive Audience
  | people (loudness : Loudness) (color : ColorSetting)
  | machines
  deriving DecidableEq, Repr

structure Reporter where
  audience : Audience
  colored : Bool
  deriving DecidableEq, Repr

inductive Report
  | line (l : Label) (message : String)
  | block (text : String)
  /-- A line for people, an event for machines. -/
  | error (message : String)
  | event (value : Json)

structure Printed where
  stdout : String := ""
  stderr : String := ""
  deriving DecidableEq, Repr

namespace Printed

def append (p q : Printed) : Printed :=
  ⟨p.stdout ++ q.stdout, p.stderr ++ q.stderr⟩

instance : Append Printed := ⟨append⟩

end Printed

namespace Reporter

def ofAudience (terminal : Bool) (a : Audience) : Reporter where
  audience := a
  colored :=
    match a with
    | .machines => false
    | .people _ .auto => terminal
    | .people _ .always => true
    | .people _ .never => false

def plain (terminal : Bool) : Reporter :=
  ofAudience terminal (.people .normal .auto)

/-- JSON wins over quiet, and quiet over verbose. -/
def ofFlags (terminal quiet verbose json : Bool) (color : ColorSetting) : Reporter :=
  ofAudience terminal <|
    if json then .machines
    else .people (if quiet then .quiet else if verbose then .verbose else .normal) color

variable (r : Reporter)

def isQuiet : Bool :=
  match r.audience with
  | .people .quiet _ => true
  | _ => false

def isVerbose : Bool :=
  match r.audience with
  | .people .verbose _ => true
  | _ => false

def forMachines : Bool :=
  r.audience = .machines

def shownLine (l : Label) (message : String) : String :=
  (if r.colored then l.colour ++ l.aligned ++ colourReset else l.aligned) ++ " " ++ message ++ "\n"

def printLine (l : Label) (message : String) : Printed :=
  if r.forMachines then {}
  else if r.isQuiet ∧ l ≠ .error then {}
  else { stderr := r.shownLine l message }

def printEvent (value : Json) : Printed :=
  if r.forMachines then { stdout := value.print ++ "\n" } else {}

def errorEvent (message : String) : Json :=
  .object [("reason", "error"), ("message", message)]

def print : Report → Printed
  | .line l message => r.printLine l message
  | .block text => if r.forMachines then {} else { stderr := text }
  | .error message =>
    if r.forMachines then r.printEvent (errorEvent message) else r.printLine .error message
  | .event value => r.printEvent value

end Reporter

end AmbientTypes
