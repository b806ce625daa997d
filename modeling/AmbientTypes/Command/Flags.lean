import AmbientTypes.Command.Options

namespace AmbientTypes.Command

inductive OutputFormat
  | human
  | json
  deriving DecidableEq, Repr

def OutputFormat.parse? : String → Option OutputFormat
  | "human" => some human
  | "json" => some json
  | _ => none

inductive CompletionShell
  | bash
  | elvish
  | fish
  | powershell
  | zsh
  deriving DecidableEq, Repr

def CompletionShell.parse? : String → Option CompletionShell
  | "bash" => some bash
  | "elvish" => some elvish
  | "fish" => some fish
  | "powershell" => some powershell
  | "zsh" => some zsh
  | _ => none

structure Flags where
  given : List Opt := []
  color : Option ColorSetting := none
  format : Option OutputFormat := none
  config : Option String := none
  discovery : Option SearchChoice := none
  outputDir : Option String := none
  tsc : Option String := none
  shell : Option CompletionShell := none
  deriving DecidableEq, Repr

namespace Flags

def path (o : Opt) (value : String) : Except UsageError (Option String) :=
  if value = "" then .error (.missingValue o) else .ok (some value)

def reasoned {α : Type} (o : Opt) (value : String) :
    Except String α → Except UsageError (Option α)
  | .ok a => .ok (some a)
  | .error reason => .error (.invalidValue value o (some reason))

def oneOf {α : Type} (o : Opt) (value : String) : Option α → Except UsageError (Option α)
  | some a => .ok (some a)
  | none => .error (if value = "" then .missingValue o else .invalidValue value o none)

def add (f : Flags) (o : Opt) (value : String) : Except UsageError Flags := do
  if o ∈ f.given then throw (.repeated o)
  let f := { f with given := f.given ++ [o] }
  match o with
  | .color => return { f with color := ← reasoned o value (ColorSetting.parse value) }
  | .messageFormat => return { f with format := ← oneOf o value (OutputFormat.parse? value) }
  | .config => return { f with config := ← path o value }
  | .discovery => return { f with discovery := ← reasoned o value (SearchChoice.parse value) }
  | .outputDir => return { f with outputDir := ← path o value }
  | .tsc => return { f with tsc := ← path o value }
  | .shell => return { f with shell := ← oneOf o value (CompletionShell.parse? value) }
  | .verbose | .quiet | .strict | .all | .help | .version => return f

/-- What the options of a level must satisfy together. -/
def check (l : Level) (f : Flags) : Except UsageError Unit :=
  match f.given.filter fun o ↦ o = .verbose || o = .quiet with
  | first :: second :: _ => .error (.conflict first second)
  | _ => if l = .completions && f.shell.isNone then .error .missingArguments else .ok ()

end Flags

end AmbientTypes.Command
