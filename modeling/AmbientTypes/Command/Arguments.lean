import AmbientTypes.Command.Flags

namespace AmbientTypes.Command

inductive Stop
  | failed (e : UsageError)
  | help (l : Level)
  | version
  deriving DecidableEq, Repr

/-- The options of one level so far. One whose value is not attached is settled only when the next
option, or the end, is reached. -/
structure Reading where
  flags : Flags := {}
  pending : Option (Opt × Option String) := none
  plain : Bool := false
  deriving DecidableEq, Repr

abbrev Result (α : Type) := Except Stop α

def ofUsage {α : Type} : Except UsageError α → Result α
  | .ok a => .ok a
  | .error e => .error (.failed e)

namespace Reading

variable (r : Reading)

def settle : Result Reading :=
  match r.pending with
  | none => .ok r
  | some (o, none) => .error (.failed (.missingValue o))
  | some (o, some value) => do
    return { r with flags := ← ofUsage (r.flags.add o value), pending := none }

def take (l : Level) (o : Opt) (value : String) : Result Reading := do
  let r ← r.settle
  match o with
  | .help => throw (.help l)
  | .version => throw .version
  | _ => return { r with flags := ← ofUsage (r.flags.add o value) }

def awaits : Option Opt :=
  match r.pending with
  | some (o, none) => some o
  | _ => none

def await (o : Opt) : Result Reading := do
  return { ← r.settle with pending := some (o, none) }

def long (l : Level) (text : List Char) : Result Reading :=
  let name := String.ofList (text.takeWhile (· ≠ '='))
  let value? := match text.dropWhile (· ≠ '=') with
    | [] => none
    | _ :: v => some (String.ofList v)
  match l.long? name with
  | none => .error (.failed (.unexpectedArgument ("--" ++ name)))
  | some o =>
    match o.valueName?, value? with
    | some _, some value => r.take l o value
    | some _, none => r.await o
    | none, some value => .error (.failed (.unneededValue value o))
    | none, none => r.take l o ""

def short (l : Level) : List Char → Reading → Result Reading
  | [], r => .ok r
  | c :: cs, r =>
    match l.short? c with
    | none => .error (.failed (.unexpectedArgument (String.ofList ['-', c])))
    | some o => do short l cs (← r.take l o "")

def acceptsPlain (l : Level) : Bool :=
  l = .completions && !(r.flags.given.contains .shell) && (r.pending.map (·.1)) ≠ some .shell

def command? (l : Level) (arg : String) : Option Level :=
  if l = .top then Level.commands.find? (·.name = arg) else none

def helpCommand : String := "help"

def unexpected (l : Level) (arg : String) : UsageError :=
  if l = .top && !(r.plain && ((command? l arg).isSome || arg = helpCommand)) then
    .unknownCommand arg
  else .unexpectedArgument arg

def positional (l : Level) (arg : String) : Result Reading :=
  if r.acceptsPlain l then do return { ← r.settle with pending := some (.shell, some arg) }
  else .error (.failed (r.unexpected l arg))

def argument (l : Level) (arg : String) : Result Reading :=
  if r.plain then r.positional l arg
  else
    match arg.toList with
    | ['-', '-'] => .ok { r with plain := true }
    | '-' :: '-' :: text => r.long l text
    | '-' :: c :: cs => short l (c :: cs) r
    | _ =>
      match r.awaits with
      | some o => .ok { r with pending := some (o, some arg) }
      | none => r.positional l arg

def finish (l : Level) : Result Flags := do
  let r ← r.settle
  ofUsage (r.flags.check l)
  return r.flags

end Reading

def readHelp (l : Level) : List String → Stop
  | [] => .help l
  | arg :: args =>
    match Reading.command? l arg with
    | some c => readHelp c args
    | none =>
      if l = .top && arg = Reading.helpCommand then readHelpOfHelp args
      else .failed (.unknownCommand arg)
where
  readHelpOfHelp : List String → Stop
    | [] => .help .top
    | arg :: _ => .failed (.unknownCommand arg)

/-- The levels of a command line with their flags; the command comes last. -/
def readFrom (l : Level) (r : Reading) : List String → Result (List (Level × Flags))
  | [] => do return [(l, ← r.finish l)]
  | arg :: args =>
    if r.plain || r.awaits.isSome then do readFrom l (← r.argument l arg) args
    else
      match Reading.command? l arg with
      | some c => do
        let inner ← readFrom c {} args
        return (l, ← r.finish l) :: inner
      | none =>
        if l = .top && arg = Reading.helpCommand then .error (readHelp l args)
        else do readFrom l (← r.argument l arg) args

structure BuildFlags where
  config : Option String := none
  discovery : Option SearchChoice := none
  outputDir : Option String := none
  tsc : Option String := none
  strict : Bool := false
  deriving DecidableEq, Repr

structure LocateFlags where
  config : Option String := none
  discovery : Option SearchChoice := none
  all : Bool := false
  deriving DecidableEq, Repr

/-- How a run reports; nothing else depends on it. -/
structure Reporting where
  verbose : Bool := false
  quiet : Bool := false
  color : ColorSetting := .auto
  format : OutputFormat := .human
  deriving DecidableEq, Repr

inductive Task
  | build (f : BuildFlags)
  | locate (f : LocateFlags)
  | completions (shell : CompletionShell)
  deriving DecidableEq, Repr

structure Invocation where
  reporting : Reporting
  task : Task
  deriving DecidableEq, Repr

def Flags.build (f : Flags) : BuildFlags :=
  ⟨f.config, f.discovery, f.outputDir, f.tsc, f.given.contains .strict⟩

def Flags.locate (f : Flags) : LocateFlags :=
  ⟨f.config, f.discovery, f.given.contains .all⟩

def Task.ofFlags (l : Level) (f : Flags) : Task :=
  match l with
  | .top | .build => .build f.build
  | .locate => .locate f.locate
  | .completions => .completions (f.shell.getD .bash)

def Reporting.refine (r : Reporting) (f : Flags) : Reporting where
  verbose := r.verbose || f.given.contains .verbose
  quiet := r.quiet || f.given.contains .quiet
  color := f.color.getD r.color
  format := f.format.getD r.format

def Invocation.ofLevels (levels : List (Level × Flags)) : Invocation where
  reporting := levels.foldl (fun r p ↦ r.refine p.2) {}
  task :=
    match levels.getLast? with
    | some (l, f) => .ofFlags l f
    | none => .build {}

def Invocation.parse (args : List String) : Result Invocation :=
  (readFrom .top {} args).map .ofLevels

end AmbientTypes.Command
