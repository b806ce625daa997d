import AmbientTypes.Execution.Basic
import AmbientTypes.Execution.Script

namespace AmbientTypes.Script

inductive Sink
  | stdout
  | stderr
  | file (l : Location)
  | nowhere
  deriving DecidableEq, Repr

structure Streams where
  one : Sink := .stdout
  two : Sink := .stderr

structure State where
  world : World
  name : String
  arguments : List String
  status : Nat := 0
  stdout : ByteArray := .empty
  stderr : ByteArray := .empty

inductive Outcome
  | goesOn (s : State)
  | ends (s : State)
  | killed (s : State)

namespace State

variable (s : State)

def processId : String := "1"

def isBlank (c : Char) : Bool :=
  c = ' ' || c = '\t' || c = '\n'

def argument (n : Nat) : String :=
  if n = 0 then s.name else (s.arguments[n - 1]?).getD ""

def value (name : List Char) : String :=
  match name with
  | ['#'] => Text.decimal s.arguments.length
  | ['?'] => Text.decimal s.status
  | ['$'] => processId
  | ['*'] | ['@'] => String.intercalate " " s.arguments
  | ds =>
    if ds.all Char.isDigit then s.argument (Text.ofDigits ds)
    else (s.world.envValue? (String.ofList ds)).getD ""

def splitWords (t : List Char) : List (List Char) :=
  (t.splitBy fun a b ↦ !isBlank a && !isBlank b).filter (·.all (!isBlank ·))

/-- Adds a text to the last word, which is open if `current` is some. -/
def expandPiece (acc : List String × Option (List Char)) :
    Piece → List String × Option (List Char)
  | .text t => (acc.1, some (acc.2.getD [] ++ t))
  | .parameter true ['@'] =>
    match s.arguments with
    | [] => acc
    | a :: as =>
      match as.getLast? with
      | none => (acc.1, some (acc.2.getD [] ++ a.toList))
      | some z =>
        (acc.1 ++ [String.ofList (acc.2.getD [] ++ a.toList)] ++ as.dropLast, some z.toList)
  | .parameter true name => (acc.1, some (acc.2.getD [] ++ (s.value name).toList))
  | .parameter false name =>
    let t := (s.value name).toList
    let acc :=
      if t.head?.any isBlank then (acc.1 ++ (acc.2.map String.ofList).toList, none) else acc
    match splitWords t with
    | [] => acc
    | w :: ws =>
      let words := (acc.2.getD [] ++ w) :: ws
      if t.getLast?.any isBlank then (acc.1 ++ words.map String.ofList, none)
      else (acc.1 ++ words.dropLast.map String.ofList, words.getLast?)

def expandWord (w : Word) : List String :=
  let (done, current) := w.foldl s.expandPiece ([], none)
  done ++ (current.map String.ofList).toList

def expand (ws : List Word) : List String :=
  ws.flatMap s.expandWord

def emit (sink : Sink) (bytes : ByteArray) : State :=
  match sink with
  | .stdout => { s with stdout := s.stdout ++ bytes }
  | .stderr => { s with stderr := s.stderr ++ bytes }
  | .nowhere => s
  | .file l =>
    let old := match s.world.files.tree.get? l with
      | some (.file f) => f.bytes
      | _ => .empty
    { s with world.files := s.world.files.putBytes l (old ++ bytes) }

def complain (streams : Streams) (line : Nat) (message : String) (status : Nat) : State :=
  { s.emit streams.two
      (s.name ++ ": " ++ Text.decimal line ++ ": " ++ message ++ "\n").toUTF8 with
    status := status }

def reasonNotWritten : SysError → String
  | .notFound => "Directory nonexistent"
  | .isADirectory => "Is a directory"
  | .notADirectory => "Not a directory"
  | _ => "Permission denied"

def redirect (line : Nat) (acc : Except State (State × Streams)) (r : Redirection) :
    Except State (State × Streams) := do
  let (s, streams) ← acc
  match r with
  | .copy n m =>
    let target := if m = 2 then streams.two else streams.one
    return (s, if n = 2 then { streams with two := target } else { streams with one := target })
  | .file n append w =>
    let path := String.intercalate " " (s.expandWord w)
    let set (t : State) (sink : Sink) :=
      (t, if n = 2 then { streams with two := sink } else { streams with one := sink })
    if path = "/dev/null" then return set s .nowhere
    match s.world.files.openOrCreate path with
    | .error e =>
      .error (s.complain streams line ("cannot create " ++ path ++ ": " ++ reasonNotWritten e) 2)
    | .ok (l, _, f) =>
      let f := if append then f else f.putBytes l .empty
      return set { s with world.files := f } (.file l)

def finished (streams : Streams) (status : Nat) (out : ByteArray) : State :=
  { s.emit streams.one out with status := status }

def ofBytes (bs : List UInt8) : ByteArray :=
  ⟨bs.toArray⟩

def external (launch : Launcher) (streams : Streams) (line : Nat) (name : String)
    (args : List String) : State :=
  match (launch { program := name, arguments := args }).run s.world with
  | (.ok o, w) =>
    let s := ({ s with world := w } : State)
    { (s.emit streams.one o.stdout).emit streams.two o.stderr with status := o.status.getD 137 }
  | (.error .notFound, w) | (.error .notADirectory, w) =>
    ({ s with world := w } : State).complain streams line (name ++ ": not found") 127
  | (.error _, w) =>
    ({ s with world := w } : State).complain streams line (name ++ ": Permission denied") 126

def exitWith (streams : Streams) (line : Nat) (text : String) : Outcome :=
  match Text.natBelow? (Nat.pow 2 31) text.toList with
  | some n => .ends { s with status := n % 256 }
  | none => .ends (s.complain streams line ("exit: Illegal number: " ++ text) 2)

def changeDirectory (streams : Streams) (line : Nat) (path : String) : State :=
  match s.world.files.lookup path with
  | .ok (l, .folder _) => { s with world.files.cwd := l, status := 0 }
  | _ => s.complain streams line ("cd: can't cd to " ++ path) 2

def runWords (launch : Launcher) (streams : Streams) (line : Nat) : List String → Outcome
  | [] => .goesOn { s with status := 0 }
  | ["exit"] => .ends s
  | "exit" :: status :: _ => s.exitWith streams line status
  | "kill" :: args =>
    if processId ∈ args ∧ "-0" ∉ args then .killed s
    else .goesOn (s.complain streams line "kill: No such process" 1)
  | "echo" :: args => .goesOn (s.finished streams 0 (ofBytes (echo args)))
  | "printf" :: format :: args => .goesOn (s.finished streams 0 (ofBytes (printf format args)))
  | "pwd" :: _ => .goesOn (s.finished streams 0 (s.world.cwd ++ "\n").toUTF8)
  | "cd" :: path :: _ => .goesOn (s.changeDirectory streams line path)
  | "true" :: _ | ":" :: _ => .goesOn { s with status := 0 }
  | "false" :: _ => .goesOn { s with status := 1 }
  | name :: args => .goesOn (s.external launch streams line name args)

def runCommand (launch : Launcher) (c : Command) : Outcome :=
  match c.redirections.foldl (redirect c.line) (.ok (s, {})) with
  | .error t => .goesOn t
  | .ok (t, streams) => t.runWords launch streams c.line (t.expand c.words)

def wants : Condition → Bool
  | .always => true
  | .afterSuccess => s.status = 0
  | .afterFailure => s.status ≠ 0

def output (status : Option Nat) : ProcessOutput :=
  ⟨status, s.stdout, s.stderr⟩

def runAll (launch : Launcher) : List Command → State → ProcessOutput × World
  | [], s => (s.output (some s.status), s.world)
  | c :: cs, s =>
    if !s.wants c.condition then runAll launch cs s
    else
      match s.runCommand launch c with
      | .goesOn t => runAll launch cs t
      | .ends t => (t.output (some t.status), t.world)
      | .killed t => (t.output none, t.world)

end State

def run (launch : Launcher) (name : String) (args : List String) (script : String) :
    StateM World ProcessOutput := fun w ↦
  let s : State := { world := w, name := name, arguments := args }
  match commands? script with
  | none =>
    let t := s.complain {} 1 "Syntax error: Unterminated quoted string" 2
    (t.output (some 2), t.world)
  | some cs => State.runAll launch cs s

end AmbientTypes.Script
