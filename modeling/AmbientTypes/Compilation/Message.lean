import AmbientTypes.Report.Remark

namespace AmbientTypes

inductive MessageKind
  | error
  | warning
  | message
  deriving DecidableEq, Repr

def MessageKind.word : MessageKind → String
  | error => "error"
  | warning => "warning"
  | message => "message"

structure CompilerMessage where
  file : Option String := none
  line : Option Nat := none
  column : Option Nat := none
  code : Nat := 0
  kind : MessageKind
  text : String
  deriving DecidableEq, Repr

namespace CompilerMessage

def isError (m : CompilerMessage) : Bool :=
  m.kind = .error

def place? (m : CompilerMessage) : Option String :=
  m.file.map fun file ↦
    match m.line, m.column with
    | some line, some column => file ++ ":" ++ Text.decimal line ++ ":" ++ Text.decimal column
    | some line, none => file ++ ":" ++ Text.decimal line
    | none, _ => file

/-- Errors of the compiler are warnings unless they are fatal. -/
def shownSeverity (strict : Bool) : MessageKind → Severity
  | .error => if strict then .error else .warning
  | .warning => .warning
  | .message => .note

def remark (m : CompilerMessage) (strict : Bool) : Remark where
  severity := shownSeverity strict m.kind
  text := if 0 < m.code then m.text ++ " [TS" ++ Text.decimal m.code ++ "]" else m.text
  place := m.place?

def ofOutput (text : String) : CompilerMessage where
  kind := .error
  text := text

end CompilerMessage

def countErrors (ms : List CompilerMessage) : Nat :=
  ms.countP (·.isError)

end AmbientTypes
