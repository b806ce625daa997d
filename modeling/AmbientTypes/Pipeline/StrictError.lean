import AmbientTypes.Compilation.Message

namespace AmbientTypes

structure StrictError where
  count : Nat
  messages : List CompilerMessage
  deriving DecidableEq, Repr

namespace StrictError

def message (e : StrictError) : String :=
  "declaration compiler reported " ++ Text.decimal e.count ++ " error(s) and strict mode is on"

def code : String := "fedtypes::compile::strict"

def help : String := "fix the reported type errors or drop `--strict`"

def advice : String := "Fix the reported type errors or drop `--strict` to publish anyway"

def detail (m : CompilerMessage) : String :=
  m.place?.getD "<global>" ++ ": TS" ++ Text.decimal m.code ++ ": " ++ m.text

def remark (e : StrictError) : Remark where
  severity := .error
  text := e.message
  details := (e.messages.filter (·.isError)).map detail
  advice := [advice]

end StrictError

end AmbientTypes
