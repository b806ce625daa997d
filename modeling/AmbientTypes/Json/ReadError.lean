import AmbientTypes.Json.Basic
import AmbientTypes.Text.Quoted
import AmbientTypes.Text.Utf8

namespace AmbientTypes.Json

inductive Cause
  | endInList
  | endInObject
  | endInString
  | endInValue
  | expectedColon
  | expectedListComma
  | expectedObjectComma
  | expectedWord
  | expectedValue
  | invalidEscape
  | invalidNumber
  | numberOutOfRange
  | controlCharacter
  | keyNotString
  | loneSurrogate
  | unfinishedSurrogatePair
  | trailingComma
  | trailingCharacters
  | tooDeep
  | wrongType (found expected : String)
  | tooShort (found : Nat) (expected : String)
  | missingField (name : String)
  | repeatedField (name : String)
  deriving DecidableEq, Repr

def Cause.message : Cause → String
  | endInList => "EOF while parsing a list"
  | endInObject => "EOF while parsing an object"
  | endInString => "EOF while parsing a string"
  | endInValue => "EOF while parsing a value"
  | expectedColon => "expected `:`"
  | expectedListComma => "expected `,` or `]`"
  | expectedObjectComma => "expected `,` or `\x7d`"
  | expectedWord => "expected ident"
  | expectedValue => "expected value"
  | invalidEscape => "invalid escape"
  | invalidNumber => "invalid number"
  | numberOutOfRange => "number out of range"
  | controlCharacter => "control character (\\u0000-\\u001F) found while parsing a string"
  | keyNotString => "key must be a string"
  | loneSurrogate => "lone leading surrogate in hex escape"
  | unfinishedSurrogatePair => "unexpected end of hex escape"
  | trailingComma => "trailing comma"
  | trailingCharacters => "trailing characters"
  | tooDeep => "recursion limit exceeded"
  | wrongType found expected => "invalid type: " ++ found ++ ", expected " ++ expected
  | tooShort found expected => "invalid length " ++ Text.decimal found ++ ", expected " ++ expected
  | missingField name => "missing field `" ++ name ++ "`"
  | repeatedField name => "duplicate field `" ++ name ++ "`"

structure ReadError where
  cause : Cause
  /-- The number of bytes after the place of the error. -/
  behind : Nat
  deriving DecidableEq, Repr

abbrev Reader (α : Type) := List Char → Except ReadError (α × List Char)

def failAt {α : Type} (cause : Cause) (rest : List Char) : Except ReadError α :=
  .error ⟨cause, Text.utf8Length rest⟩

def failIn {α : Type} (cause : Cause) (rest : List Char) : Except ReadError α :=
  .error ⟨cause, Text.utf8Length rest - 1⟩

def place (line column : Nat) : Nat → List Char → Nat × Nat
  | _, [] => (line, column)
  | offset, c :: text =>
    if offset = 0 then (line, column)
    else if offset < c.utf8Size then (line, column + offset)
    else if c = '\n' then place (line + 1) 0 (offset - 1) text
    else place line (column + c.utf8Size) (offset - c.utf8Size) text

def ReadError.describe (e : ReadError) (text : List Char) : String :=
  let (line, column) := place 1 0 (Text.utf8Length text - e.behind) text
  e.cause.message ++ " at line " ++ Text.decimal line ++ " column " ++ Text.decimal column

end AmbientTypes.Json
