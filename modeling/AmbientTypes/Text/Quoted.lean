import AmbientTypes.Text.Printable

namespace AmbientTypes.Text

def hexDigit (n : Nat) : Char :=
  if n < 10 then Char.ofNat ('0'.toNat + n) else Char.ofNat ('a'.toNat + (n - 10))

def hexDigits (n : Nat) : List Char :=
  if n < 16 then [hexDigit n] else hexDigits (n / 16) ++ [hexDigit (n % 16)]

/-- `marks` are the quotation marks to escape. -/
def escapeChar (marks : List Char) (c : Char) : List Char :=
  if c = '\x00' then ['\\', '0']
  else if c = '\t' then ['\\', 't']
  else if c = '\r' then ['\\', 'r']
  else if c = '\n' then ['\\', 'n']
  else if c = '\\' ∨ c ∈ marks then ['\\', c]
  else if isPrintable c && !isGraphemeExtend c then [c]
  else ['\\', 'u', '\x7b'] ++ hexDigits c.toNat ++ ['\x7d']

def quoteChar (c : Char) : String :=
  String.ofList (['\''] ++ escapeChar ['\''] c ++ ['\''])

def quote (s : String) : String :=
  String.ofList (['"'] ++ s.toList.flatMap (escapeChar ['"']) ++ ['"'])

def quotePath (s : String) : String :=
  String.ofList (['"'] ++ s.toList.flatMap (escapeChar ['"', '\'']) ++ ['"'])

end AmbientTypes.Text
