import AmbientTypes.Json.Basic
import AmbientTypes.Text.Quoted

namespace AmbientTypes.Json

def escaped (c : Char) : List Char :=
  if c = '"' then ['\\', '"']
  else if c = '\\' then ['\\', '\\']
  else if c = '\n' then ['\\', 'n']
  else if c = '\r' then ['\\', 'r']
  else if c = '\t' then ['\\', 't']
  else if c.toNat = 8 then ['\\', 'b']
  else if c.toNat = 12 then ['\\', 'f']
  else if c.toNat < 32 then
    ['\\', 'u', '0', '0', Text.hexDigit (c.toNat / 16), Text.hexDigit (c.toNat % 16)]
  else [c]

def stringChars (s : String) : List Char :=
  '"' :: s.toList.flatMap escaped ++ ['"']

mutual

def chars : Json → List Char
  | .null => "null".toList
  | .bool true => "true".toList
  | .bool false => "false".toList
  | .number n => n.render.toList
  | .string s => stringChars s
  | .array [] => ['[', ']']
  | .array (j :: js) => '[' :: chars j ++ itemChars js
  | .object [] => ['\x7b', '\x7d']
  | .object ((k, j) :: ms) => '\x7b' :: stringChars k ++ ':' :: chars j ++ memberChars ms

def itemChars : List Json → List Char
  | [] => [']']
  | j :: js => ',' :: chars j ++ itemChars js

def memberChars : List (String × Json) → List Char
  | [] => ['\x7d']
  | (k, j) :: ms => ',' :: stringChars k ++ ':' :: chars j ++ memberChars ms

end

def print (j : Json) : String :=
  String.ofList j.chars

end AmbientTypes.Json
