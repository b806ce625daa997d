import AmbientTypes.Json.Reader

namespace AmbientTypes.Json

inductive Bracket
  | list
  | object
  deriving DecidableEq

namespace Bracket

def close : Bracket → Char
  | list => ']'
  | object => '\x7d'

def unclosed : Bracket → Cause
  | list => .endInList
  | object => .endInObject

def expectedComma : Bracket → Cause
  | list => .expectedListComma
  | object => .expectedObjectComma

end Bracket

def skipEscape : List Char → Except ReadError (List Char)
  | [] => failAt .endInString []
  | c :: r =>
    match c with
    | '"' | '\\' | '/' | 'b' | 'f' | 'n' | 'r' | 't' => .ok r
    | 'u' => (hexQuad r).map (·.2)
    | _ => failIn .invalidEscape (c :: r)

theorem skipEscape_length {s r : List Char} (h : skipEscape s = .ok r) : r.length < s.length := by
  unfold skipEscape at h
  split at h
  · simp [failAt] at h
  · split at h <;> first
      | (simp only [Except.map] at h
         split at h
         · simp at h
         · next p hp =>
           have := hexQuad_length hp
           simp only [Except.ok.injEq] at h
           simp only [← h, List.length_cons]
           omega)
      | (simp [failIn] at h; try simp [← h])

def skipString (s : List Char) : Except ReadError (List Char) :=
  match s with
  | [] => failAt .endInString []
  | '"' :: r => .ok r
  | '\\' :: r =>
    match _h : skipEscape r with
    | .error e => .error e
    | .ok r' => skipString r'
  | c :: r => if c.toNat < 32 then failAt .controlCharacter (c :: r) else skipString r
termination_by s.length
decreasing_by
  · have := skipEscape_length _h
    simp only [List.length_cons]
    omega
  · simp

def skipExponent (s : List Char) : Except ReadError (List Char) :=
  let r := match s with
    | '+' :: r | '-' :: r => r
    | r => r
  if startsWithDigit r then .ok (skipDigits r) else failIn .invalidNumber r

def skipFraction (s : List Char) : Except ReadError (List Char) :=
  if startsWithDigit s then
    match skipDigits s with
    | 'e' :: r | 'E' :: r => skipExponent r
    | r => .ok r
  else failIn .invalidNumber s

def skipNumber (s : List Char) : Except ReadError (List Char) :=
  let after (r : List Char) : Except ReadError (List Char) :=
    match r with
    | '.' :: r => skipFraction r
    | 'e' :: r | 'E' :: r => skipExponent r
    | r => .ok r
  match s with
  | '0' :: r => if startsWithDigit r then failIn .invalidNumber r else after r
  | s => if startsWithDigit s then after (skipDigits s) else failIn .invalidNumber s

def skipStart (s : List Char) : Except ReadError (Option Bracket × List Char) :=
  match skipSpace s with
  | [] => failIn .endInValue []
  | c :: r =>
    let done (e : Except ReadError (List Char)) : Except ReadError (Option Bracket × List Char) :=
      e.map fun r ↦ (none, r)
    match c with
    | 'n' => done (word "ull".toList r)
    | 't' => done (word "rue".toList r)
    | 'f' => done (word "alse".toList r)
    | '-' => done (skipNumber r)
    | '"' => done (skipString r)
    | '[' => .ok (some .list, r)
    | '\x7b' => .ok (some .object, r)
    | _ => if c.isDigit then done (skipNumber (c :: r)) else failIn .expectedValue (c :: r)

def skipKey (s : List Char) : Except ReadError (List Char) :=
  match skipSpace s with
  | [] => failIn .endInObject []
  | '"' :: r => do colon (← skipString r)
  | r => failIn .keyNotString r

/-- Passes over a value inside the brackets `opened`, innermost first, and on to the end of the
outermost. With `within` set it starts after the value or the opening bracket; `comma` says that
a comma may follow. -/
def skipWithin : (fuel : Nat) → (within comma : Bool) → (opened : List Bracket) →
    List Char → Except ReadError (List Char)
  | 0, _, _, _, s => failAt .endInValue s
  | _ + 1, true, _, [], s => .ok s
  | fuel + 1, true, comma, b :: opened, s =>
    match skipSpace s with
    | [] => failIn b.unclosed []
    | c :: r =>
      if comma ∧ c = ',' then
        if b = .object then do skipWithin fuel false true (b :: opened) (← skipKey r)
        else skipWithin fuel false true (b :: opened) r
      else if c = b.close then skipWithin fuel true true opened r
      else if comma then failIn b.expectedComma (c :: r)
      else if b = .object then do skipWithin fuel false true (b :: opened) (← skipKey (c :: r))
      else skipWithin fuel false true (b :: opened) (c :: r)
  | fuel + 1, false, _, opened, s => do
    match ← skipStart s with
    | (none, r) => skipWithin fuel true true opened r
    | (some b, r) => skipWithin fuel true false (b :: opened) r

def skipValue (s : List Char) : Except ReadError (List Char) :=
  skipWithin (2 * s.length + 2) false true [] s

end AmbientTypes.Json
