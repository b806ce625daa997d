import AmbientTypes.Json.ReadError

namespace AmbientTypes.Json

def isSpace (c : Char) : Bool :=
  c = ' ' || c = '\n' || c = '\t' || c = '\r'

def skipSpace (s : List Char) : List Char :=
  s.dropWhile isSpace

def word : List Char → List Char → Except ReadError (List Char)
  | [], s => .ok s
  | _ :: _, [] => failAt .endInValue []
  | e :: es, c :: s => if c = e then word es s else failIn .expectedWord (c :: s)

def hexQuad? : List Char → Option (Nat × List Char)
  | a :: b :: c :: d :: r => do
    let a ← Text.hexValue? a
    let b ← Text.hexValue? b
    let c ← Text.hexValue? c
    let d ← Text.hexValue? d
    return (((a * 16 + b) * 16 + c) * 16 + d, r)
  | _ => none

def hexQuad (s : List Char) : Except ReadError (Nat × List Char) :=
  match hexQuad? s with
  | some p => .ok p
  | none =>
    if Text.utf8Length s < 4 then failAt .endInString []
    else .error ⟨.invalidEscape, Text.utf8Length s - 4⟩

def isLeadSurrogate (n : Nat) : Bool := 0xd800 ≤ n && n ≤ 0xdbff

def isTrailSurrogate (n : Nat) : Bool := 0xdc00 ≤ n && n ≤ 0xdfff

def surrogatePair (lead : Nat) (s : List Char) : Except ReadError (Char × List Char) :=
  match s with
  | [] => failAt .endInString []
  | '\\' :: [] => failAt .endInString []
  | '\\' :: 'u' :: r => do
    let (trail, r) ← hexQuad r
    if isTrailSurrogate trail then
      return (Char.ofNat ((lead - 0xd800) * 0x400 + (trail - 0xdc00) + 0x10000), r)
    else failAt .loneSurrogate r
  | '\\' :: r => failIn .unfinishedSurrogatePair r
  | r => failIn .unfinishedSurrogatePair r

def unicodeEscape (s : List Char) : Except ReadError (Char × List Char) := do
  let (n, r) ← hexQuad s
  if isTrailSurrogate n then failAt .loneSurrogate r
  else if isLeadSurrogate n then surrogatePair n r
  else return (Char.ofNat n, r)

def escapeSequence : List Char → Except ReadError (Char × List Char)
  | [] => failAt .endInString []
  | c :: r =>
    match c with
    | '"' | '\\' | '/' => .ok (c, r)
    | 'b' => .ok (Char.ofNat 8, r)
    | 'f' => .ok (Char.ofNat 12, r)
    | 'n' => .ok ('\n', r)
    | 'r' => .ok ('\r', r)
    | 't' => .ok ('\t', r)
    | 'u' => unicodeEscape r
    | _ => failIn .invalidEscape (c :: r)

theorem hexQuad?_length {s : List Char} {p : Nat × List Char} (h : hexQuad? s = some p) :
    p.2.length < s.length := by
  unfold hexQuad? at h
  split at h
  · simp only [Option.bind_eq_bind, Option.bind_eq_some_iff, Option.pure_def,
      Option.some.injEq] at h
    obtain ⟨_, _, _, _, _, _, _, _, rfl⟩ := h
    simp only [List.length_cons]
    omega
  · simp at h

theorem hexQuad_length {s : List Char} {p : Nat × List Char} (h : hexQuad s = .ok p) :
    p.2.length < s.length := by
  unfold hexQuad at h
  split at h
  · next q hq =>
    obtain rfl : q = p := by simpa using h
    exact hexQuad?_length hq
  · split at h <;> simp [failAt] at h

theorem surrogatePair_length {lead : Nat} {s r : List Char} {c : Char}
    (h : surrogatePair lead s = .ok (c, r)) : r.length < s.length := by
  unfold surrogatePair at h
  split at h
  · simp [failAt] at h
  · simp [failAt] at h
  · next t =>
    simp only [bind, Except.bind] at h
    split at h
    · simp at h
    · next p hp =>
      have := hexQuad_length hp
      split at h
      · simp only [pure, Except.pure, Except.ok.injEq, Prod.mk.injEq] at h
        simp only [← h.2, List.length_cons]
        omega
      · simp [failAt] at h
  · simp [failIn] at h
  · simp [failIn] at h

theorem unicodeEscape_length {s r : List Char} {c : Char}
    (h : unicodeEscape s = .ok (c, r)) : r.length < s.length := by
  simp only [unicodeEscape, bind, Except.bind] at h
  split at h
  · simp at h
  · next p hp =>
    have := hexQuad_length hp
    split at h
    · simp [failAt] at h
    · split at h
      · have := surrogatePair_length h
        omega
      · simp only [pure, Except.pure, Except.ok.injEq, Prod.mk.injEq] at h
        simpa only [← h.2] using this

theorem escapeSequence_length {s r : List Char} {c : Char}
    (h : escapeSequence s = .ok (c, r)) : r.length < s.length := by
  unfold escapeSequence at h
  split at h
  · simp [failAt] at h
  · next d t =>
    split at h <;> first
      | (have hr := unicodeEscape_length h; simp only [List.length_cons]; omega)
      | (simp [failIn] at h; try simp [← h.2])

/-- The characters of a string after its opening quotation mark, put behind `done`, which is in
reverse. -/
def stringBody (done : List Char) (s : List Char) : Except ReadError (List Char × List Char) :=
  match s with
  | [] => failAt .endInString []
  | '"' :: r => .ok (done.reverse, r)
  | '\\' :: r =>
    match _h : escapeSequence r with
    | .error e => .error e
    | .ok (c, r') => stringBody (c :: done) r'
  | c :: r => if c.toNat < 32 then failIn .controlCharacter (c :: r) else stringBody (c :: done) r
termination_by s.length
decreasing_by
  · have := escapeSequence_length _h
    simp only [List.length_cons]
    omega
  · simp

def readString (s : List Char) : Except ReadError (String × List Char) := do
  let (cs, r) ← stringBody [] s
  return (String.ofList cs, r)

def absorb (bound n : Nat) : List Char → Nat × List Char
  | [] => (n, [])
  | c :: s =>
    if c.isDigit ∧ n * 10 + Text.digitValue c ≤ bound then
      absorb bound (n * 10 + Text.digitValue c) s
    else (n, c :: s)

def startsWithDigit : List Char → Bool
  | c :: _ => c.isDigit
  | [] => false

def skipDigits (s : List Char) : List Char :=
  s.dropWhile Char.isDigit

def largestSignificand : Nat := Nat.pow 2 64 - 1

def largestExponent : Nat := Nat.pow 2 31 - 1

/-- Multiplies by a power of ten, rounding after each step of at most 308 decimal places. -/
def powerOfTen (x : Binary64) (e : Int) : Nat → Option Binary64
  | 0 => some .zero
  | fuel + 1 =>
    if e.natAbs ≤ 308 then do
      let p ← Binary64.ofNat? (Nat.pow 10 e.natAbs)
      if 0 ≤ e then x.mul? p else x.div? p
    else if x.mantissa = 0 then some x
    else if 0 ≤ e then none
    else do
      let p ← Binary64.ofNat? (Nat.pow 10 308)
      let y ← x.div? p
      powerOfTen y (e + 308) fuel

def real (negative : Bool) (significand : Nat) (e : Int) (rest : List Char) :
    Except ReadError (Number × List Char) :=
  match (Binary64.ofNat? significand).bind (powerOfTen · e 5) with
  | some x => .ok (.real negative x, rest)
  | none => failAt .numberOutOfRange rest

def exponentPart (negative : Bool) (significand : Nat) (before : Int) (s : List Char) :
    Except ReadError (Number × List Char) :=
  let (down, r) := match s with
    | '+' :: r => (false, r)
    | '-' :: r => (true, r)
    | r => (false, r)
  match r with
  | [] => failAt .endInValue []
  | c :: r =>
    if !c.isDigit then failIn .invalidNumber (c :: r)
    else
      let (e, r) := absorb largestExponent (Text.digitValue c) r
      if startsWithDigit r then
        if significand ≠ 0 ∧ !down then failIn .numberOutOfRange r
        else .ok (.real negative .zero, skipDigits r)
      else real negative significand (if down then before - e else before + e) r

def exponentOrEnd (negative : Bool) (significand : Nat) (e : Int) (s : List Char) :
    Except ReadError (Number × List Char) :=
  match s with
  | 'e' :: r | 'E' :: r => exponentPart negative significand e r
  | r => real negative significand e r

def fractionPart (negative : Bool) (significand : Nat) (before : Int) (s : List Char) :
    Except ReadError (Number × List Char) :=
  let (n, r) := absorb largestSignificand significand s
  let e := before - (s.length - r.length : Nat)
  if startsWithDigit r then exponentOrEnd negative n e (skipDigits r)
  else if s.length = r.length then
    match r with
    | [] => failAt .endInValue []
    | r => failIn .invalidNumber r
  else exponentOrEnd negative n e r

/-- What may follow the integer part. Beyond 64 bits its other digits only count. -/
def afterInteger (negative : Bool) (n : Nat) (s : List Char) :
    Except ReadError (Number × List Char) :=
  let r := skipDigits s
  let dropped : Nat := s.length - r.length
  match r with
  | '.' :: r => fractionPart negative n dropped r
  | 'e' :: r | 'E' :: r => exponentPart negative n dropped r
  | r =>
    if dropped ≠ 0 then real negative n dropped r
    else if !negative then .ok (.integer n, r)
    else if n = 0 ∨ Nat.pow 2 63 < n then real true n 0 r
    else .ok (.integer (-n), r)

def readNumber (negative : Bool) (s : List Char) : Except ReadError (Number × List Char) :=
  match s with
  | [] => failAt .endInValue []
  | '0' :: r => if startsWithDigit r then failIn .invalidNumber r else afterInteger negative 0 r
  | c :: r =>
    if c.isDigit then
      let (n, r) := absorb largestSignificand 0 (c :: r)
      afterInteger negative n r
    else failIn .invalidNumber (c :: r)

end AmbientTypes.Json
