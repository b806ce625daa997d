namespace AmbientTypes

def roundDiv (num den : Nat) : Nat :=
  let q := num / den
  let r := 2 * (num % den)
  if r < den then q else if den < r then q + 1 else q + q % 2

/-- The number `mantissa * 2 ^ exponent`. -/
structure Binary64 where
  mantissa : Nat
  exponent : Int
  deriving DecidableEq, Repr

namespace Binary64

def leastExponent : Int := -1074

def zero : Binary64 := ⟨0, leastExponent⟩

def scale (num den : Nat) (e : Int) : Nat × Nat :=
  (num * Nat.pow 2 (-e).toNat, den * Nat.pow 2 e.toNat)

/-- Moves a mantissa of 54 bits, which rounding up can give, to the next exponent. -/
def normalize (x : Binary64) : Binary64 :=
  if x.mantissa = Nat.pow 2 53 then ⟨Nat.pow 2 52, x.exponent + 1⟩ else x

def exponentOf (num den : Nat) : Int :=
  let e := max leastExponent ((num.log2 : Int) - den.log2 - 53)
  let s := scale num den e
  if s.1 / s.2 < Nat.pow 2 53 then e else e + 1

/-- The nearest number to `num / den`; none where that is beyond the largest. -/
def ofRatio? (num den : Nat) : Option Binary64 :=
  let e := exponentOf num den
  let s := scale num den e
  let x := normalize ⟨roundDiv s.1 s.2, e⟩
  if x.mantissa = 0 then some zero else if x.exponent ≤ 971 then some x else none

def toRatio (x : Binary64) : Nat × Nat :=
  (x.mantissa * Nat.pow 2 x.exponent.toNat, Nat.pow 2 (-x.exponent).toNat)

def ofNat? (n : Nat) : Option Binary64 :=
  ofRatio? n 1

def add? (x y : Binary64) : Option Binary64 :=
  let (a, b) := x.toRatio
  let (c, d) := y.toRatio
  ofRatio? (a * d + c * b) (b * d)

def mul? (x y : Binary64) : Option Binary64 :=
  let (a, b) := x.toRatio
  let (c, d) := y.toRatio
  ofRatio? (a * c) (b * d)

def div? (x y : Binary64) : Option Binary64 :=
  let (a, b) := x.toRatio
  let (c, d) := y.toRatio
  ofRatio? (a * d) (b * c)

end Binary64

end AmbientTypes
