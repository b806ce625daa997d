import AmbientTypes.Binary64.Basic
import AmbientTypes.Text.Digit

namespace AmbientTypes

structure Decimal where
  digits : Nat
  exponent : Int
  deriving DecidableEq, Repr

namespace Binary64

/-- Numerators of the least real, the number itself and the greatest real that round to it, over
one denominator. -/
def interval (x : Binary64) : Nat × Nat × Nat × Nat :=
  let up := Nat.pow 2 x.exponent.toNat
  let below := if x.mantissa = Nat.pow 2 52 ∧ leastExponent < x.exponent then 1 else 2
  ((4 * x.mantissa - below) * up, 4 * x.mantissa * up, (4 * x.mantissa + 2) * up,
    4 * Nat.pow 2 (-x.exponent).toNat)

def roundsTo (x : Binary64) (num den : Nat) : Bool :=
  let (lo, _, hi, d) := x.interval
  if x.mantissa % 2 = 0 then lo * den ≤ num * d && num * d ≤ hi * den
  else lo * den < num * d && num * d < hi * den

def decimalRatio (c : Nat) (k : Int) : Nat × Nat :=
  (c * Nat.pow 10 k.toNat, Nat.pow 10 (-k).toNat)

def reach (a b : Nat) : Nat → Nat → Nat
  | 0, n => n
  | fuel + 1, n => if b ≤ a * Nat.pow 10 n then n else reach a b fuel (n + 1)

def leadingExponent (x : Binary64) : Int :=
  let (a, b) := x.toRatio
  if b ≤ a then ((Text.decimalDigits (a / b)).length : Int) - 1 else -(reach a b 400 1 : Int)

def nearestAt (x : Binary64) (k : Int) : Option Decimal :=
  let (a, b) := x.toRatio
  let num := a * Nat.pow 10 (-k).toNat
  let den := b * Nat.pow 10 k.toNat
  let f := num / den
  let ok (c : Nat) := let (n, d) := decimalRatio c k; x.roundsTo n d
  let r := 2 * (num % den)
  let near := if r < den ∨ (r = den ∧ f % 2 = 0) then f else f + 1
  let far := if near = f then f + 1 else f
  if ok near then some ⟨near, k⟩ else if ok far then some ⟨far, k⟩ else none

def shortestFrom (x : Binary64) (lead : Int) : Nat → Nat → Decimal
  | 0, n => ⟨0, lead - n⟩
  | fuel + 1, n => (x.nearestAt (lead - n)).getD (shortestFrom x lead fuel (n + 1))

def dropZeros : Nat → Decimal → Decimal
  | 0, d => d
  | fuel + 1, d =>
    if d.digits % 10 = 0 ∧ d.digits ≠ 0 then dropZeros fuel ⟨d.digits / 10, d.exponent + 1⟩ else d

def shortest (x : Binary64) : Decimal :=
  if x.mantissa = 0 then ⟨0, 0⟩ else dropZeros 20 (shortestFrom x x.leadingExponent 18 0)

end Binary64

structure DecimalLayout where
  leastPositional : Int
  mostPositional : Int

/-- Zeros fill up to the unit; a whole number keeps one zero after the point; exponents carry a
sign. -/
def DecimalLayout.render (layout : DecimalLayout) (d : Decimal) : String :=
  let ds := Text.decimalDigits d.digits
  let point := (ds.length : Int) + d.exponent
  let lead := point - 1
  String.ofList <|
    if layout.leastPositional ≤ lead ∧ lead ≤ layout.mostPositional then
      if 0 ≤ d.exponent then ds ++ List.replicate d.exponent.toNat '0' ++ ['.', '0']
      else if 0 < point then ds.take point.toNat ++ ['.'] ++ ds.drop point.toNat
      else ['0', '.'] ++ List.replicate (-point).toNat '0' ++ ds
    else
      ds.take 1 ++ (if ds.length = 1 then [] else '.' :: ds.drop 1) ++
        ['e', if lead < 0 then '-' else '+'] ++ Text.decimalDigits lead.natAbs

end AmbientTypes
