import AmbientTypes.Binary64.Basic
import AmbientTypes.Text.Digit

namespace AmbientTypes.Binary64

def places (x : Binary64) (count : Nat) : String :=
  let (a, b) := x.toRatio
  let n := roundDiv (a * Nat.pow 10 count) b
  let ds := Text.decimalDigits n
  let padded := List.replicate (count + 1 - ds.length) '0' ++ ds
  let whole := padded.length - count
  String.ofList (padded.take whole ++ ['.'] ++ padded.drop whole)

end AmbientTypes.Binary64
