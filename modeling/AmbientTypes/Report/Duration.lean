import AmbientTypes.Binary64.Places

namespace AmbientTypes

structure Duration where
  seconds : Nat
  nanos : Nat
  deriving DecidableEq, Repr

namespace Duration

def toSeconds? (d : Duration) : Option Binary64 := do
  let s ← Binary64.ofNat? d.seconds
  let n ← Binary64.ofNat? d.nanos
  let billion ← Binary64.ofNat? (Nat.pow 10 9)
  s.add? (← n.div? billion)

def isBelow (x : Binary64) (n : Nat) : Bool :=
  let (a, b) := x.toRatio
  a < n * b

def render (d : Duration) : String :=
  match d.toSeconds? with
  | none => ""
  | some s =>
    if isBelow s 60 then s.places 2 ++ "s"
    else
      match (Binary64.ofNat? 60).bind s.div? with
      | none => ""
      | some m => m.places 1 ++ "m"

end Duration

end AmbientTypes
