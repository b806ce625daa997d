namespace AmbientTypes.Text

/-- Closed ranges of code points, in increasing order. -/
abbrev Ranges := List (Nat × Nat)

def Ranges.contains (r : Ranges) (c : Char) : Bool :=
  r.any fun p ↦ p.1 ≤ c.toNat && c.toNat ≤ p.2

end AmbientTypes.Text
