namespace AmbientTypes.Text

def splitAt (mark : Char) : List Char → List (List Char)
  | [] => [[]]
  | c :: s =>
    if c = mark then [] :: splitAt mark s
    else
      match splitAt mark s with
      | [] => [[c]]
      | p :: ps => (c :: p) :: ps

def joinWith (mark : Char) : List (List Char) → List Char
  | [] => []
  | [p] => p
  | p :: ps => p ++ mark :: joinWith mark ps

theorem splitAt_ne_nil (mark : Char) (s : List Char) : splitAt mark s ≠ [] := by
  cases s with
  | nil => simp [splitAt]
  | cons c s =>
    simp only [splitAt]
    split
    · simp
    · split <;> simp

theorem joinWith_splitAt (mark : Char) (s : List Char) : joinWith mark (splitAt mark s) = s := by
  induction s with
  | nil => rfl
  | cons c s ih =>
    have hne := splitAt_ne_nil mark s
    cases hs : splitAt mark s with
    | nil => exact absurd hs hne
    | cons p ps =>
      rw [hs] at ih
      simp only [splitAt, hs]
      split
      · next h => simp [joinWith, h, ih]
      · cases ps with
        | nil => simpa [joinWith] using ih
        | cons q qs => simpa [joinWith] using ih

end AmbientTypes.Text
