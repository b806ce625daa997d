namespace AmbientTypes.Text

def contains (whole part : List Char) : Bool :=
  match whole with
  | [] => part.isPrefixOf []
  | c :: s => part.isPrefixOf (c :: s) || contains s part

theorem contains_iff {whole part : List Char} : contains whole part = true ↔ part <:+: whole := by
  induction whole with
  | nil => simp [contains]
  | cons c s ih => simp [contains, ih, List.infix_cons_iff]

def after? : (start : List Char) → List Char → Option (List Char)
  | [], s => some s
  | _ :: _, [] => none
  | e :: es, c :: s => if c = e then after? es s else none

theorem after?_eq_some_iff {start s r : List Char} : after? start s = some r ↔ s = start ++ r := by
  induction start generalizing s with
  | nil => simp [after?]
  | cons e es ih =>
    cases s with
    | nil => simp [after?]
    | cons c s => by_cases h : c = e <;> simp [after?, h, ih]

end AmbientTypes.Text
