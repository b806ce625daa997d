namespace AmbientTypes.Text

def utf8Length (s : List Char) : Nat :=
  s.foldr (fun c n ↦ c.utf8Size + n) 0

@[simp] theorem utf8Length_nil : utf8Length [] = 0 := rfl

@[simp] theorem utf8Length_cons (c : Char) (s : List Char) :
    utf8Length (c :: s) = c.utf8Size + utf8Length s := rfl

@[simp] theorem utf8Length_append (s t : List Char) :
    utf8Length (s ++ t) = utf8Length s + utf8Length t := by
  induction s with
  | nil => simp
  | cons c s ih => simp [ih, Nat.add_assoc]

def ofUtf8? (b : ByteArray) : Option String :=
  String.fromUTF8? b

@[simp] theorem ofUtf8?_toUTF8 (s : String) : ofUtf8? s.toUTF8 = some s := by
  simp [ofUtf8?, String.fromUTF8?]
  exact ⟨s.isValidUTF8, rfl⟩

def replacementChar : Char := Char.ofNat 0xfffd

def isContinuation (b : UInt8) : Bool :=
  0x80 ≤ b && b ≤ 0xbf

def isSecondOfThree (a b : UInt8) : Bool :=
  isContinuation b && (a != 0xe0 || 0xa0 ≤ b) && (a != 0xed || b ≤ 0x9f)

def isSecondOfFour (a b : UInt8) : Bool :=
  isContinuation b && (a != 0xf0 || 0x90 ≤ b) && (a != 0xf4 || b ≤ 0x8f)

def assemble (width : Nat) (a : UInt8) (bs : List UInt8) : Char :=
  Char.ofNat (bs.foldl (fun n b ↦ n * 64 + b.toNat % 64) (a.toNat % Nat.pow 2 width))

def lenientChar (a : UInt8) (r : List UInt8) : Char × Nat :=
  if a < 0x80 then (Char.ofNat a.toNat, 1)
  else if 0xc2 ≤ a && a ≤ 0xdf then
    match r with
    | b :: _ => if isContinuation b then (assemble 5 a [b], 2) else (replacementChar, 1)
    | [] => (replacementChar, 1)
  else if 0xe0 ≤ a && a ≤ 0xef then
    match r with
    | b :: c :: _ =>
      if !isSecondOfThree a b then (replacementChar, 1)
      else if isContinuation c then (assemble 4 a [b, c], 3)
      else (replacementChar, 2)
    | [b] => (replacementChar, if isSecondOfThree a b then 2 else 1)
    | [] => (replacementChar, 1)
  else if 0xf0 ≤ a && a ≤ 0xf4 then
    match r with
    | b :: c :: d :: _ =>
      if !isSecondOfFour a b then (replacementChar, 1)
      else if !isContinuation c then (replacementChar, 2)
      else if isContinuation d then (assemble 3 a [b, c, d], 4)
      else (replacementChar, 3)
    | [b, c] =>
      (replacementChar, if !isSecondOfFour a b then 1 else if isContinuation c then 3 else 2)
    | [b] => (replacementChar, if isSecondOfFour a b then 2 else 1)
    | [] => (replacementChar, 1)
  else (replacementChar, 1)

def lenientChars (skip : Nat) : List UInt8 → List Char
  | [] => []
  | a :: r =>
    match skip with
    | n + 1 => lenientChars n r
    | 0 => (lenientChar a r).1 :: lenientChars ((lenientChar a r).2 - 1) r

/-- One replacement character stands for each longest beginning of a character that goes wrong. -/
def lenient (b : ByteArray) : String :=
  String.ofList (lenientChars 0 b.toList)

end AmbientTypes.Text
