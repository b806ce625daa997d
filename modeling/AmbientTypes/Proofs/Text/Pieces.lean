import AmbientTypes.Text.Pieces

namespace AmbientTypes.Text

variable {α : Type} {find : Finder α} {before : Option Char}

theorem Finder.Lawful.length_rest (h : find.Lawful) {s : List Char} {m : Match α}
    (hm : find before s = some m) : m.rest.length < s.length := by
  have htaken := List.length_pos_iff.2 (h.ne_nil hm)
  rw [← h.append hm, List.length_append]
  omega

/-- Induction along the steps of a search: over a character, or over what is found. -/
theorem Finder.Lawful.induction (h : find.Lawful) {motive : Option Char → List Char → Prop}
    (nil : ∀ before, motive before [])
    (plain : ∀ before c s, find before (c :: s) = none → motive (some c) s → motive before (c :: s))
    (found : ∀ before s m, find before s = some m → motive m.taken.getLast? m.rest →
      motive before s) (before : Option Char) (s : List Char) : motive before s := by
  induction hn : s.length using Nat.strongRecOn generalizing before s with
  | _ n ih =>
    cases s with
    | nil => exact nil before
    | cons c s =>
      cases hm : find before (c :: s) with
      | none => exact plain before c s hm (ih s.length (by simp [← hn]) (some c) s rfl)
      | some m =>
        have hlt := h.length_rest hm
        exact found before (c :: s) m hm (ih m.rest.length (by omega) m.taken.getLast? m.rest rfl)

theorem piecesFrom_eq_of_le (h : find.Lawful) {n k : Nat} {s : List Char} (hn : s.length ≤ n)
    (hk : s.length ≤ k) : piecesFrom find n before s = piecesFrom find k before s := by
  induction n generalizing k before s with
  | zero =>
    obtain rfl := List.length_eq_zero_iff.1 (Nat.le_zero.1 hn)
    cases k <;> rfl
  | succ n ih =>
    cases s with
    | nil => cases k <;> rfl
    | cons c s =>
      cases k with
      | zero => simp at hk
      | succ k =>
        simp only [piecesFrom]
        split
        · next m hm =>
          have hlt := h.length_rest hm
          rw [ih (k := k) (by omega) (by omega)]
        · rw [List.length_cons] at hn hk
          rw [ih (k := k) (by omega) (by omega)]

def piecesBehind (find : Finder α) (before : Option Char) (s : List Char) : List (Piece α) :=
  piecesFrom find s.length before s

theorem pieces_eq (find : Finder α) (s : List Char) :
    pieces find s = piecesBehind find none s := rfl

theorem piecesBehind_of_none {c : Char} {s : List Char} (h : find before (c :: s) = none) :
    piecesBehind find before (c :: s) = .plain c :: piecesBehind find (some c) s := by
  rw [piecesBehind, List.length_cons, piecesFrom, h, piecesBehind]

theorem piecesBehind_of_some (h : find.Lawful) {s : List Char} {m : Match α}
    (hm : find before s = some m) :
    piecesBehind find before s =
      .found m.value m.taken :: piecesBehind find m.taken.getLast? m.rest := by
  have hlt := h.length_rest hm
  cases s with
  | nil => simp at hlt
  | cons c s =>
    rw [piecesBehind, List.length_cons, piecesFrom, hm]
    rw [List.length_cons] at hlt
    exact congrArg _ (piecesFrom_eq_of_le h (by omega) (Nat.le_refl _))

end AmbientTypes.Text
