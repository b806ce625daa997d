import AmbientTypes.Proofs.Text.Split
import AmbientTypes.Text.Blank
import AmbientTypes.Text.Lines

namespace AmbientTypes.Text

theorem trimEnd_append_blank (s : List Char) {t : List Char} (h : ∀ c ∈ t, isBlank c = true) :
    trimEnd (s ++ t) = trimEnd s := by
  rw [trimEnd, List.reverse_append, List.dropWhile_append_of_pos, trimEnd]
  intro c hc
  exact h c (List.mem_reverse.1 hc)

theorem trimEnd_append_of_ne_nil (s : List Char) {t : List Char} (h : trimEnd t ≠ []) :
    trimEnd (s ++ t) = s ++ trimEnd t := by
  have hdrop : ¬ (t.reverse.dropWhile isBlank).isEmpty = true := by simpa [trimEnd] using h
  rw [trimEnd, List.reverse_append, List.dropWhile_append, if_neg hdrop, List.reverse_append,
    List.reverse_reverse, trimEnd]

theorem trimEnd_cons {c : Char} (hc : isBlank c = false) (s : List Char) :
    trimEnd (c :: s) = c :: trimEnd s := by
  by_cases hs : trimEnd s = []
  · have hblank := trimEnd_append_blank [c] (trimEnd_eq_nil.1 hs)
    rw [hs, ← List.singleton_append, hblank]
    simp [trimEnd, hc]
  · exact trimEnd_append_of_ne_nil [c] hs

theorem trimStart_append_blank {s : List Char} (h : ∀ c ∈ s, isBlank c = true) (t : List Char) :
    trimStart (s ++ t) = trimStart t :=
  List.dropWhile_append_of_pos h

theorem trimEnd_closedLine (l : List Char) : trimEnd (closedLine l) = trimEnd l.reverse := by
  fun_cases closedLine l with
  | case1 l =>
    rw [List.reverse_cons, trimEnd_append_blank]
    intro c hc
    rw [List.mem_singleton.1 hc]
    decide
  | case2 l hl => rfl

theorem foldl_linesFrom {α : Type} {f : α → List Char → α}
    (htrim : ∀ a l l', trimEnd l = trimEnd l' → f a l = f a l') (hnil : ∀ a, f a [] = a)
    {s p : List Char} {ps : List (List Char)} (hs : splitAt '\n' s = p :: ps) (line : List Char)
    (a : α) : (linesFrom line s).foldl f a = ((line.reverse ++ p) :: ps).foldl f a := by
  induction s generalizing p ps line a with
  | nil =>
    obtain ⟨rfl, rfl⟩ : [] = p ∧ [] = ps := by simpa [splitAt] using hs
    rw [linesFrom]
    split
    · next hline => simp [hline, hnil]
    · simp
  | cons c s ih =>
    obtain ⟨q, qs, hq⟩ := List.exists_cons_of_ne_nil (splitAt_ne_nil '\n' s)
    rw [linesFrom]
    split
    · next hc =>
      rw [hc, splitAt_cons_mark, hq] at hs
      obtain ⟨rfl, rfl⟩ := List.cons.inj hs
      rw [List.foldl_cons, List.foldl_cons, ih hq, List.append_nil,
        htrim a _ _ (trimEnd_closedLine line)]
      rfl
    · next hc =>
      rw [splitAt_cons_of_ne hc hq] at hs
      obtain ⟨rfl, rfl⟩ := List.cons.inj hs
      rw [ih hq, List.reverse_cons, List.append_assoc]
      rfl

theorem foldl_lines {α : Type} {f : α → List Char → α}
    (htrim : ∀ a l l', trimEnd l = trimEnd l' → f a l = f a l') (hnil : ∀ a, f a [] = a)
    (s : List Char) (a : α) : (lines s).foldl f a = (splitAt '\n' s).foldl f a := by
  obtain ⟨p, ps, hs⟩ := List.exists_cons_of_ne_nil (splitAt_ne_nil '\n' s)
  rw [lines, foldl_linesFrom htrim hnil hs, hs]
  rfl

end AmbientTypes.Text
