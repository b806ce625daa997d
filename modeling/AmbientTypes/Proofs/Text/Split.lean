import AmbientTypes.Text.Split

namespace AmbientTypes.Text

variable {mark : Char}

theorem splitAt_cons_mark (s : List Char) : splitAt mark (mark :: s) = [] :: splitAt mark s := by
  simp [splitAt]

theorem splitAt_cons_of_ne {c : Char} (h : c ≠ mark) {s p : List Char} {ps : List (List Char)}
    (hs : splitAt mark s = p :: ps) : splitAt mark (c :: s) = (c :: p) :: ps := by
  simp [splitAt, h, hs]

theorem splitAt_append_mark (s t : List Char) :
    splitAt mark (s ++ mark :: t) = splitAt mark s ++ splitAt mark t := by
  induction s with
  | nil => simp [splitAt]
  | cons c s ih =>
    by_cases h : c = mark
    · simp [splitAt, h, ih]
    · obtain ⟨p, ps, hs⟩ := List.exists_cons_of_ne_nil (splitAt_ne_nil mark s)
      have ht : splitAt mark (s ++ mark :: t) = p :: (ps ++ splitAt mark t) := by
        rw [ih, hs, List.cons_append]
      rw [List.cons_append, splitAt_cons_of_ne h hs, splitAt_cons_of_ne h ht, List.cons_append]

theorem splitAt_eq_singleton {s : List Char} (h : mark ∉ s) : splitAt mark s = [s] := by
  induction s with
  | nil => rfl
  | cons c s ih =>
    rw [List.mem_cons, not_or] at h
    exact splitAt_cons_of_ne (fun hc ↦ h.1 hc.symm) (ih h.2)

theorem not_mem_of_mem_splitAt {s p : List Char} (h : p ∈ splitAt mark s) : mark ∉ p := by
  induction s generalizing p with
  | nil =>
    obtain rfl : p = [] := by simpa [splitAt] using h
    simp
  | cons c s ih =>
    by_cases hc : c = mark
    · rw [hc, splitAt_cons_mark, List.mem_cons] at h
      rcases h with rfl | h
      · simp
      · exact ih h
    · obtain ⟨q, qs, hs⟩ := List.exists_cons_of_ne_nil (splitAt_ne_nil mark s)
      rw [splitAt_cons_of_ne hc hs, List.mem_cons] at h
      rcases h with rfl | h
      · have hq : mark ∉ q := ih (by simp [hs])
        simp only [List.mem_cons, not_or]
        exact ⟨fun h ↦ hc h.symm, hq⟩
      · exact ih (by simp [hs, h])

theorem splitAt_joinWith {ps : List (List Char)} (hne : ps ≠ []) (h : ∀ p ∈ ps, mark ∉ p) :
    splitAt mark (joinWith mark ps) = ps := by
  induction ps with
  | nil => exact absurd rfl hne
  | cons p ps ih =>
    have hp := splitAt_eq_singleton (h p (by simp))
    cases ps with
    | nil => exact hp
    | cons q qs =>
      rw [joinWith, splitAt_append_mark, hp, ih (by simp) fun r hr ↦ h r (by simp [hr])]
      · rfl
      · simp

theorem splitAt_flatMap {ps : List (List Char)} (h : ∀ p ∈ ps, mark ∉ p) :
    splitAt mark (ps.flatMap (· ++ [mark])) = ps ++ [[]] := by
  induction ps with
  | nil => rfl
  | cons p ps ih =>
    obtain ⟨hp, hps⟩ := List.forall_mem_cons.1 h
    rw [List.flatMap_cons, List.append_assoc, List.singleton_append, splitAt_append_mark,
      splitAt_eq_singleton hp, ih hps]
    rfl

theorem prefix_joinWith {ps qs : List (List Char)} (h : ps <+: qs) :
    joinWith mark ps <+: joinWith mark qs := by
  obtain ⟨ts, rfl⟩ := h
  induction ps with
  | nil => exact List.nil_prefix
  | cons p ps ih =>
    cases ps with
    | nil =>
      cases ts with
      | nil => exact List.prefix_refl p
      | cons t ts => exact List.prefix_append p _
    | cons q ps =>
      have hjoin (rs : List (List Char)) :
          joinWith mark (p :: q :: rs) = p ++ mark :: joinWith mark (q :: rs) := rfl
      rw [List.cons_append, List.cons_append, hjoin, hjoin, List.prefix_append_right_inj]
      exact List.cons_prefix_cons.2 ⟨rfl, ih⟩

theorem prefix_head_splitAt {p q s : List Char} {qs : List (List Char)} (hp : mark ∉ p)
    (hs : splitAt mark s = q :: qs) : p <+: s ↔ p <+: q := by
  induction s generalizing p q qs with
  | nil =>
    obtain ⟨rfl, rfl⟩ : [] = q ∧ [] = qs := by simpa [splitAt] using hs
    rfl
  | cons c s ih =>
    cases p with
    | nil => simp
    | cons d p =>
      rw [List.mem_cons, not_or] at hp
      by_cases hc : c = mark
      · rw [hc, splitAt_cons_mark] at hs
        obtain ⟨rfl, -⟩ := List.cons.inj hs
        simp [hc, Ne.symm hp.1]
      · obtain ⟨r, rs, hr⟩ := List.exists_cons_of_ne_nil (splitAt_ne_nil mark s)
        rw [splitAt_cons_of_ne hc hr] at hs
        obtain ⟨rfl, rfl⟩ := List.cons.inj hs
        rw [List.cons_prefix_cons, List.cons_prefix_cons, ih hp.2 hr]

/-- A text without marks lies inside one piece. -/
theorem infix_iff_of_not_mem {p s : List Char} (hp : mark ∉ p) :
    p <:+: s ↔ ∃ q ∈ splitAt mark s, p <:+: q := by
  induction s with
  | nil => simp [splitAt]
  | cons c s ih =>
    by_cases hc : c = mark
    · rw [hc, splitAt_cons_mark, List.infix_cons_iff, ih,
        prefix_head_splitAt hp (splitAt_cons_mark s)]
      simp
    · obtain ⟨q, qs, hs⟩ := List.exists_cons_of_ne_nil (splitAt_ne_nil mark s)
      rw [List.infix_cons_iff, ih, prefix_head_splitAt hp (splitAt_cons_of_ne hc hs),
        splitAt_cons_of_ne hc hs, hs]
      simp only [List.mem_cons, exists_eq_or_imp, List.infix_cons_iff, or_assoc]

theorem joinWith_cons (p : List Char) (ps : List (List Char)) :
    joinWith mark (p :: ps) = p ++ ps.flatMap (mark :: ·) := by
  induction ps generalizing p with
  | nil => simp [joinWith]
  | cons q ps ih => rw [joinWith, ih, List.flatMap_cons, List.cons_append]; simp

theorem joinWith_append {ps qs : List (List Char)} (hp : ps ≠ []) (hq : qs ≠ []) :
    joinWith mark (ps ++ qs) = joinWith mark ps ++ mark :: joinWith mark qs := by
  induction ps with
  | nil => exact absurd rfl hp
  | cons p ps ih =>
    obtain ⟨q, qs, rfl⟩ := List.exists_cons_of_ne_nil hq
    cases ps with
    | nil => rfl
    | cons r ps =>
      have hjoin (rs : List (List Char)) :
          joinWith mark (p :: r :: rs) = p ++ mark :: joinWith mark (r :: rs) := rfl
      rw [List.cons_append, List.cons_append, hjoin, hjoin, ← List.cons_append, ih (by simp),
        List.append_assoc, List.cons_append]

/-- The last pieces of a text are those of the text itself or of what follows a mark in it. -/
theorem splitAt_suffix_iff {p s : List Char} :
    splitAt mark p <:+ splitAt mark s ↔ p = s ∨ (mark :: p) <:+ s := by
  constructor
  · rintro ⟨ps, hps⟩
    have htext := joinWith_splitAt mark s
    rw [← hps] at htext
    by_cases hnil : ps = []
    · rw [hnil, List.nil_append, joinWith_splitAt] at htext
      exact .inl htext
    · rw [joinWith_append hnil (splitAt_ne_nil mark p), joinWith_splitAt] at htext
      exact .inr ⟨_, htext⟩
  · rintro (rfl | ⟨u, rfl⟩)
    · exact List.suffix_refl _
    · rw [splitAt_append_mark]
      exact List.suffix_append _ _

end AmbientTypes.Text
