import AmbientTypes.Proofs.Text.Lines

namespace AmbientTypes.Text

variable {s : List Char}

theorem prefix_trimEnd (s : List Char) : trimEnd s <+: s := by
  rw [trimEnd, ← List.reverse_suffix, List.reverse_reverse]
  exact List.dropWhile_suffix _

theorem suffix_trimStart (s : List Char) : trimStart s <:+ s := List.dropWhile_suffix _

theorem head_trimStart (s : List Char) : ∀ c ∈ (trimStart s).head?, isBlank c = false := by
  intro c hc
  have hhead := List.head?_dropWhile_not isBlank s
  rw [show (s.dropWhile isBlank).head? = some c from hc] at hhead
  exact hhead

theorem trimStart_trimEnd (s : List Char) : trimStart (trimEnd s) = trim s := by
  have hs : s.takeWhile isBlank ++ trimStart s = s := List.takeWhile_append_dropWhile
  have hblank : ∀ c ∈ s.takeWhile isBlank, isBlank c = true :=
    fun c hc ↦ List.all_eq_true.1 List.all_takeWhile c hc
  cases hrest : trimStart s with
  | nil =>
    rw [trim, hrest, trimEnd_eq_nil.2 (trimStart_eq_nil.1 hrest)]
    rfl
  | cons c r =>
    have hc : isBlank c = false := head_trimStart s c (by rw [hrest]; rfl)
    have hend : trimEnd (c :: r) = c :: trimEnd r := trimEnd_cons hc r
    rw [← hs, hrest, trimEnd_append_of_ne_nil _ (by simp [hend]), trimStart_append_blank hblank,
      trim, trimStart_append_blank hblank, hend]
    simp [trimStart, hc, hend]

theorem trimStart_eq_self : trimStart s = s ↔ ∀ c ∈ s.head?, isBlank c = false := by
  constructor
  · intro h
    rw [← h]
    exact head_trimStart s
  · intro h
    cases s with
    | nil => rfl
    | cons c s => exact List.dropWhile_cons_of_neg (by simp [h c rfl])

theorem trimEnd_eq_self : trimEnd s = s ↔ ∀ c ∈ s.getLast?, isBlank c = false := by
  rw [← List.head?_reverse, ← trimStart_eq_self, trimStart, trimEnd, List.reverse_eq_iff]

theorem trim_eq_self : trim s = s ↔
    (∀ c ∈ s.head?, isBlank c = false) ∧ ∀ c ∈ s.getLast?, isBlank c = false := by
  rw [← trimStart_eq_self, ← trimEnd_eq_self]
  constructor
  · intro h
    have hlength := (prefix_trimEnd (trimStart s)).length_le
    rw [← trim, h] at hlength
    have hstart := (suffix_trimStart s).eq_of_length_le hlength
    rw [trim, hstart] at h
    exact ⟨hstart, h⟩
  · rintro ⟨hstart, hend⟩
    rw [trim, hstart, hend]

end AmbientTypes.Text
