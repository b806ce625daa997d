import AmbientTypes.Proofs.Tree.Directories

namespace AmbientTypes

theorem Text.utf8Length_le (s : List Char) : utf8Length s ≤ 4 * s.length := by
  induction s with
  | nil => exact Nat.le_refl _
  | cons c s ih =>
    have hc := c.utf8Size_le_four
    rw [utf8Length_cons, List.length_cons]
    omega

theorem Text.utf8Length_le_of_sublist {s t : List Char} (h : s.Sublist t) :
    utf8Length s ≤ utf8Length t := by
  induction h with
  | slnil => exact Nat.le_refl _
  | cons c _ ih => exact Nat.le_trans ih (Nat.le_add_left _ _)
  | cons_cons c _ ih => exact Nat.add_le_add_left ih _

namespace Files

open AmbientTypes.Path (IsName join directory)

variable {dir path s t : String}

theorem pathFault?_eq_none : pathFault? path = none ↔
    '\x00' ∉ path.toList ∧ path ≠ "" ∧ utf8Size path ≤ longestPath := by
  unfold pathFault?
  by_cases hnul : '\x00' ∈ path.toList
  · simp [hnul]
  by_cases hempty : path = ""
  · simp [hempty]
  by_cases hsize : longestPath < utf8Size path
  · simp [hnul, hempty, hsize, Nat.not_le.2 hsize]
  · simp [hnul, hempty, hsize, Nat.not_lt.1 hsize]

theorem utf8Size_append (s t : String) : utf8Size (s ++ t) = utf8Size s + utf8Size t := by
  rw [utf8Size, String.toList_append, Text.utf8Length_append, utf8Size, utf8Size]

theorem utf8Size_join (dir : String) (hs : IsName s) :
    utf8Size (join dir s) ≤ utf8Size dir + 1 + utf8Size s := by
  have hslash : utf8Size "/" = 1 := by decide
  rcases Path.join_of_relative dir hs.isAbsolute_eq_false with ⟨hj, -⟩ | hj
  · rw [hj, utf8Size_append]
    omega
  · rw [hj, utf8Size_append, utf8Size_append, hslash]

theorem not_mem_join (hdir : '\x00' ∉ dir.toList) (hs : IsName s) (hnul : '\x00' ∉ s.toList) :
    '\x00' ∉ (join dir s).toList := by
  have hslash : '\x00' ∉ "/".toList := by decide
  rcases Path.join_of_relative dir hs.isAbsolute_eq_false with ⟨hj, -⟩ | hj
  · rw [hj, String.toList_append, List.mem_append, not_or]
    exact ⟨hdir, hnul⟩
  · rw [hj, String.toList_append, String.toList_append, List.mem_append, List.mem_append, not_or,
      not_or]
    exact ⟨⟨hdir, hslash⟩, hnul⟩

theorem directory_cases (path : String) :
    directory path = "." ∨ (directory path).toList <+: path.toList := by
  unfold directory
  split
  · next p hp =>
    split
    · exact .inl rfl
    · exact .inr (Path.prefix_of_parent? hp)
  · exact .inl rfl

theorem utf8Size_directory (path : String) :
    utf8Size (directory path) ≤ max 1 (utf8Size path) := by
  rcases directory_cases path with h | ⟨u, hu⟩
  · have hdot : utf8Size "." = 1 := by decide
    rw [h, hdot]
    exact Nat.le_max_left _ _
  · refine Nat.le_trans ?_ (Nat.le_max_right _ _)
    rw [utf8Size, utf8Size, ← hu, Text.utf8Length_append]
    exact Nat.le_add_right _ _

theorem not_mem_directory (h : '\x00' ∉ path.toList) : '\x00' ∉ (directory path).toList := by
  rcases directory_cases path with hdot | hpre
  · rw [hdot]
    decide
  · exact fun hmem ↦ h (hpre.subset hmem)

theorem directory_ne_empty (path : String) : directory path ≠ "" := by
  unfold directory
  split
  · split
    · decide
    · assumption
  · decide

structure IsShort (s : String) : Prop where
  isName : IsName s
  no_nul : '\x00' ∉ s.toList
  size : utf8Size s ≤ longestName

theorem fits_of_size (hdir : '\x00' ∉ dir.toList)
    (hsize : utf8Size dir + 1 + longestName ≤ longestPath) (hs : IsShort s) : Fits dir s := by
  have hjoin := utf8Size_join dir hs.isName
  have hname := hs.size
  exact ⟨pathFault?_eq_none.2 ⟨not_mem_join hdir hs.isName hs.no_nul,
    join_ne_empty dir hs.isName, by omega⟩, hname⟩

/-- The path of a directory leaves room for two names. -/
structure IsRoomy (dir : String) : Prop where
  no_nul : '\x00' ∉ dir.toList
  ne_empty : dir ≠ ""
  size : utf8Size dir + 2 * (1 + longestName) ≤ longestPath

namespace IsRoomy

variable (h : IsRoomy dir)
include h

theorem pathFault?_eq_none : pathFault? dir = none := by
  have hsize := h.size
  exact Files.pathFault?_eq_none.2 ⟨h.no_nul, h.ne_empty, by omega⟩

theorem fits (hs : IsShort s) : Fits dir s := by
  have hsize := h.size
  exact fits_of_size h.no_nul (by omega) hs

/-- The directory of a file in it may be spelt in another way, but no longer than the file. -/
theorem directory_join (hs : IsShort s) : pathFault? (directory (join dir s)) = none ∧
    ∀ t, IsShort t → Fits (directory (join dir s)) t := by
  have hnul := not_mem_directory (not_mem_join h.no_nul hs.isName hs.no_nul)
  have hdirectory := utf8Size_directory (join dir s)
  have hjoin := utf8Size_join dir hs.isName
  have hname := hs.size
  have hsize := h.size
  refine ⟨Files.pathFault?_eq_none.2 ⟨hnul, directory_ne_empty _, ?_⟩,
    fun t ht ↦ fits_of_size hnul ?_ ht⟩ <;> omega

end IsRoomy

end Files

end AmbientTypes
