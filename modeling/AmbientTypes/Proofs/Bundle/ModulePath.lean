import AmbientTypes.Bundle.ModulePath
import AmbientTypes.Proofs.Path.Components

namespace AmbientTypes.ModulePath

variable {path wanted s t z r : List Char}

theorem endsWith_iff : endsWith path wanted = true ↔
    Path.splitSlash wanted <:+ Path.splitSlash path := by
  rw [Path.splitSlash, Text.splitAt_suffix_iff, endsWith, Bool.or_eq_true, decide_eq_true_iff,
    List.isSuffixOf_iff_suffix, eq_comm]

theorem endsWith_iff_eq_or_suffix : endsWith path wanted = true ↔
    path = wanted ∨ '/' :: wanted <:+ path := by
  rw [endsWith, Bool.or_eq_true, decide_eq_true_iff, List.isSuffixOf_iff_suffix]

theorem endsWith_refl (s : List Char) : endsWith s s = true :=
  endsWith_iff.2 (List.suffix_refl _)

theorem endsWith_append (z t : List Char) : endsWith (z ++ '/' :: t) t = true :=
  endsWith_iff_eq_or_suffix.2 (.inr (List.suffix_append z _))

theorem endsWith_trans (h : endsWith s t = true) (ht : endsWith t wanted = true) :
    endsWith s wanted = true :=
  endsWith_iff.2 ((endsWith_iff.1 ht).trans (endsWith_iff.1 h))

theorem before?_eq_some {ending : List Char} : before? ending s = some r ↔ s = r ++ ending := by
  unfold before?
  constructor
  · intro h
    split at h
    · next hs =>
      obtain ⟨u, rfl⟩ := List.isSuffixOf_iff_suffix.1 hs
      simpa using h
    · cases h
  · rintro rfl
    rw [if_pos (List.isSuffixOf_iff_suffix.2 (List.suffix_append _ _))]
    simp

theorem answers_iff : answers path wanted = true ↔
    Path.splitSlash wanted <:+ Path.splitSlash path ∨
      ∃ folder, Path.splitSlash path = folder ++ ["index".toList] ∧
        Path.splitSlash wanted <:+ folder := by
  have hindex : Text.splitAt '/' "index".toList = ["index".toList] := rfl
  have hsplit (dir : List Char) :
      Path.splitSlash (dir ++ "/index".toList) = Path.splitSlash dir ++ ["index".toList] := by
    rw [← hindex]
    exact Text.splitAt_append_mark dir _
  rw [answers, Bool.or_eq_true, endsWith_iff]
  refine or_congr_right ⟨fun h ↦ ?_, ?_⟩
  · split at h
    · next dir hdir =>
      obtain rfl := before?_eq_some.1 hdir
      exact ⟨Path.splitSlash dir, hsplit dir, endsWith_iff.1 h⟩
    · cases h
  · rintro ⟨folder, hpath, hwanted⟩
    have hne : folder ≠ [] := by
      rintro rfl
      exact Text.splitAt_ne_nil _ _ (List.suffix_nil.1 hwanted)
    have hslash : ∀ x ∈ folder, '/' ∉ x := fun x hx ↦
      Text.not_mem_of_mem_splitAt (hpath ▸ List.mem_append_left _ hx)
    have hfolder : Path.splitSlash (Path.joinSlash folder) = folder :=
      Text.splitAt_joinWith hne hslash
    have htext : path = Path.joinSlash folder ++ "/index".toList := by
      rw [← Text.joinWith_splitAt '/' path]
      exact (congrArg (Text.joinWith '/') hpath).trans (Text.joinWith_append hne (by simp))
    have hdir : before? "/index".toList path = some (Path.joinSlash folder) :=
      before?_eq_some.2 htext
    rw [hdir]
    exact endsWith_iff.2 (hfolder.symm ▸ hwanted)

theorem slashed_append (z t : List Char) : slashed (z ++ t) = slashed z ++ slashed t :=
  List.map_append

theorem endsWith_slashed (h : endsWith s t = true) : endsWith (slashed s) (slashed t) = true := by
  rcases endsWith_iff_eq_or_suffix.1 h with rfl | ⟨z, rfl⟩
  · exact endsWith_refl _
  · rw [slashed_append]
    exact endsWith_append (slashed z) (slashed t)

theorem endsWith_dropDotSlashes (s : List Char) : endsWith s (dropDotSlashes s) = true := by
  induction s using dropDotSlashes.induct with
  | case1 s ih =>
    rw [dropDotSlashes]
    exact endsWith_trans (endsWith_append ['.'] s) ih
  | case2 s h =>
    rw [dropDotSlashes.eq_2 s h]
    exact endsWith_refl s

theorem dropDotSlashes_mono (h : endsWith s t = true) :
    endsWith (dropDotSlashes s) (dropDotSlashes t) = true := by
  induction s using dropDotSlashes.induct with
  | case1 s ih =>
    rw [dropDotSlashes]
    rcases endsWith_iff_eq_or_suffix.1 h with rfl | hs
    · exact endsWith_refl _
    · -- The slash in front of `t` is the one that is dropped, or a later one.
      have hslash : '/' :: t <:+ '/' :: s := by
        rcases List.suffix_cons_iff.1 hs with heq | hs
        · cases heq
        · exact hs
      refine ih (endsWith_iff_eq_or_suffix.2 ?_)
      rcases List.suffix_cons_iff.1 hslash with heq | hs
      · exact .inl (List.cons.inj heq).2.symm
      · exact .inr hs
  | case2 s hs =>
    rw [dropDotSlashes.eq_2 s hs]
    exact endsWith_trans h (endsWith_dropDotSlashes t)

theorem stem?_eq_some {ending : List Char} : stem? s ending = some r ↔
    s = r ++ ending ∧ r ≠ [] ∧ r.getLast? ≠ some '/' := by
  rw [stem?, Option.filter_eq_some_iff, before?_eq_some, decide_eq_true_iff]

theorem getLast?_append_slash (z : List Char) (ht : t ≠ []) :
    (z ++ '/' :: t).getLast? = t.getLast? := by
  rw [← List.singleton_append, ← List.append_assoc]
  exact List.getLast?_append_of_ne_nil _ ht

theorem stem?_append {ending : List Char} (hending : '/' ∉ ending) :
    stem? (z ++ '/' :: t) ending = (stem? t ending).map (z ++ '/' :: ·) := by
  ext r
  rw [stem?_eq_some, Option.map_eq_some_iff]
  constructor
  · rintro ⟨htext, -, hlast⟩
    obtain ⟨u, rfl⟩ : ending <:+ t := by
      rcases List.suffix_or_suffix_of_suffix ⟨r, htext.symm⟩ (List.suffix_append z ('/' :: t))
        with h | h
      · rcases List.suffix_cons_iff.1 h with rfl | h
        · exact absurd List.mem_cons_self hending
        · exact h
      · exact absurd (h.subset List.mem_cons_self) hending
    obtain rfl : z ++ '/' :: u = r := by
      rw [← List.cons_append, ← List.append_assoc] at htext
      exact List.append_cancel_right htext
    have hu : u ≠ [] := by
      rintro rfl
      simp at hlast
    rw [getLast?_append_slash z hu] at hlast
    exact ⟨u, stem?_eq_some.2 ⟨rfl, hu, hlast⟩, rfl⟩
  · rintro ⟨u, hu, rfl⟩
    obtain ⟨rfl, hne, hlast⟩ := stem?_eq_some.1 hu
    rw [getLast?_append_slash z hne]
    exact ⟨by simp, by simp, hlast⟩

theorem dropExtension_append (z t : List Char) :
    dropExtension (z ++ '/' :: t) = z ++ '/' :: dropExtension t := by
  have h (endings : List (List Char)) (hall : ∀ x ∈ endings, '/' ∉ x) :
      (endings.findSome? (stem? (z ++ '/' :: t))).getD (z ++ '/' :: t) =
        z ++ '/' :: (endings.findSome? (stem? t)).getD t := by
    induction endings with
    | nil => rfl
    | cons x endings ih =>
      rw [List.findSome?_cons, List.findSome?_cons, stem?_append (hall x List.mem_cons_self)]
      cases stem? t x with
      | none => exact ih fun y hy ↦ hall y (List.mem_cons_of_mem x hy)
      | some u => rfl
  exact h extensions (by decide)

theorem endsWith_dropExtension (h : endsWith s t = true) :
    endsWith (dropExtension s) (dropExtension t) = true := by
  rcases endsWith_iff_eq_or_suffix.1 h with rfl | ⟨z, rfl⟩
  · exact endsWith_refl _
  · rw [dropExtension_append]
    exact endsWith_append z _

theorem dropTrailingSlashes_append (z : List Char) (ht : dropTrailingSlashes t ≠ []) :
    dropTrailingSlashes (z ++ '/' :: t) = z ++ '/' :: dropTrailingSlashes t := by
  rw [dropTrailingSlashes, ne_eq, List.reverse_eq_nil_iff] at ht
  rw [dropTrailingSlashes, List.reverse_append, List.dropWhile_append, List.reverse_cons,
    List.dropWhile_append]
  simp [ht, dropTrailingSlashes]

/-- A path that ends in another one does so in normal form too, if anything is left of the other. -/
theorem normalize_mono (h : endsWith s t = true) (ht : normalize t ≠ []) :
    endsWith (normalize s) (normalize t) = true := by
  have hext := endsWith_dropExtension (dropDotSlashes_mono (endsWith_slashed h))
  rcases endsWith_iff_eq_or_suffix.1 hext with heq | ⟨z, hz⟩
  · rw [normalize, heq]
    exact endsWith_refl _
  · have hs : normalize s = z ++ '/' :: normalize t := by
      rw [normalize, ← hz, dropTrailingSlashes_append z ht]
      rfl
    rw [hs]
    exact endsWith_append z _

theorem normalize_withoutDotSlash (s : List Char) :
    normalize (Manifest.withoutDotSlash s) = normalize s := by
  unfold Manifest.withoutDotSlash
  split
  · rfl
  · rfl

end AmbientTypes.ModulePath
