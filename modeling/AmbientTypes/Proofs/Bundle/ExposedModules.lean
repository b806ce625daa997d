import AmbientTypes.Proofs.Bundle.NormalForm
import AmbientTypes.Proofs.Manifest.Printing

namespace AmbientTypes

namespace Text

theorem exists_splitAt_append {mark : Char} {t : List Char} (ht : mark ∉ t) (s : List Char) :
    ∃ ps p, splitAt mark s = ps ++ [p] ∧ splitAt mark (s ++ t) = ps ++ [p ++ t] := by
  induction s with
  | nil => exact ⟨[], [], rfl, splitAt_eq_singleton ht⟩
  | cons c s ih =>
    obtain ⟨ps, p, hs, hst⟩ := ih
    by_cases hc : c = mark
    · refine ⟨[] :: ps, p, ?_, ?_⟩
      · rw [hc, splitAt_cons_mark, hs, List.cons_append]
      · rw [hc, List.cons_append, splitAt_cons_mark, hst, List.cons_append]
    · cases ps with
      | nil => exact ⟨[], c :: p, splitAt_cons_of_ne hc hs, splitAt_cons_of_ne hc hst⟩
      | cons q ps =>
        exact ⟨(c :: q) :: ps, p, splitAt_cons_of_ne hc hs, splitAt_cons_of_ne hc hst⟩

end Text

namespace ModulePath

variable {m : Manifest} {e : EntryPoint} {path id : String} {ending p s stem t z : List Char}

def Extensionless (s : List Char) : Prop :=
  ∀ ending stem, ¬ Fits s ending stem

theorem slash_not_mem_extensions : ∀ ending ∈ extensions, '/' ∉ ending := by
  decide

theorem Fits.ne_nil (h : Fits s ending stem) : ending ≠ [] := by
  have hnil : [] ∉ extensions := by decide
  rintro rfl
  exact hnil h.1

theorem extensionless_iff : Extensionless s ↔ dropExtension s = s := by
  rcases stem_dropExtension s with ⟨ending, hfits, -⟩ | ⟨hnone, hs⟩
  · refine iff_of_false (fun h ↦ h ending _ hfits) fun hs ↦ hfits.ne_nil ?_
    have htext := hfits.2.1
    rw [hs] at htext
    exact List.self_eq_append_right.1 htext
  · exact iff_of_true hnone hs

instance (s : List Char) : Decidable (Extensionless s) :=
  decidable_of_iff _ extensionless_iff.symm

theorem extensionless_of_endsWith (h : endsWith p s = true) :
    Extensionless s ↔ Extensionless p := by
  rcases endsWith_iff_eq_or_suffix.1 h with rfl | ⟨z, rfl⟩
  · rfl
  · rw [extensionless_iff, extensionless_iff, dropExtension_append]
    simp

theorem Fits.last_segments (h : Fits s ending stem) :
    ∃ q, [q] <:+ Path.splitSlash stem ∧ [q ++ ending] <:+ Path.splitSlash s := by
  obtain ⟨hending, rfl, -⟩ := h
  obtain ⟨ps, q, hstem, hs⟩ :=
    Text.exists_splitAt_append (slash_not_mem_extensions ending hending) stem
  exact ⟨q, ⟨ps, hstem.symm⟩, ⟨ps, hs.symm⟩⟩

theorem eq_of_singleton_suffix {q r : List Char} {segments : List (List Char)}
    (hq : [q] <:+ segments) (hr : [r] <:+ segments) : q = r := by
  have h := List.suffix_of_suffix_length_le hq hr le_rfl
  exact List.singleton_inj.1 (h.eq_of_length rfl)

/-- A path that ends in another one does not answer to what is left of that one without its
extension. -/
theorem Fits.not_answers (hfits : Fits s ending stem) (h : endsWith p s = true) :
    answers p stem = false := by
  obtain ⟨q, hstem, hs⟩ := hfits.last_segments
  have hlast : [q ++ ending] <:+ Path.splitSlash p := hs.trans (endsWith_iff.1 h)
  rw [Bool.eq_false_iff, Ne, answers_iff]
  rintro (hends | ⟨folder, hfolder, -⟩)
  · have hq := eq_of_singleton_suffix (hstem.trans hends) hlast
    exact hfits.ne_nil (List.self_eq_append_right.1 hq)
  · have hindex : ∀ ending ∈ extensions, ¬ ending <:+ "index".toList := by decide
    have hq := eq_of_singleton_suffix ⟨folder, hfolder.symm⟩ hlast
    exact hindex ending hfits.1 ⟨q, hq.symm⟩

theorem getLast?_normalize (s : List Char) : (normalize s).getLast? ≠ some '/' := by
  obtain ⟨u, r, -, -, -, -, hlast⟩ := normalize_eq_iff.1 (Eq.refl (normalize s))
  exact hlast

theorem backslash_not_mem_normalize (s : List Char) : '\\' ∉ normalize s := by
  obtain ⟨u, r, ⟨n, hs⟩, -, hstem, ⟨k, hr⟩, -⟩ := normalize_eq_iff.1 (Eq.refl (normalize s))
  intro hmem
  have hr' : '\\' ∈ r := hr ▸ List.mem_append_left _ hmem
  have hu : '\\' ∈ u := by
    rcases hstem with ⟨ending, ⟨-, rfl, -⟩, -⟩ | ⟨-, rfl⟩
    · exact List.mem_append_left _ hr'
    · exact hr'
  have hslashed : '\\' ∈ slashed s := hs ▸ List.mem_append_right _ hu
  obtain ⟨c, -, hc⟩ := List.mem_map.1 hslashed
  split at hc
  · cases hc
  · next hne => exact hne hc

theorem slashed_eq_self (h : '\\' ∉ s) : slashed s = s := by
  have hmap : slashed s = s.map id := by
    refine List.map_congr_left fun c hc ↦ if_neg ?_
    rintro rfl
    exact h hc
  rw [hmap, List.map_id]

theorem getLast?_dropExtension (h : s.getLast? ≠ some '/') :
    (dropExtension s).getLast? ≠ some '/' := by
  rcases stem_dropExtension s with ⟨ending, ⟨-, -, -, hlast⟩, -⟩ | ⟨-, hs⟩
  · exact hlast
  · rwa [hs]

/-- A path that does not end in a slash leaves one of that kind when it loses its leading `./`. -/
theorem dropDotSlashes_of_getLast? (hne : s ≠ []) (hlast : s.getLast? ≠ some '/') :
    dropDotSlashes s ≠ [] ∧ (dropDotSlashes s).getLast? ≠ some '/' := by
  have hu : dropDotSlashes s ≠ [] := by
    intro hnil
    have hends := endsWith_dropDotSlashes s
    rw [hnil] at hends
    rcases endsWith_iff_eq_or_suffix.1 hends with hs | ⟨z, rfl⟩
    · exact hne hs
    · exact hlast List.getLast?_concat
  obtain ⟨⟨n, hn⟩, -⟩ := dropDotSlashes_eq_iff.1 (Eq.refl (dropDotSlashes s))
  rw [hn, List.getLast?_append_of_ne_nil _ hu] at hlast
  exact ⟨hu, hlast⟩

/-- The end of a normal form loses its leading `./` and one more extension. -/
theorem normalize_of_endsWith {path : List Char} (h : endsWith (normalize path) s = true)
    (hne : s ≠ []) :
    dropDotSlashes s ≠ [] ∧ normalize s = dropExtension (dropDotSlashes s) := by
  have hsuffix {s t : List Char} (h : endsWith s t = true) : t <:+ s := by
    rcases endsWith_iff_eq_or_suffix.1 h with rfl | h
    · exact List.suffix_refl _
    · exact (List.suffix_cons '/' t).trans h
  have hlast : s.getLast? ≠ some '/' := by
    obtain ⟨z, hz⟩ := hsuffix h
    have hpath := getLast?_normalize path
    rwa [← hz, List.getLast?_append_of_ne_nil _ hne] at hpath
  have hslashed : slashed s = s := by
    apply slashed_eq_self
    exact fun hmem ↦ backslash_not_mem_normalize path ((hsuffix h).subset hmem)
  obtain ⟨hu, hulast⟩ := dropDotSlashes_of_getLast? hne hlast
  refine ⟨hu, ?_⟩
  rw [normalize, hslashed, dropTrailingSlashes_eq_iff]
  exact ⟨⟨0, by simp⟩, getLast?_dropExtension hulast⟩

theorem names_iff_extensionless (hne : id ≠ "")
    (h : Path.splitSlash id.toList <:+ segments path) :
    normalize id.toList ≠ [] ∧ (Names id path ↔ Extensionless (normalize path.toList)) := by
  have hends : endsWith (normalize path.toList) id.toList = true := endsWith_iff.2 h
  have hid : id.toList ≠ [] := by simpa using hne
  obtain ⟨hu, hnormal⟩ := normalize_of_endsWith hends hid
  have hpath := endsWith_trans hends (endsWith_dropDotSlashes id.toList)
  rw [← answers_iff_names, ← extensionless_of_endsWith hpath, hnormal]
  rcases stem_dropExtension (dropDotSlashes id.toList) with ⟨ending, hfits, -⟩ | ⟨hnone, hs⟩
  · refine ⟨hfits.2.2.1, ?_⟩
    rw [hfits.not_answers hpath]
    exact iff_of_false Bool.false_ne_true fun hnone ↦ hnone ending _ hfits
  · rw [hs]
    refine ⟨hu, iff_of_true ?_ hnone⟩
    rw [answers, hpath, Bool.true_or]

theorem keyFor?_ne_none_iff (hid : normalize id.toList ≠ []) :
    keyFor? m id ≠ none ↔ ∃ e ∈ m.exposes, Names id (m.sourcePath e) := by
  rw [keyFor?_eq, if_neg hid, ne_eq, Option.map_eq_none_iff, List.find?_eq_none]
  simp [answers_iff_names]

/-- A module that is named after an exposed file stands for an entry point, unless the file keeps an
extension in normal form; then it does so only where it names another exposed file. -/
theorem keyFor?_module_iff (he : e ∈ m.exposes) (hne : id ≠ "")
    (h : Path.splitSlash id.toList <:+ segments (m.sourcePath e)) :
    keyFor? m id ≠ none ↔ Extensionless (normalize (m.sourcePath e).toList) ∨
      ∃ e' ∈ m.exposes, e' ≠ e ∧ Names id (m.sourcePath e') := by
  obtain ⟨hid, hnames⟩ := names_iff_extensionless hne h
  rw [keyFor?_ne_none_iff hid, ← hnames]
  constructor
  · rintro ⟨e', he', hnamed⟩
    by_cases heq : e' = e
    · exact .inl (heq ▸ hnamed)
    · exact .inr ⟨e', he', heq, hnamed⟩
  · rintro (hnamed | ⟨e', he', -, hnamed⟩)
    · exact ⟨e, he, hnamed⟩
    · exact ⟨e', he', hnamed⟩

section Example

def twoEndings : Manifest :=
  ⟨"shop", [⟨"Button", "src/Button.js.ts"⟩, ⟨"Cart", "src/Cart.test.ts"⟩],
    "/repo/federation.config.json"⟩

theorem parse_twoEndings :
    Manifest.parse twoEndings.toJson.print twoEndings.path = .ok twoEndings :=
  (Manifest.parse_print_iff _).2
    ⟨Manifest.nameFault?_eq_none.1 (by decide), by decide, by decide⟩

theorem keyFor?_module_iff_twoEndings : keyFor? twoEndings "src/Cart.test" ≠ none ∧
    keyFor? twoEndings "src/Button.js" = none := by
  constructor
  · have he : ⟨"Cart", "src/Cart.test.ts"⟩ ∈ twoEndings.exposes := by decide
    exact (keyFor?_module_iff he (by decide) (by decide)).2 (.inl (by decide))
  · have he : ⟨"Button", "src/Button.js.ts"⟩ ∈ twoEndings.exposes := by decide
    have hextension : ¬ Extensionless
        (normalize (twoEndings.sourcePath ⟨"Button", "src/Button.js.ts"⟩).toList) := by
      decide
    have hothers : ∀ e' ∈ twoEndings.exposes, e' ≠ ⟨"Button", "src/Button.js.ts"⟩ →
        ¬ Names "src/Button.js" (twoEndings.sourcePath e') := by
      simp only [← answers_iff_names]
      decide
    rw [← not_ne_iff, keyFor?_module_iff he (by decide) (by decide)]
    rintro (hnone | ⟨e', he', hne, hnames⟩)
    · exact hextension hnone
    · exact hothers e' he' hne hnames

/-- A module that is named after an exposed file may keep its path as a public name. -/
theorem exposed_module_unkeyed : ¬ ∀ (text path : String) (m : Manifest) (e : EntryPoint)
    (id : String), Manifest.parse text path = .ok m → e ∈ m.exposes → id ≠ "" →
    Path.splitSlash id.toList <:+ segments (m.sourcePath e) → keyFor? m id ≠ none := by
  intro h
  have hkey := h _ _ twoEndings ⟨"Button", "src/Button.js.ts"⟩ "src/Button.js" parse_twoEndings
    (by decide) (by decide) (by decide)
  revert hkey
  decide

end Example

end ModulePath

end AmbientTypes
