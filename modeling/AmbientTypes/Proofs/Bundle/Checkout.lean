import AmbientTypes.Proofs.Bundle.EntryPoints
import AmbientTypes.Proofs.Bundle.Renaming
import AmbientTypes.Proofs.Manifest.Names

namespace AmbientTypes

namespace Path

variable {base : String}

theorem isAbsolute_directory_join {s : String} (hb : isAbsolute base = true) (hs : IsName s) :
    isAbsolute (directory (join base s)) = true := by
  rw [isAbsolute_iff] at hb ⊢
  rcases components_directory_join base hs with ⟨-, hnil⟩ | h
  · rw [hnil] at hb
    cases hb
  · rw [h, hb]

theorem isAbsolute_join_of_base (hb : isAbsolute base = true) (path : String) :
    isAbsolute (join base path) = true := by
  by_cases hp : isAbsolute path = true
  · rwa [join, if_pos hp]
  · obtain ⟨s, hs⟩ := List.head?_eq_some_iff.1 (of_decide_eq_true hb)
    rcases join_of_relative base (Bool.eq_false_iff.2 hp) with ⟨hj, -⟩ | hj <;>
      simp [hj, isAbsolute, hs]

end Path

namespace ModulePath

variable {m m₁ m₂ : Manifest} {e : EntryPoint} {id : String}

def ownSegments (e : EntryPoint) : List (List Char) :=
  let own := dropTrailingSlashes (dropExtension (slashed (Manifest.withoutDotSlash e.path.toList)))
  if own = [] then [] else Path.splitSlash own

def leadingSegments (m : Manifest) (e : EntryPoint) : List (List Char) :=
  let all := segments (m.sourcePath e)
  all.take (all.length - (ownSegments e).length)

theorem splitSlash_own_suffix {s t : List Char} (h : endsWith s t = true)
    (ht : dropTrailingSlashes (dropExtension (slashed t)) ≠ []) :
    Path.splitSlash (dropTrailingSlashes (dropExtension (slashed t))) <:+
      Path.splitSlash (dropTrailingSlashes (dropExtension (slashed s))) := by
  rcases endsWith_iff_eq_or_suffix.1 (endsWith_dropExtension (endsWith_slashed h))
    with heq | ⟨z, hz⟩
  · exact heq ▸ List.suffix_refl _
  · rw [← hz, dropTrailingSlashes_append z ht]
    exact endsWith_iff.1 (endsWith_append z _)

theorem normalize_of_absolute {path : String} (h : Path.isAbsolute path = true) :
    normalize path.toList = dropTrailingSlashes (dropExtension (slashed path.toList)) := by
  obtain ⟨s, hs⟩ := List.head?_eq_some_iff.1 (of_decide_eq_true h)
  rw [normalize, hs]
  rfl

theorem ownSegments_suffix (hm : Path.isAbsolute m.directory = true) (e : EntryPoint) :
    ownSegments e <:+ segments (m.sourcePath e) := by
  have hdir : m.directory ≠ "" := Files.directory_ne_empty m.path
  have hends := endsWith_join hdir (String.ofList (Manifest.withoutDotSlash e.path.toList))
  rw [String.toList_ofList] at hends
  rw [segments, Manifest.sourcePath, normalize_of_absolute (Path.isAbsolute_join_of_base hm _)]
  by_cases hown : dropTrailingSlashes
      (dropExtension (slashed (Manifest.withoutDotSlash e.path.toList))) = []
  · simp only [ownSegments, if_pos hown]
    exact List.nil_suffix
  · simp only [ownSegments, if_neg hown]
    exact splitSlash_own_suffix hends hown

theorem segments_sourcePath (hm : Path.isAbsolute m.directory = true) (e : EntryPoint) :
    segments (m.sourcePath e) = leadingSegments m e ++ ownSegments e := by
  obtain ⟨before, hbefore⟩ := ownSegments_suffix hm e
  rw [leadingSegments, ← hbefore]
  simp

theorem names_iff {path : String} : Names id path ↔
    segments id <:+ segments path ∨ segments id ++ ["index".toList] <:+ segments path := by
  refine or_congr_right ⟨?_, ?_⟩
  · rintro ⟨folder, hpath, u, rfl⟩
    exact ⟨u, by rw [hpath, List.append_assoc]⟩
  · rintro ⟨u, hu⟩
    exact ⟨u ++ segments id, by rw [← hu, List.append_assoc], List.suffix_append _ _⟩

theorem suffix_append_iff {α : Type} {w l o : List α} :
    w <:+ l ++ o ↔ w <:+ o ∨ ∃ x, w = x ++ o ∧ x <:+ l := by
  constructor
  · intro h
    rcases List.suffix_or_suffix_of_suffix h (List.suffix_append l o) with ho | ⟨x, rfl⟩
    · exact .inl ho
    · refine .inr ⟨x, rfl, ?_⟩
      obtain ⟨u, hu⟩ := h
      rw [← List.append_assoc] at hu
      exact ⟨u, List.append_cancel_right hu⟩
  · rintro (h | ⟨x, rfl, u, rfl⟩)
    · exact h.trans (List.suffix_append l o)
    · exact ⟨u, by rw [List.append_assoc]⟩

/-- Wherever `id` goes on in front of the own segments of `e`, the two directories agree on what it
goes on with. -/
def AgreeOn (m₁ m₂ : Manifest) (id : String) (e : EntryPoint) : Prop :=
  ∀ x, segments id = x ++ ownSegments e ∨ segments id ++ ["index".toList] = x ++ ownSegments e →
    (x <:+ leadingSegments m₁ e ↔ x <:+ leadingSegments m₂ e)

theorem names_congr (h₁ : Path.isAbsolute m₁.directory = true)
    (h₂ : Path.isAbsolute m₂.directory = true) (h : AgreeOn m₁ m₂ id e) :
    Names id (m₁.sourcePath e) ↔ Names id (m₂.sourcePath e) := by
  rw [names_iff, names_iff, segments_sourcePath h₁, segments_sourcePath h₂]
  simp only [suffix_append_iff]
  refine or_congr (or_congr_right (exists_congr fun x ↦ ?_))
    (or_congr_right (exists_congr fun x ↦ ?_))
  · exact and_congr_right fun hx ↦ h x (.inl hx)
  · exact and_congr_right fun hx ↦ h x (.inr hx)

theorem find?_congr {α : Type} {p q : α → Bool} {xs : List α} (h : ∀ x ∈ xs, p x = q x) :
    xs.find? p = xs.find? q := by
  induction xs with
  | nil => rfl
  | cons x xs ih =>
    rw [List.find?_cons, List.find?_cons, h x List.mem_cons_self,
      ih fun y hy ↦ h y (List.mem_cons_of_mem x hy)]

theorem keyFor?_congr (hexposes : m₁.exposes = m₂.exposes)
    (h : ∀ e ∈ m₁.exposes, Names id (m₁.sourcePath e) ↔ Names id (m₂.sourcePath e)) :
    keyFor? m₁ id = keyFor? m₂ id := by
  have hanswers : ∀ e ∈ m₁.exposes, answers (normalize (m₁.sourcePath e).toList)
      (normalize id.toList) = answers (normalize (m₂.sourcePath e).toList)
        (normalize id.toList) := by
    intro e he
    rw [Bool.eq_iff_iff, answers_iff_names, answers_iff_names]
    exact h e he
  rw [keyFor?_eq, keyFor?_eq, ← hexposes, find?_congr hanswers]

end ModulePath

namespace PublicBundle

open ModulePath

theorem ofBundle_congr {m₁ m₂ : Manifest} {bundle : String}
    (h : ∀ id ∈ Header.distinct (Header.scan bundle),
      Renaming.publicName m₁ id = Renaming.publicName m₂ id) :
    ofBundle m₁ bundle = ofBundle m₂ bundle := by
  have hnames : Renaming.ofIdentifiers m₁ (Header.distinct (Header.scan bundle)) =
      Renaming.ofIdentifiers m₂ (Header.distinct (Header.scan bundle)) := by
    rw [Renaming.ofIdentifiers, Renaming.ofIdentifiers]
    apply congrArg Renaming.mk
    apply List.foldl_ext
    intro entries id hid
    rw [h id hid]
  rw [ofBundle, ofBundle, hnames]

/-- A bundle has the same public form wherever the manifest lies, unless one of its identifiers
goes on in front of an entry point as one of the directories does and the other does not. -/
theorem ofBundle_relocated {text d₁ d₂ s : String} {m₁ : Manifest}
    (h₁ : Path.isAbsolute d₁ = true) (h₂ : Path.isAbsolute d₂ = true) (hs : Path.IsName s)
    (hparse : Manifest.parse text (Path.join d₁ s) = .ok m₁) :
    ∃ m₂, Manifest.parse text (Path.join d₂ s) = .ok m₂ ∧ ∀ bundle,
      (∀ id ∈ Header.distinct (Header.scan bundle), ∀ e ∈ m₁.exposes, AgreeOn m₁ m₂ id e) →
        ofBundle m₁ bundle = ofBundle m₂ bundle := by
  obtain ⟨hpath, hparse'⟩ := Manifest.parse_elsewhere hparse (Path.join d₂ s)
  refine ⟨_, hparse', fun bundle hagree ↦ ofBundle_congr fun id hid ↦ ?_⟩
  have hdir : Path.isAbsolute m₁.directory = true := by
    rw [Manifest.directory, hpath]
    exact Path.isAbsolute_directory_join h₁ hs
  have hkey : keyFor? m₁ id = keyFor? { m₁ with path := Path.join d₂ s } id :=
    keyFor?_congr rfl fun e he ↦
      names_congr hdir (Path.isAbsolute_directory_join h₂ hs) (hagree id hid e he)
  rw [Renaming.publicName, Renaming.publicName, hkey]

section Example

def mainText : String :=
  "\x7b\"name\": \"shop\", \"exposes\": \x7b\"Main\": \"index.ts\"\x7d\x7d"

def mainAt (directory : String) : Manifest :=
  ⟨"shop", [⟨"Main", "index.ts"⟩], Path.join directory Manifest.fileName⟩

theorem parse_mainText (directory : String) :
    Manifest.parse mainText (Path.join directory Manifest.fileName) = .ok (mainAt directory) := by
  have h : Manifest.parse mainText "" = .ok ⟨"shop", [⟨"Main", "index.ts"⟩], ""⟩ := by
    decide +kernel
  exact (Manifest.parse_elsewhere h _).2

theorem ofBundle_relocated_main :
    Path.isAbsolute "/work/app" = true ∧ Path.isAbsolute "/work/other" = true ∧
      ofBundle (mainAt "/work/app") "declare module \"src/index\" \x7b\x7d" =
        ofBundle (mainAt "/work/other") "declare module \"src/index\" \x7b\x7d" := by
  have happ : Path.isAbsolute "/work/app" = true := by decide
  have hother : Path.isAbsolute "/work/other" = true := by decide
  have hname : Path.IsName Manifest.fileName := ⟨by decide, by decide, by decide, by decide⟩
  obtain ⟨m₂, hm₂, heq⟩ := ofBundle_relocated happ hother hname (parse_mainText "/work/app")
  obtain rfl : mainAt "/work/other" = m₂ :=
    Except.ok.inj ((parse_mainText "/work/other").symm.trans hm₂)
  refine ⟨happ, hother, heq _ ?_⟩
  have hids : Header.distinct (Header.scan "declare module \"src/index\" \x7b\x7d") =
      ["src/index"] := by
    decide +kernel
  have hsegments : segments "src/index" = ["src".toList] ++ ["index".toList] := by decide
  have hown : ownSegments ⟨"Main", "index.ts"⟩ = ["index".toList] := by decide
  intro id hid e he x hx
  obtain rfl := List.mem_singleton.1 (hids ▸ hid)
  obtain rfl := List.mem_singleton.1 he
  rw [hsegments, hown] at hx
  rcases hx with hx | hx
  · obtain rfl := List.append_cancel_right hx
    decide +kernel
  · obtain rfl := List.append_cancel_right hx
    decide +kernel

/-- Relative paths alone do not keep the directory out of the names. -/
theorem named_after_directory : ¬ ∀ (text d₁ d₂ bundle : String) (m₁ m₂ : Manifest),
    Path.isAbsolute d₁ = true → Path.isAbsolute d₂ = true →
    Manifest.parse text (Path.join d₁ Manifest.fileName) = .ok m₁ →
    Manifest.parse text (Path.join d₂ Manifest.fileName) = .ok m₂ →
    (∀ e ∈ m₁.exposes, Path.isAbsolute e.path = false ∧ .up ∉ Path.components e.path) →
    (∀ id ∈ Header.distinct (Header.scan bundle), Path.isAbsolute id = false) →
    ofBundle m₁ bundle = ofBundle m₂ bundle := by
  intro h
  have heq := h mainText "/work/app" "/work/other" "declare module \"app\" \x7b\x7d" _ _
    (by decide) (by decide) (parse_mainText _) (parse_mainText _) (by decide) (by decide +kernel)
  have htext := congrArg PublicBundle.text heq
  revert htext
  decide +kernel

end Example

end PublicBundle

end AmbientTypes
