import AmbientTypes.Proofs.Bundle.ExposedModules
import Mathlib.Data.List.Forall2
import Mathlib.Logic.Relation

namespace AmbientTypes.ModulePath

variable {m : Manifest} {id id' : String} {s t ending other stem : List Char}

/-- An extension behind an identifier that has none, and that ends in no beginning of a longer
one. -/
structure Extended (s ending : List Char) : Prop where
  listed : ending ∈ extensions
  ne_nil : s ≠ []
  slash : s.getLast? ≠ some '/'
  backslash : s.getLast? ≠ some '\\'
  extensionless : Extensionless (dropDotSlashes (slashed s))
  longest : ∀ other ∈ extensions, other <:+ s ++ ending → other.length ≤ ending.length

/-- The second identifier is the first one, spelled in another way. -/
inductive Respelled : List Char → List Char → Prop
  | dotSlashes (n : Nat) (s : List Char) :
      Respelled s ((List.replicate n ['.', '/']).flatten ++ s)
  | backslashes {s t : List Char}
      (h : List.Forall₂ (fun c d ↦ d = c ∨ c = '/' ∧ d = '\\') s t) : Respelled s t
  | extension {s ending : List Char} (h : Extended s ending) : Respelled s (s ++ ending)

def SameSpelling : List Char → List Char → Prop :=
  Relation.EqvGen Respelled

theorem normalize_dotSlashes (n : Nat) (s : List Char) :
    normalize ((List.replicate n ['.', '/']).flatten ++ s) = normalize s := by
  induction n with
  | zero => rfl
  | succ n ih =>
    rw [List.replicate_succ, List.flatten_cons, List.append_assoc, ← ih]
    rfl

theorem slashed_of_backslashes
    (h : List.Forall₂ (fun c d ↦ d = c ∨ c = '/' ∧ d = '\\') s t) : slashed t = slashed s := by
  induction h with
  | nil => rfl
  | cons hc _ ih =>
    rw [slashed, List.map_cons, ← slashed, ih, slashed, slashed, List.map_cons]
    congr 1
    rcases hc with rfl | ⟨rfl, rfl⟩
    · rfl
    · rfl

theorem suffix_of_suffix_slashed (ht : '/' ∉ t) (h : t <:+ slashed s) : t <:+ s := by
  obtain ⟨front, hfront⟩ := h
  obtain ⟨u, v, rfl, -, hv⟩ := List.map_eq_append_iff.1 hfront.symm
  have hslashed : slashed v = v := by
    apply slashed_eq_self
    exact fun hmem ↦ ht (hv ▸ List.mem_map.2 ⟨_, hmem, rfl⟩)
  obtain rfl : v = t := hslashed.symm.trans hv
  exact List.suffix_append u v

theorem getLast?_slashed (hslash : s.getLast? ≠ some '/') (hbackslash : s.getLast? ≠ some '\\') :
    (slashed s).getLast? ≠ some '/' := by
  rw [slashed, List.getLast?_map, ne_eq, Option.map_eq_some_iff]
  rintro ⟨c, hc, hmark⟩
  split at hmark
  · next h => exact hbackslash (h ▸ hc)
  · exact hslash (hmark ▸ hc)

theorem dropDotSlashes_append (hne : s ≠ []) (hs : s.getLast? ≠ some '/') (ht : '/' ∉ t) :
    dropDotSlashes (s ++ t) = dropDotSlashes s ++ t := by
  induction s using dropDotSlashes.induct with
  | case1 s ih =>
    cases s with
    | nil => simp at hs
    | cons c s => exact ih (List.cons_ne_nil c s) (by simpa using hs)
  | case2 s hdot =>
    rw [dropDotSlashes.eq_2 s hdot, dropDotSlashes.eq_2]
    rintro r hr
    rcases s with - | ⟨c, - | ⟨d, s⟩⟩
    · exact hne rfl
    · obtain rfl : t = '/' :: r := (List.cons.inj hr).2
      exact ht List.mem_cons_self
    · obtain ⟨rfl, htail⟩ := List.cons.inj hr
      obtain ⟨rfl, -⟩ := List.cons.inj htail
      exact hdot s rfl

theorem append_not_mem_extensions (h : ending ∈ extensions) (hother : other ∈ extensions) :
    other ++ ending ∉ extensions := by
  have hall : ∀ ending ∈ extensions, ∀ other ∈ extensions, other ++ ending ∉ extensions := by
    decide
  exact hall ending h other hother

/-- An extension behind a file name is the one that is taken off if the name has none and no longer
one comes about. -/
theorem dropExtension_append_iff (h : ending ∈ extensions) (hne : s ≠ [])
    (hs : s.getLast? ≠ some '/') : dropExtension (s ++ ending) = dropExtension s ↔
      Extensionless s ∧ ∀ other stem, Fits (s ++ ending) other stem →
        other.length ≤ ending.length := by
  have hfits : Fits (s ++ ending) ending s := ⟨h, rfl, hne, hs⟩
  constructor
  · intro heq
    have hstem := stem_dropExtension (s ++ ending)
    rw [heq] at hstem
    obtain ⟨longest, hlongest, hmax⟩ := hstem.resolve_right fun hnone ↦ hnone.1 _ _ hfits
    have htext := hlongest.2.1
    rcases stem_dropExtension s with ⟨lost, hlost, -⟩ | ⟨hnone, hkept⟩
    · -- The name would lose one extension of two, and both at once with the other one behind it.
      rw [hlost.2.1, List.append_assoc] at htext
      rw [← hlost.2.1] at htext
      exact absurd (List.append_cancel_left htext ▸ hlongest.1)
        (append_not_mem_extensions h hlost.1)
    · rw [hkept] at htext
      obtain rfl := List.append_cancel_left htext
      exact ⟨hnone, hmax⟩
  · rintro ⟨hnone, hmax⟩
    rw [extensionless_iff.1 hnone]
    exact (stem_dropExtension _).unique (.inl ⟨ending, hfits, hmax⟩)

theorem Extended.normalize_append (h : Extended s ending) :
    normalize (s ++ ending) = normalize s := by
  have hlast := getLast?_slashed h.slash h.backslash
  have hne : slashed s ≠ [] := by simpa [slashed] using h.ne_nil
  obtain ⟨hu, hulast⟩ := dropDotSlashes_of_getLast? hne hlast
  have hending : slashed ending = ending := by
    have hall : ∀ ending ∈ extensions, slashed ending = ending := by decide
    exact hall ending h.listed
  have hmax : ∀ other stem, Fits (dropDotSlashes (slashed s) ++ ending) other stem →
      other.length ≤ ending.length := by
    intro other stem hfits
    apply h.longest other hfits.1
    apply suffix_of_suffix_slashed (slash_not_mem_extensions other hfits.1)
    rw [slashed_append, hending]
    obtain ⟨⟨n, hn⟩, -⟩ := dropDotSlashes_eq_iff.1 (Eq.refl (dropDotSlashes (slashed s)))
    rw [hn, List.append_assoc, hfits.2.1, ← List.append_assoc]
    exact List.suffix_append _ _
  have hdrop := (dropExtension_append_iff h.listed hu hulast).2 ⟨h.extensionless, hmax⟩
  rw [normalize, slashed_append, hending,
    dropDotSlashes_append hne hlast (slash_not_mem_extensions ending h.listed), hdrop]
  rfl

theorem Respelled.normalize_eq (h : Respelled s t) : normalize t = normalize s := by
  cases h with
  | dotSlashes n => exact normalize_dotSlashes n s
  | backslashes h => rw [normalize, slashed_of_backslashes h]; rfl
  | extension h => exact h.normalize_append

theorem SameSpelling.normalize_eq (h : SameSpelling s t) : normalize t = normalize s := by
  induction h with
  | rel _ _ h => exact h.normalize_eq
  | refl => rfl
  | symm _ _ _ ih => exact ih.symm
  | trans _ _ _ _ _ ih ih' => exact ih'.trans ih

/-- The key of an identifier does not depend on its spelling. -/
theorem keyFor?_eq_of_sameSpelling (m : Manifest) (h : SameSpelling id.toList id'.toList) :
    keyFor? m id' = keyFor? m id := by
  rw [keyFor?, keyFor?, h.normalize_eq]

section Example

theorem sameSpelling_button :
    SameSpelling "lib/Button".toList ".\\././lib\\Button.tsx".toList := by
  have hextended : Extended "lib/Button".toList ".tsx".toList :=
    ⟨by decide, by decide, by decide, by decide, by decide, by decide⟩
  have hdots : Respelled "lib/Button.tsx".toList "./././lib/Button.tsx".toList := .dotSlashes 3 _
  have hslashes : Respelled "./././lib/Button.tsx".toList ".\\././lib\\Button.tsx".toList :=
    .backslashes (by decide)
  exact .trans _ _ _ (.rel _ _ (.extension hextended))
    (.trans _ _ _ (.rel _ _ hdots) (.rel _ _ hslashes))

theorem keyFor?_eq_of_sameSpelling_button :
    SameSpelling "lib/Button".toList ".\\././lib\\Button.tsx".toList ∧
      keyFor? twoButtons ".\\././lib\\Button.tsx" = some "A" := by
  refine ⟨sameSpelling_button, ?_⟩
  rw [keyFor?_eq_of_sameSpelling twoButtons sameSpelling_button]
  decide

end Example

end AmbientTypes.ModulePath
