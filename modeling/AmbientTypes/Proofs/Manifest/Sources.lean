import AmbientTypes.Manifest.Document
import AmbientTypes.Proofs.Tree.Limits

namespace AmbientTypes

namespace Manifest

open AmbientTypes.Path (isAbsolute components bodyComponents)

variable {e : EntryPoint} {r : List Char}

theorem withoutDotSlash_cases (s : List Char) :
    (∃ r, s = '.' :: '/' :: r ∧ withoutDotSlash s = r) ∨
      (¬ ['.', '/'] <+: s ∧ withoutDotSlash s = s) := by
  unfold withoutDotSlash
  split
  · exact .inl ⟨_, rfl, rfl⟩
  · next hs =>
    refine .inr ⟨?_, rfl⟩
    rintro ⟨r, rfl⟩
    exact hs r rfl

/-- The file of a relative path lies below the directory of the manifest, or below the root
where the path starts with `.//`. -/
theorem components_sourcePath (m : Manifest) (he : isAbsolute e.path = false) :
    components (m.sourcePath e) =
      (if ['.', '/', '/'] <+: e.path.toList then [.root] else components m.directory) ++
        (components e.path).filter (· ≠ .here) := by
  have hdir : m.directory ≠ "" := Files.directory_ne_empty m.path
  rw [Path.components_without_here he, sourcePath]
  rcases withoutDotSlash_cases e.path.toList with ⟨r, hpath, hr⟩ | ⟨hpath, hr⟩
  · rw [hr, hpath, Path.bodyComponents_dotSlash]
    cases r with
    | nil =>
      rw [if_neg (by decide), Path.components_join hdir rfl, String.toList_ofList]
    | cons c r =>
      by_cases hc : c = '/'
      · have habsolute : isAbsolute (String.ofList ('/' :: r)) = true := by simp [isAbsolute]
        rw [hc, if_pos ⟨r, rfl⟩, Path.join, if_pos habsolute, Path.components_slash_cons,
          Path.bodyComponents_slash]
        rfl
      · have hrelative : isAbsolute (String.ofList (c :: r)) = false := by simp [isAbsolute, hc]
        have hslashes : ¬ ['.', '/', '/'] <+: '.' :: '/' :: c :: r := by simp [eq_comm, hc]
        rw [if_neg hslashes, Path.components_join hdir hrelative, String.toList_ofList]
  · have hslashes : ¬ ['.', '/', '/'] <+: e.path.toList := by
      rintro ⟨r, h⟩
      exact hpath ⟨'/' :: r, h⟩
    rw [hr, String.ofList_toList, if_neg hslashes, Path.components_join hdir he]

section Example

def spelledText : String :=
  "\x7b\"name\": \"shop\", \"exposes\": \x7b\"Cart\": \"././src//Cart.ts\", " ++
    "\"Button\": \".//src/Button.ts\"\x7d\x7d"

def spelled : Manifest :=
  ⟨"shop", [⟨"Cart", "././src//Cart.ts"⟩, ⟨"Button", ".//src/Button.ts"⟩],
    "/repo/federation.config.json"⟩

theorem parse_spelled : parse spelledText "/repo/federation.config.json" = .ok spelled := by
  decide +kernel

theorem components_sourcePath_spelled :
    components (spelled.sourcePath ⟨"Cart", "././src//Cart.ts"⟩) =
        [.root, .name "repo", .name "src", .name "Cart.ts"] ∧
      components (spelled.sourcePath ⟨"Button", ".//src/Button.ts"⟩) =
        [.root, .name "src", .name "Button.ts"] := by
  constructor
  · rw [components_sourcePath spelled (by decide)]
    decide +kernel
  · rw [components_sourcePath spelled (by decide)]
    decide +kernel

/-- A relative path does not always lead below the directory of its manifest. -/
theorem source_outside : ¬ ∀ (text path : String) (m : Manifest) (e : EntryPoint),
    parse text path = .ok m → e ∈ m.exposes → isAbsolute e.path = false →
    components (m.sourcePath e) =
      components m.directory ++ (components e.path).filter (· ≠ .here) := by
  intro h
  have hsource := h _ _ spelled ⟨"Button", ".//src/Button.ts"⟩ parse_spelled (by decide) (by decide)
  revert hsource
  decide +kernel

end Example

end Manifest

end AmbientTypes
