import AmbientTypes.Proofs.Bundle.ModulePath
import AmbientTypes.Proofs.Manifest.Entries
import AmbientTypes.Proofs.Tree.Limits

namespace AmbientTypes

namespace ModulePath

variable {m : Manifest} {id key : String} {e : EntryPoint}

def segments (path : String) : List (List Char) :=
  Path.splitSlash (normalize path.toList)

/-- An identifier names a file by its last segments, and an index file by the last segments of its
folder. -/
def Names (id path : String) : Prop :=
  segments id <:+ segments path ∨
    ∃ folder, segments path = folder ++ ["index".toList] ∧ segments id <:+ folder

/-- The first entry point whose file `id` names; an identifier that is nothing in normal form
stands for none. -/
def StandsFor (m : Manifest) (id : String) (e : EntryPoint) : Prop :=
  normalize id.toList ≠ [] ∧ ∃ before after, m.exposes = before ++ e :: after ∧
    Names id (m.sourcePath e) ∧ ∀ e' ∈ before, ¬ Names id (m.sourcePath e')

theorem answers_iff_names {path : String} :
    answers (normalize path.toList) (normalize id.toList) = true ↔ Names id path :=
  answers_iff

theorem keyFor?_eq : keyFor? m id = if normalize id.toList = [] then none else
    (m.exposes.find? fun e ↦ answers (normalize (m.sourcePath e).toList)
      (normalize id.toList)).map (·.key) := rfl

theorem keyFor?_eq_some :
    keyFor? m id = some key ↔ ∃ e, StandsFor m id e ∧ e.key = key := by
  rw [keyFor?_eq]
  by_cases hid : normalize id.toList = []
  · rw [if_pos hid]
    refine iff_of_false (by simp) ?_
    rintro ⟨e, he, -⟩
    exact he.1 hid
  · rw [if_neg hid, Option.map_eq_some_iff]
    refine exists_congr fun e ↦ and_congr_left fun _ ↦ ?_
    rw [List.find?_eq_some_iff_append, answers_iff_names, StandsFor]
    constructor
    · rintro ⟨hnames, before, after, hexposes, hbefore⟩
      refine ⟨hid, before, after, hexposes, hnames, fun e' he' hnames' ↦ ?_⟩
      have hne := hbefore e' he'
      rw [answers_iff_names.2 hnames'] at hne
      cases hne
    · rintro ⟨-, before, after, hexposes, hnames, hbefore⟩
      refine ⟨hnames, before, after, hexposes, fun e' he' ↦ ?_⟩
      rw [Bool.not_eq_true', ← Bool.not_eq_true, answers_iff_names]
      exact hbefore e' he'

theorem keyFor?_eq_none : keyFor? m id = none ↔ ∀ e, ¬ StandsFor m id e := by
  rw [Option.eq_none_iff_forall_ne_some]
  constructor
  · intro h e he
    exact h e.key (keyFor?_eq_some.2 ⟨e, he, rfl⟩)
  · rintro h key hkey
    obtain ⟨e, he, -⟩ := keyFor?_eq_some.1 hkey
    exact h e he

theorem endsWith_join {base : String} (hbase : base ≠ "") (path : String) :
    endsWith (Path.join base path).toList path.toList = true := by
  by_cases hp : Path.isAbsolute path = true
  · rw [Path.join, if_pos hp]
    exact endsWith_refl _
  · rcases Path.join_of_relative base (Bool.eq_false_iff.2 hp) with ⟨hj, h | ⟨z, hz⟩⟩ | hj
    · exact absurd h hbase
    · have htext : (Path.join base path).toList = z ++ '/' :: path.toList := by
        rw [hj, String.toList_append, hz, List.append_assoc, List.singleton_append]
      rw [htext]
      exact endsWith_append z _
    · have htext : (Path.join base path).toList = base.toList ++ '/' :: path.toList := by
        rw [hj, String.toList_append, String.toList_append, List.append_assoc]
        rfl
      rw [htext]
      exact endsWith_append _ _

theorem names_sourcePath (m : Manifest) (he : normalize e.path.toList ≠ []) :
    Names e.path (m.sourcePath e) := by
  have hdir : m.directory ≠ "" := Files.directory_ne_empty m.path
  have hends :
      endsWith (m.sourcePath e).toList (Manifest.withoutDotSlash e.path.toList) = true := by
    have h := endsWith_join hdir (String.ofList (Manifest.withoutDotSlash e.path.toList))
    rwa [String.toList_ofList] at h
  have hnormal := normalize_mono hends (by rwa [normalize_withoutDotSlash])
  rw [normalize_withoutDotSlash] at hnormal
  exact .inl (endsWith_iff.1 hnormal)

/-- Some entry point stands first among those that an identifier names. -/
theorem exists_standsFor {es rest : List EntryPoint} (hid : normalize id.toList ≠ [])
    (hm : m.exposes = es ++ e :: rest) (he : Names id (m.sourcePath e)) :
    ∃ e' ∈ es ++ [e], StandsFor m id e' := by
  let named : EntryPoint → Bool := fun e ↦
    answers (normalize (m.sourcePath e).toList) (normalize id.toList)
  have hfind : ((es ++ [e]).find? named).isSome := by
    rw [List.find?_isSome]
    exact ⟨e, by simp, answers_iff_names.2 he⟩
  obtain ⟨e', he'⟩ := Option.isSome_iff_exists.1 hfind
  obtain ⟨hnames, before, after, hes, hbefore⟩ := List.find?_eq_some_iff_append.1 he'
  refine ⟨e', hes ▸ by simp, hid, before, after ++ rest, ?_, answers_iff_names.1 hnames, ?_⟩
  · rw [← List.cons_append, ← List.append_assoc, ← hes, List.append_assoc, hm]
    rfl
  · intro e'' he'' hnames'
    have hne := hbefore e'' he''
    rw [show named e'' = true from answers_iff_names.2 hnames'] at hne
    cases hne

/-- The written path of an entry point leads to its own key, unless it names the file of an
earlier one; then the first such entry point has it. -/
theorem keyFor?_written {text path : String} {es rest : List EntryPoint}
    (hparse : Manifest.parse text path = .ok m) (hm : m.exposes = es ++ e :: rest)
    (he : normalize e.path.toList ≠ []) :
    (keyFor? m e.path = some e.key ↔ ∀ e' ∈ es, ¬ Names e.path (m.sourcePath e')) ∧
      ∃ e' ∈ es ++ [e], StandsFor m e.path e' ∧ keyFor? m e.path = some e'.key := by
  have hown := names_sourcePath m he
  have hkeys := Manifest.keys_nodup_of_parse hparse
  rw [hm, List.map_append, List.map_cons, List.nodup_append] at hkeys
  have hother : ∀ e' ∈ es, e'.key ≠ e.key := fun e' he' ↦
    hkeys.2.2 _ (List.mem_map_of_mem he') _ List.mem_cons_self
  obtain ⟨e', he', hstands⟩ := exists_standsFor he hm hown
  have hkey := keyFor?_eq_some.2 ⟨e', hstands, rfl⟩
  refine ⟨⟨fun h e'' he'' hnames ↦ ?_, fun h ↦ ?_⟩, e', he', hstands, hkey⟩
  · obtain ⟨before, after, rfl⟩ := List.append_of_mem he''
    have hm' : m.exposes = before ++ e'' :: (after ++ e :: rest) := by
      rw [hm, List.append_assoc, List.cons_append]
    obtain ⟨first, hfirst, hstands'⟩ := exists_standsFor he hm' hnames
    have hfirst' : first ∈ before ++ e'' :: after := by
      rcases List.mem_append.1 hfirst with hmem | hmem
      · exact List.mem_append_left _ hmem
      · exact List.mem_append_right _ (List.mem_singleton.1 hmem ▸ List.mem_cons_self)
    have hkey' := keyFor?_eq_some.2 ⟨first, hstands', rfl⟩
    exact hother first hfirst' (Option.some.inj (hkey'.symm.trans h))
  · obtain hmem | hmem := List.mem_append.1 he'
    · obtain ⟨-, before, after, -, hnames, -⟩ := hstands
      exact absurd hnames (h e' hmem)
    · rw [hkey, List.mem_singleton.1 hmem]

section Example

/-- Two files of one name; the path of the second one ends the path of the first one too. -/
def twoButtons : Manifest :=
  ⟨"shop", [⟨"A", "src/lib/Button.ts"⟩, ⟨"B", "lib/Button.ts"⟩], "/repo/federation.config.json"⟩

theorem parse_twoButtons : Manifest.parse
    ("\x7b\"name\": \"shop\", \"exposes\": " ++
      "\x7b\"A\": \"src/lib/Button.ts\", \"B\": \"lib/Button.ts\"\x7d\x7d")
    "/repo/federation.config.json" = .ok twoButtons := by
  decide +kernel

theorem keyFor?_written_twoButtons : keyFor? twoButtons "src/lib/Button.ts" = some "A" ∧
    keyFor? twoButtons "lib/Button.ts" ≠ some "B" := by
  have hfirst : twoButtons.exposes = [] ++ ⟨"A", "src/lib/Button.ts"⟩ :: _ := rfl
  have hsecond : twoButtons.exposes = [⟨"A", "src/lib/Button.ts"⟩] ++
      ⟨"B", "lib/Button.ts"⟩ :: [] := rfl
  have hnames : Names "lib/Button.ts" (twoButtons.sourcePath ⟨"A", "src/lib/Button.ts"⟩) :=
    answers_iff_names.1 (by decide +kernel)
  constructor
  · exact (keyFor?_written parse_twoButtons hfirst (by decide)).1.2 (by simp)
  · intro h
    have hnone := (keyFor?_written parse_twoButtons hsecond (by decide)).1.1 h
    exact hnone _ (by simp) hnames

/-- A written path does not always lead to its own key. -/
theorem written_under_other_key : ¬ ∀ (text path : String) (m : Manifest) (e : EntryPoint),
    Manifest.parse text path = .ok m →
    m.exposes.Pairwise (fun a b ↦
      normalize (m.sourcePath a).toList ≠ normalize (m.sourcePath b).toList) →
    e ∈ m.exposes → normalize e.path.toList ≠ [] → keyFor? m e.path = some e.key := by
  intro h
  have hkey := h _ _ twoButtons ⟨"B", "lib/Button.ts"⟩ parse_twoButtons (by decide +kernel)
    (by decide) (by decide)
  revert hkey
  decide +kernel

end Example

end ModulePath

end AmbientTypes
