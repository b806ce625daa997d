import AmbientTypes.Proofs.Command.Preparation
import Mathlib.Data.List.Find
import Mathlib.Data.List.Induction

namespace AmbientTypes

def Files.layer? (f : Files) (path : String) : Option Settings :=
  (f.readText path).toOption.bind Settings.parse

namespace Settings

variable {α : Type} {after : List Settings}

theorem overriddenBy_assoc (a b c : Settings) :
    (a.overriddenBy b).overriddenBy c = a.overriddenBy (b.overriddenBy c) := by
  simp only [overriddenBy, Option.orElse_eq_orElse, Option.orElse_eq_or, Option.or_assoc]
  congr 1
  by_cases hc : c.program.isSome ∨ c.arguments ≠ []
  · have hbc : (c.program.or b.program).isSome ∨ c.arguments ≠ [] := by
      rcases hc with hc | hc
      · exact .inl (by simp [hc])
      · exact .inr hc
    rw [if_pos hc, if_pos hc, if_pos hbc]
  · obtain ⟨hprogram, -⟩ := not_or.1 hc
    rw [if_neg hc, if_neg hc, Option.not_isSome_iff_eq_none.1 hprogram, Option.none_or]

@[simp] theorem overriddenBy_self (a : Settings) : a.overriddenBy a = a := by
  simp [overriddenBy]

@[simp] theorem empty_overriddenBy (a : Settings) : overriddenBy {} a = a := by
  have harguments : (if a.program.isSome ∨ a.arguments ≠ [] then a.arguments else []) =
      a.arguments := by
    split
    · rfl
    · next h => exact (not_not.1 (not_or.1 h).2).symm
  simp [overriddenBy, harguments]

@[simp] theorem overriddenBy_empty (a : Settings) : a.overriddenBy {} = a := by
  simp [overriddenBy]

def merged (layers : List Settings) : Settings :=
  layers.foldl overriddenBy {}

theorem merged_concat (layers : List Settings) (s : Settings) :
    merged (layers ++ [s]) = (merged layers).overriddenBy s := by
  simp [merged]

/-- A setting that is overridden by itself is that of the last layer that has it. -/
theorem last_of_merged (field : Settings → Option α) (hempty : field {} = none)
    (hover : ∀ a b, field (a.overriddenBy b) = (field b <|> field a)) (layers : List Settings) :
    field (merged layers) = layers.reverse.findSome? field := by
  induction layers using List.reverseRecOn with
  | nil => exact hempty
  | append_singleton layers s ih =>
    rw [merged_concat, hover, ih, List.reverse_concat, List.findSome?_cons]
    cases field s <;> rfl

/-- Whether a layer says which arguments the compiler gets. -/
def setsArguments (s : Settings) : Bool :=
  s.program.isSome || s.arguments ≠ []

theorem arguments_overriddenBy (a b : Settings) :
    (a.overriddenBy b).arguments = if b.setsArguments then b.arguments else a.arguments := by
  simp [overriddenBy, setsArguments]

theorem arguments_merged (layers : List Settings) :
    (merged layers).arguments = (layers.reverse.find? setsArguments).elim [] (·.arguments) := by
  induction layers using List.reverseRecOn with
  | nil => rfl
  | append_singleton layers s ih =>
    rw [merged_concat, arguments_overriddenBy, ih, List.reverse_concat, List.find?_cons]
    cases s.setsArguments <;> rfl

/-- Above the last program, arguments alone decide. -/
theorem find?_setsArguments (h : ∀ s ∈ after, s.program = none) :
    after.reverse.find? setsArguments = after.reverse.find? (·.arguments ≠ []) := by
  refine List.find?_congr fun s hs ↦ ?_
  simp [setsArguments, h s (List.mem_reverse.1 hs)]

/-- What layers come to: the last layer that sets something decides it, and arguments are those of
the last program, unless a later layer has other ones. -/
structure IsMergeOf (layers : List Settings) (s : Settings) : Prop where
  choice : s.choice = layers.reverse.findSome? (·.choice)
  manifestName : s.manifestName = layers.reverse.findSome? (·.manifestName)
  skipped : s.skipped = layers.reverse.findSome? (·.skipped)
  outputDir : s.outputDir = layers.reverse.findSome? (·.outputDir)
  program : s.program = layers.reverse.findSome? (·.program)
  strict : s.strict = layers.reverse.findSome? (·.strict)
  arguments : s.arguments = (layers.reverse.find? setsArguments).elim [] (·.arguments)
  arguments_of_program : ∀ before upper after, layers = before ++ upper :: after →
    upper.program.isSome = true → (∀ t ∈ after, t.program = none) →
    s.arguments = (after.reverse.find? (·.arguments ≠ [])).elim upper.arguments (·.arguments)

theorem isMergeOf_merged (layers : List Settings) : IsMergeOf layers (merged layers) where
  choice := last_of_merged (·.choice) rfl (fun _ _ ↦ rfl) layers
  manifestName := last_of_merged (·.manifestName) rfl (fun _ _ ↦ rfl) layers
  skipped := last_of_merged (·.skipped) rfl (fun _ _ ↦ rfl) layers
  outputDir := last_of_merged (·.outputDir) rfl (fun _ _ ↦ rfl) layers
  program := last_of_merged (·.program) rfl (fun _ _ ↦ rfl) layers
  strict := last_of_merged (·.strict) rfl (fun _ _ ↦ rfl) layers
  arguments := arguments_merged layers
  arguments_of_program := by
    rintro before upper after rfl hupper hafter
    have hsets : upper.setsArguments = true := by simp [setsArguments, hupper]
    rw [arguments_merged, List.reverse_append, List.reverse_cons, List.find?_append,
      List.find?_append, find?_setsArguments hafter, List.find?_singleton, if_pos hsets]
    cases after.reverse.find? (·.arguments ≠ []) <;> rfl

section Loading

variable (path : String) (w : World)

theorem run_load : (load path).run w =
    match w.files.readText path with
    | .error e => (.error (.readingSettings path e), w)
    | .ok text =>
      match parse text with
      | some s => (.ok s, w)
      | none => (.error (.invalidSettings path), w) := by
  rw [load, Action.run_bind, Action.run_inspect]
  cases w.files.readText path with
  | error e => rfl
  | ok text => cases h : parse text <;> simp [h]

theorem layer?_eq_none_of_missing {f : Files} (h : f.pathExists path = false) :
    f.layer? path = none := by
  rw [Files.layer?, Files.readText, Files.readBytes]
  rw [Files.pathExists] at h
  cases hl : f.lookup path with
  | ok r => simp [hl] at h
  | error e => rfl

theorem fst_run_loadIfAny :
    ((loadIfAny path).run w).1 = .ok ((w.files.layer? path).getD {}) := by
  rw [loadIfAny, Action.run_bind, Action.run_files]
  dsimp only
  cases hex : w.files.pathExists path with
  | false =>
    rw [layer?_eq_none_of_missing path hex]
    rfl
  | true =>
    rw [Files.layer?]
    simp only [if_true, Action.run_bind, Action.run_tryCatch, run_load]
    cases w.files.readText path with
    | error e => rfl
    | ok text =>
      simp only [Except.toOption, Option.bind_some]
      cases parse text <;> rfl

theorem merged_filterMap (before : List Settings) (found : Option Settings) :
    (merged before).overriddenBy (found.getD {}) = merged (before ++ found.toList) := by
  cases found with
  | none => simp
  | some s => exact (merged_concat before s).symm

theorem fst_run_overriddenBy_loadIfAny (s : Settings) (path : String) (w : World) :
    ((do return s.overriddenBy (← loadIfAny path) : Action Settings).run w).1 =
      .ok (s.overriddenBy ((w.files.layer? path).getD {})) := by
  rw [(reads_loadIfAny path).fst_bind fun t ↦ .pure _, fst_run_loadIfAny]
  rfl

theorem fst_run_loadLayers (user : Option String) (project : String) (w : World) :
    ((loadLayers user project).run w).1 =
      .ok (merged ((user.toList ++ [project]).filterMap w.files.layer?)) := by
  have hlayers : (user.toList ++ [project]).filterMap w.files.layer? =
      user.toList.filterMap w.files.layer? ++ (w.files.layer? project).toList := by
    rw [List.filterMap_append]
    cases h : w.files.layer? project <;> simp [h]
  rw [hlayers, ← merged_filterMap]
  unfold loadLayers
  cases user with
  | none => exact fst_run_overriddenBy_loadIfAny _ project w
  | some path =>
    have hproject (s : Settings) : Action.Reads (do
        return (overriddenBy {} s).overriddenBy (← loadIfAny project)) :=
      (reads_loadIfAny project).bind fun t ↦ .pure _
    have huser : merged ((some path).toList.filterMap w.files.layer?) =
        overriddenBy {} ((w.files.layer? path).getD {}) := by
      cases h : w.files.layer? path <;> simp [h, merged]
    rw [huser, ← fst_run_overriddenBy_loadIfAny]
    dsimp only
    rw [(reads_loadIfAny path).fst_bind hproject, fst_run_loadIfAny]
    rfl

/-- Merging layers of settings is associative and idempotent, and a layer that sets nothing is
neutral. The last layer that sets something decides it. Settings that are loaded are the merged
layers of the files that give any; another file does no harm. -/
theorem loadLayers_merges :
    (∀ a b c : Settings, (a.overriddenBy b).overriddenBy c = a.overriddenBy (b.overriddenBy c)) ∧
    (∀ a : Settings, a.overriddenBy a = a) ∧
    (∀ a : Settings, overriddenBy {} a = a ∧ a.overriddenBy {} = a) ∧
    (∀ layers, IsMergeOf layers (merged layers)) ∧
    ∀ (user : Option String) (project : String) (w : World), ∃ logs : List Notice,
      (∀ n ∈ logs, n.IsLog) ∧ (loadLayers user project).run w =
        (.ok (merged ((user.toList ++ [project]).filterMap w.files.layer?)),
          { w with notices := w.notices ++ logs }) := by
  refine ⟨overriddenBy_assoc, overriddenBy_self, fun a ↦ ⟨empty_overriddenBy a,
    overriddenBy_empty a⟩, isMergeOf_merged, fun user project w ↦ ?_⟩
  obtain ⟨logs, hlogs, hrun⟩ := (reads_loadLayers user project).run_eq w
  exact ⟨logs, hlogs, by rw [hrun, fst_run_loadLayers]⟩

/-- Another program comes without the arguments of the old one. -/
example : merged [{ program := some "npx", arguments := ["--no-install", "tsc"] },
    { arguments := ["--yes", "tsc"] }, { program := some "tsc", strict := some true }] =
    { program := some "tsc", strict := some true } := by decide

end Loading

end Settings

end AmbientTypes
