import AmbientTypes.Proofs.Command.Arguments
import AmbientTypes.Proofs.Command.Listing
import AmbientTypes.Proofs.Search.Spelling
import AmbientTypes.Proofs.Settings.Layers

namespace AmbientTypes

open AmbientTypes.Action

namespace Tree

def nested (n : String) (t : Tree) : Nat → Tree
  | 0 => t
  | k + 1 => .folder [(n, nested n t k)]

variable {n : String} {t : Tree}

theorem get?_nested (k m : Nat) :
    (nested n t (k + m)).get? (List.replicate k n) = some (nested n t m) := by
  induction k with
  | zero => rw [Nat.zero_add]; rfl
  | succ k ih =>
    rw [Nat.succ_add, List.replicate_succ, nested, get?, List.lookup_cons_self]
    exact ih

theorem isWellNamed_nested (hn : Path.IsName n) (ht : t.IsWellNamed) (k : Nat) :
    (nested n t k).IsWellNamed := by
  induction k with
  | zero => exact ht
  | succ k ih => exact .cons hn (by simp) ih .empty

theorem hasShortNames_nested (hn : Files.IsShort n) (ht : t.HasShortNames) (k : Nat) :
    (nested n t k).HasShortNames := by
  induction k with
  | zero => exact ht
  | succ k ih => exact .cons hn ih .empty

end Tree

namespace Command

section Words

variable {text : String} {words : List String}

/-- The words that pass a path to a command. Where the path is a word of its own, it must not look
like an option. -/
inductive Passes (text : String) : List String → Prop
  | attached : Passes text ["--config=" ++ text]
  | apart (h : isDashed text = false) : Passes text ["--config", text]

/-- A given path and nothing else, as each command reads it. -/
structure AsksFor (text : String) (words : List String) : Prop where
  bare : Invocation.parse words = .ok ⟨{}, .build { config := some text }⟩
  build : Invocation.parse ("build" :: words) = .ok ⟨{}, .build { config := some text }⟩
  locate : Invocation.parse ("locate" :: words) = .ok ⟨{}, .locate { config := some text }⟩

def Flags.ofConfig (text : String) : Flags where
  given := [.config]
  config := some text

theorem readFrom_nil {l : Level} {r s : Reading} (hs : r.settle = .ok s)
    (hcheck : s.flags.check l = .ok ()) : readFrom l r [] = .ok [(l, s.flags)] := by
  have hfinish : r.finish l = .ok s.flags := by
    refine Except.bind_eq_ok_iff.2 ⟨s, hs, ?_⟩
    rw [hcheck]
    rfl
  exact Except.bind_eq_ok_iff.2 ⟨_, hfinish, rfl⟩

theorem readFrom_passes {l : Level} (hl : l.long? "config" = some .config) (hne : text ≠ "")
    (h : Passes text words) :
    readFrom l {} words = .ok [(l, .ofConfig text)] := by
  have hadd : ofUsage (({} : Flags).add .config text) = .ok (.ofConfig text) := by
    simp [Flags.add, Flags.path, Flags.ofConfig, hne, bind, Except.bind, pure, Except.pure, ofUsage]
  have hcheck : (Flags.ofConfig text).check l = .ok () := by
    cases l with
    | completions => cases hl
    | _ => rfl
  cases h with
  | attached =>
    let v : ValuedFlag := ⟨.config, "config", text, true, by decide⟩
    have hword : ("--config=" ++ text).toList =
        '-' :: '-' :: ("config".toList ++ '=' :: text.toList) :=
      Reading.toList_dashed_value "config" text
    have hargument : ({} : Reading).argument l ("--config=" ++ text) =
        .ok { flags := .ofConfig text } := by
      refine (Reading.argument_attached (v := v) hl rfl).trans ?_
      exact Except.bind_eq_ok_iff.2 ⟨{}, rfl, Except.bind_eq_ok_iff.2 ⟨_, hadd, rfl⟩⟩
    rw [Reading.readFrom_dash _ hword]
    refine Except.bind_eq_ok_iff.2 ⟨_, hargument, ?_⟩
    exact readFrom_nil (s := { flags := .ofConfig text }) rfl hcheck
  | apart hdash =>
    let v : ValuedFlag := ⟨.config, "config", text, false, by decide⟩
    have hword : "--config".toList = '-' :: '-' :: "config".toList := rfl
    have hargument : ({} : Reading).argument l "--config" =
        .ok { pending := some (.config, none) } :=
      Reading.argument_detached (v := v) hl rfl
    have hsettle : ({ pending := some (.config, some text) } : Reading).settle =
        .ok { flags := .ofConfig text } :=
      Except.bind_eq_ok_iff.2 ⟨_, hadd, rfl⟩
    rw [Reading.readFrom_dash _ hword]
    refine Except.bind_eq_ok_iff.2 ⟨_, hargument, ?_⟩
    exact (Reading.readFrom_value rfl rfl text []).2 ⟨hdash, readFrom_nil hsettle hcheck⟩

theorem readFrom_command {c : Level} (hc : c ∈ Level.commands) (words : List String) :
    readFrom .top {} (c.name :: words) =
      (readFrom c {} words).map fun inner ↦ (.top, {}) :: inner := by
  have hcommand : Reading.command? .top c.name = some c := by
    revert c
    decide
  rw [readFrom, if_neg (by decide), hcommand]
  dsimp only
  cases readFrom c {} words <;> rfl

theorem asksFor_of_passes (hne : text ≠ "") (h : Passes text words) : AsksFor text words := by
  constructor
  case bare =>
    rw [Invocation.parse, readFrom_passes rfl hne h]
    rfl
  case build =>
    rw [Invocation.parse, ← Level.name, readFrom_command (c := .build) (by decide),
      readFrom_passes rfl hne h]
    rfl
  case locate =>
    rw [Invocation.parse, ← Level.name, readFrom_command (c := .locate) (by decide),
      readFrom_passes rfl hne h]
    rfl

end Words

/-- Under flags that give a text, listing and loading come to the manifest at `path`. -/
structure Selects (launch : Launcher) (w : World) (text path : String) : Prop where
  comesTo : ∀ (f : BuildFlags) (s : Settings), f.config = some text →
    (f.plan w.cwd s).ComesTo w (.ok path)
  shows : ∀ f : BuildFlags, f.config = some text → LocateShows launch f w (.ok path)

theorem selects_of_isFile {w : World} {text : String}
    (hfile : w.files.isFile (Path.anchor w.cwd text) = true) (launch : Launcher) :
    Selects launch w text (Path.anchor w.cwd text) := by
  have hcomes (f : BuildFlags) (s : Settings) (hf : f.config = some text) :
      (f.plan w.cwd s).ComesTo w (.ok (Path.anchor w.cwd text)) := by
    refine Plan.comesTo_given ?_ hfile
    change ((Plan.ofSettings w.cwd s).choosing f.config f.discovery).choice = _
    rw [hf, Plan.choice_choosing_some]
  refine ⟨hcomes, fun f hf ↦ ?_⟩
  obtain ⟨s, hs⟩ := settings_succeed.eq_ok w
  exact locateShows_of_chosen hs (hcomes f s hf).chosen

theorem isFile_of_selects {launch : Launcher} {w : World} {text path : String}
    (h : Selects launch w text path) : w.files.isFile (Path.anchor w.cwd text) = true := by
  let f : BuildFlags := { config := some text }
  have hchoice : (f.plan w.cwd {}).choice = .given (Path.anchor w.cwd text) :=
    Plan.choice_choosing_some w.cwd {} none text
  by_contra hfile
  have hmissing : (f.plan w.cwd {}).ComesTo w (.error (.givenMissing (Path.anchor w.cwd text))) :=
    Plan.comesTo_of_chosen (by simp [Search.chosen, hchoice, run_bind, hfile, Except.mapError])
  cases (h.comesTo f {} rfl).chosen.symm.trans hmissing.chosen

/-- What is listed is absolute, and a file where its path is not too long. -/
theorem isFile_of_mem_paths {w : World} (hw : w.files.IsSound) {f : LocateFlags} {s : Settings}
    {paths : List String} (hpaths : f.paths s w = .ok paths) {path : String}
    (hpath : path ∈ paths) : Path.isAbsolute path = true ∧
      (Files.utf8Size path ≤ Files.longestPath → w.files.isFile path = true) := by
  have hroot : (f.plan w.cwd s).root = w.cwd := Plan.root_choosing _ _ _ _
  obtain ⟨found, hall, -⟩ := (f.plan w.cwd s).manifestPaths_all w
  rcases Plan.mem_manifestPaths hall hpaths hpath with ⟨hchoice, hfile⟩ | hfound
  · refine ⟨?_, fun _ ↦ hfile⟩
    cases hconfig : f.config with
    | none =>
      obtain ⟨c, hc⟩ := Plan.choice_choosing_none w.cwd s f.discovery
      rw [LocateFlags.plan, hconfig, hc] at hchoice
      cases hchoice
    | some text =>
      rw [LocateFlags.plan, hconfig, Plan.choice_choosing_some] at hchoice
      rw [← ManifestChoice.given.inj hchoice]
      exact Path.isAbsolute_anchor (Location.isAbsolute_path _) text
  · rw [hroot] at hall
    exact Search.isFile_of_mem_all hw hall hfound

section Example

def shopFolder : Tree :=
  .folder [("federation.config.json", .file ⟨"\x7b\"name\":\"shop\"\x7d".toUTF8, none⟩)]

/-- A folder whose name looks like an option. -/
def dashed : World where
  files := { tree := .folder [("-x", shopFolder)] }

theorem isSound_dashed : dashed.files.IsSound where
  wellNamed := .cons (by decide) (by decide) (.cons (by decide) (by decide) (.file _) .empty) .empty
  short := .cons ⟨by decide, by decide, by decide⟩
    (.cons ⟨by decide, by decide, by decide⟩ (.file _) .empty) .empty
  cwd := rfl

/-- A word of its own, it is taken for an option. -/
theorem printed_is_no_word : ¬ ∀ (w : World) (text : String),
    (run Execution.start false ["locate"] w).1 = ⟨0, { stdout := text ++ "\n" }⟩ →
      (run Execution.start false ["locate", "--config", text] w).1 =
        ⟨0, { stdout := text ++ "\n" }⟩ := by
  intro h
  have hagain := h dashed "-x/federation.config.json" (by decide +kernel)
  exact absurd hagain (by decide +kernel)

def letters (k : Nat) : String := String.ofList (List.replicate k 'a')

theorem toList_letters (k : Nat) : (letters k).toList = List.replicate k 'a' :=
  String.toList_ofList

theorem utf8Size_letters (k : Nat) : Files.utf8Size (letters k) = k := by
  rw [Files.utf8Size, toList_letters]
  induction k with
  | zero => rfl
  | succ k ih =>
    rw [List.replicate_succ, Text.utf8Length_cons, ih, Nat.add_comm]
    rfl

theorem isShort_letters {k : Nat} (hne : k ≠ 0) (hk : k ≤ Files.longestName) :
    Files.IsShort (letters k) := by
  have hmem : ∀ c ∈ (letters k).toList, c = 'a' := by
    rw [toList_letters]
    exact fun c hc ↦ List.eq_of_mem_replicate hc
  have hhead : (letters k).toList.head? = some 'a' := by
    rw [toList_letters, List.head?_replicate, if_neg hne]
  have hother {s : String} (hs : s.toList.head? ≠ some 'a') : letters k ≠ s := by
    rintro rfl
    exact hs hhead
  exact {
    isName := {
      no_slash := fun h ↦ absurd (hmem _ h) (by decide)
      ne_empty := hother (s := "") (by decide)
      ne_dot := hother (s := ".") (by decide)
      ne_dots := hother (s := "..") (by decide) }
    no_nul := fun h ↦ absurd (hmem _ h) (by decide)
    size := (utf8Size_letters k).trans_le hk }

/-- The current directory lies deep, with a package in a folder of it. -/
def deep (n : String) : World where
  files := {
    tree := .nested n shopFolder 16
    cwd := List.replicate 15 n }

theorem get?_cwd_deep (n : String) :
    (deep n).files.tree.get? (deep n).files.cwd = some (.folder [(n, shopFolder)]) :=
  Tree.get?_nested 15 1

theorem isShort_settings : ∀ m ∈ [".fedtypes", "config.toml"], Files.IsShort m :=
  List.forall_mem_cons.2 ⟨⟨by decide, by decide, by decide⟩,
    List.forall_mem_singleton.2 ⟨by decide, by decide, by decide⟩⟩

theorem pathIn_path {l : Location} (hl : ∀ m ∈ l, IsSegment m) :
    Settings.pathIn l.path = Location.path (l ++ [".fedtypes", "config.toml"]) :=
  Location.foldl_join_path hl fun m hm ↦ .of_isName (isShort_settings m hm).isName

theorem settings_of_missing {w : World} (henvironment : w.environment = [])
    (hmissing : w.files.pathExists (Settings.pathIn w.cwd) = false) :
    (settings.run w).1 = .ok {} := by
  have huser : Settings.userPath? w = none := by
    rw [Settings.userPath?, World.envValue?, henvironment]
    rfl
  rw [settings, run_bind, run_get]
  dsimp only
  rw [huser, Settings.fst_run_loadLayers]
  simp [Settings.layer?_eq_none_of_missing _ hmissing, Settings.merged]

section Deep

variable {n : String} (hn : Files.IsShort n)
include hn

theorem isSound_deep : (deep n).files.IsSound where
  wellNamed := Tree.isWellNamed_nested hn.isName
    (.cons (by decide) (by decide) (.file _) .empty) 16
  short := Tree.hasShortNames_nested hn
    (.cons ⟨by decide, by decide, by decide⟩ (.file _) .empty) 16
  cwd := congrArg (Option.map Tree.node) (get?_cwd_deep n)

theorem settings_deep (hother : n ≠ ".fedtypes") : (settings.run (deep n)).1 = .ok {} := by
  have hcwd := (isSound_deep hn).short_cwd
  have hmissing : (deep n).files.pathExists (Settings.pathIn (deep n).cwd) = false := by
    have hnames : ∀ m ∈ (deep n).files.cwd ++ [".fedtypes", "config.toml"], Files.IsShort m :=
      List.forall_mem_append.2 ⟨hcwd, isShort_settings⟩
    rw [World.cwd, pathIn_path fun m hm ↦ .of_isName (hcwd m hm).isName]
    refine Files.pathExists_below_missing hnames rfl (isSound_deep hn).cwd ?_
    rw [Tree.node?, Tree.get?_child (get?_cwd_deep n), List.lookup_cons,
      beq_eq_false_iff_ne.2 hother.symm]
    rfl
  exact settings_of_missing rfl hmissing

omit hn in
theorem utf8Size_path_deep (hsize : Files.utf8Size n = 254) (l : Location) :
    Files.utf8Size (Location.path ((deep n).files.cwd ++ l)) = 3825 + l.size := by
  have hcwd : Location.size (deep n).files.cwd = 3825 := by
    rw [deep, Location.size_replicate, hsize]
  rw [Location.utf8Size_path (by simp [deep]), Location.size_append, hcwd]

theorem isName_belowDeep : ∀ m ∈ [n, "federation.config.json"], Path.IsName m :=
  List.forall_mem_cons.2 ⟨hn.isName, List.forall_mem_singleton.2 (by decide)⟩

theorem exists_listed_deep (hsize : Files.utf8Size n = 254) :
    ∃ found, LocateFlags.paths { all := true } {} (deep n) = .ok found ∧
      Location.path ((deep n).files.cwd ++ [n, "federation.config.json"]) ∈ found := by
  have hsound := isSound_deep hn
  have hcwd := hsound.short_cwd
  have hshort : Files.utf8Size (Location.path (deep n).files.cwd) ≤ Files.longestPath := by
    have h := utf8Size_path_deep hsize []
    rw [List.append_nil] at h
    rw [h]
    decide
  have hroot : (deep n).files.lookupLink (deep n).cwd =
      .ok ((deep n).files.cwd, .folder [(n, shopFolder)]) :=
    Files.lookupLink_eq_ok.2
      (Files.resolve_path hcwd (by simp [deep]) (get?_cwd_deep n) (fun _ ↦ nofun) hshort)
  obtain ⟨ls, hall, hmem, -⟩ := Search.all_listed {} hroot
    (hsound.wellNamed.get? (get?_cwd_deep n))
  have hfinds : Search.Finds {} (.folder [(n, shopFolder)]) [n, "federation.config.json"] := by
    refine ⟨⟨_, by rw [Tree.get?, List.lookup_cons_self]; rfl⟩, rfl, ?_⟩
    have hskipped : ∀ m ∈ ["node_modules", ".git"], Files.utf8Size m ≠ 254 := by decide
    exact List.forall_mem_singleton.2 fun h ↦ hskipped n h hsize
  refine ⟨_, congrArg Prod.fst hall, List.mem_map.2 ⟨_, (hmem _).2 hfinds, ?_⟩⟩
  exact Location.foldl_join_path (fun m hm ↦ .of_isName (hcwd m hm).isName)
    fun m hm ↦ .of_isName (isName_belowDeep hn m hm)

end Deep

/-- Nor does a path always select its manifest that is longer than what the system opens. -/
theorem printed_is_too_long : ¬ ∀ (w : World) (f : LocateFlags) (s : Settings)
    (paths : List String), w.files.IsSound → (settings.run w).1 = .ok s → f.paths s w = .ok paths →
    ∀ path ∈ paths, ∃ same, Selects Execution.start w (Path.shown w.cwd path) same := by
  intro hclaim
  have hn : Files.IsShort (letters 254) := isShort_letters (by decide) (by decide)
  have hsize := utf8Size_letters 254
  have hother : letters 254 ≠ ".fedtypes" := by
    have hname : Files.utf8Size ".fedtypes" ≠ 254 := by decide
    exact fun h ↦ hname (h ▸ hsize)
  obtain ⟨found, hfound, hmem⟩ := exists_listed_deep hn hsize
  obtain ⟨same, hselects⟩ := hclaim (deep (letters 254)) { all := true } {} found
    (isSound_deep hn) (settings_deep hn hother) hfound _ hmem
  have hfits := Files.size_of_isFile (isFile_of_selects hselects)
  rw [World.cwd, (isSound_deep hn).anchor_shown_path (isName_belowDeep hn) (List.cons_ne_nil _ _),
    utf8Size_path_deep hsize, Location.size, Location.size, Location.size, hsize] at hfits
  exact absurd hfits (by decide)

end Example

end Command

end AmbientTypes
