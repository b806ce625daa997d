import AmbientTypes.Proofs.Compilation.Directory
import AmbientTypes.Proofs.Compilation.Emission
import AmbientTypes.Proofs.Pipeline.Report
import AmbientTypes.Proofs.Search.Stability
import AmbientTypes.Proofs.SharedFolder.Repetition

namespace AmbientTypes

open Manifest (IsAccepted)
open SharedFolder (IsPublished IsReserved LinkedIndex LinksApart Stages)

variable {w w' : World}

namespace CompileJob

variable {f g : Files} {P : Location → Prop} {m : Manifest}

theorem ofManifest_publishes (hpub : f.Publishes P g) {outFile : String} {j : CompileJob}
    (h : ofManifest f m outFile = .ok j) : ofManifest g m outFile = .ok j := by
  rw [ofManifest_eq_ok_iff] at h ⊢
  exact ⟨fun e he ↦ hpub.isFile (h.1 e he), h.2⟩

end CompileJob

namespace Plan

variable {p : Plan} {c : Compiler} {m : Manifest} {P : Location → Prop}

theorem keepsNames_compile (hc : ∀ j, (c.run j).KeepsNames) : (p.compile m c).KeepsNames := by
  intro w hw
  cases hj : CompileJob.ofManifest w.files m (p.declarationPath m.name) with
  | error e =>
    rw [run_compile_of_missing hj]
    exact hw
  | ok j =>
    have hjob : (p.job m).run w = (.ok j, w) := run_job_ok hj
    have hran := hc j w hw
    cases hrun : (c.run j).run w with
    | mk r₁ v =>
      rw [hrun] at hran
      cases h : (p.compile m c).run w with
      | mk r w' =>
        rcases compile_ends hjob hrun h with ⟨-, hsame⟩ | ⟨-, -, u, b, -, -, hu, hdiscard⟩
        · rwa [hsame]
        · rw [← hu] at hran
          have hkeeps := Storage.keepsNames_discardFile j.outFile u hran
          rwa [hdiscard] at hkeeps

theorem keepsNames_place (p : Plan) (m : Manifest) (bundle : String) :
    (p.place m bundle).KeepsNames := by
  apply Action.KeepsNames.bind
  · apply Action.KeepsNames.of_keepsFiles
    exact .bind (.forM_log _ _ _) fun _ ↦ .forM_log _ _ _
  · intro _
    split
    · exact .of_keepsFiles (.throw _)
    · exact .bind (SharedFolder.keepsNames_place _ _ _) fun _ ↦ .of_keepsFiles (.pure _)

theorem keepsNames_run (p : Plan) (hc : ∀ j, (c.run j).KeepsNames) : (p.run c).KeepsNames := by
  apply Action.KeepsNames.bind (.of_keepsFiles p.keepsFiles_manifest)
  intro m
  apply Action.KeepsNames.bind (keepsNames_compile hc)
  intro r
  cases r.bundle with
  | none => exact .of_keepsFiles (.pure _)
  | some bundle =>
    exact .bind (keepsNames_place p m bundle) fun _ ↦ .of_keepsFiles (.pure _)

/-- The same manifest is found and loaded again, unless its file was written over. -/
theorem manifest_again {v : World} (hpub : w.files.Publishes P w'.files)
    (hw : w.files.tree.IsWellNamed) (hw' : w'.files.tree.IsWellNamed)
    (hnew : ∀ l, P l → w.files.tree.node? l = none → l.getLast? ≠ some p.search.fileName)
    (hnot : ∀ l t, w.files.lookup m.path = .ok (l, t) → ¬ P l)
    (h : p.manifest.run w = (.ok m, v)) :
    ∃ v', p.manifest.run w' = (.ok m, v') ∧ v'.files = w'.files := by
  obtain ⟨u, text, hpath, hread, hparse, -⟩ := p.manifest_ok h
  obtain ⟨u', hpath', hu'⟩ := Search.find_again hpub hw hw' hnew hpath
  have hload : (Manifest.load m.path).run u' = (.ok m, u') := by
    rw [Manifest.load, Action.run_bind, Action.run_inspect, hu', hpub.readText hread hnot]
    simp only [hparse, Action.run_pure]
  rw [manifest, Action.run_bind, manifestPath, hpath']
  simp only [Action.run_bind, hload, Action.run_log, Action.run_pure]
  exact ⟨_, rfl, hu'⟩

theorem compile_ok {r : CompileResult} (h : (p.compile m c).run w = (.ok r, w')) :
    ∃ j v, CompileJob.ofManifest w.files m (p.declarationPath m.name) = .ok j ∧
      (c.run j).run w = (.ok r, v) ∧ w'.files = v.files := by
  cases hj : CompileJob.ofManifest w.files m (p.declarationPath m.name) with
  | error e =>
    rw [run_compile_of_missing hj] at h
    cases h
  | ok j =>
    have hjob : (p.job m).run w = (.ok j, w) := run_job_ok hj
    cases hrun : (c.run j).run w with
    | mk r₁ v =>
      rcases compile_ends hjob hrun h with ⟨rfl, hfiles⟩ | ⟨-, e, -, b, -, hb, -⟩
      · exact ⟨j, v, rfl, hrun, hfiles⟩
      · cases b <;> cases hb

theorem compile_succeeds {j : CompileJob} {r : CompileResult} (hjob : (p.job m).run w = (.ok j, w))
    (hrun : (c.run j).run w = (.ok r, w')) (hquiet : p.strict = true → r.countErrors = 0) :
    ∃ v, (p.compile m c).run w = (.ok r, v) ∧ v.files = w'.files := by
  have hgo : ¬ (p.strict && decide (0 < r.countErrors)) = true := by
    intro h
    rw [Bool.and_eq_true, decide_eq_true_iff] at h
    have hnone := hquiet h.1
    omega
  obtain ⟨notices, hcompile⟩ := run_compile hjob hrun
  rw [if_neg hgo] at hcompile
  exact ⟨_, hcompile, rfl⟩

/-- A merge that comes after its compiler starts where the compiler left the declarations. -/
theorem compile_then_place {dir name text bundle : String} {j : CompileJob} {v u : World}
    {ok : Bool} {messages : List CompilerMessage} {placement : Placement} (ha : IsAccepted name)
    (hc : c.Emits dir (declarationName name) bundle)
    (hj : j.outFile = Path.join dir (declarationName name))
    (hrun : (c.run j).run w = (.ok ⟨ok, messages, some bundle⟩, v)) (hu : u.files = v.files)
    (hp : (SharedFolder.place dir name text).run u = (.ok placement, w'))
    (hlinks : w.files.NotLinked dir (declarationName name)) :
    ∃ d f₂ i s contents f f₁, Stages dir name text f d f₁ f₂ i s contents placement w'.files ∧
      w.files.Publishes (IsPublished dir name w'.files) f₂ := by
  obtain ⟨f₀, d₀, k, hmade, hd₀, hfolder, hsets⟩ := hc.touches hj hrun hlinks
  obtain ⟨f, d, f₁, f₂, i, s, contents, hmakes, hstages⟩ := SharedFolder.place_stages ha hp
  rw [hu] at hmakes
  obtain ⟨rfl, rfl⟩ := hmakes.eq (hd₀.around hsets hmakes.grows hmakes.leadsTo)
  refine ⟨d, f₂, i, s, contents, v.files, f₁, hstages, ?_⟩
  have hbefore : f₀.tree.node? (d ++ [declarationName name]) = none ∨
      ∃ k, f₀.tree.node? (d ++ [declarationName name]) = some (.file k) := by
    cases hnode : f₀.tree.node? (d ++ [declarationName name]) with
    | none => exact .inl rfl
    | some node =>
      cases node with
      | file k => exact .inr ⟨k, rfl⟩
      | folder => exact absurd hnode hfolder
      | link t =>
        have hsame := hmade.grows.node_of_ne_folder (l := d ++ [declarationName name])
          (by rw [hnode]; simp)
        exact absurd (hsame.symm.trans hnode) (hlinks f₀ d hmade.grows hd₀ t)
  have hcompiled : w.files.Publishes (IsPublished dir name w'.files) v.files :=
    .trans (.of_grows hmade.grows) (.of_sets hsets hstages.isPublished_declarations hbefore)
  exact hcompiled.trans (hstages.publishes_before (.inr ⟨k, hsets.self⟩))

theorem compile_again {bundle : String} {j : CompileJob} {d : Location} {k : File}
    (hc : c.Emits p.sharedDir (declarationName m.name) bundle)
    (hjob : (p.job m).run w = (.ok j, w)) (hd : w.files.LeadsTo p.sharedDir d)
    (hfits : Files.Fits p.sharedDir (declarationName m.name))
    (hdecl : w.files.tree.node? (d ++ [declarationName m.name]) = some (.file k))
    (hquiet : p.strict = true → ∀ r u, (c.run j).run w = (.ok r, u) → r.countErrors = 0) :
    ∃ ok messages k' u, (p.compile m c).run w = (.ok ⟨ok, messages, some bundle⟩, u) ∧
      Files.Sets w.files d (declarationName m.name) (some (.file k')) u.files := by
  have hout := outFile_of_job hjob
  have hnotLinked : w.files.NotLinked p.sharedDir (declarationName m.name) :=
    .of_leadsTo hd (by simp [hdecl])
  obtain ⟨ok, messages, v, hrun⟩ := hc.again hout hd hfits hdecl
  obtain ⟨u, hcompile, hu⟩ := compile_succeeds hjob hrun fun hstrict ↦ hquiet hstrict _ v hrun
  obtain ⟨f, e, k', hmade, he, -, hsets⟩ := hc.touches hout hrun hnotLinked
  have halike := hmade.alike d hd
  obtain rfl := he.unique (hd.grows halike.grows)
  exact ⟨ok, messages, k', u, hcompile, hu ▸ hsets.congr_left halike⟩

theorem place_again {bundle : String} {f f₁ f₂ g : Files} {d i : Location} {e contents : String}
    {placement : Placement} (ha : IsAccepted m.name)
    (hbuilt : (PublicBundle.ofBundle m bundle).names.isBuildable p.patternSize = true)
    (h : Stages p.sharedDir m.name (PublicBundle.ofBundle m bundle).text f d f₁ f₂ i e contents
      placement g)
    (hindex : i ++ [e] ≠ d ++ [declarationName m.name])
    (hnew : f₂.tree.node? (i ++ [e]) = none → ∀ j, e ≠ Files.temporaryName j) {k : File}
    (hw : Files.Sets g d (declarationName m.name) (some (.file k)) w.files) :
    ∃ placement' v, (p.place m bundle).run w =
        (.ok ((PublicBundle.ofBundle m bundle).names, placement'), v) ∧ g.Alike v.files ∧
      placement'.indexChange = .unchanged ∧ placement'.stubChange ≠ .created := by
  obtain ⟨u, hfiles, hrun⟩ := run_place p m bundle w
  rw [← hfiles] at hw
  obtain ⟨placement', v, hv, hrest⟩ := h.place_again ha hindex hnew hw
  refine ⟨placement', v, ?_, hrest⟩
  rw [hrun, if_pos hbuilt]
  simp only [Action.run_bind, hv, Action.run_pure]

theorem getLast?_ne_of_isPublished {dir name fileName : String} {f g : Files} {l : Location}
    (hstub : fileName ≠ stubName) (hsuffix : ¬ ".d.ts".toList <:+ fileName.toList)
    (hindex : ∀ t, g.lookup (Path.join dir indexName) = .ok (l, t) → f.tree.node? l = none →
      l.getLast? ≠ some fileName)
    (h : IsPublished dir name g l) (hnone : f.tree.node? l = none) :
    l.getLast? ≠ some fileName := by
  rcases h with ⟨d, -, rfl | ⟨-, rfl⟩⟩ | ⟨t, ht⟩
  · intro hlast
    obtain rfl : declarationName name = fileName := by simpa using hlast
    exact hsuffix (toList_declarationName name ▸ List.suffix_append _ _)
  · intro hlast
    exact hstub (by simpa using hlast.symm)
  · exact hindex t ht hnone

/-- A run that placed declarations. Its compiler gives no bundle but one, and its manifest is none
of the files that it writes and can have none of their names. -/
structure Placed (p : Plan) (c : Compiler) (w : World) (s : RunSummary) (names : Renaming)
    (bundle : String) (w' : World) : Prop where
  run : (p.run c).run w = (.ok s, w')
  outcome : ∃ placement, s.outcome = .placed placement names
  wellNamed : w.files.tree.IsWellNamed
  emits : c.Emits p.sharedDir (declarationName s.name) bundle
  ne_stubName : p.search.fileName ≠ stubName
  not_suffix : ¬ ".d.ts".toList <:+ p.search.fileName.toList
  manifest : ∀ l t, w.files.lookup s.manifestPath = .ok (l, t) →
    ¬ IsPublished p.sharedDir s.name w'.files l

/-- Where errors are fatal, the compiler has none when the run is made once more. -/
def IsQuiet (p : Plan) (c : Compiler) (w : World) : Prop :=
  p.strict = true → ∀ m v j r u, p.manifest.run w = (.ok m, v) → (p.job m).run v = (.ok j, v) →
    (c.run j).run v = (.ok r, u) → r.countErrors = 0

/-- A run made once more finds the same manifest, leaves every file as it is, and says so. -/
def Repeats (p : Plan) (c : Compiler) (s : RunSummary) (names : Renaming) (w : World) : Prop :=
  ∃ s' placement w', (p.run c).run w = (.ok s', w') ∧ s'.manifestPath = s.manifestPath ∧
    s'.name = s.name ∧ s'.outcome = .placed placement names ∧
    placement.indexChange = .unchanged ∧ placement.stubChange ≠ .created ∧
    w.files.Alike w'.files

/-- A run that placed declarations can be made once more, and changes nothing. -/
theorem run_twice {s : RunSummary} {names : Renaming} {bundle : String}
    (h : p.Placed c w s names bundle w')
    (hlinks : LinksApart p.sharedDir s.name p.search.fileName w.files w'.files)
    (hquiet : p.IsQuiet c w') : p.Repeats c s names w' := by
  obtain ⟨hrun, ⟨placement, ho⟩, hwell, hc, hstub, hsuffix, hmanifest⟩ := h
  obtain ⟨m, v, ok, text, u, hm, hpath, hname, hcompile, hp⟩ := run_placed hrun ho
  have ha := p.isAccepted_of_manifest hm
  have hv : v.files = w.files := by
    have hkeeps := p.keepsFiles_manifest w
    rwa [hm] at hkeeps
  rw [hname] at hc hmanifest hlinks
  rw [hpath] at hmanifest
  obtain ⟨j, v₁, hj, hcompiled, hu⟩ := compile_ok hcompile
  have hout : j.outFile = Path.join p.sharedDir (declarationName m.name) := outFile_of_ofManifest hj
  obtain rfl := hc.only hout hcompiled
  obtain ⟨rfl, hbuilt, u', hu', hplace⟩ := place_ok hp
  obtain ⟨d, f₂, i, e, contents, f, f₁, hstages, hbefore⟩ :=
    compile_then_place ha hc hout hcompiled (hu'.trans hu) hplace (hv ▸ hlinks.declarations)
  rw [hv] at hj hbefore
  obtain ⟨hindex, hnew⟩ := hstages.index_apart ha
    (SharedFolder.not_isReserved_indexName hsuffix) hlinks hbefore
  have hpub := hbefore.trans hstages.publishes_index
  have hwell' : w'.files.tree.IsWellNamed := by
    have hkeeps := p.keepsNames_run hc.keepsNames w hwell
    rwa [hrun] at hkeeps
  have hfree (l : Location) (hl : IsPublished p.sharedDir m.name w'.files l)
      (hnone : w.files.tree.node? l = none) : l.getLast? ≠ some p.search.fileName := by
    refine getLast?_ne_of_isPublished hstub hsuffix (fun t ht hnone hlast ↦ ?_) hl hnone
    obtain ⟨k, hk, -⟩ := hstages.index.lookup_after
    obtain ⟨rfl, -⟩ := Prod.mk.inj (Except.ok.inj (ht.symm.trans hk))
    exact hnew hnone (.inl (by simpa using hlast))
  have htemporary (hnone : f₂.tree.node? (i ++ [e]) = none) (n : Nat) :
      e ≠ Files.temporaryName n := by
    intro heq
    exact hnew (Classical.not_not.1 fun hthere ↦ hbefore.ne_none hthere hnone) (.inr ⟨n, heq⟩)
  obtain ⟨v', hm', hv'⟩ := p.manifest_again hpub hwell hwell' hfree hmanifest hm
  have hjob' : (p.job m).run v' = (.ok j, v') :=
    run_job_ok (hv' ▸ CompileJob.ofManifest_publishes hpub hj)
  have hd := hstages.leadsTo_after
  have hdecl := hstages.node?_declarations_after hindex
  rw [← hv'] at hd hdecl
  obtain ⟨ok, messages, k, u₂, hcompile', hover⟩ := compile_again hc hjob' hd
    hstages.canReplace.fits hdecl fun hstrict r u hr ↦ hquiet hstrict m v' j r u hm' hjob' hr
  rw [hv'] at hover
  obtain ⟨placement', w'', hplace', hsame, hchanges⟩ :=
    place_again ha hbuilt hstages hindex htemporary hover
  refine ⟨⟨m.path, m.name, messages, .placed placement' _⟩, placement', w'', ?_, hpath.symm,
    hname.symm, rfl, hchanges.1, hchanges.2, hsame⟩
  rw [Plan.run, Action.run_bind, hm']
  simp only [Action.run_bind, hcompile', hplace', Action.run_pure]

section Example

theorem leaves_leaving (path : String) (bytes : ByteArray) :
    (leaving path bytes).Leaves path bytes :=
  fun _ _ ↦ ⟨_, _, rfl, rfl⟩

theorem emits_shop {launch : Launcher} (h : launch.Leaves "types/shop.d.ts" button.toUTF8) :
    (CompilerProgram.toCompiler launch ⟨"tsc", []⟩).Emits "types" (declarationName "shop")
      button := by
  have hpath : "types/shop.d.ts" = Path.join "types" (declarationName "shop") := by decide
  rw [hpath] at h
  exact CompilerProgram.emits_of_leaves _ isName_shop h

def indexAt? (w : World) : Option Location :=
  (w.files.lookup (Path.join "types" indexName)).toOption.map (·.1)

theorem placed_shop {p : Plan} {launch : Launcher} {s : RunSummary} {placement : Placement}
    {l i : Location} (hleaves : launch.Leaves "types/shop.d.ts" button.toUTF8)
    (hdir : p.sharedDir = "types") (hfile : p.search.fileName = "federation.config.json")
    (hrun : (p.run (CompilerProgram.toCompiler launch ⟨"tsc", []⟩)).run w = (.ok s, w'))
    (hs : s.name = "shop") (ho : s.outcome = .placed placement buttonNames)
    (hw : w.files.tree.IsWellNamed) (hindex : indexAt? w' = some i)
    (hmanifest : (w.files.lookup s.manifestPath).toOption.map (·.1) = some l)
    (hdecl : l.getLast? ≠ some (declarationName "shop")) (hne : l ≠ i) :
    p.Placed (CompilerProgram.toCompiler launch ⟨"tsc", []⟩) w s buttonNames button w' where
  run := hrun
  outcome := ⟨placement, ho⟩
  wellNamed := hw
  emits := hdir ▸ hs ▸ emits_shop hleaves
  ne_stubName := hfile ▸ by decide
  not_suffix := hfile ▸ by decide
  manifest l' t hl := by
    rw [hl] at hmanifest
    obtain rfl := Option.some.inj hmanifest
    rw [hdir, hs]
    rintro (⟨d, -, rfl | ⟨htypes, -⟩⟩ | ⟨u, hu⟩)
    · exact hdecl (by simp)
    · exact absurd htypes (by decide)
    · rw [indexAt?, hu] at hindex
      exact hne (Option.some.inj hindex)

theorem linksApart_shop {f : Files} {i : Location} {s fileName : String}
    (hlinked : f.NotLinked "types" (declarationName "shop"))
    (hindex : indexAt? w' = some (i ++ [s])) (hdecl : s ≠ declarationName "shop")
    (hs : ¬ IsReserved fileName s) :
    LinksApart "types" "shop" fileName f w'.files where
  declarations := hlinked
  index := by
    rintro d - ⟨-, -, u, -, -, hu⟩
    rw [indexAt?, hu] at hindex
    obtain ⟨-, hname⟩ := List.append_inj' (Option.some.inj hindex) rfl
    exact hdecl (List.cons.inj hname).1.symm
  names := by
    rintro i' s' ⟨-, -, u, -, -, hu⟩ -
    rw [indexAt?, hu] at hindex
    obtain ⟨-, hname⟩ := List.append_inj' (Option.some.inj hindex) rfl
    rwa [(List.cons.inj hname).1]

theorem not_repeats_of_error {p : Plan} {c : Compiler} {s : RunSummary} {names : Renaming}
    (h : ((p.run c).run w).1.isOk = false) : ¬ p.Repeats c s names w := by
  rintro ⟨s', -, w', hrun, -⟩
  rw [hrun] at h
  cases h

theorem not_repeats_of_path {p : Plan} {c : Compiler} {s : RunSummary} {names : Renaming}
    {path : String} (h : (p.manifestPath.run w).1 = .ok path) (hne : path ≠ s.manifestPath) :
    ¬ p.Repeats c s names w := by
  rintro ⟨s', placement, w', hrun, hsame, -, ho, -⟩
  obtain ⟨m, v, -, -, -, hm, hpath, -⟩ := run_placed hrun ho
  obtain ⟨u, -, hfind, -⟩ := p.manifest_ok hm
  rw [hfind] at h
  exact hne ((Except.ok.inj h).symm.trans (hpath.symm.trans hsame))

/-- A package with an exposed file behind the link that its declarations are. -/
def linkedDeclarations : World where
  files := { tree := .folder [
    ("shop.json", .file ⟨("\x7b\"name\":\"shop\"," ++
      "\"exposes\":\x7b\"Button\":\"types/shop.d.ts/Button.ts\"\x7d\x7d").toUTF8, none⟩),
    ("src", .folder [("Button.ts", .file ⟨.empty, none⟩)]),
    ("types", .folder [("shop.d.ts", .link "../src")])] }

def indexBefore : World where
  files := { tree := .folder [
    ("packages", .folder [("shop", .folder
      [("federation.config.json", .file ⟨"\x7b\"name\":\"shop\"\x7d".toUTF8, none⟩)])]),
    ("types", .folder [("index.d.ts", .link "../packages/federation.config.json")])] }

def complaining : Launcher := fun line w ↦
  (.ok ⟨some 1, if w.files.pathExists "types/index.d.ts" then "index".toUTF8 else .empty, .empty⟩,
    (leaving "types/shop.d.ts" button.toUTF8 line w).2)

def complainer : Compiler := CompilerProgram.toCompiler complaining ⟨"tsc", []⟩

def searching : Plan := { shopPlan with root := "packages", choice := .searched .firstMatch }

def searched : Except Failure RunSummary × World :=
  (searching.run buttonCompiler).run indexBefore

def foundSummary : RunSummary :=
  { shopSummary .created with manifestPath := "packages/shop/federation.config.json" }

def strictly : Plan := { shopPlan with strict := true }

def tolerated : Except Failure RunSummary × World :=
  (strictly.run complainer).run shop

theorem isWellNamed_shop : shop.files.tree.IsWellNamed :=
  .cons (by decide) (by decide) (.file _) (.cons (by decide) (by decide) .empty .empty)

theorem run_twice_shop :
    shopPlan.Repeats buttonCompiler (shopSummary .created) buttonNames (published shop).2 := by
  have hindex : indexAt? (published shop).2 = some (["types"] ++ [indexName]) := by decide +kernel
  have hplaced := placed_shop (leaves_leaving _ _) rfl rfl (Action.run_eq_of_fst published_shop) rfl
    rfl isWellNamed_shop hindex (l := ["shop.json"]) (by decide +kernel) (by decide) (by decide)
  have hlinked : shop.files.NotLinked "types" (declarationName "shop") :=
    .of_leadsTo shop_leadsTo fun t ht ↦ by cases ht
  have hlinks : LinksApart "types" "shop" shopPlan.search.fileName shop.files
      (published shop).2.files :=
    linksApart_shop hlinked hindex (by decide) (SharedFolder.not_isReserved_indexName (by decide))
  exact run_twice hplaced hlinks nofun

def branchesBelow (q : Search) (root : String) (f : Files) :
    Option (List (Bool × String × List String)) :=
  match f.lookupLink root with
  | .ok (_, .folder es) => some ((q.branches root es).map fun b ↦ (b.isFolder, b.name, b.found))
  | _ => none

/-- The file that was made behind the index is found before the manifest of the first run. -/
theorem searched_path :
    (searching.manifestPath.run searched.2).1 = .ok "packages/federation.config.json" := by
  let found : List Search.Branch :=
    [⟨true, "shop", ["packages/shop/federation.config.json"]⟩,
      ⟨false, "federation.config.json", ["packages/federation.config.json"]⟩]
  have hinjective : Function.Injective fun b : Search.Branch ↦ (b.isFolder, b.name, b.found) := by
    rintro ⟨⟩ ⟨⟩ h
    simpa using h
  have hbranches : branchesBelow searching.search "packages" searched.2.files =
      some (found.map fun b ↦ (b.isFolder, b.name, b.found)) := by
    decide +kernel
  unfold branchesBelow at hbranches
  split at hbranches
  · next d es hroot =>
    have hfirst := Search.run_first (q := searching.search) hroot
    rw [List.map_injective_iff.2 hinjective (Option.some.inj hbranches)] at hfirst
    have horder : Search.inOrder found =
        ["packages/federation.config.json", "packages/shop/federation.config.json"] := by
      simp [found, Search.inOrder, List.mergeSort, Search.Branch.le]
    rw [horder] at hfirst
    have hchosen : (searching.search.chosen searching.root searching.choice).run searched.2 =
        (.ok "packages/federation.config.json", searched.2) := hfirst
    rw [manifestPath, Search.find, Action.run_bind, hchosen]
    rfl
  · cases hbranches

/-- Runs that do not repeat: an index that is a link to the declarations gets its line once more, a
link to a folder that the declarations were is lost with the files behind it, a link may have made
the index a manifest, and a compiler may have errors where there is an index. -/
theorem not_repeats :
    (shopPlan.Placed buttonCompiler linkedIndex (shopSummary .appended) buttonNames button
        (published linkedIndex).2 ∧
      ¬ shopPlan.Repeats buttonCompiler (shopSummary .appended) buttonNames
        (published linkedIndex).2) ∧
    (shopPlan.Placed buttonCompiler linkedDeclarations (shopSummary .created) buttonNames button
        (published linkedDeclarations).2 ∧
      ¬ shopPlan.Repeats buttonCompiler (shopSummary .created) buttonNames
        (published linkedDeclarations).2) ∧
    (searching.Placed buttonCompiler indexBefore foundSummary buttonNames button searched.2 ∧
      ¬ searching.Repeats buttonCompiler foundSummary buttonNames searched.2) ∧
    strictly.Placed complainer shop (shopSummary .created) buttonNames button tolerated.2 ∧
      ¬ strictly.Repeats complainer (shopSummary .created) buttonNames tolerated.2 := by
  have hlinked : linkedIndex.files.tree.IsWellNamed :=
    .cons (by decide) (by decide) (.file _) (.cons (by decide) (by decide)
      (.cons (by decide) (by decide) (.link _) .empty) .empty)
  have hbehind : linkedDeclarations.files.tree.IsWellNamed :=
    .cons (by decide) (by decide) (.file _) (.cons (by decide) (by decide)
      (.cons (by decide) (by decide) (.file _) .empty) (.cons (by decide) (by decide)
        (.cons (by decide) (by decide) (.link _) .empty) .empty))
  have hbefore : indexBefore.files.tree.IsWellNamed :=
    .cons (by decide) (by decide) (.cons (by decide) (by decide)
      (.cons (by decide) (by decide) (.file _) .empty) .empty)
        (.cons (by decide) (by decide) (.cons (by decide) (by decide) (.link _) .empty) .empty)
  have hadded : (published linkedIndex).1 = .ok (shopSummary .appended) ∧
      indexAt? (published linkedIndex).2 = some ["types", "shop.d.ts"] ∧
      (published (published linkedIndex).2).1 = .ok (shopSummary .appended) := by
    decide +kernel
  have hlost : (published linkedDeclarations).1 = .ok (shopSummary .created) ∧
      indexAt? (published linkedDeclarations).2 = some ["types", "index.d.ts"] ∧
      (published (published linkedDeclarations).2).1.isOk = false := by
    decide +kernel
  have hfound : searched.1 = .ok foundSummary ∧
      indexAt? searched.2 = some ["packages", "federation.config.json"] := by
    decide +kernel
  have htolerated : tolerated.1 = .ok (shopSummary .created) ∧
      indexAt? tolerated.2 = some ["types", "index.d.ts"] ∧
      ((strictly.run complainer).run tolerated.2).1.isOk = false := by
    decide +kernel
  refine ⟨⟨?_, ?_⟩, ⟨?_, not_repeats_of_error hlost.2.2⟩,
    ⟨?_, not_repeats_of_path searched_path (by decide)⟩, ?_,
    not_repeats_of_error htolerated.2.2⟩
  · exact placed_shop (leaves_leaving _ _) rfl rfl (Action.run_eq_of_fst hadded.1) rfl rfl hlinked
      hadded.2.1 (l := ["shop.json"]) (by decide +kernel) (by decide) (by decide)
  · rintro ⟨s, placement, w', h, -, -, ho, hunchanged, -⟩
    obtain rfl := Except.ok.inj ((congrArg Prod.fst h).symm.trans hadded.2.2)
    obtain ⟨rfl, -⟩ := RunOutcome.placed.inj ho
    cases hunchanged
  · exact placed_shop (leaves_leaving _ _) rfl rfl (Action.run_eq_of_fst hlost.1) rfl rfl hbehind
      hlost.2.1 (l := ["shop.json"]) (by decide +kernel) (by decide) (by decide)
  · exact placed_shop (leaves_leaving _ _) rfl rfl (Action.run_eq_of_fst hfound.1) rfl rfl hbefore
      hfound.2 (l := ["packages", "shop", "federation.config.json"]) (by decide +kernel) (by decide)
      (by decide)
  · exact placed_shop (fun _ _ ↦ ⟨_, _, rfl, rfl⟩) rfl rfl (Action.run_eq_of_fst htolerated.1) rfl
      rfl isWellNamed_shop htolerated.2.1 (l := ["shop.json"]) (by decide +kernel) (by decide)
      (by decide)

end Example

end Plan
end AmbientTypes
