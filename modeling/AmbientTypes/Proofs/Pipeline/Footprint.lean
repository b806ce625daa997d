import AmbientTypes.Proofs.Pipeline.History
import AmbientTypes.Proofs.SharedFolder.Footprint

namespace AmbientTypes

open AmbientTypes.Action (StaysWithin)
open Manifest (IsAccepted)

/-- Where no file of a name is in the way, the program of a command line leaves at most a file of
that name in a directory, besides new folders. -/
def Launcher.WritesAtMost (launch : Launcher) (c : CommandLine) (dir s : String) : Prop :=
  ∀ w : World, w.files.HoldsNoLinks dir →
    (∀ d, w.files.LeadsTo dir d → w.files.tree.node? (d ++ [s]) = none) →
      w.files.Grows ((launch c).run w).2.files ∨
        ∃ f d k, w.files.Grows f ∧ f.LeadsTo dir d ∧ f.tree.node? (d ++ [s]) = none ∧
          Files.Sets f d s (some (.file k)) ((launch c).run w).2.files

variable {launch : Launcher} {dir name : String} {w w' : World}

namespace CompilerProgram

variable {c : CompilerProgram} {j : CompileJob}

theorem removeStale_ok (ha : IsAccepted name) (hno : w.files.HoldsNoLinks dir)
    (h : (removeStale (Path.join dir (declarationName name))).run w = (.ok (), w')) :
    Footprint dir [name] w.files w'.files ∧
      ∀ d, w'.files.LeadsTo dir d → w'.files.tree.node? (d ++ [declarationName name]) = none := by
  refine ⟨?_, fun d hd ↦ (removeStale_sets (isName_declarationName ha) h hd).2.2.self⟩
  obtain ⟨b, v, hv, h⟩ := Action.run_bind_ok h
  have hfiles : w'.files = v.files := by
    cases b <;> obtain ⟨-, rfl⟩ := Prod.mk.inj h <;> rfl
  have hwithin := Storage.staysWithin_discardFile ha w hno
  rw [hv] at hwithin
  rwa [hfiles]

theorem footprint_of_writesAtMost {line : CommandLine} (ha : IsAccepted name)
    (hl : launch.WritesAtMost line dir (declarationName name)) (hno : w.files.HoldsNoLinks dir)
    (hnone : ∀ d, w.files.LeadsTo dir d →
      w.files.tree.node? (d ++ [declarationName name]) = none) :
    Footprint dir [name] w.files ((launch line).run w).2.files := by
  rcases hl w hno hnone with hgrows | ⟨f, d, k, hgrows, hd, hvacant, hsets⟩
  · exact .of_grows hno hgrows
  · have hmade : Footprint dir [name] w.files f := .of_grows hno hgrows
    apply hmade.trans
    exact .of_sets_own ha hmade.noLinks hd hsets (by simp [hvacant]) (by simp)

theorem staysWithin_compile (ha : IsAccepted name)
    (hj : j.outFile = Path.join dir (declarationName name))
    (hl : launch.WritesAtMost (c.commandLine j) dir (declarationName name)) :
    StaysWithin dir [name] (c.compile launch j) := by
  intro w hno
  rw [compile, hj, Action.run_bind]
  cases hstale : (removeStale (Path.join dir (declarationName name))).run w with
  | mk r v =>
    cases r with
    | error e =>
      rcases Action.run_bind_error hstale with h | ⟨b, u, -, h⟩
      · rw [Storage.discardFile_error h]
        exact .refl hno
      · cases b <;> cases h
    | ok _ =>
      obtain ⟨hbefore, hnone⟩ := removeStale_ok ha hno hstale
      apply hbefore.trans
      apply Footprint.bind
      -- Nothing lies in the way of the program, which is all that is assumed of its world.
      · rw [Action.run_launch]
        have hrun := footprint_of_writesAtMost
          (w := { v with notices := v.notices ++ [.log .debug (c.commandLine j).runningLine] })
          ha hl hbefore.noLinks hnone
        split <;> next h => rwa [h] at hrun
      · intro o
        apply StaysWithin.of_keepsFiles
        exact .bind (.log _ _) fun _ ↦ .bind (keepsFiles_readBundle _) fun _ ↦ .pure _

end CompilerProgram

namespace Plan

variable {p : Plan} {c : CompilerProgram} {m : Manifest}

/-- The compiler writes nothing but the declarations of the package. -/
def WritesOut (p : Plan) (launch : Launcher) (c : CompilerProgram) (w : World) : Prop :=
  ∀ m v j, p.manifest.run w = (.ok m, v) →
    CompileJob.ofManifest w.files m (p.declarationPath m.name) = .ok j →
      launch.WritesAtMost (c.commandLine j) p.sharedDir (declarationName m.name)

theorem compile_footprint (ha : IsAccepted m.name) (hno : w.files.HoldsNoLinks p.sharedDir)
    (hl : ∀ j, CompileJob.ofManifest w.files m (p.declarationPath m.name) = .ok j →
      launch.WritesAtMost (c.commandLine j) p.sharedDir (declarationName m.name)) :
    Footprint p.sharedDir [m.name] w.files
      ((p.compile m (c.toCompiler launch)).run w).2.files := by
  cases hj : CompileJob.ofManifest w.files m (p.declarationPath m.name) with
  | error e =>
    rw [run_compile_of_missing hj]
    exact .refl hno
  | ok j =>
    have hout : j.outFile = Path.join p.sharedDir (declarationName m.name) :=
      outFile_of_ofManifest hj
    have hcompiler := CompilerProgram.staysWithin_compile ha hout (hl j hj) w hno
    cases hrun : (c.compile launch j).run w with
    | mk r₁ v =>
      rw [hrun] at hcompiler
      cases h : (p.compile m (c.toCompiler launch)).run w with
      | mk r w' =>
        rcases compile_ends (run_job_ok hj) hrun h with
          ⟨-, hsame⟩ | ⟨-, -, u, b, -, -, hu, hdiscard⟩
        · rwa [hsame]
        · rw [← hu] at hcompiler
          have hdiscarded := Storage.staysWithin_discardFile ha u hcompiler.noLinks
          rw [← hout, hdiscard] at hdiscarded
          exact hcompiler.trans hdiscarded

theorem staysWithin_place (ha : IsAccepted m.name) (bundle : String) :
    StaysWithin p.sharedDir [m.name] (p.place m bundle) := by
  apply StaysWithin.bind
  · exact .of_keepsFiles (.bind (.forM_log _ _ _) fun _ ↦ .forM_log _ _ _)
  · intro _
    split
    · exact .of_keepsFiles (.throw _)
    · exact (SharedFolder.staysWithin_place ha _).bind fun _ ↦ .of_keepsFiles (.pure _)

/-- A run leaves no traces but those that its package may, however it ends. -/
theorem run_footprint (hno : w.files.HoldsNoLinks p.sharedDir) (hl : p.WritesOut launch c w) :
    Footprint p.sharedDir (p.package? w).toList w.files
      ((p.run (c.toCompiler launch)).run w).2.files := by
  have hkeeps := p.keepsFiles_manifest w
  rw [run, Action.run_bind, package?]
  cases hm : p.manifest.run w with
  | mk r v =>
    rw [hm] at hkeeps
    rw [← hkeeps] at hno ⊢
    cases r with
    | error e => exact .refl hno
    | ok m =>
      have ha := p.isAccepted_of_manifest hm
      apply (compile_footprint ha hno fun j hj ↦ hl m v j hm (hkeeps ▸ hj)).bind
      intro r
      cases r.bundle with
      | none => exact .of_keepsFiles (.bind (.pure _) fun _ ↦ .pure _)
      | some bundle =>
        apply (staysWithin_place ha bundle).bind
        rintro ⟨names, placement⟩
        exact .of_keepsFiles (.bind (.pure _) fun _ ↦ .pure _)

/-- Runs over one shared directory, one after the other, and the packages they are for. Each has its
own plan and its own compiler, and may spell the directory in its own way. -/
inductive Runs (dir : String) (w : World) : List String → World → Prop
  | none : Runs dir w [] w
  | run {names : List String} {v v' : World} {p : Plan} {c : CompilerProgram} {launch : Launcher}
      {r : Except Failure RunSummary} (h : Runs dir w names v)
      (hdir : Path.components p.sharedDir = Path.components dir)
      (hl : p.WritesOut launch c v) (hrun : (p.run (c.toCompiler launch)).run v = (r, v')) :
      Runs dir w (names ++ (p.package? v).toList) v'

theorem Runs.footprint {names : List String} (h : Runs dir w names w')
    (hno : w.files.HoldsNoLinks dir) : Footprint dir names w.files w'.files := by
  induction h with
  | none => exact .refl hno
  | run h hdir hl hrun ih =>
    have hlast := (run_footprint (ih.noLinks.congr hdir.symm) hl).congr hdir
    rw [hrun] at hlast
    exact (ih.mono (List.subset_append_left _ _)).trans (hlast.mono (List.subset_append_right _ _))

/-- Between any two moments in a sequence of runs, the index only grows, a description stays as it
is, and besides them only the packages in between have their files changed. -/
theorem footprint_of_runs {w₀ : World} {before names : List String}
    (hno : w₀.files.HoldsNoLinks dir) (hbefore : Runs dir w₀ before w)
    (h : Runs dir w names w') : Footprint dir names w.files w'.files := by
  have hfirst := hbefore.footprint hno
  exact h.footprint hfirst.noLinks

section Example

theorem writesAtMost_emitting {s : String} (hs : Path.IsName s) (text : String)
    (line : CommandLine) : (emitting (Path.join dir s) text).WritesAtMost line dir s := by
  intro w hno hnone
  change w.files.Grows ((w.files.writeBytes _ _).toOption.getD w.files) ∨
    ∃ f d k, w.files.Grows f ∧ f.LeadsTo dir d ∧ f.tree.node? (d ++ [s]) = none ∧
      Files.Sets f d s (some (.file k)) ((w.files.writeBytes _ _).toOption.getD w.files)
  cases hwrite : w.files.writeBytes (Path.join dir s) text.toUTF8 with
  | error e => exact .inl (.refl _)
  | ok g =>
    obtain ⟨d, hd, -, hsets⟩ := Files.writeBytes_join_ok hs hno.ne_link hwrite
    exact .inr ⟨w.files, d, _, .refl _, hd, hnone d hd, hsets⟩

theorem writesAtMost_silent {s : String} (line : CommandLine) : silent.WritesAtMost line dir s :=
  fun _ _ _ ↦ .inl (.refl _)

def strictPlan : Plan := { shopPlan with sharedDir := "/types", strict := true }

def placed : Except Failure RunSummary × World :=
  (strictPlan.run
    (CompilerProgram.toCompiler (emitting "/types/shop.d.ts" "") ⟨"tsc", []⟩)).run shop

def dropped : Except Failure RunSummary × World :=
  (strictPlan.run (CompilerProgram.toCompiler silent ⟨"tsc", []⟩)).run placed.2

theorem shop_leadsTo_root : shop.files.LeadsTo "/types" ["types"] :=
  .enter (by decide) (by decide) (by decide) rfl (.done rfl)

theorem strictPlan_writesOut :
    strictPlan.WritesOut (emitting "/types/shop.d.ts" "") ⟨"tsc", []⟩ shop := by
  intro m v j hm _
  have hname : (strictPlan.manifest.run shop).1 = .ok ⟨"shop", [], "shop.json"⟩ := by
    decide +kernel
  rw [hm] at hname
  obtain rfl := Except.ok.inj hname
  have hpath : "/types/shop.d.ts" = Path.join "/types" (declarationName "shop") := by decide
  rw [hpath]
  exact writesAtMost_emitting (isName_declarationName (Manifest.nameFault?_eq_none.1 (by decide)))
    "" _

theorem runs_placed : Runs "/types" shop ["shop"] placed.2 := by
  have hname : strictPlan.package? shop = some "shop" := by decide +kernel
  have hrun : (strictPlan.run (CompilerProgram.toCompiler (emitting "/types/shop.d.ts" "")
      ⟨"tsc", []⟩)).run shop = (placed.1, placed.2) := by
    rw [Prod.eta, placed]
  have h : Runs "/types" shop ([] ++ (strictPlan.package? shop).toList) placed.2 :=
    .run .none rfl strictPlan_writesOut hrun
  rwa [hname] at h

theorem runs_dropped : Runs "/types" placed.2 ["shop"] dropped.2 := by
  have hname : strictPlan.package? placed.2 = some "shop" := by decide +kernel
  have hrun : (strictPlan.run (CompilerProgram.toCompiler silent ⟨"tsc", []⟩)).run placed.2 =
      (dropped.1, dropped.2) := by
    rw [Prod.eta, dropped]
  have h : Runs "/types" placed.2 ([] ++ (strictPlan.package? placed.2).toList) dropped.2 :=
    .run .none rfl (fun _ _ _ _ _ ↦ writesAtMost_silent _) hrun
  rwa [hname] at h

/-- The second run takes the declarations away. -/
theorem footprint_of_runs_shop : shop.files.HoldsNoLinks "/types" ∧
    Runs "/types" shop ["shop"] placed.2 ∧ Runs "/types" placed.2 ["shop"] dropped.2 ∧
      Footprint "/types" ["shop"] placed.2.files dropped.2.files ∧
      placed.2.files.HoldsFile ["types"] (declarationName "shop") ∧
      ¬ dropped.2.files.HoldsFile ["types"] (declarationName "shop") := by
  have hno : shop.files.HoldsNoLinks "/types" := by
    rw [Files.holdsNoLinks_iff shop_leadsTo_root]
    rintro s t ⟨⟩
  refine ⟨hno, runs_placed, runs_dropped, footprint_of_runs hno runs_placed runs_dropped, ?_, ?_⟩
  · have hthere : placed.2.files.isFile (Path.join "/types" (declarationName "shop")) = true := by
      decide +kernel
    have hfirst := runs_placed.footprint hno
    have ha : IsAccepted "shop" := Manifest.nameFault?_eq_none.1 (by decide)
    exact Files.isFile_join (isName_declarationName ha) hfirst.noLinks.ne_link hthere
      (hfirst.leadsTo _ shop_leadsTo_root)
  · rintro ⟨k, hk⟩
    have hgone : (dropped.2.files.tree.get? (["types"] ++ [declarationName "shop"])).isNone := by
      decide +kernel
    rw [Tree.node?_eq_some_file.1 hk] at hgone
    cases hgone

end Example

end Plan

end AmbientTypes
