import AmbientTypes.Pipeline.Run
import AmbientTypes.Proofs.Compilation.Program
import AmbientTypes.Proofs.Compilation.Sources
import AmbientTypes.Proofs.SharedFolder.Merging

namespace AmbientTypes

open Manifest (IsAccepted)

namespace Search

theorem keepsFiles_all (q : Search) (root : String) : (q.all root).KeepsFiles := by
  refine .bind .files fun f ↦ ?_
  split
  · exact .pure _
  · exact .bind (.log _ _) fun _ ↦ .pure _

theorem keepsFiles_chosen (q : Search) (root : String) (choice : ManifestChoice) :
    (q.chosen root choice).KeepsFiles := by
  cases choice with
  | given path =>
    refine .bind .files fun f ↦ ?_
    split
    · exact .pure _
    · exact .throw _
  | searched choice =>
    cases choice <;>
    · refine .bind (q.keepsFiles_all root) fun paths ↦ ?_
      split <;> first | exact .pure _ | exact .throw _

theorem keepsFiles_find (q : Search) (root : String) (choice : ManifestChoice) :
    (q.find root choice).KeepsFiles :=
  .bind (q.keepsFiles_chosen root choice) fun _ ↦ .bind (.log _ _) fun _ ↦ .pure _

end Search

namespace Manifest

theorem keepsFiles_load (path : String) : (load path).KeepsFiles := by
  refine .bind (.inspect _ _) fun text ↦ ?_
  split
  · exact .pure _
  · exact .throw _

theorem load_ok {path : String} {m : Manifest} {w w' : World}
    (h : (load path).run w = (.ok m, w')) :
    ∃ text, w.files.readText path = .ok text ∧ parse text path = .ok m ∧ w' = w := by
  obtain ⟨text, v, hv, h⟩ := Action.run_bind_ok h
  rw [Action.run_inspect] at hv
  cases hread : w.files.readText path with
  | error e => simp [hread] at hv
  | ok text' =>
    obtain ⟨rfl, rfl⟩ : text' = text ∧ w = v := by simpa [hread] using hv
    cases hparse : parse text' path with
    | error e => simp [hparse] at h
    | ok m' =>
      obtain ⟨rfl, rfl⟩ : m' = m ∧ w = w' := by simpa [hparse] using h
      exact ⟨text', rfl, hparse, rfl⟩

end Manifest

namespace Plan

variable (p : Plan)

theorem keepsFiles_manifest : p.manifest.KeepsFiles :=
  .bind (p.search.keepsFiles_find p.root p.choice) fun path ↦
    .bind (Manifest.keepsFiles_load path) fun _ ↦ .bind (.log _ _) fun _ ↦ .pure _

/-- The manifest of a plan is what its path holds. -/
theorem manifest_ok {m : Manifest} {w w' : World} (h : p.manifest.run w = (.ok m, w')) :
    ∃ v text, p.manifestPath.run w = (.ok m.path, v) ∧ w.files.readText m.path = .ok text ∧
      Manifest.parse text m.path = .ok m ∧ w'.files = w.files := by
  obtain ⟨path, v, hpath, h⟩ := Action.run_bind_ok h
  obtain ⟨m', v', hload, h⟩ := Action.run_bind_ok h
  rw [Action.run_log_bind, Action.run_pure] at h
  obtain ⟨hm, rfl⟩ := Prod.mk.inj h
  obtain rfl := Except.ok.inj hm
  obtain ⟨text, hread, hparse, rfl⟩ := Manifest.load_ok hload
  have hfiles : v'.files = w.files := by
    have hkeeps := p.search.keepsFiles_find p.root p.choice w
    rwa [← manifestPath, hpath] at hkeeps
  obtain ⟨rfl, -⟩ := Manifest.parse_elsewhere hparse path
  exact ⟨v', text, hpath, hfiles ▸ hread, hparse, hfiles⟩

theorem isAccepted_of_manifest {m : Manifest} {w w' : World}
    (h : p.manifest.run w = (.ok m, w')) : IsAccepted m.name := by
  obtain ⟨-, text, -, -, hparse, -⟩ := p.manifest_ok h
  exact Manifest.isAccepted_of_parse hparse

theorem run_job (m : Manifest) (w : World) :
    (p.job m).run w =
      ((CompileJob.ofManifest w.files m (p.declarationPath m.name)).mapError .manifest, w) := by
  rw [job, Action.run_bind, Action.run_files]
  cases h : CompileJob.ofManifest w.files m (p.declarationPath m.name) <;>
    simp only [h, Action.run_pure, Action.run_throw] <;> rfl

theorem run_job_ok {p : Plan} {m : Manifest} {j : CompileJob} {w : World}
    (h : CompileJob.ofManifest w.files m (p.declarationPath m.name) = .ok j) :
    (p.job m).run w = (.ok j, w) := by
  rw [run_job, h]
  rfl

theorem outFile_of_ofManifest {f : Files} {m : Manifest} {outFile : String} {j : CompileJob}
    (h : CompileJob.ofManifest f m outFile = .ok j) : j.outFile = outFile := by
  obtain ⟨-, rfl⟩ := CompileJob.ofManifest_eq_ok_iff.1 h
  rfl

theorem outFile_of_job {p : Plan} {m : Manifest} {j : CompileJob} {w w' : World}
    (h : (p.job m).run w = (.ok j, w')) : j.outFile = p.declarationPath m.name := by
  rw [run_job] at h
  cases hj : CompileJob.ofManifest w.files m (p.declarationPath m.name) with
  | error e => simp [hj, Except.mapError] at h
  | ok j' =>
    obtain ⟨rfl, -⟩ : j' = j ∧ w = w' := by simpa [hj, Except.mapError] using h
    exact outFile_of_ofManifest hj

theorem run_compile_of_missing {p : Plan} {m : Manifest} {compiler : Compiler} {w : World}
    {e : ManifestProblem}
    (h : CompileJob.ofManifest w.files m (p.declarationPath m.name) = .error e) :
    (p.compile m compiler).run w = (.error (.manifest e), w) := by
  rw [compile, Action.run_bind, run_job, h]
  rfl

/-- A compilation passes the result of its compiler on, unless errors in it are fatal: then it
discards the output file and fails. -/
theorem run_compile {p : Plan} {m : Manifest} {compiler : Compiler} {j : CompileJob} {w v : World}
    {res : CompileResult} (hjob : (p.job m).run w = (.ok j, w))
    (hrun : (compiler.run j).run w = (.ok res, v)) :
    ∃ notices, (p.compile m compiler).run w =
      if p.strict && 0 < res.countErrors then
        (Storage.discardFile j.outFile >>= fun _ ↦
          throw (.strict ⟨res.countErrors, res.messages⟩)).run { v with notices := notices }
      else (.ok res, { v with notices := notices }) := by
  rw [compile, Action.run_bind, hjob]
  simp only [Action.run_bind, hrun, Action.run_forM_log]
  by_cases hfatal : (p.strict && decide (0 < res.countErrors)) = true
  · refine ⟨v.notices ++ res.messages.map fun t ↦ .log .debug (messageLine t), ?_⟩
    rw [if_pos hfatal, if_pos hfatal, Action.run_bind, Action.run_discard]
    cases hdiscard : (Storage.discardFile j.outFile).run
        { v with notices := v.notices ++ res.messages.map fun t ↦ .log .debug (messageLine t) } with
    | mk b u => cases b <;> rfl
  · simp only [if_neg hfatal]
    by_cases hnone : res.bundle.isNone = true
    · rw [if_pos hnone]
      exact ⟨_, rfl⟩
    · rw [if_neg hnone]
      exact ⟨_, rfl⟩

/-- A compilation ends as its compiler does, or discards what that left and fails. -/
theorem compile_ends {p : Plan} {m : Manifest} {compiler : Compiler} {j : CompileJob}
    {w w' v : World} {r r₁ : Except Failure CompileResult} (hjob : (p.job m).run w = (.ok j, w))
    (hrun : (compiler.run j).run w = (r₁, v)) (h : (p.compile m compiler).run w = (r, w')) :
    r = r₁ ∧ w'.files = v.files ∨
      ∃ res e u b, r₁ = .ok res ∧ r = b.bind (fun _ ↦ .error (.strict e)) ∧ u.files = v.files ∧
        (Storage.discardFile j.outFile).run u = (b, w') := by
  cases r₁ with
  | error e =>
    rw [compile, Action.run_bind, hjob] at h
    simp only [Action.run_bind, hrun] at h
    obtain ⟨rfl, rfl⟩ := Prod.mk.inj h
    exact .inl ⟨rfl, rfl⟩
  | ok res =>
    obtain ⟨notices, hcompile⟩ := run_compile hjob hrun
    rw [hcompile] at h
    split at h
    · rw [Action.run_bind] at h
      cases hdiscard : (Storage.discardFile j.outFile).run { v with notices := notices } with
      | mk b u =>
        rw [hdiscard] at h
        cases b <;>
        · obtain ⟨rfl, rfl⟩ := Prod.mk.inj h
          exact .inr ⟨res, ⟨res.countErrors, res.messages⟩, { v with notices := notices }, _, rfl,
            rfl, rfl, hdiscard⟩
    · obtain ⟨rfl, rfl⟩ := Prod.mk.inj h
      exact .inl ⟨rfl, rfl⟩

/-- The compiler writes nothing but its output file in the shared directory. -/
def Suits (launch : Launcher) (c : CompilerProgram) (w : World) (d : Location) : Prop :=
  ∀ m v j, p.manifest.run w = (.ok m, v) →
    CompileJob.ofManifest w.files m (p.declarationPath m.name) = .ok j →
      launch.WritesOnly (c.commandLine j) p.sharedDir d (declarationName m.name)

variable {p} {launch : Launcher} {c : CompilerProgram} {m : Manifest} {d : Location}
  {w w' : World} {r : Except Failure CompileResult}

/-- A compilation stops before its compiler is started, or is confined to the declarations of its
package. -/
theorem compile_cases (ha : IsAccepted m.name) (hno : w.files.HoldsNoLinks p.sharedDir)
    (hd : w.files.LeadsTo p.sharedDir d)
    (hl : ∀ j, CompileJob.ofManifest w.files m (p.declarationPath m.name) = .ok j →
      launch.WritesOnly (c.commandLine j) p.sharedDir d (declarationName m.name))
    (h : (p.compile m (c.toCompiler launch)).run w = (r, w')) :
    ((∃ e, r = .error (.manifest e)) ∨ ∃ path e, r = .error (.removingFile path e)) ∧
        w'.files = w.files ∨
      w.files.Touches p.sharedDir d (declarationName m.name) w'.files ∧
        ((∃ e, r = .error (.strict e)) ∨
          CompilerProgram.Ends w'.files d (declarationName m.name) r) := by
  cases hj : CompileJob.ofManifest w.files m (p.declarationPath m.name) with
  | error e =>
    rw [run_compile_of_missing hj] at h
    obtain ⟨rfl, rfl⟩ := Prod.mk.inj h
    exact .inl ⟨.inl ⟨e, rfl⟩, rfl⟩
  | ok j =>
    have hjob : (p.job m).run w = (.ok j, w) := run_job_ok hj
    have hout : j.outFile = Path.join p.sharedDir (declarationName m.name) :=
      outFile_of_ofManifest hj
    rcases CompilerProgram.compile_join (isName_declarationName ha) hout (hl j hj) hno hd with
      ⟨e, he⟩ | ⟨r₁, w₁, hrun, hfits, htouches, hfolder, hends⟩
    · rcases compile_ends hjob he h with ⟨rfl, hsame⟩ | ⟨res, -, -, -, hres, -⟩
      · exact .inl ⟨.inr ⟨_, e, rfl⟩, hsame⟩
      · cases hres
    · refine .inr ?_
      rcases compile_ends hjob hrun h with ⟨rfl, hsame⟩ |
        ⟨res, e, u, b, -, hb, hsame, hdiscard⟩
      · rw [hsame]
        exact ⟨htouches, .inr hends⟩
      · rw [← hsame] at htouches hfolder
        obtain ⟨b', g, hg, hremoved⟩ := Storage.discardFile_touches (isName_declarationName ha)
          htouches.noLinks htouches.leadsTo hfits hfolder
        rw [hout, hg] at hdiscard
        obtain ⟨rfl, rfl⟩ := Prod.mk.inj hdiscard
        exact ⟨htouches.trans hremoved, .inl ⟨e, hb⟩⟩

theorem run_logModules (m : Manifest) (names : Renaming) (w : World) :
    ∃ v, (logModules m names).run w = (.ok (), v) ∧ v.files = w.files := by
  rw [logModules, Action.run_bind, Action.run_forM_log]
  exact ⟨_, Action.run_forM_log _ _ _ _, rfl⟩

/-- A bundle is placed once its modules have been told of, unless they are too many or too long. -/
theorem run_place (p : Plan) (m : Manifest) (bundle : String) (w : World) :
    ∃ v, v.files = w.files ∧ (p.place m bundle).run w =
      if (PublicBundle.ofBundle m bundle).names.isBuildable p.patternSize then
        (SharedFolder.place p.sharedDir m.name (PublicBundle.ofBundle m bundle).text >>=
          fun placement ↦ pure ((PublicBundle.ofBundle m bundle).names, placement)).run v
      else (.error (.patternTooLarge Renaming.largestPattern), v) := by
  obtain ⟨v, hv, hfiles⟩ := run_logModules m (PublicBundle.ofBundle m bundle).names w
  refine ⟨v, hfiles, ?_⟩
  rw [place, Action.run_bind, hv]
  cases hbuilt : (PublicBundle.ofBundle m bundle).names.isBuildable p.patternSize with
  | true => simp only [Renaming.applied?, hbuilt, if_true]; rfl
  | false => simp only [Renaming.applied?, hbuilt, if_false, Bool.false_eq_true]; rfl

theorem place_spares (ha : IsAccepted m.name) (hno : w.files.HoldsNoLinks p.sharedDir)
    (hd : w.files.LeadsTo p.sharedDir d) {bundle : String}
    {r : Except Failure (Renaming × Placement)} (h : (p.place m bundle).run w = (r, w')) :
    SharedFolder.Spares p.sharedDir m.name w.files d w'.files := by
  obtain ⟨v, hfiles, hplace⟩ := run_place p m bundle w
  rw [hplace] at h
  rw [← hfiles] at hno hd ⊢
  split at h
  · cases hp : (SharedFolder.place p.sharedDir m.name
        (PublicBundle.ofBundle m bundle).text).run v with
    | mk r₁ u =>
      have hspares := SharedFolder.place_spares ha hno hd hp
      simp only [Action.run_bind, hp] at h
      cases r₁ <;>
      · obtain ⟨-, rfl⟩ := Prod.mk.inj h
        exact hspares
  · obtain ⟨-, rfl⟩ := Prod.mk.inj h
    exact .of_touches ha (.refl hd hno _) (.refl hd hno _) id

/-- Whether a run ended in a way that leaves no declarations of its package: nothing was emitted,
the compiler did not start, or its errors were fatal. -/
def leavesNothing : Except Failure RunSummary → Bool
  | .ok s => s.outcome = .skipped
  | .error (.startingCompiler ..) | .error (.strict _) => true
  | .error _ => false

/-- Whether a run ended for a reason that comes before its compiler is started. -/
def endsEarly : Except Failure RunSummary → Bool
  | .error (.manifest _) | .error (.removingFile ..) => true
  | _ => false

/-- What a run leaves that has got a manifest. -/
inductive Effect (dir name : String) (f : Files) (d : Location) (g : Files)
    (r : Except Failure RunSummary) : Prop
  | untouched (hr : endsEarly r = true) (h : g = f)
  | lost (hr : leavesNothing r = true) (h : f.Touches dir d (declarationName name) g)
  | kept (h : SharedFolder.Confined dir name f d g) (hfile : g.HoldsFile d (declarationName name))

theorem run_effect (hno : w.files.HoldsNoLinks p.sharedDir) (hd : w.files.LeadsTo p.sharedDir d)
    (hl : p.Suits launch c w d) {r : Except Failure RunSummary}
    (h : (p.run (c.toCompiler launch)).run w = (r, w')) :
    ((∃ e, (p.manifest.run w).1 = .error e) ∧ w'.files = w.files) ∨
      ∃ m, (p.manifest.run w).1 = .ok m ∧ IsAccepted m.name ∧
        Effect p.sharedDir m.name w.files d w'.files r := by
  have hkeeps := p.keepsFiles_manifest w
  cases hm : p.manifest.run w with
  | mk r₀ v =>
    rw [hm] at hkeeps
    rw [run, Action.run_bind, hm] at h
    cases r₀ with
    | error e =>
      obtain ⟨-, rfl⟩ := Prod.mk.inj h
      exact .inl ⟨⟨e, rfl⟩, hkeeps⟩
    | ok m =>
      have ha := p.isAccepted_of_manifest hm
      refine .inr ⟨m, rfl, ha, ?_⟩
      rw [← hkeeps] at hno hd ⊢
      cases hc : (p.compile m (c.toCompiler launch)).run v with
      | mk r₁ u =>
        simp only [Action.run_bind, hc] at h
        rcases compile_cases ha hno hd (fun j hj ↦ hl m v j hm (hkeeps ▸ hj)) hc with
          ⟨hearly, hfiles⟩ | ⟨htouches, hends⟩
        · rcases hearly with ⟨e, rfl⟩ | ⟨path, e, rfl⟩ <;>
          · obtain ⟨rfl, rfl⟩ := Prod.mk.inj h
            exact .untouched rfl hfiles
        rcases hends with ⟨e, rfl⟩ | hends
        · obtain ⟨rfl, rfl⟩ := Prod.mk.inj h
          exact .lost rfl htouches
        have hconfined := SharedFolder.Confined.of_touches ha htouches
        cases hends with
        | notStarted program e =>
          obtain ⟨rfl, rfl⟩ := Prod.mk.inj h
          exact .lost rfl htouches
        | unread path e hfile =>
          obtain ⟨rfl, rfl⟩ := Prod.mk.inj h
          exact .kept hconfined hfile
        | nothing messages =>
          obtain ⟨rfl, rfl⟩ := Prod.mk.inj h
          exact .lost rfl htouches
        | bundle messages text hfile =>
          simp only [Action.run_bind] at h
          cases hp : (p.place m text).run u with
          | mk r₂ u' =>
            have hspares := place_spares ha htouches.noLinks htouches.leadsTo hp
            have hafter := hspares.toConfined.after_touches ha htouches
            rw [hp] at h
            cases r₂ <;>
            · obtain ⟨-, rfl⟩ := Prod.mk.inj h
              exact .kept hafter (hspares.own hfile)

theorem run_leadsTo (hno : w.files.HoldsNoLinks p.sharedDir) (hd : w.files.LeadsTo p.sharedDir d)
    (hl : p.Suits launch c w d) {r : Except Failure RunSummary}
    (h : (p.run (c.toCompiler launch)).run w = (r, w')) : w'.files.LeadsTo p.sharedDir d := by
  rcases run_effect hno hd hl h with ⟨-, hfiles⟩ | ⟨m, -, -, heffect⟩
  · rwa [hfiles]
  · cases heffect with
    | untouched _ hfiles => rwa [hfiles]
    | lost _ htouches => exact htouches.leadsTo
    | kept hconfined _ => exact hconfined.leadsTo

end Plan

end AmbientTypes
