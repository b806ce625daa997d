import AmbientTypes.Command.Building
import AmbientTypes.Proofs.Pipeline.Notices

namespace AmbientTypes

open AmbientTypes.Action

namespace Settings

theorem reads_load (path : String) : Reads (load path) := by
  rw [load]
  refine Reads.bind (.inspect _ _) fun text ↦ ?_
  split
  · exact .pure _
  · exact .throw _

theorem reads_loadIfAny (path : String) : Reads (loadIfAny path) := by
  rw [loadIfAny]
  refine Reads.files.bind fun f ↦ ?_
  split
  · refine Reads.bind (Reads.tryCatch ?_ fun e ↦ ?_) fun outcome ↦ ?_
    · exact (reads_load path).bind fun s ↦ .pure _
    · exact (Reads.log _ _).bind fun _ ↦ .pure _
    · cases outcome <;> exact .pure _
  · exact .pure _

theorem loadIfAny_succeeds (path : String) : FailsOnly (fun _ ↦ False) (loadIfAny path) := by
  rw [loadIfAny]
  refine FailsOnly.files.bind fun f ↦ ?_
  split
  · refine FailsOnly.bind (FailsOnly.tryCatch fun e ↦ ?_) fun outcome ↦ ?_
    · exact (FailsOnly.log _ _).bind fun _ ↦ .pure _
    · cases outcome <;> exact .pure _
  · exact .pure _

variable (user : Option String) (project : String)

theorem reads_loadLayers : Reads (loadLayers user project) := by
  have hproject (s : Settings) := (reads_loadIfAny project).bind fun t ↦ .pure (s.overriddenBy t)
  unfold loadLayers
  cases user with
  | none => exact Reads.bind (.pure _) fun s ↦ hproject _
  | some path => exact (reads_loadIfAny path).bind fun s ↦ hproject _

theorem loadLayers_succeeds : FailsOnly (fun _ ↦ False) (loadLayers user project) := by
  have hproject (s : Settings) :=
    (loadIfAny_succeeds project).bind fun t ↦ .pure (s.overriddenBy t)
  unfold loadLayers
  cases user with
  | none => exact FailsOnly.bind (.pure _) fun s ↦ hproject _
  | some path => exact (loadIfAny_succeeds path).bind fun s ↦ hproject _

end Settings

theorem World.Agrees.compilerPath?_eq {w v : World} (h : w.Agrees v) (dir : String) :
    w.compilerPath? dir = v.compilerPath? dir := by
  rw [h.eq_withNotices]
  rfl

theorem CompilerProgram.reads_find (dir : String) : Reads (find dir) := by
  refine Reads.get_bind (fun w ↦ ?_) fun w v h ↦ ?_
  · split
    · exact .pure _
    · exact .throw _
  · rw [h.compilerPath?_eq]

namespace Command

theorem reads_settings : Reads settings := by
  refine Reads.get_bind (fun w ↦ Settings.reads_loadLayers _ _) fun w v h ↦ ?_
  rw [h.eq_withNotices]
  rfl

theorem settings_succeed : FailsOnly (fun _ ↦ False) settings :=
  FailsOnly.get.bind fun _ ↦ Settings.loadLayers_succeeds _ _

theorem reads_plan (s : Settings) (config : Option String) (discovery : Option SearchChoice) :
    Reads (plan s config discovery) := by
  refine Reads.get_bind (fun w ↦ ?_) fun w v h ↦ ?_
  · exact (Plan.reads_configure _ s).bind fun p ↦ .pure _
  · rw [h.cwd]

theorem fst_run_plan (s : Settings) (config : Option String) (discovery : Option SearchChoice)
    (w : World) : ((plan s config discovery).run w).1 =
      .ok ((Plan.ofSettings w.cwd s).choosing config discovery) := by
  rw [plan, run_bind, run_get]
  dsimp only
  rw [run_bind, Plan.configure]
  cases s.searchChoice <;> rfl

def BuildFlags.plan (f : BuildFlags) (cwd : String) (s : Settings) : Plan :=
  let p := (Plan.ofSettings cwd s).choosing f.config f.discovery
  { p with
    sharedDir := (f.outputDir.map (Path.anchor p.root)).getD p.sharedDir
    strict := p.strict || f.strict }

theorem reads_buildPlan (f : BuildFlags) (s : Settings) : Reads (buildPlan f s) :=
  (reads_plan s f.config f.discovery).bind fun _ ↦ .pure _

theorem fst_run_buildPlan (f : BuildFlags) (s : Settings) (w : World) :
    ((buildPlan f s).run w).1 = .ok (f.plan w.cwd s) := by
  have hplan := run_eq_of_fst (fst_run_plan s f.config f.discovery w)
  rw [buildPlan, run_bind, hplan, BuildFlags.plan]
  cases f.outputDir <;> rfl

theorem reads_chooseCompiler (f : BuildFlags) (s : Settings) : Reads (chooseCompiler f s) := by
  refine Reads.get_bind (fun w ↦ ?_) fun w v h ↦ ?_
  · cases f.tsc with
    | some program => exact .pure _
    | none =>
      cases s.program with
      | some program => exact .pure _
      | none => exact CompilerProgram.reads_find _
  · rw [h.cwd]

end Command

end AmbientTypes
