import AmbientTypes.Proofs.Command.Building
import AmbientTypes.Proofs.Search.Finding

namespace AmbientTypes

open AmbientTypes.Action

namespace Presentation

variable (p : Presentation)

def pathOutput (cwd path : String) : String :=
  if p.reporter.forMachines then
    (Json.object [("reason", "manifests"), ("paths", .array [.string path])]).print ++ "\n"
  else Path.shown cwd path ++ "\n"

theorem stdout_append (a b : Printed) : (a ++ b).stdout = a.stdout ++ b.stdout := rfl

theorem stdout_of_isLog {n : Notice} (h : n.IsLog) : (p.print n).stdout = "" := by
  cases n with
  | log level message =>
    rw [print]
    split <;> rfl
  | _ => cases h

theorem stdout_foldl_logs {logs : List Notice} (h : ∀ n ∈ logs, n.IsLog) (out : Printed) :
    (logs.foldl (fun out n ↦ out ++ p.print n) out).stdout = out.stdout := by
  induction logs generalizing out with
  | nil => rfl
  | cons n logs ih =>
    rw [List.forall_mem_cons] at h
    rw [List.foldl_cons, ih h.2, stdout_append, p.stdout_of_isLog h.1, String.append_empty]

theorem stdout_printAll_logs {logs : List Notice} (h : ∀ n ∈ logs, n.IsLog) (n : Notice) :
    (p.printAll (logs ++ [n])).stdout = (p.print n).stdout := by
  rw [printAll, List.foldl_append, List.foldl_cons, List.foldl_nil, stdout_append,
    p.stdout_foldl_logs h, String.empty_append]

def pathsOutput (cwd : String) (paths : List String) : String :=
  if p.reporter.forMachines then
    (Json.object [("reason", "manifests"), ("paths", .array (paths.map .string))]).print ++ "\n"
  else String.join (paths.map (Path.shown cwd · ++ "\n"))

theorem pathsOutput_singleton (cwd path : String) :
    p.pathsOutput cwd [path] = p.pathOutput cwd path := by
  simp [pathsOutput, pathOutput, String.join]

theorem stdout_line (l : Label) (message : String) :
    (p.reporter.print (.line l message)).stdout = "" := by
  rw [Reporter.print, Reporter.printLine]
  repeat' split
  all_goals rfl

theorem stdout_manifests (cwd fileName : String) (all : Bool) (paths : List String) :
    (p.print (.manifests cwd fileName all paths)).stdout = p.pathsOutput cwd paths := by
  rw [print, manifests, pathsOutput]
  split
  · next hmachines => simp [Reporter.print, Reporter.printEvent, hmachines, manifestsEvent]
  · split
    · next hnone =>
      rw [stdout_line, hnone]
      rfl
    · have hlines : paths.map (pathLine cwd) = paths.map (Path.shown cwd · ++ "\n") := rfl
      cases all <;> simp [stdout_append, stdout_line, hlines]

end Presentation

namespace Command

def located (f : LocateFlags) : Action (String × List String) := do
  let s ← settings
  let p ← plan s f.config f.discovery
  let paths ← p.manifestPaths (if f.all then .all else .chosen)
  return (p.search.fileName, paths)

theorem locate_eq (f : LocateFlags) : locate f =
    located f >>= fun found ↦ get >>= fun w ↦
      tell (.manifests w.cwd found.1 f.all found.2) := by
  simp only [locate, located, bind_assoc, pure_bind]

theorem reads_located (f : LocateFlags) : Reads (located f) := by
  refine reads_settings.bind fun s ↦ ?_
  refine (reads_plan s f.config f.discovery).bind fun p ↦ ?_
  exact (p.reads_manifestPaths _).bind fun paths ↦ .pure _

variable {launch : Launcher} {w : World} {s : Settings} {p : Plan}

def LocateFlags.plan (f : LocateFlags) (cwd : String) (s : Settings) : Plan :=
  (Plan.ofSettings cwd s).choosing f.config f.discovery

def LocateFlags.paths (f : LocateFlags) (s : Settings) (w : World) :
    Except Failure (List String) :=
  (((f.plan w.cwd s).manifestPaths (if f.all then .all else .chosen)).run w).1

theorem fst_run_located {f : LocateFlags} (hs : (settings.run w).1 = .ok s) :
    ((located f).run w).1 =
      (f.paths s w).map fun paths ↦ ((f.plan w.cwd s).search.fileName, paths) := by
  have hpaths (p : Plan) := (p.reads_manifestPaths (if f.all then .all else .chosen)).bind
    fun paths ↦ .pure (p.search.fileName, paths)
  rw [located, reads_settings.fst_bind fun s ↦ (reads_plan s _ _).bind hpaths, hs]
  change (((plan s f.config f.discovery) >>= fun p ↦ _).run w).1 = _
  rw [(reads_plan s _ _).fst_bind hpaths, fst_run_plan]
  change (((f.plan w.cwd s).manifestPaths (if f.all then .all else .chosen) >>= fun paths ↦
    _).run w).1 = _
  rw [((f.plan w.cwd s).reads_manifestPaths _).fst_bind fun paths ↦ .pure _, LocateFlags.paths]
  cases (((f.plan w.cwd s).manifestPaths (if f.all then .all else .chosen)).run w).1 <;> rfl

/-- `locate` tells of the manifests last, and changes nothing. -/
theorem run_locate {f : LocateFlags} (hs : (settings.run w).1 = .ok s) :
    ∃ logs, (∀ n ∈ logs, Notice.IsLog n) ∧ (locate f).run w =
      match f.paths s w with
      | .ok paths => (.ok (), { w with notices := w.notices ++ logs ++
          [.manifests w.cwd (f.plan w.cwd s).search.fileName f.all paths] })
      | .error e => (.error e, { w with notices := w.notices ++ logs }) := by
  obtain ⟨logs, hlogs, hrun⟩ := (reads_located f).run_eq w
  refine ⟨logs, hlogs, ?_⟩
  rw [locate_eq, run_bind, hrun, fst_run_located hs]
  cases f.paths s w <;> rfl

/-- `locate` prints what it lists, or fails and tells of nothing else. Besides, it leaves the world
as it is. -/
def LocateEnds (launch : Launcher) (f : LocateFlags) (w : World) :
    Except Failure (List String) → Prop
  | .ok paths => ∃ ns, runTask launch (.locate f) w = (0, { w with notices := w.notices ++ ns }) ∧
      ∀ shown : Presentation, (shown.printAll ns).stdout = shown.pathsOutput w.cwd paths
  | .error e => ∃ logs, (∀ n ∈ logs, Notice.IsLog n) ∧ runTask launch (.locate f) w =
      (1, { w with notices := w.notices ++ logs ++ [.failed e] })

theorem locateEnds_paths (launch : Launcher) (f : LocateFlags) (hs : (settings.run w).1 = .ok s) :
    LocateEnds launch f w (f.paths s w) := by
  obtain ⟨logs, hlogs, hrun⟩ := run_locate (f := f) hs
  cases hpaths : f.paths s w with
  | ok paths =>
    rw [hpaths] at hrun
    refine ⟨logs ++ [.manifests w.cwd (f.plan w.cwd s).search.fileName f.all paths], ?_, ?_⟩
    · rw [runTask, perform, hrun, ← List.append_assoc]
    · intro shown
      rw [shown.stdout_printAll_logs hlogs, shown.stdout_manifests]
  | error e =>
    rw [hpaths] at hrun
    refine ⟨logs, hlogs, ?_⟩
    rw [runTask, perform, hrun]

/-- `locate` ends as finding does: it prints the path that was found, or fails with the problem.
Besides, it leaves the world as it is. -/
def LocateShows (launch : Launcher) (f : BuildFlags) (w : World) :
    Except ManifestProblem String → Prop
  | .ok path => ∃ ns, runTask launch (.locate ⟨f.config, f.discovery, false⟩) w =
      (0, { w with notices := w.notices ++ ns }) ∧
      ∀ shown : Presentation, (shown.printAll ns).stdout = shown.pathOutput w.cwd path
  | .error e => ∃ ns, runTask launch (.locate ⟨f.config, f.discovery, false⟩) w =
      (1, { w with notices := w.notices ++ ns ++ [.failed (.manifest e)] })

def usesNotice (cwd : String) (m : Manifest) : Notice :=
  .report (.line .uses (Path.shown cwd m.path ++ " (" ++ m.name ++ ")"))

/-- A build says which manifest it uses, or it fails for want of one. -/
def BuildLoads (launch : Launcher) (f : BuildFlags) (w : World) : Except Failure Manifest → Prop
  | .ok m => ∃ ns, ((build launch f).run w).2.notices = w.notices ++ ns ∧ usesNotice w.cwd m ∈ ns
  | .error e => ((build launch f).run w).1 = .error e

theorem locateShows_of_chosen {f : BuildFlags} {r : Except ManifestProblem String}
    (hs : (settings.run w).1 = .ok s)
    (hr : (((f.plan w.cwd s).manifestPaths .chosen).run w).1 =
      (r.map ([·])).mapError .manifest) : LocateShows launch f w r := by
  have hends := locateEnds_paths launch ⟨f.config, f.discovery, false⟩ hs
  have hpaths : LocateFlags.paths ⟨f.config, f.discovery, false⟩ s w =
      (r.map ([·])).mapError .manifest := hr
  rw [hpaths] at hends
  cases r with
  | ok path =>
    obtain ⟨ns, hrun, hprints⟩ := hends
    exact ⟨ns, hrun, fun shown ↦ by rw [hprints, shown.pathsOutput_singleton]⟩
  | error e =>
    obtain ⟨logs, -, hrun⟩ := hends
    exact ⟨logs, hrun⟩

theorem run_reportManifest_bind (m : Manifest) (g : Unit → Action Unit) (w : World) :
    ∃ n, (reportManifest m >>= g).run w =
      (g ()).run { w with notices := w.notices ++ [usesNotice w.cwd m] ++ [n] } :=
  ⟨_, rfl⟩

variable {c : Compiler}

/-- A build that has loaded its manifest says so, and takes nothing back. -/
theorem told_of_buildWith (hc : ∀ j, OnlyLogs (c.run j)) {m : Manifest}
    (h : (p.manifest.run w).1 = .ok m) :
    ∃ ns, ((buildWith p c).run w).2.notices = w.notices ++ ns ∧ usesNotice w.cwd m ∈ ns := by
  obtain ⟨logs, -, hmanifest⟩ := p.reads_manifest.run_bind_ok h fun m ↦
    reportManifest m >>= fun _ ↦ buildFrom p c m
  obtain ⟨n, hreport⟩ := run_reportManifest_bind m (fun _ ↦ buildFrom p c m)
    { w with notices := w.notices ++ logs }
  obtain ⟨-, -, rest, -, hrest, -⟩ := buildFrom_alike_runFrom hc m (.refl
    { w with notices := w.notices ++ logs ++ [usesNotice w.cwd m] ++ [n] })
  refine ⟨logs ++ [usesNotice w.cwd m] ++ [n] ++ rest, ?_, by simp⟩
  rw [buildWith_eq, hmanifest, hreport]
  exact hrest.trans (by simp)

theorem buildLoads_of_loads (hl : launch.KeepsNotices) {f : BuildFlags} {c : CompilerProgram}
    (hs : (settings.run w).1 = .ok s) (hc : ((chooseCompiler f s).run w).1 = .ok c) :
    BuildLoads launch f w ((f.plan w.cwd s).manifest.run w).1 := by
  obtain ⟨logs, hbuild⟩ := run_build launch hs hc
  have hmanifest := (f.plan w.cwd s).reads_manifest.fst_eq (.withNotices w (w.notices ++ logs))
  cases hloads : ((f.plan w.cwd s).manifest.run w).1 with
  | error e =>
    rw [BuildLoads, hbuild, buildWith_eq, run_bind, run_eq_of_fst (hmanifest.trans hloads)]
  | ok m =>
    have hcompiler (j : CompileJob) : OnlyLogs ((c.toCompiler launch).run j) :=
      c.onlyLogs_compile hl j
    obtain ⟨ns, hns, htold⟩ := told_of_buildWith hcompiler (hmanifest.trans hloads)
    rw [BuildLoads, hbuild]
    refine ⟨logs ++ ns, ?_, List.mem_append_right logs htold⟩
    rw [← List.append_assoc]
    exact hns

/-- Listing and loading agree on the manifest of a plan, and it is the one that its search policy
means among all that there are. `locate` prints it, and a build with the same flags loads it. -/
theorem located_is_loaded (hl : launch.KeepsNotices) (w : World) :
    (∀ p : Plan, ∃ found r,
      (∀ c, (({ p with choice := .searched c }.manifestPaths .all).run w).1 = .ok found) ∧
      (∀ r', p.Finds w.files found r' ↔ r' = r) ∧ p.ComesTo w r) ∧
    ∀ f : BuildFlags, ∃ s, (settings.run w).1 = .ok s ∧
      (∀ r, (f.plan w.cwd s).ComesTo w r → LocateShows launch f w r) ∧
      ∀ c, ((chooseCompiler f s).run w).1 = .ok c →
        BuildLoads launch f w ((f.plan w.cwd s).manifest.run w).1 := by
  constructor
  · intro p
    obtain ⟨found, hfound, hall⟩ := p.manifestPaths_all w
    obtain ⟨r, hfinds, hchosen⟩ := Plan.finds_chosen hfound
    refine ⟨found, r, hall, fun r' ↦ ⟨fun h ↦ h.unique hfinds, ?_⟩, Plan.comesTo_of_chosen hchosen⟩
    rintro rfl
    exact hfinds
  · intro f
    obtain ⟨s, hs⟩ := settings_succeed.eq_ok w
    exact ⟨s, hs, fun r hr ↦ locateShows_of_chosen hs hr.chosen,
      fun c hc ↦ buildLoads_of_loads hl hs hc⟩

theorem located_is_loaded_shop : Execution.start.KeepsNotices ∧
    LocateShows Execution.start toolFlags shopWithTool (.ok "/shop.json") ∧
    BuildLoads Execution.start toolFlags shopWithTool (.ok ⟨"shop", [], "/shop.json"⟩) := by
  obtain ⟨hlibrary, hcommands⟩ := located_is_loaded Execution.keepsNotices_start shopWithTool
  obtain ⟨s, hs, hlocate, hbuild⟩ := hcommands toolFlags
  have hsettings : (settings.run shopWithTool).1 = .ok {} := by decide +kernel
  obtain rfl := Except.ok.inj (hs.symm.trans hsettings)
  obtain ⟨found, r, -, hfinds, hcomes⟩ := hlibrary (toolFlags.plan shopWithTool.cwd {})
  have hr : Except.ok "/shop.json" = r := (hfinds _).1 (.given rfl (by decide +kernel))
  have hloads : ((toolFlags.plan shopWithTool.cwd {}).manifest.run shopWithTool).1 =
      .ok ⟨"shop", [], "/shop.json"⟩ := by
    decide +kernel
  rw [← hr] at hcomes
  rw [hloads] at hbuild
  exact ⟨Execution.keepsNotices_start, hlocate _ hcomes, hbuild tool rfl⟩

end Command

end AmbientTypes
