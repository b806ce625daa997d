import AmbientTypes.Command.Run
import AmbientTypes.Proofs.Command.Preparation
import AmbientTypes.Proofs.Execution.Notices

namespace AmbientTypes.Command

open AmbientTypes.Action

variable {launch : Launcher}

def OnlyReports (a : Action Unit) : Prop := Alike a (pure ())

namespace OnlyReports

theorem tell (n : Notice) : OnlyReports (tell n) := Matches.tell trivial

theorem bind {a : Action Unit} {f : Unit → Action Unit} (ha : OnlyReports a)
    (hf : OnlyReports (f ())) : OnlyReports (a >>= f) := Matches.unit_bind ha hf

theorem get_bind {f : World → Action Unit} (hf : ∀ w, OnlyReports (f w)) :
    OnlyReports (get >>= f) := Matches.get_bind_left hf

end OnlyReports

theorem onlyReports_manifest (m : Manifest) : OnlyReports (reportManifest m) :=
  .get_bind fun _ ↦ (OnlyReports.tell _).bind (.tell _)

theorem onlyReports_messages (ms : List CompilerMessage) : OnlyReports (reportMessages ms) :=
  .get_bind fun _ ↦ Matches.forM_pure (fun _ ↦ OnlyReports.tell _) ms

theorem onlyReports_skipped (m : Manifest) (r : CompileResult) : OnlyReports (reportSkipped m r) :=
  (OnlyReports.tell _).bind (.tell _)

theorem onlyReports_files (p : Placement) : OnlyReports (reportFiles p) := by
  rw [reportFiles]
  refine .get_bind fun w ↦ (OnlyReports.tell _).bind ?_
  split
  · exact (OnlyReports.tell _).bind (.tell _)
  · exact .tell _

theorem onlyReports_modules (r : Renaming) : OnlyReports (reportModules r) :=
  Matches.forM_pure (fun _ ↦ OnlyReports.tell _) r.entries

theorem onlyReports_placed (m : Manifest) (out : CompileResult) (r : Renaming) (p : Placement) :
    OnlyReports (reportPlaced m out r p) := by
  refine (onlyReports_modules r).bind ?_
  refine (onlyReports_files p).bind ?_
  exact (OnlyReports.tell _).bind (.tell _)

variable (p : Plan) (c : Compiler)

/-- A build after its manifest. -/
def buildFrom (m : Manifest) : Action Unit := do
  reportCompiling m c
  let out ← p.compile m c
  reportMessages out.messages
  match out.bundle with
  | none => reportSkipped m out
  | some bundle =>
    reportRewriting m
    let (names, placement) ← p.place m bundle
    reportPlaced m out names placement

theorem buildWith_eq : buildWith p c =
    p.manifest >>= fun m ↦ reportManifest m >>= fun _ ↦ buildFrom p c m := rfl

def runFrom (m : Manifest) : Action Unit := do
  match (← p.compile m c).bundle with
  | none => return ()
  | some bundle =>
    let _ ← p.place m bundle
    return ()

theorem discard_run_eq : discard (p.run c) = p.manifest >>= runFrom p c := by
  simp only [Plan.run, Functor.discard, map_const, Function.comp_apply, map_bind]
  congr 1
  funext m
  congr 1
  funext out
  cases out.bundle with
  | none => rfl
  | some bundle => simp only [map_bind, map_pure, pure_bind]

variable {p c}

theorem buildFrom_alike_runFrom (hc : ∀ j, OnlyLogs (c.run j)) (m : Manifest) :
    Alike (buildFrom p c m) (runFrom p c m) := by
  refine Matches.unit_bind (.tell trivial) ?_
  refine (p.onlyLogs_compile m hc).alike.bind fun out ↦ ?_
  refine (onlyReports_messages out.messages).unit_bind ?_
  cases out.bundle with
  | none => exact onlyReports_skipped m out
  | some bundle =>
    refine Matches.unit_bind (.tell trivial) ?_
    exact (p.onlyLogs_place m bundle).alike.bind fun placed ↦ onlyReports_placed m out _ _

/-- Reports apart, `buildWith` is the pipeline. -/
theorem buildWith_alike_run (hc : ∀ j, OnlyLogs (c.run j)) :
    Alike (buildWith p c) (discard (p.run c)) := by
  rw [buildWith_eq, discard_run_eq]
  refine p.reads_manifest.onlyLogs.alike.bind fun m ↦ ?_
  exact (onlyReports_manifest m).unit_bind (buildFrom_alike_runFrom hc m)

/-- A build reads settings and chooses a compiler before it does anything. -/
theorem run_build (launch : Launcher) {f : BuildFlags} {w : World} {s : Settings}
    (hs : (settings.run w).1 = .ok s) {c : CompilerProgram}
    (hc : ((chooseCompiler f s).run w).1 = .ok c) :
    ∃ logs, (build launch f).run w =
      (buildWith (f.plan w.cwd s) (c.toCompiler launch)).run
        { w with notices := w.notices ++ logs } := by
  obtain ⟨first, -, hfirst⟩ := reads_settings.run_bind_ok hs fun s ↦ do
    let p ← buildPlan f s
    let c ← chooseCompiler f s
    buildWith p (c.toCompiler launch)
  obtain ⟨second, -, hsecond⟩ := (reads_buildPlan f s).run_bind_ok
    (fst_run_buildPlan f s { w with notices := w.notices ++ first }) fun p ↦ do
      let c ← chooseCompiler f s
      buildWith p (c.toCompiler launch)
  obtain ⟨third, -, hthird⟩ := (reads_chooseCompiler f s).run_bind_ok
    (((reads_chooseCompiler f s).fst_eq (.withNotices w (w.notices ++ first ++ second))).trans hc)
    fun c ↦ buildWith (f.plan w.cwd s) (c.toCompiler launch)
  refine ⟨first ++ (second ++ third), ?_⟩
  rw [← List.append_assoc, ← List.append_assoc]
  exact hfirst.trans (hsecond.trans hthird)

section Example

def shopWithTool : World where
  files := { tree := .folder [
    ("shop.json", .file ⟨"\x7b\"name\":\"shop\"\x7d".toUTF8, none⟩),
    ("tool", .file ⟨.empty,
      some (.tool (some "declare module \"Button\" \x7b\x7d\n".toUTF8) .empty .empty 0)⟩)] }

def toolFlags : BuildFlags where
  config := some "shop.json"
  outputDir := some "types"
  tsc := some "./tool"

def tool : CompilerProgram := { path := programPath shopWithTool.cwd "./tool" }

end Example

end AmbientTypes.Command
