import AmbientTypes.Proofs.Command.Building
import AmbientTypes.Proofs.Console

namespace AmbientTypes.Command

open AmbientTypes.Action AmbientTypes.ConsoleAction

variable (view view' : Presentation)

theorem onlyPrints_manifest (m : Manifest) : OnlyPrints (showManifest view m) :=
  .cwd_bind fun _ ↦ (OnlyPrints.call view _).bind (.call view _)

theorem onlyPrints_message (dir : String) (m : CompilerMessage) :
    OnlyPrints (showMessage view dir m) := by
  rw [showMessage]
  split
  · exact .call view _
  · split
    · exact .nothing
    · exact .call view _

theorem onlyPrints_messages (ms : List CompilerMessage) : OnlyPrints (showMessages view ms) :=
  .cwd_bind fun dir ↦ .forM (onlyPrints_message view dir) ms

theorem onlyPrints_skipped (m : Manifest) (r : CompileResult) :
    OnlyPrints (showSkipped view m r) := (OnlyPrints.call view _).bind (.call view _)

theorem onlyPrints_modules (r : Renaming) : OnlyPrints (showModules view r) := by
  rw [showModules]
  split
  · exact .forM (fun _ ↦ .call view _) r.entries
  · exact .nothing

theorem onlyPrints_files (p : Placement) : OnlyPrints (showFiles view p) := by
  rw [showFiles]
  refine .cwd_bind fun dir ↦ (OnlyPrints.call view _).bind ?_
  split
  · exact (OnlyPrints.call view _).bind (.call view _)
  · exact .call view _

theorem onlyPrints_placed (m : Manifest) (out : CompileResult) (r : Renaming) (p : Placement) :
    OnlyPrints (showPlaced view m out r p) := by
  refine (onlyPrints_modules view r).bind ?_
  refine (onlyPrints_files view p).bind ?_
  exact (OnlyPrints.call view _).bind (.call view _)

theorem onlyPrints_listed (dir fileName : String) (all : Bool) (paths : List String) :
    OnlyPrints (showListed view dir fileName all paths) := by
  rw [showListed]
  split
  · exact .call view _
  · split
    · exact .call view _
    · refine (OnlyPrints.forM (fun path ↦ .print _) paths).bind ?_
      split
      · exact .call view _
      · exact .nothing

theorem onlyPrints_failure (f : Failure) : OnlyPrints (showFailure view f) := by
  rw [showFailure]
  split
  · exact .call view _
  · split
    · exact .call view _
    · exact .print _

variable (p : Plan) (c : Compiler) (launch : Launcher)

theorem coincide_pipeline : Coincide (showPipeline view p c) (showPipeline view' p c) := by
  refine (Coincide.logging view view' _).bind fun m ↦ ?_
  refine ((onlyPrints_manifest view m).coincide (onlyPrints_manifest view' m)).bind fun _ ↦ ?_
  refine ((OnlyPrints.call view _).coincide (.call view' _)).bind fun _ ↦ ?_
  refine (Coincide.logging view view' _).bind fun out ↦ ?_
  refine ((onlyPrints_messages view _).coincide (onlyPrints_messages view' _)).bind fun _ ↦ ?_
  cases out.bundle with
  | none => exact (onlyPrints_skipped view m out).coincide (onlyPrints_skipped view' m out)
  | some bundle =>
    refine ((OnlyPrints.call view _).coincide (.call view' _)).bind fun _ ↦ ?_
    refine (Coincide.logging view view' _).bind fun placed ↦ ?_
    exact (onlyPrints_placed view m out _ _).coincide (onlyPrints_placed view' m out _ _)

theorem coincide_build (f : BuildFlags) :
    Coincide (showBuild launch view f) (showBuild launch view' f) := by
  refine (Coincide.logging view view' _).bind fun s ↦ ?_
  refine (Coincide.logging view view' _).bind fun p ↦ ?_
  exact (Coincide.logging view view' _).bind fun c ↦ coincide_pipeline view view' p _

theorem coincide_locate (f : LocateFlags) : Coincide (showLocate view f) (showLocate view' f) := by
  refine (Coincide.logging view view' _).bind fun s ↦ ?_
  refine (Coincide.logging view view' _).bind fun p ↦ ?_
  refine (Coincide.logging view view' _).bind fun paths ↦ ?_
  exact Coincide.cwd.bind fun dir ↦
    (onlyPrints_listed view dir _ _ _).coincide (onlyPrints_listed view' dir _ _ _)

theorem coincide_task (t : Task) : Coincide (showTask launch view t) (showTask launch view' t) := by
  cases t with
  | build f => exact coincide_build view view' launch f
  | locate f => exact coincide_locate view view' f
  | completions shell => exact (OnlyPrints.print _).coincide (.print _)

/-- However a task is shown, it ends alike. -/
theorem runShown_coincide (t : Task) {d d' : Console} (h : d.world = d'.world) :
    (runShown launch view t d).1 = (runShown launch view' t d').1 ∧
      (runShown launch view t d).2.world = (runShown launch view' t d').2.world := by
  obtain ⟨hresult, hworld⟩ := coincide_task view view' launch t h
  rw [runShown, runShown]
  generalize (showTask launch view t).run d = q at *
  obtain ⟨r, e⟩ := q
  generalize (showTask launch view' t).run d' = q' at *
  obtain ⟨r', e'⟩ := q'
  obtain rfl : r = r' := hresult
  cases r with
  | ok x => exact ⟨rfl, hworld⟩
  | error f =>
    exact ⟨rfl, ((onlyPrints_failure view f).coincide (onlyPrints_failure view' f) hworld).2⟩

variable {view p c launch}

theorem call_eq_print {k : Reporter.Call} {n : Notice}
    (h : view.print n = view.reporter.printCall view.terminal k) :
    view.call k = .print (view.print n) := by
  rw [h]
  rfl

theorem shows_call {k : Reporter.Call} {n : Notice}
    (h : view.print n = view.reporter.printCall view.terminal k) :
    Presentation.Shows view (view.call k) (tell n) := by
  rw [call_eq_print h]
  exact .tell n

theorem shows_line (l : Label) (message : String) :
    Presentation.Shows view (view.call (.status l message)) (line l message) := shows_call rfl

theorem shows_event (value : Json) :
    Presentation.Shows view (view.call (.event value)) (event value) := shows_call rfl

theorem shows_manifest (m : Manifest) :
    Presentation.Shows view (showManifest view m) (reportManifest m) :=
  .cwd_bind fun _ ↦ (shows_line _ _).bind fun _ ↦ shows_event _

theorem shows_compiling (m : Manifest) : Presentation.Shows view
    (view.call (.spinner .compiling (compilingText m c) "")) (reportCompiling m c) := by
  refine shows_call ?_
  rw [Reporter.printCall, ite_self]
  exact (Printed.append_nothing _).symm

theorem showMessage_eq_print (dir : String) (m : CompilerMessage) :
    showMessage view dir m = .print (view.print (.compilerMessage dir m)) := by
  rw [showMessage, Presentation.print, Presentation.compilerMessage]
  split
  · rfl
  · split
    · exact print_nothing.symm
    · rfl

theorem shows_messages (ms : List CompilerMessage) :
    Presentation.Shows view (showMessages view ms) (reportMessages ms) := by
  refine .cwd_bind fun w ↦ .forM (fun m ↦ ?_) ms
  rw [showMessage_eq_print]
  exact .tell _

theorem shows_skipped (m : Manifest) (r : CompileResult) :
    Presentation.Shows view (showSkipped view m r) (reportSkipped m r) :=
  (shows_line _ _).bind fun _ ↦ shows_event _

theorem shows_modules (r : Renaming) :
    Presentation.Shows view (showModules view r) (reportModules r) := by
  have hdetail (e : String × String) : view.print (.detail (.line .rewriting (moduleText e))) =
      if view.reporter.isVerbose then view.reporter.printLine .rewriting (moduleText e) else {} :=
    rfl
  have hshown : showModules view r = r.entries.forM fun e ↦
      .print (view.print (.detail (.line .rewriting (moduleText e)))) := by
    simp only [hdetail, showModules]
    split
    · rfl
    · exact (forM_print_nothing r.entries).symm
  rw [hshown]
  exact .forM (fun e ↦ .tell _) r.entries

theorem shows_files (p : Placement) :
    Presentation.Shows view (showFiles view p) (reportFiles p) := by
  refine .cwd_bind fun w ↦ (shows_line _ _).bind fun _ ↦ ?_
  dsimp only
  split
  · exact (shows_line _ _).bind fun _ ↦ shows_line _ _
  · exact shows_line _ _

theorem shows_placed (m : Manifest) (out : CompileResult) (r : Renaming) (p : Placement) :
    Presentation.Shows view (showPlaced view m out r p) (reportPlaced m out r p) := by
  refine (shows_modules r).bind fun _ ↦ ?_
  refine (shows_files p).bind fun _ ↦ ?_
  exact (shows_event _).bind fun _ ↦ shows_call rfl

theorem shows_pipeline (hc : ∀ j, OnlyLogs (c.run j)) :
    Presentation.Shows view (showPipeline view p c) (buildWith p c) := by
  refine (Presentation.Shows.logging p.reads_manifest.onlyLogs).bind fun m ↦ ?_
  refine (shows_manifest m).bind fun _ ↦ (shows_compiling m).bind fun _ ↦ ?_
  refine (Presentation.Shows.logging (p.onlyLogs_compile m hc)).bind fun out ↦ ?_
  refine (shows_messages out.messages).bind fun _ ↦ ?_
  cases out.bundle with
  | none => exact shows_skipped m out
  | some bundle =>
    refine (shows_line _ _).bind fun _ ↦ ?_
    refine (Presentation.Shows.logging (p.onlyLogs_place m bundle)).bind fun placed ↦ ?_
    exact shows_placed m out _ _

theorem shows_build (hl : launch.KeepsNotices) (f : BuildFlags) :
    Presentation.Shows view (showBuild launch view f) (build launch f) := by
  refine (Presentation.Shows.logging reads_settings.onlyLogs).bind fun s ↦ ?_
  refine (Presentation.Shows.logging (reads_buildPlan f s).onlyLogs).bind fun p ↦ ?_
  refine (Presentation.Shows.logging (reads_chooseCompiler f s).onlyLogs).bind fun c ↦ ?_
  exact shows_pipeline fun j ↦ c.onlyLogs_compile hl j

theorem showListed_eq_print (dir fileName : String) (all : Bool) (paths : List String) :
    showListed view dir fileName all paths =
      .print (view.print (.manifests dir fileName all paths)) := by
  rw [showListed, Presentation.print, Presentation.manifests]
  split
  · rfl
  · cases paths with
    | nil => rfl
    | cons path paths =>
      have hsome : path :: paths ≠ [] := List.cons_ne_nil path paths
      rw [if_neg hsome, if_neg (mt List.isEmpty_iff.1 hsome), forM_print_stdout]
      cases all with
      | false =>
        rw [if_neg Bool.false_ne_true, if_neg Bool.false_ne_true, ← print_nothing]
        exact print_bind _ _
      | true => exact print_bind _ _

theorem shows_locate (f : LocateFlags) :
    Presentation.Shows view (showLocate view f) (locate f) := by
  refine (Presentation.Shows.logging reads_settings.onlyLogs).bind fun s ↦ ?_
  refine (Presentation.Shows.logging (reads_plan s _ _).onlyLogs).bind fun p ↦ ?_
  refine (Presentation.Shows.logging (p.reads_manifestPaths _).onlyLogs).bind fun paths ↦ ?_
  refine .cwd_bind fun w ↦ ?_
  rw [showListed_eq_print]
  exact .tell _

theorem shows_task (hl : launch.KeepsNotices) (t : Task) :
    Presentation.Shows view (showTask launch view t) (perform launch t) := by
  cases t with
  | build f => exact shows_build hl f
  | locate f => exact shows_locate f
  | completions shell => exact .tell (.text (completionScript shell))

theorem showFailure_eq_print (f : Failure) :
    showFailure view f = .print (view.print (.failed f)) := by
  rw [showFailure, Presentation.print, Presentation.failed]
  split
  · rfl
  · cases f.remark? <;> rfl

/-- A task prints what it would tell, as it goes, and does the same besides. -/
theorem runShown_eq (hl : launch.KeepsNotices) (t : Task) (w : World) :
    runShown launch view t ⟨w, {}⟩ =
      let (exit, v) := runTask launch t { w with notices := [] }
      (exit, ⟨{ v with notices := w.notices }, view.printAll v.notices⟩) := by
  have hstart : (Console.mk w {}).world.Agrees { w with notices := [] } :=
    (World.Agrees.withNotices w []).symm
  have hshows : Presentation.Shows view (showTask launch view t) (perform launch t) :=
    shows_task hl t
  obtain ⟨hresult, hworld, hnotices, ns, hns, hprinted⟩ := hshows hstart
  rw [runShown, runTask]
  generalize (showTask launch view t).run ⟨w, {}⟩ = q at *
  obtain ⟨r, d, printed⟩ := q
  generalize (perform launch t).run { w with notices := [] } = q' at *
  obtain ⟨r', v⟩ := q'
  obtain rfl : r = r' := hresult
  obtain rfl : d = { v with notices := w.notices } :=
    hworld.eq_withNotices.trans (congrArg (fun ns ↦ { v with notices := ns }) hnotices)
  obtain rfl : v.notices = ns := hns
  obtain rfl : printed = view.printAll v.notices :=
    hprinted.trans (Printed.nothing_append (view.printAll v.notices))
  cases r with
  | ok x => rfl
  | error f =>
    dsimp only
    rw [showFailure_eq_print, run_print, ← Presentation.printAll_singleton,
      ← Presentation.printAll_append]

/-- The program shows what its task tells, and leaves the world in which the task ends. -/
theorem run_eq_runTask (hl : launch.KeepsNotices) (terminal : Bool) {args : List String}
    {i : Invocation} (hi : Invocation.parse args = .ok i) (w : World) :
    run launch terminal args w =
      let (exit, v) := runTask launch i.task { w with notices := [] }
      let view := i.reporting.presentation terminal (w.envValue? logVariable)
      (⟨exit, view.printAll v.notices⟩, { v with notices := w.notices }) := by
  rw [run, hi]
  dsimp only
  rw [runShown_eq hl]

end AmbientTypes.Command
