import AmbientTypes.Compilation.Program
import AmbientTypes.Proofs.Storage

namespace AmbientTypes

/-- The program of a command line leaves a directory as it is but for one name, under which it
leaves a file or nothing when nothing was there. -/
def Launcher.WritesOnly (launch : Launcher) (c : CommandLine) (dir : String) (d : Location)
    (s : String) : Prop :=
  ∀ w : World, w.files.LeadsTo dir d → w.files.HoldsNoLinks dir →
    w.files.tree.node? (d ++ [s]) = none → w.files.Touches dir d s ((launch c).run w).2.files ∧
      ((launch c).run w).2.files.tree.node? (d ++ [s]) ≠ some .folder

theorem Files.eq_invalidText_of_isFile {f : Files} {path : String} {e : SysError}
    (hfile : f.isFile path = true) (h : f.readText path = .error e) : e = .invalidText := by
  obtain ⟨bytes, hbytes⟩ := readBytes_of_isFile hfile
  rw [readText, hbytes] at h
  simp only [bind, Except.bind] at h
  split at h
  · cases h
  · exact (Except.error.inj h).symm

theorem Action.run_launch (launch : Launcher) (why : String → SysError → Failure) (c : CommandLine)
    (w : World) :
    (Action.launch launch why c).run w =
      match (launch c).run { w with notices := w.notices ++ [.log .debug c.runningLine] } with
      | (.ok o, v) => (.ok o, v)
      | (.error e, v) => (.error (why c.program e), v) := by
  rw [Action.launch, Action.run_log_bind, Action.run_bind, Action.run_lift]
  cases (launch c).run { w with notices := w.notices ++ [.log .debug c.runningLine] } with
  | mk r v => cases r <;> rfl

namespace CompilerProgram

variable {launch : Launcher} {p : CompilerProgram} {j : CompileJob} {dir s : String} {d : Location}
  {w w' : World}

theorem run_readBundle (path : String) (w : World) :
    (readBundle path).run w =
      (if w.files.isFile path then
        match w.files.readText path with
        | .ok text => .ok (some text)
        | .error e => .error (.readingFile path e)
      else .ok none, w) := by
  rw [readBundle, Action.run_bind, Action.run_files]
  by_cases hfile : w.files.isFile path = true
  · simp only [hfile, if_true, Action.run_map, Storage.readText, Action.run_inspect]
    cases w.files.readText path <;> rfl
  · simp only [hfile, if_false, Bool.false_eq_true, Action.run_pure]

theorem keepsFiles_readBundle (path : String) : (readBundle path).KeepsFiles := by
  intro v
  rw [run_readBundle]

theorem run_removeStale {path : String} {b : Bool} {v : World}
    (h : (Storage.discardFile path).run w = (.ok b, v)) :
    ∃ v', (removeStale path).run w = (.ok (), v') ∧ v'.files = v.files := by
  rw [removeStale, Action.run_bind, h]
  cases b <;> exact ⟨_, rfl, rfl⟩

theorem removeStale_sets (hs : Path.IsName s)
    (h : (removeStale (Path.join dir s)).run w = (.ok (), w')) {d : Location}
    (hd : w'.files.LeadsTo dir d) :
    w.files.LeadsTo dir d ∧ w.files.tree.node? (d ++ [s]) ≠ some .folder ∧
      Files.Sets w.files d s none w'.files := by
  obtain ⟨b, v, hv, h⟩ := Action.run_bind_ok h
  have hfiles : w'.files = v.files := by
    cases b <;> obtain ⟨-, rfl⟩ := Prod.mk.inj h <;> rfl
  rw [hfiles] at hd ⊢
  rcases Storage.discardFile_ok hs hv with ⟨e, he, hfolder, hsets⟩ | ⟨hsame, hnone⟩
  · obtain rfl := (hsets.leadsTo_before hd).unique he
    exact ⟨he, hfolder, hsets⟩
  · rw [hsame] at hd ⊢
    exact ⟨hd, by simp [hnone d hd], .refl (hnone d hd)⟩

inductive Found (f : Files) (path : String) : Except Failure CompileResult → Prop
  | unread (hfile : f.isFile path = true) (htext : f.readText path = .error .invalidText) :
      Found f path (.error (.readingFile path .invalidText))
  | nothing (messages : List CompilerMessage) : Found f path (.ok ⟨false, messages, none⟩)
  | bundle (messages : List CompilerMessage) (text : String) (hfile : f.isFile path = true)
      (htext : f.readText path = .ok text) : Found f path (.ok ⟨true, messages, some text⟩)

theorem found_of_launch {cleared after : World} {o : ProcessOutput}
    (hstale : (removeStale j.outFile).run w = (.ok (), cleared))
    (hlaunch : (Action.launch launch .startingCompiler (p.commandLine j)).run cleared =
      (.ok o, after)) :
    ∃ r v, (p.compile launch j).run w = (r, v) ∧ v.files = after.files ∧
      Found after.files j.outFile r := by
  rw [compile, Action.run_bind, hstale]
  simp only [Action.run_bind, hlaunch, Action.run_log, run_readBundle]
  by_cases hfile : after.files.isFile j.outFile = true
  · simp only [hfile, if_true]
    cases htext : after.files.readText j.outFile with
    | ok text => exact ⟨_, _, rfl, rfl, .bundle _ text hfile htext⟩
    | error e =>
      obtain rfl := Files.eq_invalidText_of_isFile hfile htext
      exact ⟨_, _, rfl, rfl, .unread hfile htext⟩
  · simp only [hfile, if_false, Bool.false_eq_true]
    exact ⟨_, _, rfl, rfl, .nothing _⟩

/-- How a compilation ends that removed what lay in the output file. With a bundle there is a file,
and also where that cannot be read. -/
inductive Ends (f : Files) (d : Location) (s : String) : Except Failure CompileResult → Prop
  | notStarted (program : String) (e : SysError) : Ends f d s (.error (.startingCompiler program e))
  | unread (path : String) (e : SysError) (h : f.HoldsFile d s) :
      Ends f d s (.error (.readingFile path e))
  | nothing (messages : List CompilerMessage) : Ends f d s (.ok ⟨false, messages, none⟩)
  | bundle (messages : List CompilerMessage) (text : String) (h : f.HoldsFile d s) :
      Ends f d s (.ok ⟨true, messages, some text⟩)

/-- A compilation either finds that the output file cannot be removed, or changes nothing else in
its directory. -/
theorem compile_join (hs : Path.IsName s) (hj : j.outFile = Path.join dir s)
    (hl : launch.WritesOnly (p.commandLine j) dir d s) (hno : w.files.HoldsNoLinks dir)
    (hd : w.files.LeadsTo dir d) :
    (∃ e, (p.compile launch j).run w = (.error (.removingFile j.outFile e), w)) ∨
      ∃ r w', (p.compile launch j).run w = (r, w') ∧ Files.Fits dir s ∧
        w.files.Touches dir d s w'.files ∧ w'.files.tree.node? (d ++ [s]) ≠ some .folder ∧
          Ends w'.files d s r := by
  rw [hj]
  obtain ⟨-, e, he⟩ | ⟨hfits, hfolder, b, g, hg, hsets⟩ := Storage.discardFile_join hs hd
  · exact .inl ⟨e, by rw [compile, removeStale, hj, Action.run_bind, Action.run_bind, he]⟩
  · obtain ⟨v, hv, rfl⟩ := run_removeStale hg
    rw [← hj] at hv
    have hstale := Files.Touches.of_sets hd hno hsets hfolder (by simp)
    obtain ⟨htool, hout⟩ := hl
      { v with notices := v.notices ++ [.log .debug (p.commandLine j).runningLine] }
      hstale.leadsTo hstale.noLinks hsets.self
    have htouches := hstale.trans htool
    refine .inr ?_
    cases hrun : (launch (p.commandLine j)).run
        { v with notices := v.notices ++ [.log .debug (p.commandLine j).runningLine] } with
    | mk r u =>
      rw [hrun] at htouches hout
      have hlaunch := Action.run_launch launch .startingCompiler (p.commandLine j) v
      rw [hrun] at hlaunch
      cases r with
      | error e =>
        refine ⟨_, u, ?_, hfits, htouches, hout, .notStarted (p.commandLine j).program e⟩
        rw [compile, Action.run_bind, hv]
        simp only [Action.run_bind, hlaunch]
      | ok o =>
        obtain ⟨r, u', hcompile, hfiles, hfound⟩ := found_of_launch hv hlaunch
        rw [hj, ← hfiles] at hfound
        rw [← hfiles] at htouches hout
        have hheld (hfile : u'.files.isFile (Path.join dir s) = true) :=
          Files.isFile_join hs htouches.noLinks.ne_link hfile htouches.leadsTo
        refine ⟨r, u', hcompile, hfits, htouches, hout, ?_⟩
        cases hfound with
        | unread hfile => exact .unread _ _ (hheld hfile)
        | nothing messages => exact .nothing messages
        | bundle messages text hfile => exact .bundle messages text (hheld hfile)

end CompilerProgram

end AmbientTypes
