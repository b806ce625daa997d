import AmbientTypes.Proofs.Pipeline.Leftovers
import AmbientTypes.Proofs.Search.Naming

namespace AmbientTypes

variable {w w' : World}

/-- A compiler that gives no bundle but one, and leaves nothing but its output file, as long as that
is no link. Where there is such a file in a directory, it gives its bundle. -/
structure Compiler.Emits (c : Compiler) (dir s bundle : String) : Prop where
  only : ∀ {j : CompileJob} {v v' : World} {ok : Bool} {messages : List CompilerMessage}
      {text : String},
    j.outFile = Path.join dir s → (c.run j).run v = (.ok ⟨ok, messages, some text⟩, v') →
      text = bundle
  touches : ∀ {j : CompileJob} {v v' : World} {ok : Bool} {messages : List CompilerMessage}
      {text : String},
    j.outFile = Path.join dir s → (c.run j).run v = (.ok ⟨ok, messages, some text⟩, v') →
      v.files.NotLinked dir s → ∃ f d k, v.files.MayMake dir f ∧ f.LeadsTo dir d ∧
        f.tree.node? (d ++ [s]) ≠ some .folder ∧ Files.Sets f d s (some (.file k)) v'.files
  again : ∀ {j : CompileJob} {v : World} {d : Location} {k : File},
    j.outFile = Path.join dir s → v.files.LeadsTo dir d → Files.Fits dir s →
      v.files.tree.node? (d ++ [s]) = some (.file k) →
        ∃ ok messages v', (c.run j).run v = (.ok ⟨ok, messages, some bundle⟩, v')
  keepsNames : ∀ j, (c.run j).KeepsNames

/-- The program of any command line writes certain bytes where it can, and prints what it likes. -/
def Launcher.Leaves (launch : Launcher) (path : String) (bytes : ByteArray) : Prop :=
  ∀ (c : CommandLine) (w : World), ∃ o v, (launch c).run w = (.ok o, v) ∧
    v.files = (w.files.writeBytes path bytes).toOption.getD w.files

namespace CompilerProgram

variable {launch : Launcher} {c : CompilerProgram} {j : CompileJob} {dir s path bundle : String}
  {bytes : ByteArray}

theorem run_launch_of_leaves (hl : launch.Leaves path bytes) (line : CommandLine) (w : World) :
    ∃ o v, (Action.launch launch .startingCompiler line).run w = (.ok o, v) ∧
      v.files = (w.files.writeBytes path bytes).toOption.getD w.files := by
  obtain ⟨o, v, hrun, hv⟩ := hl line
    { w with notices := w.notices ++ [.log .debug line.runningLine] }
  rw [Action.run_launch, hrun]
  exact ⟨o, v, rfl, hv⟩

/-- What such a program wrote is the bundle, and it lies in the output file. -/
theorem compile_ok_of_leaves (hs : Path.IsName s) (hj : j.outFile = Path.join dir s)
    (hl : launch.Leaves (Path.join dir s) bundle.toUTF8) {ok : Bool}
    {messages : List CompilerMessage} {text : String}
    (h : (c.compile launch j).run w = (.ok ⟨ok, messages, some text⟩, w')) :
    text = bundle ∧ ∃ d, w.files.LeadsTo dir d ∧ w.files.tree.node? (d ++ [s]) ≠ some .folder ∧
      Files.Sets w.files d s (some (.file ⟨bundle.toUTF8, none⟩)) w'.files := by
  obtain ⟨_, v, hstale, -⟩ := Action.run_bind_ok h
  obtain ⟨o, u, hlaunch, hleft⟩ := run_launch_of_leaves hl (c.commandLine j) v
  obtain ⟨r, u', hrun, hfiles, hfound⟩ := found_of_launch hstale hlaunch
  obtain ⟨rfl, rfl⟩ := Prod.mk.inj (hrun.symm.trans h)
  rw [hj] at hstale hfound
  have hfree (d : Location) (hd : v.files.LeadsTo dir d) : v.files.tree.node? (d ++ [s]) = none :=
    (removeStale_sets hs hstale hd).2.2.self
  have hlink (d : Location) (hd : v.files.LeadsTo dir d) (t : String) :
      v.files.tree.node? (d ++ [s]) ≠ some (.link t) := by
    simp [hfree d hd]
  obtain ⟨hfile, htext⟩ : u.files.isFile (Path.join dir s) = true ∧
      u.files.readText (Path.join dir s) = .ok text := by
    cases hfound with
    | bundle _ _ hfile htext => exact ⟨hfile, htext⟩
  obtain ⟨e, hleaf⟩ := Files.isLeaf_of_isFile hs hfile
  cases hwrite : v.files.writeBytes (Path.join dir s) bundle.toUTF8 with
  | error why =>
    have hsame : u.files = v.files := by rw [hleft, hwrite]; rfl
    rw [hsame] at hfile hleaf
    obtain ⟨k, hk⟩ := Files.isFile_join hs hlink hfile hleaf.leadsTo
    exact absurd hk (by simp [hfree e hleaf.leadsTo])
  | ok g =>
    obtain rfl : u.files = g := by rw [hleft, hwrite]; rfl
    obtain ⟨d, hd, hfolder, hsets⟩ := Files.writeBytes_join_ok hs hlink hwrite
    obtain ⟨hd', hfolder', hgone⟩ := removeStale_sets hs hstale hd
    have hread := Files.readText_join hs (hsets.leadsTo hfolder (by simp [hfree d hd]) hd)
      hleaf.fits hsets.self
    refine ⟨Except.ok.inj (htext.symm.trans hread), d, hd', hfolder', ?_⟩
    rw [hfiles]
    exact hgone.trans hsets

theorem compile_again_of_leaves (hs : Path.IsName s) (hj : j.outFile = Path.join dir s)
    (hl : launch.Leaves (Path.join dir s) bundle.toUTF8) {d : Location} {k : File}
    (hd : w.files.LeadsTo dir d) (hfits : Files.Fits dir s)
    (hk : w.files.tree.node? (d ++ [s]) = some (.file k)) :
    ∃ ok messages w', (c.compile launch j).run w = (.ok ⟨ok, messages, some bundle⟩, w') := by
  obtain ⟨hnot, -⟩ | ⟨-, hfolder, b, g, hg, hgone⟩ := Storage.discardFile_join hs hd
  · exact absurd hnot (by simp [hfits, hk])
  obtain ⟨v, hv, rfl⟩ := run_removeStale hg
  have hd' := hgone.leadsTo hfolder (by simp [hk]) hd
  have hlink (e : Location) (he : v.files.LeadsTo dir e) (t : String) :
      v.files.tree.node? (e ++ [s]) ≠ some (.link t) := by
    rw [he.unique hd', hgone.self]
    simp
  obtain ⟨⟨l, old, g'⟩, hopen⟩ := Files.openOrCreate_join hs hlink hd' hfits (by simp [hgone.self])
  have hwrite : v.files.writeBytes (Path.join dir s) bundle.toUTF8 =
      .ok (g'.putBytes l bundle.toUTF8) := by
    rw [Files.writeBytes, hopen]
    rfl
  obtain ⟨e, he, hnot, hsets⟩ := Files.writeBytes_join_ok hs hlink hwrite
  have hthere := hsets.leadsTo hnot (hlink e he) he
  have hread := Files.readText_join hs hthere hfits hsets.self
  have hfile := Files.isFile_of_readBytes (Files.readBytes_join hs hthere hfits hsets.self)
  rw [compile, Action.run_bind, hj, hv]
  obtain ⟨o, u, hlaunch, hleft⟩ := run_launch_of_leaves hl (c.commandLine j) v
  have hu : u.files = g'.putBytes l bundle.toUTF8 := by rw [hleft, hwrite]; rfl
  rw [← hu] at hread hfile
  simp only [Action.run_bind, hlaunch, Action.run_log, run_readBundle, hfile, if_true, hread]
  exact ⟨_, _, _, rfl⟩

theorem keepsNames_compile_of_leaves (hl : launch.Leaves path bytes) :
    (c.compile launch j).KeepsNames := by
  have hstale : (removeStale j.outFile).KeepsNames := by
    apply Action.KeepsNames.bind (Storage.keepsNames_discardFile _)
    intro b
    apply Action.KeepsNames.of_keepsFiles
    cases b
    · exact .pure _
    · exact .log _ _
  have hlaunch : (Action.launch launch .startingCompiler (c.commandLine j)).KeepsNames := by
    intro w hw
    obtain ⟨o, v, hrun, hleft⟩ := run_launch_of_leaves hl (c.commandLine j) w
    rw [hrun, hleft]
    cases hwrite : w.files.writeBytes path bytes with
    | error e => exact hw
    | ok g => exact Files.isWellNamed_writeBytes hw hwrite
  apply hstale.bind
  intro _
  apply hlaunch.bind
  intro o
  apply Action.KeepsNames.of_keepsFiles
  exact .bind (.log _ _) fun _ ↦ .bind (keepsFiles_readBundle _) fun _ ↦ .pure _

/-- A program that writes one bundle is a compiler that gives it. -/
theorem emits_of_leaves (c : CompilerProgram) (hs : Path.IsName s)
    (hl : launch.Leaves (Path.join dir s) bundle.toUTF8) :
    (c.toCompiler launch).Emits dir s bundle where
  only hj h := (compile_ok_of_leaves hs hj hl h).1
  touches hj h _ := by
    obtain ⟨-, d, hd, hfolder, hsets⟩ := compile_ok_of_leaves hs hj hl h
    exact ⟨_, d, _, ⟨.refl _, fun _ _ ↦ .refl _⟩, hd, hfolder, hsets⟩
  again hj hd hfits hk := compile_again_of_leaves hs hj hl hd hfits hk
  keepsNames _ := keepsNames_compile_of_leaves hl

end CompilerProgram

end AmbientTypes
