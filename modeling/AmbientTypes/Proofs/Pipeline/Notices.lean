import AmbientTypes.Proofs.Notices
import AmbientTypes.Pipeline.Run
import AmbientTypes.Compilation.Program

namespace AmbientTypes

open AmbientTypes.Action

namespace Storage

theorem onlyLogs_requireFolder (path : String) : OnlyLogs (requireFolder path) := by
  rw [requireFolder]
  refine Matches.files.bind fun f ↦ ?_
  split
  · refine (Matches.setFiles _).bind fun _ ↦ ?_
    split
    · exact .pure ()
    · exact .throw _
  · exact .pure ()

theorem onlyLogs_readText (path : String) : OnlyLogs (readText path) := .inspect _ _

theorem onlyLogs_discardFile (path : String) : OnlyLogs (discardFile path) := by
  rw [discardFile]
  refine Matches.files.bind fun f ↦ ?_
  split
  · exact (Matches.setFiles _).bind fun _ ↦ .pure true
  · exact .pure false
  · exact .throw _

theorem onlyLogs_makeTemporary (dir contents : String) : OnlyLogs (makeTemporary dir contents) := by
  rw [makeTemporary]
  refine Matches.files.bind fun f ↦ ?_
  split
  · exact (Matches.setFiles _).bind fun _ ↦ .pure _
  · refine Matches.get_bind fun w v h ↦ ?_
    rw [h.cwd]
    exact .throw _

theorem onlyLogs_moveInto (path temporary : String) : OnlyLogs (moveInto path temporary) := by
  rw [moveInto]
  refine Matches.files.bind fun f ↦ ?_
  split
  · exact .setFiles _
  · exact (Matches.setFiles _).bind fun _ ↦ .throw _

theorem onlyLogs_replaceFile (path contents : String) : OnlyLogs (replaceFile path contents) := by
  rw [replaceFile]
  refine (onlyLogs_requireFolder _).bind fun _ ↦ ?_
  exact (onlyLogs_makeTemporary _ _).bind fun temporary ↦ onlyLogs_moveInto path temporary

theorem onlyLogs_createFile (path contents : String) : OnlyLogs (createFile path contents) := by
  rw [createFile]
  refine Matches.files.bind fun f ↦ ?_
  split
  · exact (Matches.setFiles _).bind fun _ ↦ .pure true
  · exact .pure false
  · exact .throw _

end Storage

namespace SharedFolder

theorem onlyLogs_placeDeclarations (dir name text : String) :
    OnlyLogs (placeDeclarations dir name text) := by
  rw [placeDeclarations]
  refine (Storage.onlyLogs_replaceFile _ _).bind fun _ ↦ ?_
  exact (OnlyLogs.log _ _).bind fun _ ↦ .pure _

theorem onlyLogs_placeStub (dir : String) : OnlyLogs (placeStub dir) := by
  rw [placeStub]
  refine (Storage.onlyLogs_requireFolder _).bind fun _ ↦ ?_
  refine (Storage.onlyLogs_createFile _ _).bind fun made ↦ ?_
  split
  · exact (OnlyLogs.log _ _).bind fun _ ↦ .pure _
  · exact (OnlyLogs.log _ _).bind fun _ ↦ .pure _

theorem onlyLogs_openIndex (path : String) : OnlyLogs (openIndex path) := by
  rw [openIndex]
  refine Matches.bind (.inspect _ _) fun opened ↦ ?_
  exact (Matches.setFiles _).bind fun _ ↦ .pure _

theorem onlyLogs_addToIndex (dir name : String) : OnlyLogs (addToIndex dir name) := by
  rw [addToIndex]
  refine (Storage.onlyLogs_requireFolder _).bind fun _ ↦ ?_
  refine Matches.files.bind fun f ↦ ?_
  refine (onlyLogs_openIndex _).bind fun opened ↦ ?_
  dsimp only
  cases Text.ofUtf8? opened.2 with
  | none => exact .throw _
  | some contents =>
    dsimp only
    cases indexAddition? contents name with
    | none => exact (OnlyLogs.log _ _).bind fun _ ↦ .pure _
    | some addition =>
      refine Matches.files.bind fun g ↦ ?_
      refine (Matches.setFiles _).bind fun _ ↦ ?_
      split
      · exact (OnlyLogs.log _ _).bind fun _ ↦ .pure _
      · exact (OnlyLogs.log _ _).bind fun _ ↦ .pure _

theorem onlyLogs_placeStubIfWanted (dir : String) : OnlyLogs (placeStubIfWanted dir) := by
  rw [placeStubIfWanted]
  split
  · exact onlyLogs_placeStub dir
  · exact (OnlyLogs.log _ _).bind fun _ ↦ .pure _

theorem onlyLogs_place (dir name text : String) : OnlyLogs (place dir name text) := by
  rw [place]
  split
  · exact .throw _
  · refine (onlyLogs_placeDeclarations _ _ _).bind fun _ ↦ ?_
    refine (onlyLogs_placeStubIfWanted _).bind fun _ ↦ ?_
    exact (onlyLogs_addToIndex _ _).bind fun _ ↦ .pure _

end SharedFolder

theorem Manifest.reads_load (path : String) : Reads (load path) := by
  rw [load]
  refine Reads.bind (.inspect _ _) fun text ↦ ?_
  split
  · exact .pure _
  · exact .throw _

namespace Search

variable (q : Search)

theorem reads_all (root : String) : Reads (q.all root) := by
  rw [all]
  refine Reads.files.bind fun f ↦ ?_
  split
  · exact .pure _
  · exact (Reads.log _ _).bind fun _ ↦ .pure _

theorem reads_chosen (root : String) (choice : ManifestChoice) : Reads (q.chosen root choice) := by
  match choice with
  | .given path =>
    refine Reads.files.bind fun f ↦ ?_
    split
    · exact .pure _
    · exact .throw _
  | .searched .firstMatch =>
    refine (q.reads_all root).bind fun found ↦ ?_
    split
    · exact .pure _
    · exact .throw _
  | .searched .unique =>
    refine (q.reads_all root).bind fun found ↦ ?_
    split
    · exact .throw _
    · exact .pure _
    · exact .throw _

theorem reads_find (root : String) (choice : ManifestChoice) : Reads (q.find root choice) := by
  rw [find]
  refine (q.reads_chosen root choice).bind fun path ↦ ?_
  exact (Reads.log _ _).bind fun _ ↦ .pure _

end Search

namespace CompilerProgram

variable {launch : Launcher} (p : CompilerProgram)

theorem onlyLogs_removeStale (path : String) : OnlyLogs (removeStale path) := by
  rw [removeStale]
  refine (Storage.onlyLogs_discardFile path).bind fun removed ↦ ?_
  split
  · exact OnlyLogs.log _ _
  · exact .pure ()

theorem onlyLogs_readBundle (path : String) : OnlyLogs (readBundle path) := by
  rw [readBundle]
  refine Matches.files.bind fun f ↦ ?_
  split
  · exact (Storage.onlyLogs_readText path).map some
  · exact .pure none

theorem onlyLogs_compile (hl : launch.KeepsNotices) (j : CompileJob) :
    OnlyLogs (p.compile launch j) := by
  rw [compile]
  refine (onlyLogs_removeStale _).bind fun _ ↦ ?_
  refine (onlyLogs_launch hl _ _).bind fun o ↦ ?_
  refine (OnlyLogs.log _ _).bind fun _ ↦ ?_
  exact (onlyLogs_readBundle _).bind fun bundle ↦ .pure _

end CompilerProgram

namespace Plan

variable (p : Plan)

theorem reads_configure (root : String) (s : Settings) : Reads (configure root s) := by
  rw [configure]
  split
  · exact Reads.bind (.pure ()) fun _ ↦ .pure _
  · exact (Reads.log _ _).bind fun _ ↦ .pure _

theorem reads_manifestPath : Reads p.manifestPath := p.search.reads_find p.root p.choice

theorem reads_manifestPaths (l : Listing) : Reads (p.manifestPaths l) := by
  unfold manifestPaths
  split
  · exact p.search.reads_all p.root
  · exact p.reads_manifestPath.bind fun path ↦ .pure _

theorem reads_manifest : Reads p.manifest := by
  rw [manifest]
  refine p.reads_manifestPath.bind fun path ↦ ?_
  refine (Manifest.reads_load path).bind fun m ↦ ?_
  exact (Reads.log _ _).bind fun _ ↦ .pure m

theorem onlyLogs_job (m : Manifest) : OnlyLogs (p.job m) := by
  rw [job]
  refine Matches.files.bind fun f ↦ ?_
  split
  · exact .pure _
  · exact .throw _

theorem onlyLogs_compile (m : Manifest) {c : Compiler} (hc : ∀ j, OnlyLogs (c.run j)) :
    OnlyLogs (p.compile m c) := by
  rw [compile]
  refine (p.onlyLogs_job m).bind fun j ↦ ?_
  refine (hc j).bind fun r ↦ ?_
  refine (OnlyLogs.forM (fun t ↦ .log _ _) _).bind fun _ ↦ ?_
  by_cases hfatal : (p.strict && decide (0 < r.countErrors)) = true
  · rw [if_pos hfatal]
    exact (Storage.onlyLogs_discardFile _).discard.bind fun _ ↦ .throw_bind _ _ _
  · rw [if_neg hfatal]
    dsimp only
    split
    · exact (OnlyLogs.log _ _).bind fun _ ↦ .pure r
    · exact .pure r

theorem onlyLogs_logModules (m : Manifest) (r : Renaming) : OnlyLogs (logModules m r) := by
  rw [logModules]
  exact (OnlyLogs.forM (fun id ↦ .log _ _) _).bind fun _ ↦
    OnlyLogs.forM (fun e ↦ .log _ _) _

theorem onlyLogs_place (m : Manifest) (bundle : String) : OnlyLogs (p.place m bundle) := by
  rw [place]
  refine (onlyLogs_logModules _ _).bind fun _ ↦ ?_
  split
  · exact .throw _
  · exact (SharedFolder.onlyLogs_place _ _ _).bind fun placed ↦ .pure _

/-- The whole pipeline tells nothing but log lines; every other notice comes from a command. -/
theorem onlyLogs_run {c : Compiler} (hc : ∀ j, OnlyLogs (c.run j)) : OnlyLogs (p.run c) := by
  rw [run]
  refine p.reads_manifest.onlyLogs.bind fun m ↦ ?_
  refine (p.onlyLogs_compile m hc).bind fun r ↦ ?_
  cases r.bundle with
  | none => exact Matches.bind (.pure RunOutcome.skipped) fun outcome ↦ .pure _
  | some bundle =>
    refine (p.onlyLogs_place m bundle).bind fun placed ↦ ?_
    exact Matches.bind (.pure _) fun outcome ↦ .pure _

end Plan

end AmbientTypes
