import AmbientTypes.Execution.Start
import AmbientTypes.Proofs.Bundle.Checkout
import AmbientTypes.Proofs.Pipeline.Run
import AmbientTypes.Proofs.Tree.Keeping

namespace AmbientTypes

namespace Path

theorem isAbsolute_of_parent? {path q : String} (hp : isAbsolute path = true)
    (h : parent? path = some q) : isAbsolute q = true := by
  obtain ⟨r, hr⟩ := List.head?_eq_some_iff.1 (of_decide_eq_true hp)
  have hs : splitHead path.toList = (['/'], r) := by rw [hr]; rfl
  simp only [parent?, hs] at h
  split at h
  · cases h
  · rw [← Option.some.inj h, isAbsolute, String.toList_ofList]
    rfl

theorem components_of_parent?_eq_none {path : String} (hp : isAbsolute path = true)
    (h : parent? path = none) : components path = [.root] := by
  obtain ⟨r, hr⟩ := List.head?_eq_some_iff.1 (of_decide_eq_true hp)
  have hs : splitHead path.toList = (['/'], r) := by rw [hr]; rfl
  simp only [parent?, hs] at h
  split at h
  · next hidle =>
    have hsolid : solid (splitSlash r) = [] := by rw [← solid_dropIdle, hidle]; rfl
    rw [components_of_splitHead hs, bodyComponents_eq, hsolid]
    rfl
  · cases h

end Path

namespace Files

variable {f : Files} {path : String}

theorem lookup_ne_file_of_components (hc : Path.components path = [.root]) (l : Location)
    (k : File) : f.lookup path ≠ .ok (l, .file k) := by
  intro h
  have habs : Path.isAbsolute path = true := Path.isAbsolute_iff.2 (by rw [hc]; rfl)
  obtain ⟨r, hr⟩ := List.head?_eq_some_iff.1 (of_decide_eq_true habs)
  have hdots : moving (segments path) = [] := by rw [moving_segments, hc]; rfl
  rw [lookup, resolve, resolveWith] at h
  cases hfault : pathFault? path with
  | some e => simp [hfault] at h
  | none =>
    simp only [hfault] at h
    cases hw : walk f.tree .behind mostLinks (f.start path) (endsInSlash path) (segments path) with
    | error e => simp [hw] at h
    | ok target =>
      by_cases hsegs : segments path = []
      · have hslash : endsInSlash path = true :=
          endsInSlash_of_segments_eq_nil hsegs (by rintro rfl; simp at hr)
        rw [hsegs, hslash, walk_nil] at hw
        cases hget : f.tree.get? (f.start path) with
        | none => simp [hget] at hw
        | some t =>
          cases t <;> simp [hget, Tree.isFolder] at hw
          simp [hsegs, hslash, walk_nil, hget, Tree.isFolder] at h
      · obtain ⟨s, rest, hcons⟩ := List.exists_cons_of_ne_nil hsegs
        have hfolder : f.tree.node? (f.start path) = some .folder := by
          rw [hcons] at hw
          exact folder_of_walk hw
        have hleads : Leads f.tree mostLinks (f.start path) (segments path) (f.start path) :=
          (Leads.done hfolder).congr (by rw [hdots]; rfl)
        obtain ⟨es, rfl⟩ := hleads.walk_eq_ok hw
        simp [hw] at h

def seenFrom (f : Files) (here : Location) : Files :=
  { f with cwd := here }

/-- A path leads to the same end from a directory as from the current one. -/
def SameFrom (f : Files) (here : Location) (path : String) : Prop :=
  ∀ ending, (f.seenFrom here).resolve ending path = f.resolve ending path

theorem sameFrom_of_start {here : Location} (h : (f.seenFrom here).start path = f.start path) :
    f.SameFrom here path := by
  intro ending
  rw [resolve, resolve, resolveWith, resolveWith, h]
  rfl

theorem pathFault?_of_join {dir : String} (hp : Path.isAbsolute path = false) (hne : path ≠ "")
    (h : pathFault? (Path.join dir path) = none) : pathFault? path = none := by
  rw [pathFault?_eq_none] at h ⊢
  obtain ⟨hnul, -, hsize⟩ := h
  have hsub : path.toList <:+ (Path.join dir path).toList := by
    rcases Path.join_of_relative dir hp with ⟨hj, -⟩ | hj
    · rw [hj, String.toList_append]
      exact List.suffix_append _ _
    · rw [hj, String.toList_append]
      exact List.suffix_append _ _
  refine ⟨fun hmem ↦ hnul (hsub.subset hmem), hne, ?_⟩
  obtain ⟨u, hu⟩ := hsub
  rw [utf8Size, ← hu, Text.utf8Length_append] at hsize
  rw [utf8Size]
  omega

theorem leads_of_lookup {dir : String} {d : Location} {es : List (String × Tree)}
    (h : f.lookup dir = .ok (d, .folder es)) : f.LeadsTo dir d := by
  rw [lookup, resolve, resolveWith] at h
  cases hfault : pathFault? dir with
  | some e => simp [hfault] at h
  | none =>
    simp only [hfault] at h
    cases hw : walk f.tree .behind mostLinks (f.start dir) (endsInSlash dir) (segments dir) with
    | error e => simp [hw] at h
    | ok target =>
      cases target with
      | absent l n => simp [hw] at h
      | present l t =>
        obtain ⟨rfl, rfl⟩ : l = d ∧ t = .folder es := by simpa [hw] using h
        exact leads_of_walk_behind hw

/-- A relative path leads from a directory where it leads behind that directory. -/
theorem resolve_seenFrom {dir : String} {here : Location} (hdir : f.LeadsTo dir here)
    (hp : Path.isAbsolute path = false) (hne : path ≠ "") {ending : Ending} {target : Target}
    (h : f.resolve ending (Path.join dir path) = .ok target) :
    (f.seenFrom here).resolve ending path = .ok target := by
  have hsegs : segments path ≠ [] := by
    intro hnil
    obtain ⟨c, s, hs⟩ := List.exists_cons_of_ne_nil (show path.toList ≠ [] by simpa using hne)
    have hc := eq_slash_of_segments_eq_nil hnil c (by simp [hs])
    rw [Path.isAbsolute, hs, hc] at hp
    cases hp
  have hstart : f.start (Path.join dir path) = f.start dir := by
    rw [start, start, isAbsolute_join_relative dir hp]
  have hhere : (f.seenFrom here).start path = here := by
    rw [start, hp]
    rfl
  rw [resolve, resolveWith, hstart, segments_join_relative dir hp,
    endsInSlash_join_relative dir hp hne] at h
  rw [resolve, resolveWith, hhere]
  cases hfault : pathFault? (Path.join dir path) with
  | some e => simp [hfault] at h
  | none =>
    simp only [hfault] at h
    simp only [pathFault?_of_join hp hne hfault]
    obtain ⟨m, hle, hm⟩ := Leads.walk_append_le hdir ending (endsInSlash path) hsegs
    rw [hm] at h
    exact walk_mono rfl id hle h

end Files

namespace CompileJob

variable {f : Files} {m : Manifest}

theorem ofManifest_ok {outFile : String} {j : CompileJob} (h : ofManifest f m outFile = .ok j) :
    j.directory = m.directory ∧ j.outFile = outFile ∧
      ∀ x ∈ j.sources, ∃ e ∈ m.exposes, x = m.sourcePath e ∧ f.isFile x = true := by
  obtain ⟨hfiles, rfl⟩ := ofManifest_eq_ok_iff.1 h
  refine ⟨rfl, rfl, fun x hx ↦ ?_⟩
  obtain ⟨e, he, rfl⟩ := List.mem_map.1 ((isFirstsOf_foldl _).mem_paths hx)
  exact ⟨e, he, rfl, hfiles e he⟩

end CompileJob

theorem Manifest.isAbsolute_directory {path : String} {m : Manifest} {w w' : World}
    (h : (load path).run w = (.ok m, w')) (hp : Path.isAbsolute path = true) :
    Path.isAbsolute m.directory = true := by
  obtain ⟨text, hread, hparse, -⟩ := load_ok h
  obtain ⟨hpath, -⟩ := parse_elsewhere hparse path
  rw [directory, hpath, Path.directory]
  cases hparent : Path.parent? path with
  | none =>
    obtain ⟨l, k, hl⟩ := Files.isFile_iff.1 (Files.isFile_of_readText hread)
    exact absurd hl
      (Files.lookup_ne_file_of_components (Path.components_of_parent?_eq_none hp hparent) l k)
  | some q =>
    have hq := Path.isAbsolute_of_parent? hp hparent
    have hne : q ≠ "" := by
      rintro rfl
      cases hq
    simpa [hne] using hq

/-- Absolute paths of a job are the same for the compiler, and so are all paths where it runs in the
current directory. Else it finds a relative path behind its own directory once more. -/
theorem CompileJob.sameFrom_directory {w w' : World} {path outFile : String} {m : Manifest}
    {j : CompileJob} {here : Location} (hload : (Manifest.load path).run w = (.ok m, w'))
    (hj : ofManifest w.files m outFile = .ok j)
    (hstart : Execution.startDirectory w.files (some j.directory) = .ok here) :
    (Path.isAbsolute path = true → ∀ x ∈ j.sources, w.files.SameFrom here x) ∧
    (Path.isAbsolute outFile = true → w.files.SameFrom here j.outFile) ∧
    (here = w.files.cwd → ∀ x ∈ j.outFile :: j.sources, w.files.SameFrom here x) ∧
    ∀ x ∈ j.outFile :: j.sources, Path.isAbsolute x = false → x ≠ "" → ∀ ending target,
      w.files.resolve ending (Path.join j.directory x) = .ok target →
        (w.files.seenFrom here).resolve ending x = .ok target := by
  obtain ⟨hdirectory, hout, hsources⟩ := ofManifest_ok hj
  have habsolute {x : String} (hx : Path.isAbsolute x = true) : w.files.SameFrom here x := by
    apply Files.sameFrom_of_start
    rw [Files.start, Files.start, if_pos hx, if_pos hx]
  refine ⟨fun hp x hx ↦ ?_, fun hp ↦ ?_, ?_, fun x _ hx hne ending target h ↦ ?_⟩
  · obtain ⟨e, -, rfl, -⟩ := hsources x hx
    apply habsolute
    exact Path.isAbsolute_join_of_base (Manifest.isAbsolute_directory hload hp) _
  · rw [hout]
    exact habsolute hp
  · rintro rfl x -
    exact fun _ ↦ rfl
  · have hleads : w.files.LeadsTo j.directory here := by
      rw [Execution.startDirectory] at hstart
      split at hstart
      · next l es hl =>
        obtain rfl := Except.ok.inj hstart
        exact Files.leads_of_lookup hl
      · cases hstart
      · cases hstart
    exact Files.resolve_seenFrom hleads hx hne h

section Example

def nestedText : String :=
  "\x7b\"name\":\"shop\",\"exposes\":\x7b\"Button\":\"Button.ts\"\x7d\x7d"

def nested : World where
  files := { tree := .folder [("pkg", .folder [
    ("federation.config.json", .file ⟨nestedText.toUTF8, none⟩),
    ("Button.ts", .file ⟨.empty, none⟩)])] }

theorem load_nested {path : String} {m : Manifest}
    (h : ((Manifest.load path).run nested).1 = .ok m) :
    (Manifest.load path).run nested = (.ok m, nested) := by
  have hsame := (Manifest.load_ok (Prod.ext h rfl)).choose_spec.2.2
  exact Prod.ext h hsame

theorem sameFrom_directory_nested :
    nested.files.SameFrom ["pkg"] "/pkg/Button.ts" ∧
      nested.files.SameFrom ["pkg"] "/types/shop.d.ts" := by
  have hload : (Manifest.load "/pkg/federation.config.json").run nested =
      (.ok ⟨"shop", [⟨"Button", "Button.ts"⟩], "/pkg/federation.config.json"⟩, nested) :=
    load_nested (by decide +kernel)
  have hj : CompileJob.ofManifest nested.files
      ⟨"shop", [⟨"Button", "Button.ts"⟩], "/pkg/federation.config.json"⟩ "/types/shop.d.ts" =
        .ok ⟨["/pkg/Button.ts"], "/pkg", "/types/shop.d.ts", {}⟩ := by
    decide +kernel
  obtain ⟨hsources, hout, -⟩ := CompileJob.sameFrom_directory hload hj rfl
  exact ⟨hsources (by decide) _ (by simp), hout (by decide)⟩

/-- A compiler that runs in `pkg` looks for `pkg/Button.ts` in `pkg/pkg`. -/
theorem source_elsewhere : ¬ ∀ (w w' : World) (path outFile : String) (m : Manifest)
    (j : CompileJob) (here : Location), (Manifest.load path).run w = (.ok m, w') →
      CompileJob.ofManifest w.files m outFile = .ok j →
        Execution.startDirectory w.files (some j.directory) = .ok here →
          ∀ x ∈ j.outFile :: j.sources, w.files.SameFrom here x := by
  intro h
  have hload : (Manifest.load "pkg/federation.config.json").run nested =
      (.ok ⟨"shop", [⟨"Button", "Button.ts"⟩], "pkg/federation.config.json"⟩, nested) :=
    load_nested (by decide +kernel)
  have hj : CompileJob.ofManifest nested.files
      ⟨"shop", [⟨"Button", "Button.ts"⟩], "pkg/federation.config.json"⟩ "/types/shop.d.ts" =
        .ok ⟨["pkg/Button.ts"], "pkg", "/types/shop.d.ts", {}⟩ := by
    decide +kernel
  have hsame := h _ _ _ _ _ _ ["pkg"] hload hj rfl "pkg/Button.ts" (by simp) .behind
  have hhere : (nested.files.resolve .behind "pkg/Button.ts").isOk = true := by decide +kernel
  have hthere : ((nested.files.seenFrom ["pkg"]).resolve .behind "pkg/Button.ts").isOk = false := by
    decide +kernel
  rw [hsame, hhere] at hthere
  cases hthere

end Example

end AmbientTypes
