import AmbientTypes.Proofs.Pipeline.History

namespace AmbientTypes

open Manifest (IsAccepted)

variable {w w' : World}

namespace SharedFolder

variable {dir name text : String}

/-- A merge that fails over declarations that were there has replaced them before, unless no
temporary file can be made beside them. -/
theorem place_error_of_isLeaf (ha : IsAccepted name) {d : Location}
    (hleaf : w.files.IsLeaf dir (declarationName name) d) {e : Failure}
    (h : (place dir name text).run w = (.error e, w')) :
    w'.files.readText (Path.join dir (declarationName name)) = .ok text ∨
      w'.files = w.files ∧ ∃ t why,
        e = .makingTemporary (Path.directory (Path.join dir (declarationName name))) t why := by
  have hs := isName_declarationName ha
  rw [place, if_neg (by rw [not_same_indexName ha]; decide)] at h
  rcases Action.run_bind_error h with h | ⟨path, w₁, h₁, h⟩
  · rcases Action.run_bind_error h with h | ⟨_, v, -, h⟩
    · exact .inr (Storage.replaceFile_error_of_isLeaf hs hleaf h)
    · rw [Action.run_log_bind, Action.run_pure] at h
      cases h
  refine .inl ?_
  obtain ⟨f, e', hmakes, -, hsets₁⟩ := placeDeclarations_ok ha h₁
  obtain ⟨rfl, rfl⟩ := hmakes.eq hleaf.leadsTo
  have hd₁ := hleaf.leadsTo_sets hs hsets₁
  rcases Action.run_bind_error h with h | ⟨stub, w₂, h₂, h⟩
  · have halike := (placeStubIfWanted_error h).alike e' hd₁
    exact Files.readText_join hs (hd₁.grows halike.grows) hleaf.fits
      ((halike.node _).trans hsets₁.self)
  obtain ⟨hsets₂, hd₂, -⟩ := placeStubIfWanted_ok hd₁ h₂
  rcases Action.run_bind_error h with h | ⟨index, w₃, -, h⟩
  · have halike := (addToIndex_error h).alike e' hd₂
    refine Files.readText_join hs (hd₂.grows halike.grows) hleaf.fits ?_
    rw [halike.node, hsets₂.of_ne (by simpa using declarationName_ne_stubName name), hsets₁.self]
  · cases h

end SharedFolder

namespace Plan

variable {p : Plan} {launch : Launcher} {c : CompilerProgram} {m : Manifest}

/-- Whether the compiler of a run gets to its end: for which manifest, and what it leaves. -/
inductive Compiles (p : Plan) (launch : Launcher) (c : CompilerProgram) (w : World) :
    Manifest → World → Prop
  | intro {m : Manifest} {j : CompileJob} {o : ProcessOutput} {loaded cleared after : World}
      (hmanifest : p.manifest.run w = (.ok m, loaded))
      (hjob : (p.job m).run loaded = (.ok j, loaded))
      (hstale : (CompilerProgram.removeStale j.outFile).run loaded = (.ok (), cleared))
      (hlaunch : (Action.launch launch .startingCompiler (c.commandLine j)).run cleared =
        (.ok o, after)) : Compiles p launch c w m after

/-- What a path holds is the bundle of a compiler under the public names of its modules. -/
def HoldsPublic (m : Manifest) (path : String) (after f : Files) : Prop :=
  ∃ bundle, after.readText path = .ok bundle ∧
    f.readText path = .ok (PublicBundle.ofBundle m bundle).text

theorem place_error_of_isFile (ha : IsAccepted m.name) {bundle : String}
    (hfile : w.files.isFile (p.declarationPath m.name) = true) {e : Failure}
    (h : (p.place m bundle).run w = (.error e, w')) :
    w'.files.readText (p.declarationPath m.name) = .ok (PublicBundle.ofBundle m bundle).text ∨
      w'.files = w.files ∧
        ((PublicBundle.ofBundle m bundle).names.isBuildable p.patternSize = false ∧
            e = .patternTooLarge Renaming.largestPattern ∨
          ∃ t why, e = .makingTemporary (Path.directory (p.declarationPath m.name)) t why) := by
  obtain ⟨d, hleaf⟩ := Files.isLeaf_of_isFile (isName_declarationName ha) hfile
  obtain ⟨v, hfiles, hrun⟩ := run_place p m bundle w
  rw [hrun] at h
  rw [← hfiles] at hleaf ⊢
  split at h
  · rcases Action.run_bind_error h with h | ⟨placement, u, -, h⟩
    · exact (SharedFolder.place_error_of_isLeaf ha hleaf h).imp_right (And.imp_right .inr)
    · cases h
  · next hbuilt =>
    obtain ⟨he, rfl⟩ := Prod.mk.inj h
    exact .inr ⟨rfl, .inl ⟨Bool.eq_false_iff.2 hbuilt, (Except.error.inj he).symm⟩⟩

/-- A run fails with its compilation or over a bundle. -/
theorem run_error {compiler : Compiler} {loaded : World} {e : Failure}
    (hmanifest : p.manifest.run w = (.ok m, loaded))
    (h : (p.run compiler).run w = (.error e, w')) :
    (p.compile m compiler).run loaded = (.error e, w') ∨
      ∃ ok messages bundle u,
        (p.compile m compiler).run loaded = (.ok ⟨ok, messages, some bundle⟩, u) ∧
        (p.place m bundle).run u = (.error e, w') := by
  rw [run, Action.run_bind, hmanifest] at h
  rcases Action.run_bind_error h with hc | ⟨⟨ok, messages, bundle?⟩, u, hc, h⟩
  · exact .inl hc
  · cases bundle? with
    | none => cases h
    | some bundle =>
      rcases Action.run_bind_error h with hp | ⟨placed, v, -, h⟩
      · exact .inr ⟨ok, messages, bundle, u, hc, hp⟩
      · cases h

/-- Why a run leaves the bundle as its compiler left it: that is no text, its modules have no
pattern, or no temporary file can be made beside it. -/
inductive Strands (p : Plan) (m : Manifest) (after : Files) : Failure → Prop
  | unread (hread : after.readText (p.declarationPath m.name) = .error .invalidText) :
      Strands p m after (.readingFile (p.declarationPath m.name) .invalidText)
  | unbuildable {bundle : String} (hread : after.readText (p.declarationPath m.name) = .ok bundle)
      (hbuilt : (PublicBundle.ofBundle m bundle).names.isBuildable p.patternSize = false) :
      Strands p m after (.patternTooLarge Renaming.largestPattern)
  | unreplaced {bundle : String} (hread : after.readText (p.declarationPath m.name) = .ok bundle)
      (temporary : String) (e : SysError) :
      Strands p m after
        (.makingTemporary (Path.directory (p.declarationPath m.name)) temporary e)

/-- Where the pattern gets too large, what the compiler left stays. -/
theorem run_of_not_isBuildable {compiler : Compiler} {loaded u : World} {ok : Bool}
    {messages : List CompilerMessage} {bundle : String}
    (hmanifest : p.manifest.run w = (.ok m, loaded))
    (hc : (p.compile m compiler).run loaded = (.ok ⟨ok, messages, some bundle⟩, u))
    (hbuilt : (PublicBundle.ofBundle m bundle).names.isBuildable p.patternSize = false) :
    ∃ w', (p.run compiler).run w = (.error (.patternTooLarge Renaming.largestPattern), w') ∧
      w'.files = u.files := by
  obtain ⟨v, hfiles, hplace⟩ := run_place p m bundle u
  rw [if_neg (by rw [hbuilt]; decide)] at hplace
  refine ⟨v, ?_, hfiles⟩
  rw [run, Action.run_bind, hmanifest]
  simp only [Action.run_bind, hc, hplace]

section Example

def leaving (path : String) (bytes : ByteArray) : Launcher := fun _ w ↦
  (.ok ⟨some 0, .empty, .empty⟩,
    { w with files := (w.files.writeBytes path bytes).toOption.getD w.files })

def shopBeside (index : ByteArray) : World where
  files := { tree := .folder [
    ("shop.json", .file ⟨"\x7b\"name\":\"shop\"\x7d".toUTF8, none⟩),
    ("types", .folder [("index.d.ts", .file ⟨index, none⟩)])] }

def shopManifest : Manifest := ⟨"shop", [], "shop.json"⟩

def shopJob : CompileJob := ⟨[], shopManifest.directory, shopPlan.declarationPath "shop", {}⟩

def noText : ByteArray := ⟨#[255]⟩

def button : String := "declare module \"Button\" \x7b\x7d\n"

def left (index bytes : ByteArray) : World :=
  ((Action.launch (leaving "types/shop.d.ts" bytes) .startingCompiler
    (CompilerProgram.commandLine ⟨"tsc", []⟩ shopJob)).run
      ((CompilerProgram.removeStale shopJob.outFile).run
        (shopPlan.manifest.run (shopBeside index)).2).2).2

def failed (index bytes : ByteArray) : Except Failure RunSummary × World :=
  (shopPlan.run (CompilerProgram.toCompiler (leaving "types/shop.d.ts" bytes) ⟨"tsc", []⟩)).run
    (shopBeside index)

theorem shop_compiles (index bytes : ByteArray)
    (hmanifest : (shopPlan.manifest.run (shopBeside index)).1 = .ok shopManifest)
    (hstale : ((CompilerProgram.removeStale shopJob.outFile).run
      (shopPlan.manifest.run (shopBeside index)).2).1 = .ok ()) :
    shopPlan.Compiles (leaving "types/shop.d.ts" bytes) ⟨"tsc", []⟩ (shopBeside index) shopManifest
      (left index bytes) := by
  have hjob (w : World) : (shopPlan.job shopManifest).run w = (.ok shopJob, w) := by
    rw [run_job]
    rfl
  have hlaunch (w : World) : ((Action.launch (leaving "types/shop.d.ts" bytes) .startingCompiler
      (CompilerProgram.commandLine ⟨"tsc", []⟩ shopJob)).run w).1 =
        .ok ⟨some 0, .empty, .empty⟩ := by
    rw [Action.run_launch]
    rfl
  exact .intro (Prod.ext hmanifest rfl) (hjob _) (Prod.ext hstale rfl) (Prod.ext (hlaunch _) rfl)

theorem isName_shop : Path.IsName (declarationName "shop") :=
  isName_declarationName (Manifest.nameFault?_eq_none.1 (by decide))

end Example

end Plan

end AmbientTypes
