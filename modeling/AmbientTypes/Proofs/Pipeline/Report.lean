import AmbientTypes.Proofs.Bundle.Renaming
import AmbientTypes.Proofs.Bundle.SharedNames
import AmbientTypes.Proofs.Pipeline.Leftovers
import AmbientTypes.Proofs.SharedFolder.Placing

namespace AmbientTypes

open SharedFolder (HasOwnIndex Lists Told)

namespace Plan

variable {p : Plan} {m : Manifest} {c : Compiler} {w w' : World}

theorem run_placed {s : RunSummary} {placement : Placement} {names : Renaming}
    (h : (p.run c).run w = (.ok s, w')) (ho : s.outcome = .placed placement names) :
    ∃ m v ok bundle u, p.manifest.run w = (.ok m, v) ∧ s.manifestPath = m.path ∧ s.name = m.name ∧
      (p.compile m c).run v = (.ok ⟨ok, s.messages, some bundle⟩, u) ∧
      (p.place m bundle).run u = (.ok (names, placement), w') := by
  obtain ⟨m, v, hm, h⟩ := Action.run_bind_ok h
  obtain ⟨⟨ok, messages, bundle?⟩, u, hc, h⟩ := Action.run_bind_ok h
  cases bundle? with
  | none =>
    obtain ⟨hs, -⟩ := Prod.mk.inj h
    obtain rfl := Except.ok.inj hs
    cases ho
  | some bundle =>
    obtain ⟨⟨names', placement'⟩, u', hplace, h⟩ := Action.run_bind_ok h
    obtain ⟨hs, rfl⟩ := Prod.mk.inj h
    obtain rfl := Except.ok.inj hs
    obtain ⟨rfl, rfl⟩ := RunOutcome.placed.inj ho
    exact ⟨m, v, ok, bundle, u, hm, rfl, rfl, hc, hplace⟩

theorem place_ok {bundle : String} {names : Renaming} {placement : Placement}
    (h : (p.place m bundle).run w = (.ok (names, placement), w')) :
    names = (PublicBundle.ofBundle m bundle).names ∧ names.isBuildable p.patternSize = true ∧
      ∃ v, v.files = w.files ∧
        (SharedFolder.place p.sharedDir m.name (PublicBundle.ofBundle m bundle).text).run v =
          (.ok placement, w') := by
  obtain ⟨v, hfiles, hrun⟩ := run_place p m bundle w
  rw [hrun] at h
  split at h
  · next hbuilt =>
    obtain ⟨placement', u, hplace, h⟩ := Action.run_bind_ok h
    obtain ⟨hresult, rfl⟩ := Prod.mk.inj h
    obtain ⟨rfl, rfl⟩ := Prod.mk.inj (Except.ok.inj hresult)
    exact ⟨rfl, hbuilt, v, hfiles, hplace⟩
  · cases h

/-- The modules of a bundle under their public names, in the order of their first appearance. -/
theorem entries_ofBundle (m : Manifest) (bundle : String) :
    (PublicBundle.ofBundle m bundle).names.entries =
      ((Header.scan bundle).map (·.identifier)).eraseDups.map fun id ↦
        (id, Renaming.publicName m id) := by
  rw [← Header.distinct_eq]
  exact Renaming.entries_ofIdentifiers m (Header.nodup_distinct _)

/-- What a run says of its manifest, its modules and the shared directory is so, as long as the
index is not one of the other files that it placed. -/
theorem told_of_run {s : RunSummary} {placement : Placement} {names : Renaming}
    (h : (p.run c).run w = (.ok s, w')) (ho : s.outcome = .placed placement names)
    (hown : HasOwnIndex p.sharedDir s.name w'.files) :
    ∃ m v ok bundle u f d, (p.manifestPath.run w).1 = .ok s.manifestPath ∧
      p.manifest.run w = (.ok m, v) ∧ m.path = s.manifestPath ∧ m.name = s.name ∧
      (p.compile m c).run v = (.ok ⟨ok, s.messages, some bundle⟩, u) ∧
      names.entries = ((Header.scan bundle).map (·.identifier)).eraseDups.map (fun id ↦
        (id, Renaming.publicName m id)) ∧
      u.files.Makes p.sharedDir f d ∧ w'.files.LeadsTo p.sharedDir d ∧
      Told placement p.sharedDir s.name (names.substitute bundle) f d w'.files ∧
      (∃ contents, w'.files.readText placement.indexPath = .ok contents ∧
        ("export * from './" ++ s.name ++ "';").toList <:+: contents.toList) ∧
      (holdsTypePackages p.sharedDir = true → w'.files.tree.node? (d ++ [stubName]) ≠ none) := by
  obtain ⟨m, v, ok, bundle, u, hm, hpath, hname, hc, hp⟩ := run_placed h ho
  obtain ⟨v₀, text, hfind, -⟩ := p.manifest_ok hm
  have ha := p.isAccepted_of_manifest hm
  obtain ⟨rfl, -, u', hfiles, hplace⟩ := place_ok hp
  obtain ⟨f, d, f₁, f₂, i, e, contents, hmakes, hstages⟩ := SharedFolder.place_stages ha hplace
  rw [hname] at hown ⊢
  have hd := hstages.leadsTo_after
  obtain ⟨k, hindex, -⟩ := hstages.index.lookup_after
  obtain ⟨hdecl, hstub⟩ := hown d _ _ hd hindex
  have htold := hstages.told ha hdecl hstub
  refine ⟨m, v, ok, bundle, u, f, d, by rw [hfind, hpath], hm, hpath.symm, rfl, hc,
    entries_ofBundle m bundle, hfiles ▸ hmakes, hd, htold, htold.index.lists, htold.stub.exists⟩

section Example

def buttonCompiler : Compiler :=
  CompilerProgram.toCompiler (leaving "types/shop.d.ts" button.toUTF8) ⟨"tsc", []⟩

def published (w : World) : Except Failure RunSummary × World :=
  (shopPlan.run buttonCompiler).run w

def buttonNames : Renaming := ⟨[("Button", "shop/Button")]⟩

def shopPlacement (c : IndexChange) : Placement :=
  ⟨"types/shop.d.ts", "types/index.d.ts", c, "types/package.json", .notApplicable⟩

def shopSummary (c : IndexChange) : RunSummary :=
  ⟨"shop.json", "shop", [], .placed (shopPlacement c) buttonNames⟩

theorem published_shop : (published shop).1 = .ok (shopSummary .created) := by
  decide +kernel

theorem told_of_run_shop :
    HasOwnIndex "types" "shop" (published shop).2.files ∧
      ∃ bundle f d, Told (shopPlacement .created) "types" "shop" (buttonNames.substitute bundle) f d
        (published shop).2.files := by
  have hown : HasOwnIndex "types" "shop" (published shop).2.files := by
    intro d l t hd hl
    have hthere : ((published shop).2.files.lookup (Path.join "types" indexName)).toOption.map
        (·.1) = some (["types"] ++ [indexName]) := by
      decide +kernel
    rw [hl] at hthere
    obtain rfl := Option.some.inj hthere
    constructor
    · intro h
      exact absurd (List.append_inj_right' h rfl) (by decide)
    · intro h
      exact absurd (List.append_inj_right' h rfl) (by decide)
  obtain ⟨-, -, -, bundle, -, f, d, -, -, -, -, -, -, -, -, htold, -⟩ :=
    told_of_run (Action.run_eq_of_fst published_shop) rfl hown
  exact ⟨hown, bundle, f, d, htold⟩

/-- An index that is a link to the declarations of the package. -/
def linkedIndex : World where
  files := { tree := .folder [
    ("shop.json", .file ⟨"\x7b\"name\":\"shop\"\x7d".toUTF8, none⟩),
    ("types", .folder [("index.d.ts", .link "shop.d.ts")])] }

/-- The same in a directory of type packages, where the index is a link to their description. -/
def describedIndex : World where
  files := { tree := .folder [
    ("shop.json", .file ⟨"\x7b\"name\":\"shop\"\x7d".toUTF8, none⟩),
    ("node_modules", .folder [("@types", .folder
      [("shared", .folder [("index.d.ts", .link "package.json")])])])] }

def typesPlan : Plan := { shopPlan with sharedDir := "node_modules/@types/shared" }

def typesCompiler : Compiler :=
  CompilerProgram.toCompiler (leaving "node_modules/@types/shared/shop.d.ts" button.toUTF8)
    ⟨"tsc", []⟩

def typesPlacement : Placement :=
  ⟨"node_modules/@types/shared/shop.d.ts", "node_modules/@types/shared/index.d.ts", .appended,
    "node_modules/@types/shared/package.json", .created⟩

/-- Where the index leads to another file that is placed, its line is added to that one: behind the
declarations, or behind a description that is as new as the index. -/
theorem line_in_other_file :
    (¬ ∀ (p : Plan) (c : Compiler) (w v u w' : World) (s : RunSummary) (placement : Placement)
      (names : Renaming) (m : Manifest) (bundle : String), (p.run c).run w = (.ok s, w') →
        s.outcome = .placed placement names → p.manifest.run w = (.ok m, v) →
          (p.compile m c).run v = (.ok ⟨true, s.messages, some bundle⟩, u) →
            w'.files.readText (p.declarationPath s.name) = .ok (names.substitute bundle)) ∧
    ¬ ∀ (p : Plan) (c : Compiler) (w v u w' : World) (s : RunSummary) (placement : Placement)
      (names : Renaming) (m : Manifest) (bundle : String), (p.run c).run w = (.ok s, w') →
        s.outcome = .placed placement names → p.manifest.run w = (.ok m, v) →
          (p.compile m c).run v = (.ok ⟨true, s.messages, some bundle⟩, u) →
            placement.indexChange = .appended → u.files.pathExists placement.indexPath = true := by
  constructor
  · intro h
    have hrun : (published linkedIndex).1 = .ok (shopSummary .appended) := by decide +kernel
    have hmanifest : (shopPlan.manifest.run linkedIndex).1 = .ok shopManifest := by decide +kernel
    have hcompile : ((shopPlan.compile shopManifest buttonCompiler).run
        (shopPlan.manifest.run linkedIndex).2).1 = .ok ⟨true, [], some button⟩ := by
      decide +kernel
    have htext := h _ _ _ _ _ _ _ _ _ _ _ (Action.run_eq_of_fst hrun) rfl
      (Action.run_eq_of_fst hmanifest) (Action.run_eq_of_fst hcompile)
    exact absurd htext (by decide +kernel)
  · intro h
    have hrun : ((typesPlan.run typesCompiler).run describedIndex).1 =
        .ok ⟨"shop.json", "shop", [], .placed typesPlacement buttonNames⟩ := by
      decide +kernel
    have hmanifest : (typesPlan.manifest.run describedIndex).1 = .ok shopManifest := by
      decide +kernel
    have hcompile : ((typesPlan.compile shopManifest typesCompiler).run
        (typesPlan.manifest.run describedIndex).2).1 = .ok ⟨true, [], some button⟩ ∧
        ((typesPlan.compile shopManifest typesCompiler).run
          (typesPlan.manifest.run describedIndex).2).2.files.pathExists
            typesPlacement.indexPath = false := by
      decide +kernel
    have hthere := h _ _ _ _ _ _ _ _ _ _ _ (Action.run_eq_of_fst hrun) rfl
      (Action.run_eq_of_fst hmanifest) (Action.run_eq_of_fst hcompile.1) rfl
    exact absurd (hcompile.2.symm.trans hthere) (by decide)

end Example

end Plan

end AmbientTypes
