import AmbientTypes.Proofs.SharedFolder.Placing

namespace AmbientTypes.SharedFolder

open Manifest (IsAccepted)

variable {dir name text : String} {d : Location} {w : World}

theorem placeStubIfWanted_again (hd : w.files.LeadsTo dir d)
    (hfits : holdsTypePackages dir = true → Files.Fits dir stubName)
    (hthere : holdsTypePackages dir = true → w.files.tree.node? (d ++ [stubName]) ≠ none) :
    ∃ c v, (placeStubIfWanted dir).run w = (.ok c, v) ∧ v.files = w.files ∧ c ≠ .created := by
  by_cases htypes : holdsTypePackages dir = true
  · have hrequire := Storage.requireFolder_of_fits isName_stubName (hfits htypes) hd
    have hcreate :
        (Storage.createFile (Path.join dir stubName) stubText).run w = (.ok false, w) := by
      rw [Storage.run_createFile, Files.createNew_join isName_stubName hd (hfits htypes),
        if_neg (hthere htypes)]
    rw [placeStubIfWanted, if_pos htypes, placeStub, Action.run_bind, hrequire]
    simp only [Action.run_bind, hcreate, Bool.false_eq_true, if_false, Action.run_log]
    exact ⟨_, _, rfl, rfl, by simp⟩
  · rw [placeStubIfWanted, if_neg htypes, Action.run_log_bind, Action.run_pure]
    exact ⟨_, _, rfl, rfl, by simp⟩

theorem addToIndex_again {f g : Files} {i : Location} {s contents : String} {c : IndexChange}
    (h : Adds (Path.join dir indexName) name f i s contents c g) (hw : g.Alike w.files)
    {s' : String} (hs : Path.IsName s') (hfits : Files.Fits dir s') (hd : w.files.LeadsTo dir d) :
    ∃ v, (addToIndex dir name).run w = (.ok .unchanged, v) ∧ v.files = w.files := by
  obtain ⟨bytes, h₀, hopen, -⟩ := h.opens
  obtain ⟨k, hsets, hbytes⟩ := h.sets
  have hagain := Files.openOrCreate_again hopen (hsets.congr_right hw)
  have hindex : (openIndex (Path.join dir indexName)).run w = (.ok (i ++ [s], k.bytes), w) := by
    rw [run_openIndex, hagain]
  have htext : Text.ofUtf8? k.bytes =
      some (contents ++ (indexAddition? contents name).getD "") := by
    rw [hbytes, Text.ofUtf8?_toUTF8]
  have hnothing :
      indexAddition? (contents ++ (indexAddition? contents name).getD "") name = none := by
    rw [indexAddition?_eq, if_pos (lists_added contents name)]
  rw [addToIndex, Action.run_bind, Storage.requireFolder_of_fits hs hfits hd]
  simp only [Action.run_bind, Action.run_files, hindex, htext, hnothing, Action.run_log]
  exact ⟨_, rfl, rfl⟩

/-- What merges of a package write: its declarations, the description where one is wanted, and the
index, wherever links lead from there. -/
def IsPublished (dir name : String) (g : Files) (l : Location) : Prop :=
  (∃ d, g.LeadsTo dir d ∧ (l = d ++ [declarationName name] ∨
    holdsTypePackages dir = true ∧ l = d ++ [stubName])) ∨
  ∃ t, g.lookup (Path.join dir indexName) = .ok (l, t)

/-- Names that no new file is to have: that of the manifests, and those of temporary files. -/
def IsReserved (fileName s : String) : Prop :=
  s = fileName ∨ ∃ j, s = Files.temporaryName j

theorem not_isReserved_indexName {fileName : String}
    (hsuffix : ¬ ".d.ts".toList <:+ fileName.toList) : ¬ IsReserved fileName indexName := by
  rintro (rfl | ⟨j, hj⟩)
  · exact hsuffix (by decide)
  · exact indexName_ne_temporaryName j hj

def LinkedIndex (dir : String) (f g : Files) (l : Location) : Prop :=
  ∃ d t u, g.LeadsTo dir d ∧ f.tree.node? (d ++ [indexName]) = some (.link t) ∧
    g.lookup (Path.join dir indexName) = .ok (l, u)

/-- Links before a merge that are out of its way: the declarations are none, and an index that is
one leads neither to them nor to a new file of a reserved name. -/
structure LinksApart (dir name fileName : String) (f g : Files) : Prop where
  declarations : f.NotLinked dir (declarationName name)
  index : ∀ d, g.LeadsTo dir d → ¬ LinkedIndex dir f g (d ++ [declarationName name])
  names : ∀ i s, LinkedIndex dir f g (i ++ [s]) → f.tree.node? (i ++ [s]) = none →
    ¬ IsReserved fileName s

namespace Stages

variable {f f₁ f₂ g : Files} {i : Location} {s contents : String} {p : Placement}

theorem isPublished_declarations (h : Stages dir name text f d f₁ f₂ i s contents p g) :
    IsPublished dir name g (d ++ [declarationName name]) :=
  .inl ⟨d, h.leadsTo_after, .inl rfl⟩

theorem isPublished_index (h : Stages dir name text f d f₁ f₂ i s contents p g) :
    IsPublished dir name g (i ++ [s]) := by
  obtain ⟨k, hk, -⟩ := h.index.lookup_after
  exact .inr ⟨_, hk⟩

theorem publishes_before (h : Stages dir name text f d f₁ f₂ i s contents p g)
    (hdecl : f.tree.node? (d ++ [declarationName name]) = none ∨
      ∃ k, f.tree.node? (d ++ [declarationName name]) = some (.file k)) :
    f.Publishes (IsPublished dir name g) f₂ := by
  refine .trans (.of_sets h.declarations h.isPublished_declarations hdecl) ?_
  obtain ⟨after, hsets, htold⟩ := h.stub
  generalize p.stubChange = c at htold
  cases htold with
  | created htypes hnone =>
    exact .of_sets hsets (.inl ⟨d, h.leadsTo_after, .inr ⟨htypes, rfl⟩⟩) (.inl hnone)
  | alreadyPresent => exact .of_grows (hsets.alike rfl).grows
  | notApplicable => exact .of_grows (hsets.alike rfl).grows

theorem publishes_index (h : Stages dir name text f d f₁ f₂ i s contents p g) :
    f₂.Publishes (IsPublished dir name g) g := by
  obtain ⟨k, hsets, -⟩ := h.index.sets
  refine .of_sets hsets h.isPublished_index ?_
  rcases h.index.node with ⟨k, hk, -⟩ | ⟨hnone, -⟩
  · exact .inr ⟨k, hk⟩
  · exact .inl hnone

theorem index_eq (h : Stages dir name text f d f₁ f₂ i s contents p g)
    (hlink : ∀ t, f₂.tree.node? (d ++ [indexName]) ≠ some (.link t)) :
    i ++ [s] = d ++ [indexName] := by
  obtain ⟨bytes, h₀, hopen, -⟩ := h.index.opens
  obtain ⟨target, hr, hl, -⟩ := Files.resolve_of_openOrCreate hopen
  rw [Files.resolve_join isName_indexName] at hr
  have hnone : Ending.file.follows = true → ∀ e, f₂.LeadsTo dir e →
      ∀ t, f₂.tree.node? (e ++ [indexName]) ≠ some (.link t) := by
    intro _ e he
    rwa [he.unique h.leadsTo]
  obtain ⟨-, e, he, rfl⟩ := (Files.resolveWith_join isName_indexName .file hnone).1 hr
  rw [← hl, Files.location_child, he.unique h.leadsTo]

/-- Where links are out of its way, the index is a file of its own, and not a new one of a reserved
name. -/
theorem index_apart (h : Stages dir name text f d f₁ f₂ i s contents p g) (ha : IsAccepted name)
    {fileName : String} (hfile : ¬ IsReserved fileName indexName) {e : Files}
    {P : Location → Prop} (hlinks : LinksApart dir name fileName e g) (hpub : e.Publishes P f₂) :
    i ++ [s] ≠ d ++ [declarationName name] ∧
      (e.tree.node? (i ++ [s]) = none → ¬ IsReserved fileName s) := by
  obtain ⟨k, hk, -⟩ := h.index.lookup_after
  by_cases hlink : ∃ t, e.tree.node? (d ++ [indexName]) = some (.link t)
  · obtain ⟨t, ht⟩ := hlink
    have hleads : LinkedIndex dir e g (i ++ [s]) := ⟨d, t, _, h.leadsTo_after, ht, hk⟩
    exact ⟨fun heq ↦ hlinks.index d h.leadsTo_after (heq ▸ hleads), hlinks.names i s hleads⟩
  · have hindex := h.index_eq fun t ht ↦ hlink ⟨t, hpub.link_before ht⟩
    obtain ⟨rfl, hname⟩ := List.append_inj' hindex rfl
    obtain rfl := List.cons.inj hname |>.1
    exact ⟨by simpa using (declarationName_ne_indexName ha).symm, fun _ ↦ hfile⟩

theorem node?_declarations_after (h : Stages dir name text f d f₁ f₂ i s contents p g)
    (hindex : i ++ [s] ≠ d ++ [declarationName name]) :
    g.tree.node? (d ++ [declarationName name]) = some (.file ⟨text.toUTF8, none⟩) := by
  obtain ⟨k, hsets, -⟩ := h.index.sets
  rw [hsets.of_ne hindex.symm, h.node?_declarations]

theorem stub_exists (h : Stages dir name text f d f₁ f₂ i s contents p g)
    (htypes : holdsTypePackages dir = true) : g.tree.node? (d ++ [stubName]) ≠ none := by
  obtain ⟨k, hsets, -⟩ := h.index.sets
  rw [hsets.node]
  split
  · simp
  · exact h.stubTold.exists htypes

/-- The name of the temporary file is free again, for the index is not a new file of that name. -/
theorem canReplace_again (h : Stages dir name text f d f₁ f₂ i s contents p g)
    (hnew : f₂.tree.node? (i ++ [s]) = none → ∀ j, s ≠ Files.temporaryName j) {v : Files} {k : File}
    (hv : Files.Sets g d (declarationName name) (some (.file k)) v) :
    Storage.CanReplace dir (declarationName name) d v := by
  obtain ⟨hfits, -, j, hj, hfree, hroom⟩ := h.canReplace
  obtain ⟨k', hsets, -⟩ := h.index.sets
  refine ⟨hfits, by simp [hv.self], j, hj, ?_, hroom⟩
  have hfree₂ : f₂.tree.node? (d ++ [Files.temporaryName j]) = none := by
    rw [h.node?_of_ne (by simpa using (declarationName_ne_temporaryName name j).symm)
      (by simpa using (stubName_ne_temporaryName j).symm), hfree]
  have hindex : d ++ [Files.temporaryName j] ≠ i ++ [s] := by
    intro heq
    rw [heq] at hfree₂
    have hname := List.append_inj_right' heq rfl
    exact hnew hfree₂ j (by simpa using hname.symm)
  rw [hv.of_ne (by simpa using (declarationName_ne_temporaryName name j).symm),
    hsets.of_ne hindex, hfree₂]

/-- Once a package is in its place, placing it again changes nothing, even if its declarations were
written over in between. -/
theorem place_again (ha : IsAccepted name) (h : Stages dir name text f d f₁ f₂ i s contents p g)
    (hindex : i ++ [s] ≠ d ++ [declarationName name])
    (hnew : f₂.tree.node? (i ++ [s]) = none → ∀ j, s ≠ Files.temporaryName j) {k : File}
    (hw : Files.Sets g d (declarationName name) (some (.file k)) w.files) :
    ∃ p' v, (place dir name text).run w = (.ok p', v) ∧ g.Alike v.files ∧
      p'.indexChange = .unchanged ∧ p'.stubChange ≠ .created := by
  have hs := isName_declarationName ha
  have hdecl := h.node?_declarations_after hindex
  have hd : w.files.LeadsTo dir d :=
    hw.leadsTo (by simp [hdecl]) (by simp [hdecl]) h.leadsTo_after
  obtain ⟨v, hv⟩ : ∃ v, (Storage.replaceFile (Path.join dir (declarationName name)) text).run w =
      (.ok (), v) :=
    Storage.replaceFile_succeeds hs hd (h.canReplace_again hnew hw)
  obtain ⟨f', d', hmakes, -, hsets⟩ := Storage.replaceFile_ok hs hv
  obtain ⟨rfl, rfl⟩ := hmakes.eq hd
  have halike : g.Alike v.files := (hw.trans hsets).alike hdecl
  -- From here on the directory is what it was when the merge had ended.
  have hd₁ := h.leadsTo_after.grows halike.grows
  obtain ⟨placed, v₁, hplaced, hv₁⟩ : ∃ path v₁, (placeDeclarations dir name text).run w =
      (.ok path, v₁) ∧ v₁.files = v.files := by
    rw [placeDeclarations]
    simp only [Action.run_bind, hv, Action.run_log]
    exact ⟨_, _, rfl, rfl⟩
  rw [← hv₁] at halike hd₁
  obtain ⟨c, v₂, hstub, hv₂, hc⟩ := placeStubIfWanted_again hd₁ h.stubFits fun htypes ↦ by
    rw [halike.node]
    exact h.stub_exists htypes
  rw [← hv₂] at halike hd₁
  obtain ⟨v₃, hadded, hv₃⟩ := addToIndex_again h.index halike hs h.canReplace.fits hd₁
  rw [← hv₃] at halike
  refine ⟨⟨placed, Path.join dir indexName, .unchanged, Path.join dir stubName, c⟩, v₃, ?_, halike,
    rfl, hc⟩
  rw [place, if_neg (by rw [not_same_indexName ha]; decide), Action.run_bind, hplaced]
  simp only [Action.run_bind, hstub, hadded, Action.run_pure]

end Stages

end AmbientTypes.SharedFolder
