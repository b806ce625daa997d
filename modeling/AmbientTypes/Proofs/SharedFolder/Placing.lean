import AmbientTypes.Proofs.SharedFolder.Steps

namespace AmbientTypes

open Manifest (IsAccepted)

namespace SharedFolder

variable {dir name text : String}

/-- What is said of an index, by its text before and after. -/
inductive IndexTold (name path : String) (f g : Files) : IndexChange → Prop
  | created (hbefore : f.pathExists path = false)
      (hafter : g.readText path = .ok ("export * from './" ++ name ++ "';\n")) :
      IndexTold name path f g .created
  | appended {contents : String} (hbefore : f.readText path = .ok contents)
      (hnot : ¬ Lists contents name)
      (hafter : g.readText path =
        .ok (contents ++ closing contents ++ ("export * from './" ++ name ++ "';\n"))) :
      IndexTold name path f g .appended
  | unchanged {contents : String} (hbefore : f.readText path = .ok contents)
      (hlists : Lists contents name) (hafter : g.readText path = .ok contents) :
      IndexTold name path f g .unchanged

/-- What a report says of the shared directory before and after a merge. -/
structure Told (p : Placement) (dir name text : String) (f : Files) (d : Location) (g : Files) :
    Prop where
  declarationPath : p.declarationPath = Path.join dir (declarationName name)
  indexPath : p.indexPath = Path.join dir indexName
  stubPath : p.stubPath = Path.join dir stubName
  declarations : g.readText p.declarationPath = .ok text
  index : IndexTold name p.indexPath f g p.indexChange
  stub : StubTold dir (f.tree.node? (d ++ [stubName])) (g.tree.node? (d ++ [stubName]))
    p.stubChange
  others : ∀ l, l ≠ d ++ [declarationName name] → l ≠ d ++ [stubName] →
    (∀ t, g.lookup p.indexPath ≠ .ok (l, t)) → g.tree.node? l = f.tree.node? l

/-- The index of a directory is none of the other files of a package. -/
def HasOwnIndex (dir name : String) (f : Files) : Prop :=
  ∀ d l t, f.LeadsTo dir d → f.lookup (Path.join dir indexName) = .ok (l, t) →
    l ≠ d ++ [declarationName name] ∧ l ≠ d ++ [stubName]

theorem lists_line (before name : String) :
    Lists (before ++ ("export * from './" ++ name ++ "';\n")) name := by
  rw [← indexLine_append_newline, ← contains_indexLine, Text.contains_iff, String.toList_append,
    String.toList_append, ← List.append_assoc]
  exact ⟨before.toList, "\n".toList, rfl⟩

theorem lists_added (contents name : String) :
    Lists (contents ++ (indexAddition? contents name).getD "") name := by
  rw [indexAddition?_eq]
  by_cases hlists : Lists contents name
  · rwa [if_pos hlists, Option.getD_none, String.append_empty]
  · rw [if_neg hlists, Option.getD_some, String.append_assoc, indexLine_append_newline,
      ← String.append_assoc]
    exact lists_line _ name

theorem IndexTold.lists {path : String} {f g : Files} {c : IndexChange}
    (h : IndexTold name path f g c) : ∃ contents, g.readText path = .ok contents ∧
      Lists contents name := by
  cases h with
  | created _ hafter =>
    refine ⟨_, hafter, ?_⟩
    have hline := lists_line "" name
    rwa [String.empty_append] at hline
  | appended _ _ hafter => exact ⟨_, hafter, lists_line _ name⟩
  | unchanged _ hlists hafter => exact ⟨_, hafter, hlists⟩

theorem readText_of_lookup {f : Files} {path contents : String} {l : Location} {k : File}
    (h : f.lookup path = .ok (l, .file k)) (htext : Text.ofUtf8? k.bytes = some contents) :
    f.readText path = .ok contents := by
  rw [Files.readText, Files.readBytes, h]
  simp only [bind, Except.bind, htext]
  rfl

namespace Adds

variable {f g : Files} {i : Location} {s contents : String} {c : IndexChange}

theorem lookup_after (h : Adds (Path.join dir indexName) name f i s contents c g) :
    ∃ k, g.lookup (Path.join dir indexName) = .ok (i ++ [s], .file k) ∧
      k.bytes = (contents ++ (indexAddition? contents name).getD "").toUTF8 := by
  obtain ⟨bytes, h₀, hopen, -⟩ := h.opens
  obtain ⟨k, hsets, hbytes⟩ := h.sets
  have hagain := Files.openOrCreate_again hopen hsets
  obtain ⟨target, hr, hl⟩ := Files.resolve_behind_of_openOrCreate hagain
  refine ⟨k, ?_, hbytes⟩
  rw [Files.lookup_of_resolve hr, hl, Tree.node?_eq_some_file.1 hsets.self]

theorem readText_after (h : Adds (Path.join dir indexName) name f i s contents c g) :
    g.readText (Path.join dir indexName) =
      .ok (contents ++ (indexAddition? contents name).getD "") := by
  obtain ⟨k, hk, hbytes⟩ := h.lookup_after
  exact readText_of_lookup hk (by rw [hbytes, Text.ofUtf8?_toUTF8])

theorem lookup_found (h : Adds (Path.join dir indexName) name f i s contents c g) :
    (∃ k, f.lookup (Path.join dir indexName) = .ok (i ++ [s], .file k) ∧
        Text.ofUtf8? k.bytes = some contents) ∨
      f.lookup (Path.join dir indexName) = .error .notFound ∧ contents = "" := by
  obtain ⟨bytes, h₀, hopen, -⟩ := h.opens
  obtain ⟨target, hr, hl⟩ := Files.resolve_behind_of_openOrCreate hopen
  rw [Files.lookup_of_resolve hr, hl]
  rcases h.node with ⟨k, hk, htext⟩ | ⟨hnone, hcontents⟩
  · rw [Tree.node?_eq_some_file.1 hk]
    exact .inl ⟨k, rfl, htext⟩
  · rw [Tree.node?_eq_none.1 hnone]
    exact .inr ⟨rfl, hcontents⟩

/-- What was found was there already, as long as nothing had come in the way of the index. -/
theorem lookup_before {e : Files} (h : Adds (Path.join dir indexName) name f i s contents c g)
    (hcwd : e.cwd = f.cwd) (hkeeps : f.tree.Keeps e.tree)
    (hsame : e.tree.node? (i ++ [s]) = f.tree.node? (i ++ [s])) :
    e.lookup (Path.join dir indexName) = f.lookup (Path.join dir indexName) := by
  obtain ⟨bytes, h₀, hopen, -⟩ := h.opens
  obtain ⟨target, hr, hl⟩ := Files.resolve_behind_of_openOrCreate hopen
  obtain ⟨target', hr', hl'⟩ := Files.resolve_keeps hcwd hkeeps rfl id hr (.of_eq (hl ▸ hsame))
  rw [Files.lookup_of_resolve hr', Files.lookup_of_resolve hr, hl', hl]
  rcases h.node with ⟨k, hk, -⟩ | ⟨hnone, -⟩
  · rw [Tree.node?_eq_some_file.1 (hsame.trans hk), Tree.node?_eq_some_file.1 hk]
  · rw [Tree.node?_eq_none.1 (hsame.trans hnone), Tree.node?_eq_none.1 hnone]

theorem told_before {e : Files} (h : Adds (Path.join dir indexName) name f i s contents c g)
    (hcwd : e.cwd = f.cwd) (hkeeps : f.tree.Keeps e.tree)
    (hsame : e.tree.node? (i ++ [s]) = f.tree.node? (i ++ [s])) :
    IndexTold name (Path.join dir indexName) e g c := by
  have hafter := h.readText_after
  have hbefore := h.lookup_before hcwd hkeeps hsame
  rw [indexAddition?_eq] at hafter
  rw [h.told]
  by_cases hlists : Lists contents name
  · rw [if_pos hlists, Option.getD_none, String.append_empty] at hafter
    rw [if_pos hlists]
    rcases h.lookup_found with ⟨k, hk, htext⟩ | ⟨-, rfl⟩
    · exact .unchanged (readText_of_lookup (hbefore.trans hk) htext) hlists hafter
    · exact absurd hlists (not_lists_empty name)
  · rw [if_neg hlists, Option.getD_some, String.append_assoc, indexLine_append_newline] at hafter
    rw [if_neg hlists]
    rcases h.lookup_found with ⟨k, hk, htext⟩ | ⟨hnone, rfl⟩
    · rw [Files.pathExists, hk]
      refine .appended (readText_of_lookup (hbefore.trans hk) htext) hlists ?_
      exact hafter.trans (congrArg Except.ok String.append_assoc.symm)
    · rw [Files.pathExists, hnone]
      refine .created ?_ (by simpa [closing] using hafter)
      rw [Files.pathExists, hbefore, hnone]

end Adds

variable {f f₁ f₂ g : Files} {d i : Location} {s contents : String} {p : Placement}

namespace Stages

theorem told (h : Stages dir name text f d f₁ f₂ i s contents p g) (ha : IsAccepted name)
    (hdecl : i ++ [s] ≠ d ++ [declarationName name]) (hstub : i ++ [s] ≠ d ++ [stubName]) :
    Told p dir name text f d g := by
  obtain ⟨k, hsets, -⟩ := h.index.sets
  obtain ⟨k', hlookup, -⟩ := h.index.lookup_after
  refine ⟨h.declarationPath, h.indexPath, h.stubPath, ?_, ?_, ?_, fun l hd hs hi ↦ ?_⟩
  · rw [h.declarationPath]
    refine Files.readText_join (isName_declarationName ha) h.leadsTo_after h.canReplace.fits ?_
    rw [hsets.of_ne hdecl.symm, h.node?_declarations]
  · rw [h.indexPath]
    exact h.index.told_before h.cwd.symm h.keeps (h.node?_of_ne hdecl hstub).symm
  · rw [hsets.of_ne hstub.symm]
    exact h.stubTold
  · rw [h.indexPath] at hi
    rw [hsets.of_ne (by rintro rfl; exact hi _ hlookup), h.node?_of_ne hd hs]

end Stages

end SharedFolder

end AmbientTypes
