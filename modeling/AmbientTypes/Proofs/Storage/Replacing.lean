import AmbientTypes.Proofs.Storage

namespace AmbientTypes

namespace Files

variable {f g : Files} {path source : String}

theorem exists_last_piece (text : List Char) : ∃ before name, text = before ++ name ∧
    (before = [] ∨ before.getLast? = some '/') ∧ '/' ∉ name := by
  refine ⟨text.rdropWhile (· ≠ '/'), text.rtakeWhile (· ≠ '/'),
    List.rdropWhile_append_rtakeWhile.symm, ?_, fun hmem ↦ ?_⟩
  · by_cases hnil : text.rdropWhile (· ≠ '/') = []
    · exact .inl hnil
    · have hlast := List.rdropWhile_last_not (· ≠ '/') text hnil
      rw [List.getLast?_eq_some_getLast hnil]
      exact .inr (congrArg some (by simpa using hlast))
  · have hne := List.mem_rtakeWhile_imp hmem
    simp at hne

theorem exists_join (hdots : endsInDots path = false) (hslash : endsInSlash path = false) :
    ∃ dir s, Path.IsName s ∧ path = Path.join dir s := by
  obtain ⟨before, name, hpath, hbefore, hname⟩ := exists_last_piece path.toList
  rw [← String.toList_ofList (l := name)] at hname
  have hrelative : Path.isAbsolute (String.ofList name) = false := by
    rw [Path.isAbsolute, decide_eq_false_iff_not]
    exact fun h ↦ hname (List.mem_of_mem_head? h)
  have hjoin : path = Path.join (String.ofList before) (String.ofList name) := by
    rw [Path.join, hrelative, if_neg Bool.false_ne_true, if_pos, ← String.toList_inj, hpath]
    · simp
    · simpa using hbefore
  have hne : String.ofList name ≠ "" := by
    intro hempty
    have hnil : name = [] := by simpa using hempty
    rw [hnil, List.append_nil] at hpath
    rcases hbefore with h | h
    · rw [h] at hpath
      have hblank : path = "" := String.toList_inj.1 hpath
      rw [hblank] at hdots
      exact absurd hdots (by decide)
    · rw [endsInSlash, hpath, h] at hslash
      simp at hslash
  refine ⟨String.ofList before, String.ofList name, ⟨hname, hne, ?_, ?_⟩, hjoin⟩ <;>
  · intro hdot
    rw [endsInDots, hjoin, segments_join_relative _ hrelative, segments_eq_singleton hname hne,
      List.getLast?_concat, hdot] at hdots
    exact absurd hdots (by decide)

theorem rename_error_of_ends (h : endsInDots path = true ∨ endsInSlash path = true) :
    ∃ e, f.rename source path = .error e := by
  unfold rename
  cases f.lookupLink source with
  | error e => exact ⟨e, rfl⟩
  | ok r =>
    cases f.resolveName path with
    | error e => exact ⟨e, rfl⟩
    | ok target =>
      by_cases hdots : endsInDots path = true
      · exact ⟨.busy, by simp only [bind, Except.bind, hdots, if_true]⟩
      · have hslash := h.resolve_left hdots
        exact ⟨.notADirectory, by
          simp only [bind, Except.bind, hdots, hslash, if_true, if_false, Bool.false_eq_true]⟩

end Files

namespace Storage

variable {w w' : World} {path contents : String} {f g : Files}

/-- A file has come in the place of an entry. The path named that entry by `s`, in the folder `d`
that its directory led to as soon as the folders on the way had been made. -/
structure Replaces (f : Files) (path contents : String) (way : Files) (d : Location) (s : String)
    (g : Files) : Prop where
  name : Path.fileName? path = some s
  makesWay : f.MakesWay (Path.directory path) way
  leadsTo : way.LeadsTo (Path.directory path) d
  ne_folder : way.tree.node? (d ++ [s]) ≠ some .folder
  sets : Files.Sets way d s (some (.file ⟨contents.toUTF8, none⟩)) g
  reads : g.readText path = .ok contents ↔ g.LeadsTo (Path.directory path) d
  stays : (∀ n e, ¬ Files.Leads way.tree n d [s] e) → g.LeadsTo (Path.directory path) d

section Names

variable {dir s : String} {d : Location} (hs : Path.IsName s)
include hs

theorem readText_replaced_iff (hd : f.LeadsTo dir d) (hfits : Files.Fits dir s)
    (hsets : Files.Sets f d s (some (.file ⟨contents.toUTF8, none⟩)) g) :
    g.readText (Path.join dir s) = .ok contents ↔ g.LeadsTo dir d := by
  constructor
  · intro hread
    obtain ⟨e, he⟩ := Files.isLeaf_of_isFile hs (Files.isFile_of_readText hread)
    -- What leads anywhere now is no file, and so it was there before.
    have hbefore : f.LeadsTo dir e := by
      refine he.leadsTo.mono hsets.cwd.symm (fun l hl ↦ ?_) fun l t hl ↦ ?_ <;>
      · rwa [← hsets.of_ne]
        rintro rfl
        cases hl.symm.trans hsets.self
    rw [hd.unique hbefore]
    exact he.leadsTo
  · exact fun hway ↦ Files.readText_join hs hway hfits hsets.self

theorem replaces_of_rename {f way made g : Files} {temporary : String}
    (hway : f.MakesWay (Path.directory (Path.join dir s)) way)
    (hmade : way.makeTemporary (Path.directory (Path.join dir s)) contents.toUTF8 attempts 0 =
      .ok (temporary, made))
    (hrename : made.rename temporary (Path.join dir s) = .ok g) :
    ∃ d, Replaces f (Path.join dir s) contents way d s g := by
  obtain ⟨d, hd, ⟨-, e, he⟩ | ⟨v, hv, hcan, hsets⟩⟩ := rename_fresh hs hmade
  · cases he.symm.trans hrename
  · obtain rfl := Except.ok.inj (hv.symm.trans hrename)
    have hname : Path.fileName? (Path.join dir s) = some s := by
      rw [Path.fileName?, Path.components_join_name dir hs, List.getLast?_concat]
    refine ⟨d, hname, hway, (Files.leadsTo_directory_join hs).2 hd, hcan.ne_folder, hsets, ?_,
      fun hnot ↦ ?_⟩
    · rw [Files.leadsTo_directory_join hs]
      exact readText_replaced_iff hs hd hcan.fits hsets
    · have hleaf : way.IsLeaf dir s d := ⟨hcan.fits, hd, hnot⟩
      exact (Files.leadsTo_directory_join hs).2 (hleaf.leadsTo_sets hs hsets)

end Names

/-- A file is replaced as a whole, or nothing but the folders on the way has changed. -/
theorem replaceFile_whole (path contents : String) (w : World) :
    ∃ r g, (replaceFile path contents).run w = (r, { w with files := g }) ∧
      match r with
      | .ok () => ∃ way d s, Replaces w.files path contents way d s g
      | .error _ => w.files.MakesWay (Path.directory path) g := by
  obtain ⟨way, hway, -, ⟨e, g, hrun, halike⟩ | ⟨temporary, made, g, hmade, hrename, hrun⟩⟩ :=
    run_replaceFile path contents w
  · exact ⟨.error e, g, hrun, hway.trans (.of_alike halike)⟩
  · refine ⟨.ok (), g, hrun, way, ?_⟩
    have hends : ¬ (Files.endsInDots path = true ∨ Files.endsInSlash path = true) := by
      intro h
      obtain ⟨e, he⟩ := Files.rename_error_of_ends h
      cases he.symm.trans hrename
    rw [not_or, Bool.not_eq_true, Bool.not_eq_true] at hends
    obtain ⟨dir, s, hs, rfl⟩ := Files.exists_join hends.1 hends.2
    obtain ⟨d, hd⟩ := replaces_of_rename hs hway hmade hrename
    exact ⟨d, s, hd⟩

/-- A link that leads back to the folder it lies in. -/
def looped : World where
  files := { tree := .folder [("l", .link ".")] }

/-- The way to a path may lead over the entry that is replaced, and then the new file is not found
there. -/
theorem replaced_unread : ¬ ∀ (path contents : String) (w w' : World),
    (replaceFile path contents).run w = (.ok (), w') →
      w'.files.readText path = .ok contents := by
  intro h
  have hrun : ((replaceFile "l/l" "x").run looped).1 = .ok () := by decide +kernel
  exact absurd (h _ _ _ _ (Action.run_eq_of_fst hrun)) (by decide +kernel)

end Storage

end AmbientTypes
