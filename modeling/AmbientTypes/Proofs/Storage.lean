import AmbientTypes.Proofs.Action
import AmbientTypes.Proofs.Text.Digit
import AmbientTypes.Proofs.Tree.Growth
import AmbientTypes.Proofs.Tree.Limits
import AmbientTypes.Storage

namespace AmbientTypes

namespace Files

theorem toList_temporaryName (n : Nat) :
    ∃ zeros ≤ 6, (temporaryName n).toList =
      ['.', 't', 'm', 'p'] ++ List.replicate zeros '0' ++ Text.decimalDigits n :=
  ⟨6 - (Text.decimal n).length, Nat.sub_le _ _, by simp [temporaryName, Text.decimal]⟩

theorem isName_temporaryName (n : Nat) : Path.IsName (temporaryName n) := by
  obtain ⟨zeros, -, h⟩ := toList_temporaryName n
  have hne (s : String) (hs : s.toList.length < 4) : temporaryName n ≠ s := by
    rintro rfl
    simp [h] at hs
    omega
  refine ⟨?_, hne _ (by decide), hne _ (by decide), hne _ (by decide)⟩
  rw [h, List.mem_append, List.mem_append, not_or, not_or, List.mem_replicate, not_and]
  refine ⟨⟨by decide, fun _ ↦ by decide⟩, fun hmem ↦ ?_⟩
  obtain ⟨k, hk, hc⟩ := Text.mem_decimalDigits hmem
  exact (Text.digitChar_ne hk).1 hc.symm

theorem getLast?_temporaryName (n : Nat) : (temporaryName n).toList.getLast? ≠ some 's' := by
  obtain ⟨zeros, -, h⟩ := toList_temporaryName n
  intro hlast
  rw [h, List.getLast?_append_of_ne_nil _ (Text.decimalDigits_ne_nil n)] at hlast
  obtain ⟨k, hk, hc⟩ := Text.mem_decimalDigits (List.mem_of_getLast? hlast)
  exact (Text.digitChar_ne hk).2.1 hc.symm

theorem isShort_temporaryName {n : Nat} (h : n < Nat.pow 10 6) : IsShort (temporaryName n) := by
  obtain ⟨zeros, hzeros, htext⟩ := toList_temporaryName n
  have hdigits := Text.length_decimalDigits_le h
  refine ⟨isName_temporaryName n, ?_, ?_⟩
  · rw [htext, List.mem_append, List.mem_append, not_or, not_or, List.mem_replicate, not_and]
    refine ⟨⟨by decide, fun _ ↦ by decide⟩, fun hmem ↦ ?_⟩
    obtain ⟨k, hk, hc⟩ := Text.mem_decimalDigits hmem
    exact (Text.digitChar_ne hk).2.2 hc.symm
  · have hsize := Text.utf8Length_le (temporaryName n).toList
    have hlength : (temporaryName n).toList.length ≤ 16 := by
      rw [htext, List.length_append, List.length_append, List.length_replicate]
      change 4 + zeros + _ ≤ 16
      omega
    refine Nat.le_trans hsize (Nat.le_trans (Nat.mul_le_mul_left 4 hlength) ?_)
    decide

-- Kept closed, for the walk behind it is unfolded else.
attribute [local irreducible] createNew in
theorem makeTemporary_succ (f : Files) (dir : String) (bytes : ByteArray) (attempts n : Nat) :
    f.makeTemporary dir bytes (attempts + 1) n =
      match f.createNew (Path.join dir (temporaryName n)) bytes with
      | .ok g => .ok (Path.join dir (temporaryName n), g)
      | .error .alreadyExists => f.makeTemporary dir bytes attempts (n + 1)
      | .error e => .error (e, Path.join dir (temporaryName n)) := rfl

end Files

namespace Storage

variable {w : World}

theorem pathExists_of_leadsTo {f : Files} {path : String} {d : Location}
    (hfault : Files.pathFault? path = none) (hd : f.LeadsTo path d) : f.pathExists path = true := by
  obtain ⟨es, hw⟩ := Files.Leads.walk_behind hd (Files.endsInSlash path)
  simp [Files.pathExists, Files.lookup, Files.resolve, Files.resolveWith, hfault, hw]

theorem requireFolder_of_leadsTo {path : String} {d : Location}
    (hfault : Files.pathFault? path = none) (hd : w.files.LeadsTo path d) :
    (requireFolder path).run w = (.ok (), w) := by
  have hex := pathExists_of_leadsTo hfault hd
  rw [requireFolder, Action.run_bind, Action.run_files]
  simp [hex]

theorem run_requireFolder (path : String) (w : World) :
    ∃ r g, (requireFolder path).run w = (r, { w with files := g }) ∧ w.files.MakesWay path g ∧
      ∀ d, w.files.LeadsTo path d → g = w.files := by
  rw [requireFolder, Action.run_bind, Action.run_files]
  by_cases hex : w.files.pathExists path = true
  · exact ⟨.ok (), w.files, by simp [hex], .refl _ _, fun _ _ ↦ rfl⟩
  · have hway := Files.makesWay_makeFolders (path.length + 1) path w.files
    cases hm : w.files.makeAllFolders path with
    | mk r g =>
      rw [Files.makeAllFolders] at hm
      rw [hm] at hway
      refine ⟨r.mapError (.makingFolder path), g, ?_, hway, fun d hd ↦ ?_⟩
      · cases r <;> simp [hex, Files.makeAllFolders, hm, Action.run_bind, Except.mapError]
      · have hfault : path = "" ∨ Files.pathFault? path ≠ none :=
          .inr fun hnone ↦ hex (pathExists_of_leadsTo hnone hd)
        have hsame : (w.files.makeFolders (path.length + 1) path).2 = w.files :=
          Files.makeFolders_of_fault hfault
        rwa [hm] at hsame

theorem makeTemporary_ok {f g : Files} {dir path : String} {bytes : ByteArray}
    {attempts n : Nat}
    (h : f.makeTemporary dir bytes attempts n = .ok (path, g)) :
    ∃ k d, path = Path.join dir (Files.temporaryName k) ∧ n ≤ k ∧ k < n + attempts ∧
      (∀ j, n ≤ j → j ≤ k → Files.Fits dir (Files.temporaryName j)) ∧
      f.LeadsTo dir d ∧ f.tree.node? (d ++ [Files.temporaryName k]) = none ∧
      Files.Sets f d (Files.temporaryName k) (some (.file ⟨bytes, none⟩)) g := by
  induction attempts generalizing n with
  | zero => cases h
  | succ attempts ih =>
    rw [Files.makeTemporary_succ] at h
    cases hc : f.createNew (Path.join dir (Files.temporaryName n)) bytes with
    | ok g' =>
      obtain ⟨rfl, rfl⟩ : Path.join dir (Files.temporaryName n) = path ∧ g' = g := by
        simpa [hc] using h
      obtain ⟨hfits, d, hd, hnone, hsets⟩ :=
        Files.createNew_join_ok (Files.isName_temporaryName n) hc
      refine ⟨n, d, rfl, Nat.le_refl n, by omega, fun j hle hle' ↦ ?_, hd, hnone, hsets⟩
      rwa [Nat.le_antisymm hle' hle]
    | error e =>
      cases e with
      | alreadyExists =>
        obtain ⟨hfits, -⟩ := Files.createNew_join_alreadyExists (Files.isName_temporaryName n) hc
        obtain ⟨k, d, hpath, hle, hlt, hrest, hmade⟩ := ih (by simpa [hc] using h)
        refine ⟨k, d, hpath, by omega, by omega, fun j hj hjk ↦ ?_, hmade⟩
        by_cases hjn : j = n
        · rwa [hjn]
        · exact hrest j (by omega) hjk
      | _ => simp [hc] at h

theorem makeTemporary_of_free {f : Files} {dir : String} {d : Location} (hd : f.LeadsTo dir d)
    (bytes : ByteArray) {attempts n k : Nat} (hle : n ≤ k) (hlt : k < n + attempts)
    (hfits : ∀ j ≤ k, Files.Fits dir (Files.temporaryName j))
    (hfree : f.tree.node? (d ++ [Files.temporaryName k]) = none) :
    ∃ r, f.makeTemporary dir bytes attempts n = .ok r := by
  induction attempts generalizing n with
  | zero => omega
  | succ attempts ih =>
    rw [Files.makeTemporary_succ,
      Files.createNew_join (Files.isName_temporaryName n) hd (hfits n hle)]
    by_cases hn : f.tree.node? (d ++ [Files.temporaryName n]) = none
    · rw [if_pos hn]
      exact ⟨_, rfl⟩
    · rw [if_neg hn]
      have hne : n ≠ k := fun h ↦ hn (h ▸ hfree)
      exact ih (by omega) (by omega)

/-- A temporary file can be removed again, and then nothing has changed. -/
theorem removeFile_makeTemporary {f g : Files} {dir path : String} {bytes : ByteArray}
    {attempts n : Nat} (h : f.makeTemporary dir bytes attempts n = .ok (path, g)) :
    ∃ v, g.removeFile path = .ok v ∧ f.Alike v := by
  obtain ⟨k, d, hpath, hle, -, hall, hd, hnone, hsets⟩ := makeTemporary_ok h
  have hgd := hsets.leadsTo (by simp [hnone]) (by simp [hnone]) hd
  rw [hpath]
  obtain ⟨hnot, -⟩ | ⟨-, ⟨hnone', -⟩ | ⟨-, v, hv, hvsets⟩⟩ :=
    Files.removeFile_join (Files.isName_temporaryName k) hgd
  · exact absurd hnot (by simp [hall k hle (Nat.le_refl k), hsets.self])
  · cases hnone'.symm.trans hsets.self
  · exact ⟨v, hv, (hsets.trans hvsets).alike hnone⟩

theorem run_makeTemporary (dir contents : String) (w : World) :
    (∃ t e, (makeTemporary dir contents).run w = (.error (.makingTemporary dir t e), w)) ∨
      ∃ path g, w.files.makeTemporary dir contents.toUTF8 attempts 0 = .ok (path, g) ∧
        (makeTemporary dir contents).run w = (.ok path, { w with files := g }) := by
  rw [makeTemporary, Action.run_bind, Action.run_files]
  cases h : w.files.makeTemporary dir contents.toUTF8 attempts 0 with
  | ok r =>
    refine .inr ⟨r.1, r.2, rfl, ?_⟩
    simp only [h, Action.run_bind, Action.run_setFiles, Action.run_pure]
  | error e =>
    refine .inl ⟨Path.anchor w.cwd e.2, e.1, ?_⟩
    simp only [h, Action.run_bind, Action.run_get, Action.run_throw]

theorem run_moveInto (path temporary : String) (w : World) :
    (moveInto path temporary).run w =
      match w.files.rename temporary path with
      | .ok g => (.ok (), { w with files := g })
      | .error e => (.error (.writingFile path e),
          { w with files := (w.files.removeFile temporary).toOption.getD w.files }) := by
  rw [moveInto, Action.run_bind, Action.run_files]
  cases h : w.files.rename temporary path <;>
    simp only [h, Action.run_setFiles, Action.run_bind, Action.run_throw]

variable {dir s contents : String} {w' : World}

theorem requireFolder_ok {u : Unit} (h : (requireFolder dir).run w = (.ok u, w')) :
    w.files.Grows w'.files ∧ ∀ d, w.files.LeadsTo dir d → w'.files = w.files := by
  obtain ⟨r, g, hrun, hway, hsame⟩ := run_requireFolder dir w
  rw [hrun] at h
  obtain ⟨rfl, rfl⟩ := Prod.mk.inj h
  exact ⟨hway.grows, hsame⟩

theorem requireFolder_error {e : Failure} (h : (requireFolder dir).run w = (.error e, w')) :
    w.files.MayMake dir w'.files := by
  obtain ⟨r, g, hrun, hway, hsame⟩ := run_requireFolder dir w
  rw [hrun] at h
  obtain ⟨-, rfl⟩ := Prod.mk.inj h
  exact ⟨hway.grows, fun d hd ↦ hsame d hd ▸ .refl _⟩

/-- A file can be replaced: its path is taken, there is no folder in its place, and beside it the
name of a temporary file is free before one is too long. -/
structure CanReplace (dir s : String) (d : Location) (f : Files) : Prop where
  fits : Files.Fits dir s
  ne_folder : f.tree.node? (d ++ [s]) ≠ some .folder
  room : ∃ k < attempts, f.tree.node? (d ++ [Files.temporaryName k]) = none ∧
    ∀ j ≤ k, Files.Fits (Path.directory (Path.join dir s)) (Files.temporaryName j)

theorem pathFault?_directory (hfits : Files.Fits dir s) :
    Files.pathFault? (Path.directory (Path.join dir s)) = none := by
  obtain ⟨hnul, -, hsize⟩ := Files.pathFault?_eq_none.1 hfits.1
  have hdirectory := Files.utf8Size_directory (Path.join dir s)
  exact Files.pathFault?_eq_none.2 ⟨Files.not_mem_directory hnul, Files.directory_ne_empty _,
    hdirectory.trans (max_le (by decide) hsize)⟩

theorem requireFolder_of_fits {d : Location} (hs : Path.IsName s) (hfits : Files.Fits dir s)
    (hd : w.files.LeadsTo dir d) : (requireFolder dir).run w = (.ok (), w) := by
  by_cases hempty : dir = ""
  · have hexists : w.files.pathExists "" = false := rfl
    rw [hempty, requireFolder, Action.run_bind, Action.run_files]
    simp [hexists, Files.makeAllFolders, Files.makeFolders]
  · obtain ⟨hnul, -, hsize⟩ := Files.pathFault?_eq_none.1 hfits.1
    obtain ⟨t, ht⟩ : ∃ t, (Path.join dir s).toList = dir.toList ++ t := by
      rcases Path.join_of_relative dir hs.isAbsolute_eq_false with ⟨hj, -⟩ | hj
      · exact ⟨_, by rw [hj, String.toList_append]⟩
      · exact ⟨_, by rw [hj, String.append_assoc, String.toList_append]⟩
    refine requireFolder_of_leadsTo (Files.pathFault?_eq_none.2 ⟨?_, hempty, ?_⟩) hd
    · exact fun hmem ↦ hnul (ht ▸ List.mem_append_left t hmem)
    · rw [Files.utf8Size, ht, Text.utf8Length_append] at hsize
      rw [Files.utf8Size]
      omega

/-- A replacement moves a temporary file into place, or changes no more than the folders on the
way. -/
theorem run_replaceFile (path contents : String) (w : World) :
    ∃ way, w.files.MakesWay (Path.directory path) way ∧
      (∀ d, w.files.LeadsTo (Path.directory path) d → way = w.files) ∧
      ((∃ e g, (replaceFile path contents).run w = (.error e, { w with files := g }) ∧
          way.Alike g) ∨
        ∃ temporary made g, way.makeTemporary (Path.directory path) contents.toUTF8 attempts 0 =
            .ok (temporary, made) ∧ made.rename temporary path = .ok g ∧
          (replaceFile path contents).run w = (.ok (), { w with files := g })) := by
  obtain ⟨r, way, hrun, hway, hsame⟩ := run_requireFolder (Path.directory path) w
  refine ⟨way, hway, hsame, ?_⟩
  rw [replaceFile, Action.run_bind, hrun]
  cases r with
  | error e => exact .inl ⟨e, way, rfl, .refl way⟩
  | ok u =>
    rcases run_makeTemporary (Path.directory path) contents { w with files := way } with
      ⟨t, e, he⟩ | ⟨temporary, made, hmade, he⟩
    · exact .inl ⟨.makingTemporary (Path.directory path) t e, way,
        by simp only [Action.run_bind, he], .refl way⟩
    · simp only [Action.run_bind, he, run_moveInto]
      cases hrename : made.rename temporary path with
      | ok g => exact .inr ⟨temporary, made, g, hmade, hrename, rfl⟩
      | error e =>
        obtain ⟨g, hg, halike⟩ := removeFile_makeTemporary hmade
        exact .inl ⟨.writingFile path e, g, by simp [hg, Except.toOption], halike⟩

section Replacing

variable (hs : Path.IsName s)
include hs

/-- What moving a fresh temporary file into place changes. -/
theorem rename_fresh {f g : Files} {temporary : String} {bytes : ByteArray}
    (h : f.makeTemporary (Path.directory (Path.join dir s)) bytes attempts 0 =
      .ok (temporary, g)) :
    ∃ d, f.LeadsTo dir d ∧
      ((¬ Files.Fits dir s ∨ f.tree.node? (d ++ [s]) = some .folder) ∧
          (∃ e, g.rename temporary (Path.join dir s) = .error e) ∨
        ∃ v, g.rename temporary (Path.join dir s) = .ok v ∧ CanReplace dir s d f ∧
          Files.Sets f d s (some (.file ⟨bytes, none⟩)) v) := by
  obtain ⟨k, d, hpath, -, hlt, hall, hd', hnone, hsets⟩ := makeTemporary_ok h
  have hfits := hall k (Nat.zero_le k) (Nat.le_refl k)
  have hd := (Files.leadsTo_directory_join hs).1 hd'
  have hgd' := hsets.leadsTo (by simp [hnone]) (by simp [hnone]) hd'
  have hgd := hsets.leadsTo (by simp [hnone]) (by simp [hnone]) hd
  have hfolder_iff : g.tree.node? (d ++ [s]) = some .folder ↔
      f.tree.node? (d ++ [s]) = some .folder := by
    rw [hsets.node]
    split
    · next hl => simp [hl, hnone]
    · rfl
  refine ⟨d, hd, ?_⟩
  rw [hpath]
  rcases Files.rename_join (Files.isName_temporaryName k) hs hgd' hgd hfits
    hsets.self with ⟨hnot, e, he⟩ | ⟨hfolder, v, hv, hcwd, hnodes⟩
  · rw [hfolder_iff] at hnot
    exact .inl ⟨hnot, e, he⟩
  · refine .inr ⟨v, hv, ⟨Files.fits_of_rename hs hv, ?_, k, ?_, hnone,
      fun j ↦ hall j (Nat.zero_le j)⟩, hcwd.trans hsets.cwd, fun l ↦ ?_⟩
    · rwa [ne_eq, ← hfolder_iff]
    · rwa [Nat.zero_add] at hlt
    · rw [hnodes]
      split
      · rfl
      split
      · next hl => rw [hl, hnone]
      · next hl => exact hsets.of_ne hl

/-- A replaced file holds the new contents, and nothing else in its directory changes. -/
theorem replaceFile_ok {u : Unit}
    (h : (replaceFile (Path.join dir s) contents).run w = (.ok u, w')) :
    ∃ f d, w.files.Makes dir f d ∧ CanReplace dir s d f ∧
      Files.Sets f d s (some (.file ⟨contents.toUTF8, none⟩)) w'.files := by
  obtain ⟨way, hway, hsame, ⟨e, g, hrun, -⟩ | ⟨temporary, made, g, hmade, hrename, hrun⟩⟩ :=
    run_replaceFile (Path.join dir s) contents w
  · cases hrun.symm.trans h
  · obtain ⟨-, rfl⟩ := Prod.mk.inj (hrun.symm.trans h)
    obtain ⟨d, hd, ⟨-, e, he⟩ | ⟨v, hv, hcan, hsets⟩⟩ := rename_fresh hs hmade
    · cases he.symm.trans hrename
    · obtain rfl := Except.ok.inj (hv.symm.trans hrename)
      exact ⟨way, d, ⟨hway.grows, fun e he ↦ hsame e ((Files.leadsTo_directory_join hs).2 he), hd⟩,
        hcan, hsets⟩

/-- A file that cannot be replaced stays as it is. -/
theorem replaceFile_error {e : Failure}
    (h : (replaceFile (Path.join dir s) contents).run w = (.error e, w')) :
    w.files.MayMake dir w'.files := by
  obtain ⟨way, hway, hsame, ⟨e, g, hrun, halike⟩ | ⟨temporary, made, g, -, -, hrun⟩⟩ :=
    run_replaceFile (Path.join dir s) contents w
  · obtain ⟨-, rfl⟩ := Prod.mk.inj (hrun.symm.trans h)
    refine ⟨hway.grows.trans halike.grows, fun d hd ↦ ?_⟩
    rwa [← hsame d ((Files.leadsTo_directory_join hs).2 hd)]
  · cases hrun.symm.trans h

theorem replaceFile_succeeds {d : Location} (hd : w.files.LeadsTo dir d)
    (hcan : CanReplace dir s d w.files) :
    ∃ v, (replaceFile (Path.join dir s) contents).run w = (.ok (), v) := by
  have hd' := (Files.leadsTo_directory_join hs).2 hd
  obtain ⟨hfits, hfolder, k, hk, hnone, hroom⟩ := hcan
  obtain ⟨⟨temporary, g⟩, hg⟩ : ∃ r, w.files.makeTemporary (Path.directory (Path.join dir s))
      contents.toUTF8 attempts 0 = .ok r :=
    makeTemporary_of_free hd' contents.toUTF8 (Nat.zero_le k) (by rwa [Nat.zero_add]) hroom hnone
  have hmake : (makeTemporary (Path.directory (Path.join dir s)) contents).run w =
      (.ok temporary, { w with files := g }) := by
    rw [makeTemporary, Action.run_bind, Action.run_files]
    simp only [hg, Action.run_bind, Action.run_setFiles, Action.run_pure]
  obtain ⟨d₀, hd₀, ⟨hnot, -⟩ | ⟨v, hv, -⟩⟩ := rename_fresh hs hg
  · obtain rfl := hd₀.unique hd
    exact absurd hnot (by simp [hfits, hfolder])
  · refine ⟨{ w with files := v }, ?_⟩
    rw [replaceFile, Action.run_bind, requireFolder_of_leadsTo (pathFault?_directory hfits) hd']
    simp only [Action.run_bind, hmake, run_moveInto, hv]

/-- A file or a link to one is replaced unless no temporary file can be made beside it. -/
theorem replaceFile_error_of_isLeaf {d : Location} (hleaf : w.files.IsLeaf dir s d) {e : Failure}
    (h : (replaceFile (Path.join dir s) contents).run w = (.error e, w')) :
    w'.files = w.files ∧
      ∃ t why, e = .makingTemporary (Path.directory (Path.join dir s)) t why := by
  have hrequire := requireFolder_of_leadsTo (pathFault?_directory hleaf.fits)
    ((Files.leadsTo_directory_join hs).2 hleaf.leadsTo)
  rw [replaceFile, Action.run_bind, hrequire] at h
  simp only [Action.run_bind] at h
  rcases run_makeTemporary (Path.directory (Path.join dir s)) contents w with
    ⟨t, why, he⟩ | ⟨p, g, hg, he⟩
  · rw [he] at h
    obtain ⟨rfl, rfl⟩ : .makingTemporary (Path.directory (Path.join dir s)) t why = e ∧ w = w' := by
      simpa using h
    exact ⟨rfl, t, why, rfl⟩
  · rw [he] at h
    obtain ⟨d', hd', ⟨hnot, -⟩ | ⟨v, hv, -⟩⟩ := rename_fresh hs hg
    · obtain rfl := hd'.unique hleaf.leadsTo
      exact absurd hnot (by simp [hleaf.fits, hleaf.ne_folder hs])
    · simp only [run_moveInto, hv] at h
      cases h

end Replacing

theorem run_createFile (path contents : String) (w : World) :
    (createFile path contents).run w =
      match w.files.createNew path contents.toUTF8 with
      | .ok g => (.ok true, { w with files := g })
      | .error .alreadyExists => (.ok false, w)
      | .error e => (.error (.makingFile path e), w) := by
  rw [createFile, Action.run_bind, Action.run_files]
  cases h : w.files.createNew path contents.toUTF8 with
  | ok g => simp only [h, Action.run_bind, Action.run_setFiles, Action.run_pure]
  | error e => cases e <;> simp only [h, Action.run_pure, Action.run_throw]

theorem createFile_ok (hs : Path.IsName s) {b : Bool}
    (h : (createFile (Path.join dir s) contents).run w = (.ok b, w')) :
    ∃ d, Files.Fits dir s ∧ w.files.LeadsTo dir d ∧
      (b = true ∧ w.files.tree.node? (d ++ [s]) = none ∧
          Files.Sets w.files d s (some (.file ⟨contents.toUTF8, none⟩)) w'.files ∨
        b = false ∧ w.files.tree.node? (d ++ [s]) ≠ none ∧ w'.files = w.files) := by
  rw [run_createFile] at h
  cases hc : w.files.createNew (Path.join dir s) contents.toUTF8 with
  | ok g =>
    obtain ⟨hfits, d, hd, hnone, hsets⟩ := Files.createNew_join_ok hs hc
    simp only [hc] at h
    obtain ⟨hb, rfl⟩ := Prod.mk.inj h
    exact ⟨d, hfits, hd, .inl ⟨(Except.ok.inj hb).symm, hnone, hsets⟩⟩
  | error e =>
    cases e with
    | alreadyExists =>
      obtain ⟨hfits, d, hd, hnode⟩ := Files.createNew_join_alreadyExists hs hc
      simp only [hc] at h
      obtain ⟨hb, rfl⟩ := Prod.mk.inj h
      exact ⟨d, hfits, hd, .inr ⟨(Except.ok.inj hb).symm, hnode, rfl⟩⟩
    | _ =>
      simp only [hc] at h
      cases h

theorem createFile_error {path : String} {e : Failure}
    (h : (createFile path contents).run w = (.error e, w')) : w' = w := by
  rw [run_createFile] at h
  split at h <;> simp_all

theorem run_discardFile (path : String) (w : World) :
    (discardFile path).run w =
      match w.files.removeFile path with
      | .ok g => (.ok true, { w with files := g })
      | .error .notFound => (.ok false, w)
      | .error e => (.error (.removingFile path e), w) := by
  rw [discardFile, Action.run_bind, Action.run_files]
  cases h : w.files.removeFile path with
  | ok g => simp only [h, Action.run_bind, Action.run_setFiles, Action.run_pure]
  | error e => cases e <;> simp only [h, Action.run_pure, Action.run_throw]

/-- Nothing stands where a file was discarded. Else the path is not taken, or it is a folder's. -/
theorem discardFile_join (hs : Path.IsName s) {d : Location}
    (hd : w.files.LeadsTo dir d) :
    (¬ Files.Fits dir s ∨ w.files.tree.node? (d ++ [s]) = some .folder) ∧
        (∃ e, (discardFile (Path.join dir s)).run w =
          (.error (.removingFile (Path.join dir s) e), w)) ∨
      Files.Fits dir s ∧ w.files.tree.node? (d ++ [s]) ≠ some .folder ∧
        ∃ b g, (discardFile (Path.join dir s)).run w = (.ok b, { w with files := g }) ∧
          Files.Sets w.files d s none g := by
  rw [run_discardFile]
  obtain ⟨hnot, e, he, hr⟩ | ⟨hfits, ⟨hnone, hr⟩ | ⟨hfolder, g, hr, hsets⟩⟩ :=
    Files.removeFile_join hs hd
  · refine .inl ⟨hnot, e, ?_⟩
    rw [hr]
    cases e <;> simp_all
  · exact .inr ⟨hfits, by simp [hnone], false, w.files, by rw [hr], .refl hnone⟩
  · exact .inr ⟨hfits, hfolder, true, g, by rw [hr], hsets⟩

/-- A discarded file is gone, also where its directory is missing. -/
theorem discardFile_ok (hs : Path.IsName s) {b : Bool}
    (h : (discardFile (Path.join dir s)).run w = (.ok b, w')) :
    (∃ d, w.files.LeadsTo dir d ∧ w.files.tree.node? (d ++ [s]) ≠ some .folder ∧
        Files.Sets w.files d s none w'.files) ∨
      w'.files = w.files ∧ ∀ d, w.files.LeadsTo dir d → w.files.tree.node? (d ++ [s]) = none := by
  rw [run_discardFile] at h
  cases hr : w.files.removeFile (Path.join dir s) with
  | ok g =>
    simp only [hr] at h
    obtain ⟨-, rfl⟩ := Prod.mk.inj h
    exact .inl (Files.removeFile_join_ok hs hr)
  | error e =>
    cases e with
    | notFound =>
      simp only [hr] at h
      obtain ⟨-, rfl⟩ := Prod.mk.inj h
      exact .inr ⟨rfl, fun d hd ↦ Files.node?_of_removeFile_join_notFound hs hr hd⟩
    | _ =>
      simp only [hr] at h
      cases h

theorem discardFile_error {path : String} {e : Failure}
    (h : (discardFile path).run w = (.error e, w')) : w' = w := by
  rw [run_discardFile] at h
  split at h <;> simp_all

/-- Nothing stands where a file was to be discarded, even if that failed; only a folder stays. -/
theorem discardFile_vacant (hs : Path.IsName s)
    (hfolder : ∀ l es, w.files.lookupLink (Path.join dir s) ≠ .ok (l, .folder es))
    {r : Except Failure Bool} (h : (discardFile (Path.join dir s)).run w = (r, w')) :
    w'.files.Vacant (Path.join dir s) := by
  intro l t hl
  obtain ⟨hfits, d, hd, rfl, ht⟩ := (Files.lookupLink_join hs).1 hl
  cases r with
  | error e =>
    obtain rfl := discardFile_error h
    obtain ⟨hfits' | hnode, -⟩ | ⟨-, -, b, g, hg, -⟩ := discardFile_join hs hd
    · exact hfits' hfits
    · obtain ⟨es, hes⟩ := Tree.node?_eq_some_folder.1 hnode
      exact hfolder _ es ((Files.lookupLink_join hs).2 ⟨hfits, d, hd, rfl, hes⟩)
    · cases hg.symm.trans h
  | ok b =>
    have hnone : w'.files.tree.node? (d ++ [s]) = none := by
      rcases discardFile_ok hs h with ⟨d', hd', -, hsets⟩ | ⟨hsame, hnone⟩
      · rw [(hsets.leadsTo_before hd).unique hd']
        exact hsets.self
      · rw [hsame] at hd ⊢
        exact hnone d hd
    rw [Tree.node?_eq_none.1 hnone] at ht
    cases ht

theorem discardFile_touches (hs : Path.IsName s) (hno : w.files.HoldsNoLinks dir) {d : Location}
    (hd : w.files.LeadsTo dir d) (hfits : Files.Fits dir s)
    (hfolder : w.files.tree.node? (d ++ [s]) ≠ some .folder) :
    ∃ b g, (discardFile (Path.join dir s)).run w = (.ok b, { w with files := g }) ∧
      w.files.Touches dir d s g := by
  obtain ⟨hnot, -⟩ | ⟨-, -, b, g, hg, hsets⟩ := discardFile_join hs hd
  · exact absurd hnot (by simp [hfits, hfolder])
  · exact ⟨b, g, hg, .of_sets hd hno hsets hfolder (by simp)⟩

end Storage

end AmbientTypes
