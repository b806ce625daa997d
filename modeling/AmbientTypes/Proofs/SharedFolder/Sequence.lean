import AmbientTypes.Proofs.SharedFolder.Merging

namespace AmbientTypes.SharedFolder

open Manifest (IsAccepted)

variable {dir name text : String} {w w' : World} {d : Location}

section Success

variable (hd : w.files.LeadsTo dir d) (hroom : Files.IsRoomy dir)
include hd hroom

theorem placeDeclarations_succeeds (ha : IsAccepted name)
    (hsize : Files.utf8Size (declarationName name) ≤ Files.longestName)
    (hfolder : w.files.tree.node? (d ++ [declarationName name]) ≠ some .folder)
    (hfree : ∃ k < Storage.attempts, w.files.tree.node? (d ++ [Files.temporaryName k]) = none) :
    ∃ p w', (placeDeclarations dir name text).run w = (.ok p, w') := by
  have hshort := isShort_declarationName ha hsize
  have hattempts : Storage.attempts ≤ Nat.pow 10 6 := by decide
  obtain ⟨k, hk, hnone⟩ := hfree
  have hcan : Storage.CanReplace dir (declarationName name) d w.files := by
    refine ⟨hroom.fits hshort, hfolder, k, hk, hnone, fun j hj ↦ ?_⟩
    exact (hroom.directory_join hshort).2 _ (Files.isShort_temporaryName (by omega))
  obtain ⟨v, hv⟩ : ∃ v, (Storage.replaceFile (Path.join dir (declarationName name)) text).run w =
      (.ok (), v) :=
    Storage.replaceFile_succeeds hshort.isName hd hcan
  rw [placeDeclarations]
  simp only [Action.run_bind, hv, Action.run_log, Action.run_pure]
  exact ⟨_, _, rfl⟩

theorem placeStubIfWanted_succeeds :
    ∃ c w', (placeStubIfWanted dir).run w = (.ok c, w') := by
  have hrequire := Storage.requireFolder_of_leadsTo hroom.pathFault?_eq_none hd
  unfold placeStubIfWanted
  split
  · obtain ⟨b, v, hv⟩ : ∃ b v,
        (Storage.createFile (Path.join dir stubName) stubText).run w = (.ok b, v) := by
      rw [Storage.run_createFile,
        Files.createNew_join isName_stubName hd (hroom.fits isShort_stubName)]
      by_cases hnone : w.files.tree.node? (d ++ [stubName]) = none
      · rw [if_pos hnone]
        exact ⟨_, _, rfl⟩
      · rw [if_neg hnone]
        exact ⟨_, _, rfl⟩
    rw [placeStub]
    simp only [Action.run_bind, hrequire, hv]
    cases b
    · exact ⟨_, _, rfl⟩
    · exact ⟨_, _, rfl⟩
  · exact ⟨_, _, rfl⟩

theorem addToIndex_succeeds (hno : w.files.HoldsNoLinks dir) {contents : String}
    (htext : w.files.textAt? (d ++ [indexName]) = some contents) :
    ∃ c w', (addToIndex dir name).run w = (.ok c, w') := by
  have hrequire := Storage.requireFolder_of_leadsTo hroom.pathFault?_eq_none hd
  obtain ⟨⟨l, bytes, g⟩, hopen⟩ := Files.openOrCreate_join isName_indexName hno.ne_link hd
    (hroom.fits isShort_indexName) (Files.node?_ne_folder_of_textAt? htext)
  have hindex : (openIndex (Path.join dir indexName)).run w =
      (.ok (l, bytes), { w with files := g }) := by
    rw [run_openIndex, hopen]
  obtain ⟨d', hd', rfl, hbytes⟩ := index_of_openOrCreate hno hopen
  rw [hd'.unique hd, htext] at hbytes
  rw [addToIndex]
  simp only [Action.run_bind, hrequire, Action.run_files, hindex, ← hbytes]
  split
  · exact ⟨_, _, rfl⟩
  · simp only [Action.run_bind, Action.run_files, Action.run_setFiles]
    split
    · exact ⟨_, _, rfl⟩
    · exact ⟨_, _, rfl⟩

end Success

/-- A directory in which packages can be merged: it is there and holds no links, its index is text,
no folder has the name of a file, and a name for a temporary file is free. -/
structure IsReady (dir : String) (names : List String) (f : Files) (d : Location) : Prop where
  leadsTo : f.LeadsTo dir d
  noLinks : f.HoldsNoLinks dir
  index : ∃ contents, f.textAt? (d ++ [indexName]) = some contents
  declarations : ∀ n ∈ names, f.tree.node? (d ++ [declarationName n]) ≠ some .folder
  temporary : ∃ k < Storage.attempts, f.tree.node? (d ++ [Files.temporaryName k]) = none

structure IsPlaceable (name : String) : Prop where
  accepted : IsAccepted name
  size : Files.utf8Size (declarationName name) ≤ Files.longestName

theorem IsReady.after {names : List String} {merges : List (String × String)} {f g : Files}
    (h : IsReady dir names f d) (hnames : ∀ n ∈ names, IsAccepted n)
    (hg : Merged dir merges f d g) : IsReady dir names g d := by
  refine ⟨hg.leadsTo, hg.holdsNoLinks h.leadsTo h.noLinks, ?_, fun n hn ↦ ?_, ?_⟩
  · obtain ⟨contents, -, htext⟩ := hg.textAt?_index
    exact ⟨_, htext⟩
  · cases hlast : merges.reverse.lookup n with
    | some text => simp [hg.declarations n text hlast]
    | none =>
      have hother : ∀ m ∈ merges, n ≠ m.1 := by
        intro m hm hnm
        have hfound := List.lookup_eq_none_iff.1 hlast m (List.mem_reverse.2 hm)
        simp [hnm] at hfound
      rw [hg.others _ (by simpa using declarationName_ne_indexName (hnames n hn))
        (by simpa using declarationName_ne_stubName n)
        fun m hm ↦ by simpa using fun heq ↦ hother m hm (declarationName_injective heq)]
      exact h.declarations n hn
  · obtain ⟨k, hk, hnone⟩ := h.temporary
    refine ⟨k, hk, ?_⟩
    rw [hg.others _ (by simpa using (indexName_ne_temporaryName k).symm)
      (by simpa using (stubName_ne_temporaryName k).symm)
      fun m _ ↦ by simpa using (declarationName_ne_temporaryName m.1 k).symm, hnone]

theorem place_succeeds (hroom : Files.IsRoomy dir) (hname : IsPlaceable name)
    (h : IsReady dir [name] w.files d) :
    ∃ p w', (place dir name text).run w = (.ok p, w') := by
  obtain ⟨hd, hno, ⟨contents, htext⟩, hfolders, hfree⟩ := h
  have ha := hname.accepted
  have hfolder := hfolders name List.mem_cons_self
  obtain ⟨path, w₁, h₁⟩ : ∃ p w', (placeDeclarations dir name text).run w = (.ok p, w') :=
    placeDeclarations_succeeds hd hroom ha hname.size hfolder hfree
  obtain ⟨f, d', hmakes, -, hsets₁⟩ := placeDeclarations_ok ha h₁
  obtain ⟨rfl, rfl⟩ := hmakes.eq hd
  have htouches := Files.Touches.of_sets hd hno hsets₁ hfolder (by simp)
  obtain ⟨stub, w₂, h₂⟩ := placeStubIfWanted_succeeds htouches.leadsTo hroom
  obtain ⟨hsets₂, hd₂, hkeeps⟩ := placeStubIfWanted_ok htouches.leadsTo h₂
  have hno₂ := hkeeps htouches.noLinks
  have hindex : w₂.files.textAt? (d' ++ [indexName]) = some contents := by
    rw [← htext]
    refine Files.textAt?_congr ((hsets₂.of_ne ?_).trans (hsets₁.of_ne ?_))
    · simpa using indexName_ne_stubName
    · simpa using (declarationName_ne_indexName ha).symm
  obtain ⟨index, w₃, h₃⟩ : ∃ c w', (addToIndex dir name).run w₂ = (.ok c, w') :=
    addToIndex_succeeds hd₂ hroom hno₂ hindex
  rw [place, if_neg (by rw [not_same_indexName ha]; decide)]
  simp only [Action.run_bind, h₁, h₂, h₃, Action.run_pure]
  exact ⟨_, _, rfl⟩

/-- Merges packages one after the other, each with its text. -/
def placeAll (dir : String) (merges : List (String × String)) : Action (List Placement) :=
  merges.mapM fun m ↦ place dir m.1 m.2

theorem placeAll_concat_ok {merges : List (String × String)} {m : String × String}
    {ps : List Placement} (h : (placeAll dir (merges ++ [m])).run w = (.ok ps, w')) :
    ∃ qs v p, (placeAll dir merges).run w = (.ok qs, v) ∧
      (place dir m.1 m.2).run v = (.ok p, w') := by
  rw [placeAll, List.mapM_append] at h
  obtain ⟨qs, v, hqs, h⟩ := Action.run_bind_ok h
  rw [List.mapM_cons, List.mapM_nil] at h
  obtain ⟨_, u, hu, h⟩ := Action.run_bind_ok h
  obtain ⟨p, v', hp, hu⟩ := Action.run_bind_ok hu
  simp only [pure_bind, Action.run_pure] at hu h
  obtain ⟨-, rfl⟩ := Prod.mk.inj hu
  obtain ⟨-, rfl⟩ := Prod.mk.inj h
  exact ⟨qs, v, p, hqs, hp⟩

theorem run_placeAll_concat {merges : List (String × String)} {m : String × String}
    {qs : List Placement} {v : World} {p : Placement}
    (hqs : (placeAll dir merges).run w = (.ok qs, v))
    (hp : (place dir m.1 m.2).run v = (.ok p, w')) :
    (placeAll dir (merges ++ [m])).run w = (.ok (qs ++ [p]), w') := by
  rw [placeAll] at hqs ⊢
  rw [List.mapM_append, List.mapM_cons, List.mapM_nil]
  simp only [Action.run_bind, hqs, hp, Action.run_pure]

theorem merged_of_placeAll {merges : List (String × String)} {ps : List Placement}
    (hnames : ∀ m ∈ merges, IsAccepted m.1) (hno : w.files.HoldsNoLinks dir)
    (h : (placeAll dir merges).run w = (.ok ps, w')) :
    merges = [] ∧ w' = w ∨
      ∃ f d, w.files.Makes dir f d ∧ Merged dir merges f d w'.files := by
  induction merges using List.reverseRecOn generalizing ps w' with
  | nil =>
    rw [placeAll, List.mapM_nil, Action.run_pure] at h
    exact .inl ⟨rfl, (Prod.mk.inj h).2.symm⟩
  | append_singleton merges m ih =>
    rw [List.forall_mem_append, List.forall_mem_singleton] at hnames
    obtain ⟨hnames, ha⟩ := hnames
    obtain ⟨qs, v, p, hqs, hp⟩ := placeAll_concat_ok h
    refine .inr ?_
    rcases ih hnames hqs with ⟨rfl, rfl⟩ | ⟨f, d, hmakes, hmerged⟩
    · exact place_ok ha hno hp
    · have hno' := hmerged.holdsNoLinks hmakes.leadsTo (hno.grows hmakes.grows)
      obtain ⟨g, e, hmakes', hmerged'⟩ := place_ok ha hno' hp
      obtain ⟨rfl, rfl⟩ := hmakes'.eq hmerged.leadsTo
      exact ⟨f, e, hmakes, hmerged.concat hmerged' hnames ha⟩

theorem placeAll_succeeds (hroom : Files.IsRoomy dir) {merges : List (String × String)}
    (hnames : ∀ m ∈ merges, IsPlaceable m.1)
    (h : IsReady dir (merges.map (·.1)) w.files d) :
    ∃ ps w', (placeAll dir merges).run w = (.ok ps, w') := by
  induction merges using List.reverseRecOn with
  | nil => exact ⟨[], w, rfl⟩
  | append_singleton merges m ih =>
    rw [List.forall_mem_append, List.forall_mem_singleton] at hnames
    obtain ⟨hnames, hm⟩ := hnames
    obtain ⟨hd, hno, hindex, hfolders, hfree⟩ := h
    rw [List.map_append, List.forall_mem_append] at hfolders
    obtain ⟨qs, v, hqs⟩ := ih hnames ⟨hd, hno, hindex, hfolders.1, hfree⟩
    have hlast : IsReady dir [m.1] w.files d := ⟨hd, hno, hindex, hfolders.2, hfree⟩
    have hready : IsReady dir [m.1] v.files d := by
      rcases merged_of_placeAll (fun m hm ↦ (hnames m hm).accepted) hno hqs with
        ⟨-, rfl⟩ | ⟨f, e, hmakes, hmerged⟩
      · exact hlast
      · obtain ⟨rfl, rfl⟩ := hmakes.eq hd
        exact hlast.after (by simpa using hm.accepted) hmerged
    obtain ⟨p, u, hp⟩ := place_succeeds hroom hm hready
    exact ⟨qs ++ [p], u, run_placeAll_concat hqs hp⟩

/-- What a sequence of merges leaves, whatever the shared directory held; in a directory that is
ready for its packages the sequence succeeds. The index gets one line for each package that had
none, in the order in which they first come. -/
theorem placeAll_merges {merges : List (String × String)}
    (hnames : ∀ m ∈ merges, Manifest.nameFault? m.1 = none) (hno : w.files.HoldsNoLinks dir) :
    (∀ ps w', (placeAll dir merges).run w = (.ok ps, w') →
      merges = [] ∧ w' = w ∨
        ∃ f d contents, w.files.Makes dir f d ∧ Merged dir merges f d w'.files ∧
          f.textAt? (d ++ ["index.d.ts"]) = some contents ∧
          w'.files.textAt? (d ++ ["index.d.ts"]) = some (contents ++
            (if unlisted contents (merges.map (·.1)) = [] then "" else closing contents) ++
            String.join ((unlisted contents (merges.map (·.1))).map fun name ↦
              "export * from './" ++ name ++ "';\n"))) ∧
    ∀ d, Files.IsRoomy dir →
      (∀ m ∈ merges, Files.utf8Size (declarationName m.1) ≤ Files.longestName) →
      IsReady dir (merges.map (·.1)) w.files d →
        ∃ ps w', (placeAll dir merges).run w = (.ok ps, w') := by
  have haccepted : ∀ m ∈ merges, IsAccepted m.1 :=
    fun m hm ↦ Manifest.nameFault?_eq_none.1 (hnames m hm)
  refine ⟨fun ps w' h ↦ ?_, fun d hroom hsizes hready ↦ ?_⟩
  · refine (merged_of_placeAll haccepted hno h).imp_right ?_
    rintro ⟨f, d, hmakes, hmerged⟩
    obtain ⟨contents, htext, hindex⟩ := hmerged.textAt?_index
    exact ⟨f, d, contents, hmakes, hmerged, htext, indexAfter_eq contents _ ▸ hindex⟩
  · exact placeAll_succeeds hroom (fun m hm ↦ ⟨haccepted m hm, hsizes m hm⟩) hready

def openEnded : Files where
  tree := .folder [("types", .folder [(indexName, .file ⟨"export * from './a-b';".toUTF8, none⟩)])]

theorem openEnded_leadsTo : openEnded.LeadsTo "types" ["types"] :=
  .enter (by decide) (by decide) (by decide) rfl (.done rfl)

theorem node?_openEnded {s : String} (h : s ≠ indexName) :
    openEnded.tree.node? (["types"] ++ [s]) = none := by
  have hfolder : openEnded.tree.get? ["types"] = some (.folder [(indexName, _)]) := rfl
  rw [Tree.node?_eq_none, Tree.get?_child hfolder, List.lookup_cons, beq_false_of_ne h]
  rfl

theorem isReady_openEnded : IsReady "types" ["shop", "b", "shop"] openEnded ["types"] := by
  have htext : openEnded.textAt? (["types"] ++ [indexName]) = some "export * from './a-b';" := by
    decide +kernel
  have hnoLinks : openEnded.HoldsNoLinks "types" := by
    rw [Files.holdsNoLinks_iff openEnded_leadsTo]
    intro s t hlink
    by_cases hs : s = indexName
    · rw [hs] at hlink
      rw [Files.textAt?, hlink] at htext
      cases htext
    · rw [node?_openEnded hs] at hlink
      cases hlink
  refine ⟨openEnded_leadsTo, hnoLinks, ⟨_, htext⟩, fun n hn hfolder ↦ ?_, 0, by decide, ?_⟩
  · have hne : ∀ n ∈ ["shop", "b", "shop"], declarationName n ≠ indexName := by decide
    rw [node?_openEnded (hne n hn)] at hfolder
    cases hfolder
  · exact node?_openEnded (indexName_ne_temporaryName 0).symm

theorem placeAll_merges_openEnded :
    ∃ ps w', (placeAll "types" [("shop", "s"), ("b", "c"), ("shop", "t")]).run
        ⟨openEnded, [], [], []⟩ = (.ok ps, w') ∧
      Merged "types" [("shop", "s"), ("b", "c"), ("shop", "t")] openEnded ["types"] w'.files ∧
      w'.files.textAt? ["types", "index.d.ts"] =
        some "export * from './a-b';\nexport * from './shop';\nexport * from './b';\n" := by
  obtain ⟨hmerges, hsucceeds⟩ := @placeAll_merges "types" ⟨openEnded, [], [], []⟩
    [("shop", "s"), ("b", "c"), ("shop", "t")] (by decide) isReady_openEnded.noLinks
  obtain ⟨ps, w', h⟩ := hsucceeds ["types"] ⟨by decide, by decide, by decide⟩ (by decide)
    isReady_openEnded
  obtain ⟨f, d, contents, hmakes, hmerged, htext, hindex⟩ :=
    (hmerges ps w' h).resolve_left fun hnil ↦ by simp at hnil
  obtain ⟨rfl, rfl⟩ := hmakes.eq openEnded_leadsTo
  obtain rfl : "export * from './a-b';" = contents := by
    have hopen : openEnded.textAt? (["types"] ++ ["index.d.ts"]) =
        some "export * from './a-b';" := by
      decide +kernel
    exact Option.some.inj (hopen.symm.trans htext)
  exact ⟨ps, w', h, hmerged, hindex.trans (by decide +kernel)⟩

end AmbientTypes.SharedFolder
