import AmbientTypes.Proofs.SharedFolder.Steps

namespace AmbientTypes

open Manifest (IsAccepted)

namespace SharedFolder

variable {dir name text : String} {w w' : World}

def stubAfter (dir : String) (initial : Option Node) : Option Node :=
  initial.or (if holdsTypePackages dir then some (.file ⟨stubText.toUTF8, none⟩) else none)

theorem stubAfter_stubAfter (dir : String) (initial : Option Node) :
    stubAfter dir (stubAfter dir initial) = stubAfter dir initial := by
  simp only [stubAfter, Option.or_assoc, Option.or_self]

theorem StubTold.eq_stubAfter {before after : Option Node} {c : StubChange}
    (h : StubTold dir before after c) : after = stubAfter dir before := by
  cases h with
  | created htypes hnone => rw [hnone, stubAfter, if_pos htypes, Option.none_or]
  | alreadyPresent _ hbefore =>
    obtain ⟨node, rfl⟩ := Option.ne_none_iff_exists'.1 hbefore
    rw [stubAfter, Option.some_or]
  | notApplicable htypes => simp [stubAfter, htypes]

theorem lookup_reverse_concat (merges : List (String × String)) (m : String × String)
    (name : String) :
    (merges ++ [m]).reverse.lookup name =
      if name = m.1 then some m.2 else merges.reverse.lookup name := by
  rw [List.reverse_append, List.reverse_singleton, List.singleton_append, List.lookup_cons]
  by_cases h : name = m.1
  · simp [h]
  · rw [beq_false_of_ne h, if_neg h]

/-- The shared directory after packages were merged into it, each with its text: `f` before the
first merge, and `g` after the last. -/
structure Merged (dir : String) (merges : List (String × String)) (f : Files) (d : Location)
    (g : Files) : Prop where
  cwd : g.cwd = f.cwd
  leadsTo : g.LeadsTo dir d
  declarations : ∀ name text, merges.reverse.lookup name = some text →
    g.tree.node? (d ++ [declarationName name]) = some (.file ⟨text.toUTF8, none⟩)
  index : ∃ contents k, f.textAt? (d ++ [indexName]) = some contents ∧
    g.tree.node? (d ++ [indexName]) = some (.file k) ∧
      k.bytes = (indexAfter contents (merges.map (·.1))).toUTF8
  stub : g.tree.node? (d ++ [stubName]) = stubAfter dir (f.tree.node? (d ++ [stubName]))
  others : ∀ l, l ≠ d ++ [indexName] → l ≠ d ++ [stubName] →
    (∀ m ∈ merges, l ≠ d ++ [declarationName m.1]) → g.tree.node? l = f.tree.node? l

namespace Merged

variable {merges : List (String × String)} {f g : Files} {d : Location}

theorem textAt?_index (h : Merged dir merges f d g) :
    ∃ contents, f.textAt? (d ++ [indexName]) = some contents ∧
      g.textAt? (d ++ [indexName]) = some (indexAfter contents (merges.map (·.1))) := by
  obtain ⟨contents, k, htext, hk, hbytes⟩ := h.index
  refine ⟨contents, htext, ?_⟩
  simp only [Files.textAt?, hk, hbytes, Text.ofUtf8?_toUTF8]

theorem holdsNoLinks (h : Merged dir merges f d g) (hd : f.LeadsTo dir d)
    (hno : f.HoldsNoLinks dir) : g.HoldsNoLinks dir := by
  rw [Files.holdsNoLinks_iff h.leadsTo]
  rw [Files.holdsNoLinks_iff hd] at hno
  intro s t
  by_cases hindex : s = indexName
  · obtain ⟨-, k, -, hk, -⟩ := h.index
    simp [hindex, hk]
  by_cases hstub : s = stubName
  · rw [hstub, h.stub]
    cases hs : f.tree.node? (d ++ [stubName]) with
    | some n => exact fun hl ↦ hno stubName t (hs.trans hl)
    | none => unfold stubAfter; split <;> simp
  by_cases hm : ∃ m ∈ merges, s = declarationName m.1
  · obtain ⟨m, hm, rfl⟩ := hm
    obtain ⟨text, htext⟩ := Option.isSome_iff_exists.1
      (List.lookup_isSome_iff.2 ⟨m, List.mem_reverse.2 hm, beq_self_eq_true m.1⟩)
    simp [h.declarations m.1 text htext]
  · rw [h.others _ (by simpa using hindex) (by simpa using hstub)
      fun m hm' ↦ by simpa using fun hs ↦ hm ⟨m, hm', hs⟩]
    exact hno s t

end Merged

theorem placeStubIfWanted_ok {d : Location} (hd : w.files.LeadsTo dir d) {c : StubChange}
    (h : (placeStubIfWanted dir).run w = (.ok c, w')) :
    Files.Sets w.files d stubName (stubAfter dir (w.files.tree.node? (d ++ [stubName]))) w'.files ∧
      w'.files.LeadsTo dir d ∧ (w.files.HoldsNoLinks dir → w'.files.HoldsNoLinks dir) := by
  rcases placeStubIfWanted_cases h with ⟨f, d', after, -, hmakes, hsets, htold⟩ | ⟨htypes, -, hsame⟩
  · obtain ⟨rfl, rfl⟩ := hmakes.eq hd
    rw [← htold.eq_stubAfter]
    refine ⟨hsets, hsets.leadsTo_of_kept htold.kept hd, fun hno ↦ ?_⟩
    cases htold with
    | created _ hnone => exact hno.sets hd hsets (by simp [hnone]) (by simp)
    | alreadyPresent | notApplicable => exact hno.grows (hsets.alike rfl).grows
  · rw [hsame]
    exact ⟨.refl (by simp [stubAfter, htypes]), hd, id⟩

theorem place_ok (ha : IsAccepted name) (hno : w.files.HoldsNoLinks dir) {p : Placement}
    (h : (place dir name text).run w = (.ok p, w')) :
    ∃ f d, w.files.Makes dir f d ∧ Merged dir [(name, text)] f d w'.files := by
  obtain ⟨f, d, f₁, f₂, i, s, contents, hmakes, hstages⟩ := place_stages ha h
  obtain ⟨bytes, g, hopen, htext⟩ := hstages.index.opens
  obtain ⟨k, hsets, hbytes⟩ := hstages.index.sets
  have hno₂ := hstages.noLinks hmakes.leadsTo (hno.grows hmakes.grows)
  obtain ⟨d', hd', hl, hat⟩ := index_of_openOrCreate hno₂ hopen
  obtain rfl := hd'.unique hstages.leadsTo
  obtain ⟨rfl, rfl⟩ : i = d' ∧ s = indexName := by simpa using hl
  have hname := declarationName_ne_indexName ha
  have hstub := declarationName_ne_stubName name
  refine ⟨f, i, hmakes, ?_⟩
  constructor
  · exact hsets.cwd.trans hstages.cwd
  · exact hstages.leadsTo_after
  · intro name' text' hlast
    have hlast' := (lookup_reverse_concat [] (name, text) name').symm.trans hlast
    obtain ⟨rfl, rfl⟩ : name' = name ∧ text = text' := by simpa using hlast'
    rw [hsets.of_ne (by simpa using hname), hstages.node?_declarations]
  · refine ⟨contents, k, ?_, hsets.self, ?_⟩
    · rw [← htext, ← hat]
      exact (Files.textAt?_congr (hstages.node?_of_ne (by simpa using hname.symm)
        (by simpa using indexName_ne_stubName))).symm
    · rw [hbytes, List.map_singleton, indexAfter_singleton ha]
  · rw [hsets.of_ne (by simpa using indexName_ne_stubName.symm), hstages.stubTold.eq_stubAfter]
  · intro l hi hs hm
    rw [hsets.of_ne hi, hstages.node?_of_ne (hm (name, text) (by simp)) hs]

/-- In a shared directory that is there, only what belongs to one package may have changed, and the
index has got no more than its line. -/
structure Confined (dir name : String) (f : Files) (d : Location) (g : Files) : Prop where
  leadsTo : g.LeadsTo dir d
  noLinks : g.HoldsNoLinks dir
  index : g.tree.node? (d ++ [indexName]) = f.tree.node? (d ++ [indexName]) ∨
    ∃ contents k, f.textAt? (d ++ [indexName]) = some contents ∧
      g.tree.node? (d ++ [indexName]) = some (.file k) ∧
        k.bytes = (indexAfter contents [name]).toUTF8
  others : ∀ s, s ≠ declarationName name → s ≠ indexName → s ≠ stubName →
    g.tree.node? (d ++ [s]) = f.tree.node? (d ++ [s])

theorem Confined.of_touches {f g : Files} {d : Location} (ha : IsAccepted name)
    (h : f.Touches dir d (declarationName name) g) : Confined dir name f d g :=
  ⟨h.leadsTo, h.noLinks, .inl (h.others _ (declarationName_ne_indexName ha).symm),
    fun s hs _ _ ↦ h.others s hs⟩

theorem Confined.after_touches {f g h : Files} {d : Location} (ha : IsAccepted name)
    (hfg : f.Touches dir d (declarationName name) g) (hgh : Confined dir name g d h) :
    Confined dir name f d h := by
  have hindex := hfg.others _ (declarationName_ne_indexName ha).symm
  refine ⟨hgh.leadsTo, hgh.noLinks, ?_, fun s hs hi hstub ↦ ?_⟩
  · rw [← hindex, ← Files.textAt?_congr hindex]
    exact hgh.index
  · rw [hgh.others s hs hi hstub, hfg.others s hs]

/-- A merge also leaves declarations of its package where there were some, however it ends. -/
structure Spares (dir name : String) (f : Files) (d : Location) (g : Files) : Prop
    extends Confined dir name f d g where
  own : f.HoldsFile d (declarationName name) → g.HoldsFile d (declarationName name)

theorem Merged.spares {f g : Files} {d : Location} (h : Merged dir [(name, text)] f d g)
    (hd : f.LeadsTo dir d) (hno : f.HoldsNoLinks dir) : Spares dir name f d g := by
  refine ⟨⟨h.leadsTo, h.holdsNoLinks hd hno, .inr h.index, fun s hs hi hstub ↦ ?_⟩, fun _ ↦ ?_⟩
  · exact h.others _ (by simpa using hi) (by simpa using hstub) (by simpa using hs)
  · exact ⟨_, h.declarations name text (by simp)⟩

theorem Spares.of_touches {f g h : Files} {d : Location} (ha : IsAccepted name)
    (hfg : f.Touches dir d (declarationName name) g) (hgh : g.Touches dir d stubName h)
    (hown : f.HoldsFile d (declarationName name) → g.HoldsFile d (declarationName name)) :
    Spares dir name f d h := by
  have hname := declarationName_ne_indexName ha
  have hstub := declarationName_ne_stubName name
  have hindex := (hgh.others _ indexName_ne_stubName).trans (hfg.others _ hname.symm)
  refine ⟨⟨hgh.leadsTo, hgh.noLinks, .inl hindex, fun s hs _ hs' ↦ ?_⟩, fun hf ↦ ?_⟩
  · exact (hgh.others s hs').trans (hfg.others s hs)
  · obtain ⟨k, hk⟩ := hown hf
    exact ⟨k, (hgh.others _ hstub).trans hk⟩

theorem place_spares (ha : IsAccepted name) (hno : w.files.HoldsNoLinks dir) {d : Location}
    (hd : w.files.LeadsTo dir d) {r : Except Failure Placement}
    (h : (place dir name text).run w = (r, w')) : Spares dir name w.files d w'.files := by
  cases r with
  | ok p =>
    obtain ⟨f, e, hmakes, hmerged⟩ := place_ok ha hno h
    obtain ⟨rfl, rfl⟩ := hmakes.eq hd
    exact hmerged.spares hd hno
  | error e =>
    rw [place, if_neg (by rw [not_same_indexName ha]; decide)] at h
    rcases Action.run_bind_error h with h | ⟨path, w₁, h₁, h⟩
    · have halike := (placeDeclarations_error ha h).alike d hd
      have htouches := Files.Touches.of_alike hd hno halike (declarationName name)
      refine .of_touches ha htouches (.refl htouches.leadsTo htouches.noLinks stubName) ?_
      rintro ⟨k, hk⟩
      exact ⟨k, (halike.node _).trans hk⟩
    obtain ⟨f, e, hmakes, ⟨-, hfolder, -⟩, hsets₁⟩ := placeDeclarations_ok ha h₁
    obtain ⟨rfl, rfl⟩ := hmakes.eq hd
    have htouches₁ := Files.Touches.of_sets hd hno hsets₁ hfolder (by simp)
    have hd₁ := htouches₁.leadsTo
    have hno₁ := htouches₁.noLinks
    rcases Action.run_bind_error h with h | ⟨stub, w₂, h₂, h⟩
    · have halike := (placeStubIfWanted_error h).alike e hd₁
      exact .of_touches ha htouches₁ (.of_alike hd₁ hno₁ halike stubName) fun _ ↦ ⟨_, hsets₁.self⟩
    obtain ⟨hsets₂, hd₂, hkeeps⟩ := placeStubIfWanted_ok hd₁ h₂
    have hno₂ := hkeeps hno₁
    have htouches₂ : w₁.files.Touches dir e stubName w₂.files :=
      ⟨hd₂, hno₂, fun r hr ↦ hsets₂.of_ne (by simpa using hr)⟩
    rcases Action.run_bind_error h with h | ⟨index, w₃, h₃, h⟩
    · have halike := (addToIndex_error h).alike e hd₂
      exact .of_touches ha htouches₁ (htouches₂.trans (.of_alike hd₂ hno₂ halike stubName))
        fun _ ↦ ⟨_, hsets₁.self⟩
    · cases h

theorem Merged.concat {merges : List (String × String)} {f g h : Files} {d : Location}
    (hf : Merged dir merges f d g) (hg : Merged dir [(name, text)] g d h)
    (hnames : ∀ m ∈ merges, IsAccepted m.1) (ha : IsAccepted name) :
    Merged dir (merges ++ [(name, text)]) f d h := by
  obtain ⟨contents, htext, hindex⟩ := hf.textAt?_index
  obtain ⟨contents', k', htext', hk', hbytes'⟩ := hg.index
  have hmore : contents' = indexAfter contents (merges.map (·.1)) :=
    Option.some.inj (htext'.symm.trans hindex)
  constructor
  · exact hg.cwd.trans hf.cwd
  · exact hg.leadsTo
  · intro name' text' hlast
    rw [lookup_reverse_concat] at hlast
    split at hlast
    · next hn =>
      refine hg.declarations name' text' ?_
      rw [hn, ← hlast]
      simp
    · next hn =>
      obtain ⟨m, hm, hm'⟩ := List.lookup_isSome_iff.1 (Option.isSome_of_eq_some hlast)
      have ha' : IsAccepted name' := eq_of_beq hm' ▸ hnames m (List.mem_reverse.1 hm)
      rw [← hf.declarations name' text' hlast]
      refine hg.others _ ?_ ?_ ?_
      · simpa using declarationName_ne_indexName ha'
      · simpa using declarationName_ne_stubName name'
      · simpa using fun h ↦ hn (declarationName_injective h)
  · refine ⟨contents, k', htext, hk', ?_⟩
    have hnames' : ∀ n ∈ merges.map (·.1), IsAccepted n := by
      intro n hn
      obtain ⟨m, hm, rfl⟩ := List.mem_map.1 hn
      exact hnames m hm
    rw [hbytes', hmore, List.map_append, List.map_singleton, indexAfter_singleton ha,
      indexAfter_concat ha hnames']
  · rw [hg.stub, hf.stub, stubAfter_stubAfter]
  · intro l hi hs hm
    rw [hg.others l hi hs fun m hm' ↦ hm m (List.mem_append_right _ hm'),
      hf.others l hi hs fun m hm' ↦ hm m (List.mem_append_left _ hm')]

end SharedFolder

end AmbientTypes
