import AmbientTypes.Proofs.SharedFolder.Merging

namespace AmbientTypes

open Manifest (IsAccepted)

/-- The names in the shared directory that some packages may write to. -/
def IsOpenTo (packages : List String) (s : String) : Prop :=
  s = indexName ∨ s = stubName ∨ ∃ n ∈ packages, s = declarationName n

/-- What packages may change, all in all. Files outside of the shared directory stay, and so do
those of other packages in it. -/
structure Footprint (dir : String) (packages : List String) (f g : Files) : Prop where
  leadsTo : ∀ d, f.LeadsTo dir d → g.LeadsTo dir d
  noLinks : g.HoldsNoLinks dir
  index : ∀ d k, f.LeadsTo dir d → f.tree.node? (d ++ [indexName]) = some (.file k) →
    ∃ k' more, g.tree.node? (d ++ [indexName]) = some (.file k') ∧ k'.bytes = k.bytes ++ more
  stub : ∀ d, f.LeadsTo dir d → f.tree.node? (d ++ [stubName]) ≠ none →
    g.tree.node? (d ++ [stubName]) = f.tree.node? (d ++ [stubName])
  others : ∀ l, g.tree.node? l = f.tree.node? l ∨
    (f.tree.node? l = none ∧ g.tree.node? l = some .folder) ∨
      ∃ d s, g.LeadsTo dir d ∧ l = d ++ [s] ∧ IsOpenTo packages s

namespace Footprint

variable {dir s : String} {packages more : List String} {f g h : Files} {d : Location}

theorem of_grows (hno : f.HoldsNoLinks dir) (hg : f.Grows g) : Footprint dir packages f g where
  leadsTo _ hd := hd.grows hg
  noLinks := hno.grows hg
  index d k _ hk := by
    refine ⟨k, .empty, ?_, ByteArray.append_empty.symm⟩
    rw [hg.node_of_ne_none (by simp [hk]), hk]
  stub _ _ hne := hg.node_of_ne_none hne
  others l := (hg.node l).imp_right .inl

theorem refl (hno : f.HoldsNoLinks dir) : Footprint dir packages f f :=
  of_grows hno (.refl f)

theorem trans (hfg : Footprint dir packages f g) (hgh : Footprint dir packages g h) :
    Footprint dir packages f h where
  leadsTo d hd := hgh.leadsTo d (hfg.leadsTo d hd)
  noLinks := hgh.noLinks
  index d k hd hk := by
    obtain ⟨k₁, more₁, hk₁, hbytes₁⟩ := hfg.index d k hd hk
    obtain ⟨k₂, more₂, hk₂, hbytes₂⟩ := hgh.index d k₁ (hfg.leadsTo d hd) hk₁
    exact ⟨k₂, more₁ ++ more₂, hk₂, by rw [hbytes₂, hbytes₁, ByteArray.append_assoc]⟩
  stub d hd hne := by
    have hkept := hfg.stub d hd hne
    rw [hgh.stub d (hfg.leadsTo d hd) (hkept ▸ hne), hkept]
  others l := by
    rcases hgh.others l with hl | ⟨hnone, hfolder⟩ | hopen
    · rw [hl]
      rcases hfg.others l with hl' | hnew | ⟨d, s, hd, hs⟩
      · exact .inl hl'
      · exact .inr (.inl hnew)
      · exact .inr (.inr ⟨d, s, hgh.leadsTo d hd, hs⟩)
    · rcases hfg.others l with hl' | ⟨-, hfolder'⟩ | ⟨d, s, hd, hs⟩
      · exact .inr (.inl ⟨hl' ▸ hnone, hfolder⟩)
      · cases hnone.symm.trans hfolder'
      · exact .inr (.inr ⟨d, s, hgh.leadsTo d hd, hs⟩)
    · exact .inr (.inr hopen)

theorem mono (h : Footprint dir packages f g) (hsub : packages ⊆ more) :
    Footprint dir more f g where
  leadsTo := h.leadsTo
  noLinks := h.noLinks
  index := h.index
  stub := h.stub
  others l := by
    refine (h.others l).imp_right (Or.imp_right ?_)
    rintro ⟨d, s, hd, hl, hs | hs | ⟨n, hn, hs⟩⟩
    · exact ⟨d, s, hd, hl, .inl hs⟩
    · exact ⟨d, s, hd, hl, .inr (.inl hs)⟩
    · exact ⟨d, s, hd, hl, .inr (.inr ⟨n, hsub hn, hs⟩)⟩

theorem congr {dir' : String} (h : Footprint dir packages f g)
    (hc : Path.components dir = Path.components dir') : Footprint dir' packages f g where
  leadsTo d hd := (h.leadsTo d (hd.congr hc.symm)).congr hc
  noLinks := h.noLinks.congr hc
  index d k hd := h.index d k (hd.congr hc.symm)
  stub d hd := h.stub d (hd.congr hc.symm)
  others l := by
    refine (h.others l).imp_right (Or.imp_right ?_)
    rintro ⟨d, s, hd, hl, hs⟩
    exact ⟨d, s, hd.congr hc, hl, hs⟩

/-- A change under one name of the shared directory. -/
theorem of_sets (hno : f.HoldsNoLinks dir) (hd : f.LeadsTo dir d) {node : Option Node}
    (hsets : Files.Sets f d s node g) (hfolder : f.tree.node? (d ++ [s]) ≠ some .folder)
    (hlink : ∀ t, node ≠ some (.link t)) (hopen : IsOpenTo packages s)
    (hindex : s = indexName → ∀ k, f.tree.node? (d ++ [s]) = some (.file k) →
      ∃ k' more, node = some (.file k') ∧ k'.bytes = k.bytes ++ more)
    (hstub : s = stubName → f.tree.node? (d ++ [s]) = none) : Footprint dir packages f g := by
  have hgd {e : Location} (he : f.LeadsTo dir e) : g.LeadsTo dir e :=
    hsets.leadsTo hfolder (hno.ne_link d hd) he
  refine ⟨fun _ ↦ hgd, hno.sets hd hsets hfolder hlink, fun e k he hk ↦ ?_, fun e he hne ↦ ?_,
    fun l ↦ ?_⟩
  · obtain rfl := he.unique hd
    by_cases hs : s = indexName
    · subst hs
      rw [hsets.self]
      exact hindex rfl k hk
    · rw [hsets.of_ne (by simpa using Ne.symm hs)]
      exact ⟨k, .empty, hk, ByteArray.append_empty.symm⟩
  · obtain rfl := he.unique hd
    by_cases hs : s = stubName
    · subst hs
      exact absurd (hstub rfl) hne
    · rw [hsets.of_ne (by simpa using Ne.symm hs)]
  · by_cases hl : l = d ++ [s]
    · exact .inr (.inr ⟨d, s, hgd hd, hl, hopen⟩)
    · exact .inl (hsets.of_ne hl)

/-- A package may do with its own declarations as it likes. -/
theorem of_sets_own {name : String} (ha : IsAccepted name) (hno : f.HoldsNoLinks dir)
    (hd : f.LeadsTo dir d) {node : Option Node}
    (hsets : Files.Sets f d (declarationName name) node g)
    (hfolder : f.tree.node? (d ++ [declarationName name]) ≠ some .folder)
    (hlink : ∀ t, node ≠ some (.link t)) : Footprint dir [name] f g :=
  of_sets hno hd hsets hfolder hlink (.inr (.inr ⟨name, by simp, rfl⟩))
    (fun h ↦ absurd h (declarationName_ne_indexName ha))
    (fun h ↦ absurd h (declarationName_ne_stubName name))

theorem of_mayMake (hno : f.HoldsNoLinks dir) (hm : f.MayMake dir g) :
    Footprint dir packages f g :=
  of_grows hno hm.grows

end Footprint

/-- An action that leaves no other traces than some packages may, however it ends. -/
def Action.StaysWithin {α : Type} (dir : String) (packages : List String) (a : Action α) : Prop :=
  ∀ w, w.files.HoldsNoLinks dir → Footprint dir packages w.files (a.run w).2.files

theorem Footprint.bind {α β : Type} {dir : String} {packages : List String} {f : Files} {w : World}
    {a : Action α} {b : α → Action β} (ha : Footprint dir packages f (a.run w).2.files)
    (hb : ∀ x, (b x).StaysWithin dir packages) :
    Footprint dir packages f ((a >>= b).run w).2.files := by
  rw [Action.run_bind]
  cases h : a.run w with
  | mk r v =>
    rw [h] at ha
    cases r with
    | ok x => exact ha.trans (hb x v ha.noLinks)
    | error e => exact ha

namespace Action.StaysWithin

variable {α β : Type} {dir : String} {packages : List String} {a : Action α} {b : α → Action β}

theorem of_keepsFiles (h : a.KeepsFiles) : StaysWithin dir packages a := by
  intro w hno
  rw [h w]
  exact .refl hno

theorem of_cases (hok : ∀ w w' x, w.files.HoldsNoLinks dir → a.run w = (.ok x, w') →
      Footprint dir packages w.files w'.files)
    (herror : ∀ w w' e, w.files.HoldsNoLinks dir → a.run w = (.error e, w') →
      Footprint dir packages w.files w'.files) : StaysWithin dir packages a := by
  intro w hno
  cases h : a.run w with
  | mk r w' =>
    cases r with
    | ok x => exact hok w w' x hno h
    | error e => exact herror w w' e hno h

theorem bind (ha : StaysWithin dir packages a) (hb : ∀ x, StaysWithin dir packages (b x)) :
    StaysWithin dir packages (a >>= b) :=
  fun w hno ↦ (ha w hno).bind hb

end Action.StaysWithin

open AmbientTypes.Action (StaysWithin)

theorem Storage.staysWithin_discardFile {dir name : String} (ha : IsAccepted name) :
    StaysWithin dir [name] (discardFile (Path.join dir (declarationName name))) := by
  refine .of_cases (fun w w' b hno h ↦ ?_) fun w w' e hno h ↦ by
    rw [discardFile_error h]
    exact .refl hno
  rcases discardFile_ok (isName_declarationName ha) h with
    ⟨d, hd, hfolder, hsets⟩ | ⟨hsame, -⟩
  · exact .of_sets_own ha hno hd hsets hfolder (by simp)
  · rw [hsame]
    exact .refl hno

namespace SharedFolder

variable {dir name : String}

theorem staysWithin_placeDeclarations (ha : IsAccepted name) (text : String) :
    StaysWithin dir [name] (placeDeclarations dir name text) := by
  refine .of_cases (fun w w' p hno h ↦ ?_) fun w w' e hno h ↦ ?_
  · obtain ⟨f, d, hmakes, ⟨-, hfolder, -⟩, hsets⟩ := placeDeclarations_ok ha h
    have hmade : Footprint dir [name] w.files f := .of_grows hno hmakes.grows
    exact hmade.trans (.of_sets_own ha hmade.noLinks hmakes.leadsTo hsets hfolder (by simp))
  · exact .of_mayMake hno (placeDeclarations_error ha h)

theorem staysWithin_placeStubIfWanted : StaysWithin dir [name] (placeStubIfWanted dir) := by
  refine .of_cases (fun w w' c hno h ↦ ?_) fun w w' e hno h ↦
    .of_mayMake hno (placeStubIfWanted_error h)
  rcases placeStubIfWanted_cases h with ⟨f, d, after, -, hmakes, hsets, htold⟩ | ⟨-, -, hsame⟩
  · have hmade : Footprint dir [name] w.files f := .of_grows hno hmakes.grows
    cases htold with
    | created _ hnone =>
      exact hmade.trans (.of_sets hmade.noLinks hmakes.leadsTo hsets (by simp [hnone]) (by simp)
        (.inr (.inl rfl)) (fun h ↦ absurd h indexName_ne_stubName.symm) fun _ ↦ hnone)
    | alreadyPresent | notApplicable =>
      exact hmade.trans (.of_grows hmade.noLinks (hsets.alike rfl).grows)
  · rw [hsame]
    exact .refl hno

theorem staysWithin_addToIndex : StaysWithin dir [name] (addToIndex dir name) := by
  refine .of_cases (fun w w' c hno h ↦ ?_) fun w w' e hno h ↦
    .of_mayMake hno (addToIndex_error h)
  obtain ⟨f, d, contents, k, hmakes, htext, hbytes, hsets⟩ := addToIndex_ok hno h
  have hmade : Footprint dir [name] w.files f := .of_grows hno hmakes.grows
  refine hmade.trans (.of_sets hmade.noLinks hmakes.leadsTo hsets
    (Files.node?_ne_folder_of_textAt? htext) (by simp) (.inl rfl) (fun _ k₀ hk₀ ↦ ?_)
    fun h ↦ absurd h indexName_ne_stubName)
  -- What was read is the whole of the index, so the new content starts with the old one.
  rw [Files.textAt?, hk₀] at htext
  refine ⟨k, ((indexAddition? contents name).getD "").toUTF8, rfl, ?_⟩
  rw [hbytes, Text.toUTF8_append, Text.toUTF8_of_ofUtf8? htext]

theorem staysWithin_place (ha : IsAccepted name) (text : String) :
    StaysWithin dir [name] (place dir name text) := by
  rw [place, if_neg (by rw [not_same_indexName ha]; decide)]
  exact .bind (staysWithin_placeDeclarations ha text) fun _ ↦
    .bind staysWithin_placeStubIfWanted fun _ ↦
      .bind staysWithin_addToIndex fun _ ↦ .of_keepsFiles (.pure _)

end SharedFolder

end AmbientTypes
