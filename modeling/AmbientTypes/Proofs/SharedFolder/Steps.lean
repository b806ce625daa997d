import AmbientTypes.Proofs.SharedFolder.Index
import AmbientTypes.Proofs.Tree.Keeping

namespace AmbientTypes

open Manifest (IsAccepted)

def Files.textAt? (f : Files) (l : Location) : Option String :=
  match f.tree.node? l with
  | none => some ""
  | some (.file k) => Text.ofUtf8? k.bytes
  | _ => none

theorem Files.node?_ne_folder_of_textAt? {f : Files} {l : Location} {s : String}
    (h : f.textAt? l = some s) : f.tree.node? l ≠ some .folder := by
  intro hl
  rw [textAt?, hl] at h
  cases h

theorem Files.textAt?_congr {f g : Files} {l : Location}
    (h : g.tree.node? l = f.tree.node? l) : g.textAt? l = f.textAt? l := by
  rw [Files.textAt?, Files.textAt?, h]

theorem Files.sets_of_openOrCreate {f g : Files} {path : String} {l : Location} {bytes : ByteArray}
    (hpath : segments path ≠ []) (h : f.openOrCreate path = .ok (l, bytes, g)) :
    ∃ d s k, l = d ++ [s] ∧ k.bytes = bytes ∧ f.textAt? l = Text.ofUtf8? bytes ∧
      Sets f d s (some (.file k)) g := by
  obtain ⟨d, s, rfl, ⟨k, hk, rfl, rfl⟩ | ⟨hnone, rfl, hsets⟩⟩ := openOrCreate_ok hpath h
  · exact ⟨d, s, k, rfl, rfl, by rw [textAt?, hk], .refl hk⟩
  · have hempty : Text.ofUtf8? .empty = some "" := Text.ofUtf8?_toUTF8 ""
    exact ⟨d, s, ⟨.empty, none⟩, rfl, rfl, by rw [textAt?, hnone, hempty], hsets⟩

theorem Text.toUTF8_of_ofUtf8? {bytes : ByteArray} {s : String} (h : Text.ofUtf8? bytes = some s) :
    s.toUTF8 = bytes := by
  unfold Text.ofUtf8? String.fromUTF8? at h
  split at h
  · obtain rfl := Option.some.inj h
    rfl
  · cases h

theorem Text.toUTF8_append (s t : String) : (s ++ t).toUTF8 = s.toUTF8 ++ t.toUTF8 := rfl

/-- A directory is led to as before where an entry has been made, but none changed. -/
theorem Files.Sets.leadsTo_of_kept {f g : Files} {d e : Location} {s : String}
    {node : Option Node} (h : Sets f d s node g)
    (hkept : f.tree.node? (d ++ [s]) ≠ none → node = f.tree.node? (d ++ [s]))
    (he : f.LeadsTo dir e) : g.LeadsTo dir e := by
  have hsame {l : Location} {x : Node} (hl : f.tree.node? l = some x) :
      g.tree.node? l = some x := by
    rw [h.node]
    split
    · next heq =>
      rw [heq] at hl
      rw [hkept (by simp [hl]), hl]
    · exact hl
  exact he.mono h.cwd (fun _ ↦ hsame) fun _ _ ↦ hsame

namespace SharedFolder

variable {dir name text : String} {w w' : World}

theorem placeDeclarations_ok (ha : IsAccepted name) {p : String}
    (h : (placeDeclarations dir name text).run w = (.ok p, w')) :
    ∃ f d, w.files.Makes dir f d ∧ Storage.CanReplace dir (declarationName name) d f ∧
      Files.Sets f d (declarationName name) (some (.file ⟨text.toUTF8, none⟩)) w'.files := by
  obtain ⟨_, v, hv, h⟩ := Action.run_bind_ok h
  have hplaced := Storage.replaceFile_ok (isName_declarationName ha) hv
  rw [Action.run_log_bind, Action.run_pure] at h
  obtain ⟨-, rfl⟩ := Prod.mk.inj h
  exact hplaced

theorem placeDeclarations_error (ha : IsAccepted name) {e : Failure}
    (h : (placeDeclarations dir name text).run w = (.error e, w')) :
    w.files.MayMake dir w'.files := by
  rcases Action.run_bind_error h with h | ⟨_, v, -, h⟩
  · exact Storage.replaceFile_error (isName_declarationName ha) h
  · rw [Action.run_log_bind, Action.run_pure] at h
    cases h

/-- What is said of the description of a directory, by what stood and stands there. -/
inductive StubTold (dir : String) (before : Option Node) : Option Node → StubChange → Prop
  | created (htypes : holdsTypePackages dir = true) (hbefore : before = none) :
      StubTold dir before (some (.file ⟨stubText.toUTF8, none⟩)) .created
  | alreadyPresent (htypes : holdsTypePackages dir = true) (hbefore : before ≠ none) :
      StubTold dir before before .alreadyPresent
  | notApplicable (htypes : holdsTypePackages dir = false) :
      StubTold dir before before .notApplicable

theorem StubTold.kept {before after : Option Node} {c : StubChange}
    (h : StubTold dir before after c) (hbefore : before ≠ none) : after = before := by
  cases h with
  | created _ hnone => exact absurd hnone hbefore
  | alreadyPresent => rfl
  | notApplicable => rfl

theorem StubTold.kept_or_file {before after : Option Node} {c : StubChange}
    (h : StubTold dir before after c) :
    after = before ∨ after = some (.file ⟨stubText.toUTF8, none⟩) := by
  cases h with
  | created => exact .inr rfl
  | alreadyPresent => exact .inl rfl
  | notApplicable => exact .inl rfl

theorem StubTold.exists {before after : Option Node} {c : StubChange}
    (h : StubTold dir before after c) (htypes : holdsTypePackages dir = true) : after ≠ none := by
  cases h with
  | created => simp
  | alreadyPresent _ hbefore => exact hbefore
  | notApplicable hnot =>
    rw [htypes] at hnot
    cases hnot

theorem placeStubIfWanted_cases {c : StubChange} (h : (placeStubIfWanted dir).run w = (.ok c, w')) :
    (∃ f d after, Files.Fits dir stubName ∧ w.files.Makes dir f d ∧
      Files.Sets f d stubName after w'.files ∧
        StubTold dir (f.tree.node? (d ++ [stubName])) after c) ∨
    holdsTypePackages dir = false ∧ c = .notApplicable ∧ w'.files = w.files := by
  unfold placeStubIfWanted at h
  split at h
  · next htypes =>
    refine .inl ?_
    obtain ⟨_, v, hv, h⟩ := Action.run_bind_ok h
    obtain ⟨hgrows, hsame⟩ := Storage.requireFolder_ok hv
    obtain ⟨b, v', hv', h⟩ := Action.run_bind_ok h
    obtain ⟨d, hfits, hd, ⟨rfl, hnone, hsets⟩ | ⟨rfl, hnode, hkept⟩⟩ :=
      Storage.createFile_ok isName_stubName hv'
    · simp only [if_true, Action.run_log_bind, Action.run_pure] at h
      obtain ⟨hc, rfl⟩ := Prod.mk.inj h
      obtain rfl := Except.ok.inj hc
      exact ⟨v.files, d, _, hfits, ⟨hgrows, hsame, hd⟩, hsets, .created htypes hnone⟩
    · simp only [if_false, Bool.false_eq_true, Action.run_log_bind, Action.run_pure] at h
      obtain ⟨hc, rfl⟩ := Prod.mk.inj h
      obtain rfl := Except.ok.inj hc
      refine ⟨v.files, d, _, hfits, ⟨hgrows, hsame, hd⟩, ?_, .alreadyPresent htypes hnode⟩
      rw [hkept]
      exact .refl rfl
  · next htypes =>
    rw [Action.run_log_bind, Action.run_pure] at h
    obtain ⟨hc, rfl⟩ := Prod.mk.inj h
    exact .inr ⟨by simpa using htypes, (Except.ok.inj hc).symm, rfl⟩

theorem placeStub_error {e : Failure} (h : (placeStub dir).run w = (.error e, w')) :
    w.files.MayMake dir w'.files := by
  rcases Action.run_bind_error h with h | ⟨_, v, hv, h⟩
  · exact Storage.requireFolder_error h
  · rcases Action.run_bind_error h with h | ⟨b, v', -, h⟩
    · obtain ⟨hgrows, hsame⟩ := Storage.requireFolder_ok hv
      rw [Storage.createFile_error h]
      exact ⟨hgrows, fun d hd ↦ hsame d hd ▸ .refl _⟩
    · cases b <;>
      · simp only [Action.run_log_bind, Action.run_pure, if_true, if_false,
          Bool.false_eq_true] at h
        cases h

theorem placeStubIfWanted_error {e : Failure}
    (h : (placeStubIfWanted dir).run w = (.error e, w')) : w.files.MayMake dir w'.files := by
  unfold placeStubIfWanted at h
  split at h
  · exact placeStub_error h
  · rw [Action.run_log_bind, Action.run_pure] at h
    cases h

theorem run_openIndex (path : String) (w : World) :
    (openIndex path).run w =
      match w.files.openOrCreate path with
      | .ok (l, bytes, f) => (.ok (l, bytes), { w with files := f })
      | .error e => (.error (.openingIndex path e), w) := by
  rw [openIndex, Action.run_bind, Action.run_inspect]
  cases w.files.openOrCreate path with
  | ok r => simp only [Action.run_bind, Action.run_setFiles, Action.run_pure]
  | error e => rfl

theorem openIndex_ok {path : String} {l : Location} {bytes : ByteArray}
    (h : (openIndex path).run w = (.ok (l, bytes), w')) :
    ∃ g, w.files.openOrCreate path = .ok (l, bytes, g) ∧ w' = { w with files := g } := by
  rw [run_openIndex] at h
  split at h
  · next l' bytes' g hopen =>
    obtain ⟨hr, rfl⟩ := Prod.mk.inj h
    obtain ⟨rfl, rfl⟩ := Prod.mk.inj (Except.ok.inj hr)
    exact ⟨g, hopen, rfl⟩
  · cases h

theorem openIndex_unread {path : String} {l : Location} {bytes : ByteArray}
    (h : (openIndex path).run w = (.ok (l, bytes), w')) (hbytes : Text.ofUtf8? bytes = none) :
    w'.files = w.files := by
  obtain ⟨g, hopen, rfl⟩ := openIndex_ok h
  obtain ⟨-, -, -, ⟨k, -, -, hsame⟩ | ⟨-, rfl, -⟩⟩ := Files.resolve_of_openOrCreate hopen
  · exact hsame
  · have hempty : Text.ofUtf8? .empty = some "" := Text.ofUtf8?_toUTF8 ""
    rw [hempty] at hbytes
    cases hbytes

theorem addToIndex_error {e : Failure} (h : (addToIndex dir name).run w = (.error e, w')) :
    w.files.MayMake dir w'.files := by
  rcases Action.run_bind_error h with h | ⟨_, v, hv, h⟩
  · exact Storage.requireFolder_error h
  obtain ⟨hgrows, hsame⟩ := Storage.requireFolder_ok hv
  have hmay : w.files.MayMake dir v.files := ⟨hgrows, fun d hd ↦ hsame d hd ▸ .refl _⟩
  rw [Action.run_bind, Action.run_files] at h
  rcases Action.run_bind_error h with h | ⟨⟨l, bytes⟩, u, hu, h⟩
  · rw [run_openIndex] at h
    split at h
    · cases h
    · obtain ⟨-, rfl⟩ := Prod.mk.inj h
      exact hmay
  · cases hcontents : Text.ofUtf8? bytes with
    | none =>
      simp only [hcontents, Action.run_throw] at h
      obtain ⟨-, rfl⟩ := Prod.mk.inj h
      rwa [openIndex_unread hu hcontents]
    | some contents =>
      simp only [hcontents] at h
      cases hadd : indexAddition? contents name with
      | none =>
        simp only [hadd, Action.run_log_bind, Action.run_pure] at h
        cases h
      | some addition =>
        simp only [hadd, Action.run_bind, Action.run_files, Action.run_setFiles] at h
        split at h <;>
        · rw [Action.run_log_bind, Action.run_pure] at h
          cases h

/-- How the line of a package gets into an index: what changes is the content of one file, wherever
the path of the index leads. -/
structure Adds (path name : String) (f : Files) (d : Location) (s contents : String)
    (c : IndexChange) (g : Files) : Prop where
  opens : ∃ bytes h, f.openOrCreate path = .ok (d ++ [s], bytes, h) ∧
    Text.ofUtf8? bytes = some contents
  sets : ∃ k, Files.Sets f d s (some (.file k)) g ∧
    k.bytes = (contents ++ (indexAddition? contents name).getD "").toUTF8
  told : c = if Lists contents name then .unchanged
    else if f.pathExists path then .appended else .created

theorem addToIndex_adds {c : IndexChange} (h : (addToIndex dir name).run w = (.ok c, w')) :
    ∃ f d s contents, w.files.Grows f ∧ (∀ e, w.files.LeadsTo dir e → f = w.files) ∧
      Adds (Path.join dir indexName) name f d s contents c w'.files := by
  obtain ⟨_, v, hv, h⟩ := Action.run_bind_ok h
  obtain ⟨hgrows, hsame⟩ := Storage.requireFolder_ok hv
  rw [Action.run_bind, Action.run_files] at h
  obtain ⟨⟨l, bytes⟩, u, hu, h⟩ := Action.run_bind_ok h
  obtain ⟨g, hopen, rfl⟩ := openIndex_ok hu
  obtain ⟨d, s, k, rfl, hbytes, -, hsets⟩ :=
    Files.sets_of_openOrCreate (Files.segments_join_ne_nil dir isName_indexName) hopen
  cases htext : Text.ofUtf8? bytes with
  | none => simp [htext] at h
  | some contents =>
    have hutf8 := Text.toUTF8_of_ofUtf8? htext
    simp only [htext, indexAddition?_eq] at h
    refine ⟨v.files, d, s, contents, hgrows, hsame, ?_⟩
    by_cases hlists : Lists contents name
    · simp only [hlists, if_true, Action.run_log_bind, Action.run_pure] at h
      obtain ⟨hc, rfl⟩ := Prod.mk.inj h
      obtain rfl := Except.ok.inj hc
      refine ⟨⟨bytes, g, hopen, htext⟩, ⟨k, hsets, ?_⟩, by rw [if_pos hlists]⟩
      rw [indexAddition?_eq, if_pos hlists, Option.getD_none, String.append_empty, hutf8, hbytes]
    · obtain ⟨rfl, hfiles⟩ : c = (if v.files.pathExists (Path.join dir indexName) then
            IndexChange.appended else .created) ∧ w'.files = g.putBytes (d ++ [s])
            (bytes ++ (closing contents ++ indexLine name ++ "\n").toUTF8) := by
        simp only [hlists, if_false, Action.run_bind, Action.run_files, Action.run_setFiles] at h
        split at h <;>
        · next hexists =>
          rw [Action.run_log_bind, Action.run_pure] at h
          obtain ⟨hc, rfl⟩ := Prod.mk.inj h
          simp [hexists, ← Except.ok.inj hc]
      have hfolder : g.tree.node? d = some .folder := Tree.node?_parent (by rw [hsets.self]; simp)
      have hput := Files.sets_putBytes hfolder (by simp [hsets.self] : g.tree.node? (d ++ [s]) ≠ _)
        (bytes ++ (closing contents ++ indexLine name ++ "\n").toUTF8)
      refine ⟨⟨bytes, g, hopen, htext⟩, ⟨_, hfiles ▸ hsets.trans hput, ?_⟩, by rw [if_neg hlists]⟩
      rw [indexAddition?_eq, if_neg hlists, Option.getD_some, Text.toUTF8_append contents, hutf8]

theorem Adds.leadsTo {f g : Files} {d : Location} {s contents : String} {c : IndexChange}
    (h : Adds (Path.join dir indexName) name f d s contents c g) : ∃ e, f.LeadsTo dir e := by
  obtain ⟨bytes, h, hopen, -⟩ := h.opens
  obtain ⟨target, hr, -⟩ := Files.resolve_of_openOrCreate hopen
  rw [Files.resolve_join isName_indexName, Files.resolveWith] at hr
  split at hr
  · cases hr
  · have hstart : f.start (Path.join dir indexName) = f.start dir := by
      rw [Files.start, Files.start, Files.isAbsolute_join dir isName_indexName]
    rw [hstart, Files.segments_join dir isName_indexName] at hr
    exact Files.leads_of_walk hr

namespace Adds

variable {f g : Files} {i : Location} {s contents : String} {c : IndexChange}

theorem node (h : Adds (Path.join dir indexName) name f i s contents c g) :
    (∃ k, f.tree.node? (i ++ [s]) = some (.file k) ∧ Text.ofUtf8? k.bytes = some contents) ∨
      f.tree.node? (i ++ [s]) = none ∧ contents = "" := by
  obtain ⟨bytes, h₀, hopen, htext⟩ := h.opens
  obtain ⟨target, -, -, ⟨k, hk, rfl, -⟩ | ⟨hnone, rfl, -⟩⟩ := Files.resolve_of_openOrCreate hopen
  · exact .inl ⟨k, hk, htext⟩
  · have hempty : Text.ofUtf8? .empty = some "" := Text.ofUtf8?_toUTF8 ""
    exact .inr ⟨hnone, Option.some.inj (htext.symm.trans hempty)⟩

theorem leadsTo_after (h : Adds (Path.join dir indexName) name f i s contents c g) {d : Location}
    (hd : f.LeadsTo dir d) : g.LeadsTo dir d := by
  obtain ⟨k, hsets, -⟩ := h.sets
  refine hsets.leadsTo ?_ ?_ hd
  · rcases h.node with ⟨k, hk, -⟩ | ⟨hnone, -⟩
    · simp [hk]
    · simp [hnone]
  · rcases h.node with ⟨k, hk, -⟩ | ⟨hnone, -⟩
    · simp [hk]
    · simp [hnone]

end Adds

/-- Where no link is in the way, an index is opened in its directory. -/
theorem index_of_openOrCreate {f g : Files} (hno : f.HoldsNoLinks dir) {l : Location}
    {bytes : ByteArray} (h : f.openOrCreate (Path.join dir indexName) = .ok (l, bytes, g)) :
    ∃ d, f.LeadsTo dir d ∧ l = d ++ [indexName] ∧ f.textAt? l = Text.ofUtf8? bytes := by
  obtain ⟨d, hd, rfl, -⟩ := Files.openOrCreate_join_ok isName_indexName hno.ne_link h
  obtain ⟨-, -, -, -, -, htext, -⟩ :=
    Files.sets_of_openOrCreate (Files.segments_join_ne_nil dir isName_indexName) h
  exact ⟨d, hd, rfl, htext⟩

theorem addToIndex_ok (hno : w.files.HoldsNoLinks dir) {c : IndexChange}
    (h : (addToIndex dir name).run w = (.ok c, w')) :
    ∃ f d contents k, w.files.Makes dir f d ∧ f.textAt? (d ++ [indexName]) = some contents ∧
      k.bytes = (contents ++ (indexAddition? contents name).getD "").toUTF8 ∧
      Files.Sets f d indexName (some (.file k)) w'.files := by
  obtain ⟨f, i, s, contents, hgrows, hsame, hadds⟩ := addToIndex_adds h
  obtain ⟨bytes, g, hopen, htext⟩ := hadds.opens
  obtain ⟨k, hsets, hbytes⟩ := hadds.sets
  obtain ⟨d, hd, hl, hat⟩ := index_of_openOrCreate (hno.grows hgrows) hopen
  obtain ⟨rfl, rfl⟩ : i = d ∧ s = indexName := by simpa using hl
  exact ⟨f, i, contents, k, ⟨hgrows, hsame, hd⟩, hat.trans htext, hbytes, hsets⟩

/-- A merge step by step. Each of the three files follows the one before, the last wherever links
lead from the index. -/
structure Stages (dir name text : String) (f : Files) (d : Location) (f₁ f₂ : Files)
    (i : Location) (s contents : String) (p : Placement) (g : Files) : Prop where
  canReplace : Storage.CanReplace dir (declarationName name) d f
  declarations : Files.Sets f d (declarationName name) (some (.file ⟨text.toUTF8, none⟩)) f₁
  stub : ∃ after, Files.Sets f₁ d stubName after f₂ ∧
    StubTold dir (f₁.tree.node? (d ++ [stubName])) after p.stubChange
  stubFits : holdsTypePackages dir = true → Files.Fits dir stubName
  leadsTo : f₂.LeadsTo dir d
  index : Adds (Path.join dir indexName) name f₂ i s contents p.indexChange g
  declarationPath : p.declarationPath = Path.join dir (declarationName name)
  indexPath : p.indexPath = Path.join dir indexName
  stubPath : p.stubPath = Path.join dir stubName

theorem place_stages (ha : IsAccepted name) {p : Placement}
    (h : (place dir name text).run w = (.ok p, w')) :
    ∃ f d f₁ f₂ i s contents, w.files.Makes dir f d ∧
      Stages dir name text f d f₁ f₂ i s contents p w'.files := by
  rw [place, if_neg (by rw [not_same_indexName ha]; decide)] at h
  obtain ⟨path, w₁, h₁, h⟩ := Action.run_bind_ok h
  obtain ⟨stub, w₂, h₂, h⟩ := Action.run_bind_ok h
  obtain ⟨index, w₃, h₃, h⟩ := Action.run_bind_ok h
  rw [Action.run_pure] at h
  obtain ⟨hp, rfl⟩ := Prod.mk.inj h
  obtain rfl := Except.ok.inj hp
  obtain ⟨f, d, hmakes, hcan, hsets⟩ := placeDeclarations_ok ha h₁
  obtain ⟨f₃, i, s, contents, hgrows, hsame, hadds⟩ := addToIndex_adds h₃
  obtain ⟨e, he⟩ := hadds.leadsTo
  have hpath : path = Path.join dir (declarationName name) := by
    obtain ⟨_, v, -, h₁⟩ := Action.run_bind_ok h₁
    rw [Action.run_log_bind, Action.run_pure] at h₁
    obtain ⟨hpath, -⟩ := Prod.mk.inj h₁
    exact (Except.ok.inj hpath).symm
  -- Every step needs the directory, so the declarations have not cut it off.
  obtain ⟨after, hstub, htold, hfits, hd₂⟩ : ∃ after,
      Files.Sets w₁.files d stubName after w₂.files ∧
        StubTold dir (w₁.files.tree.node? (d ++ [stubName])) after stub ∧
          (holdsTypePackages dir = true → Files.Fits dir stubName) ∧ w₂.files.LeadsTo dir d := by
    rcases placeStubIfWanted_cases h₂ with ⟨f₁, d₁, after, hfits, hmakes₁, hstub, htold⟩ |
      ⟨htypes, rfl, hfiles⟩
    · have hd₁ := hmakes.leadsTo.around hsets hmakes₁.grows hmakes₁.leadsTo
      obtain ⟨rfl, rfl⟩ := hmakes₁.eq hd₁
      exact ⟨after, hstub, htold, fun _ ↦ hfits, hstub.leadsTo_of_kept htold.kept hd₁⟩
    · rw [hfiles] at hgrows ⊢
      have hd₁ := hmakes.leadsTo.around hsets hgrows he
      exact ⟨_, .refl rfl, .notApplicable htypes, fun h ↦ by simp [htypes] at h, hd₁⟩
  obtain rfl := hsame d hd₂
  exact ⟨f, d, w₁.files, w₂.files, i, s, contents, hmakes, hcan, hsets,
    ⟨after, hstub, htold⟩, hfits, hd₂, hadds, hpath, rfl, rfl⟩

namespace Stages

variable {f f₁ f₂ g : Files} {d i : Location} {s contents : String} {p : Placement}

theorem leadsTo_after (h : Stages dir name text f d f₁ f₂ i s contents p g) :
    g.LeadsTo dir d :=
  h.index.leadsTo_after h.leadsTo

theorem cwd (h : Stages dir name text f d f₁ f₂ i s contents p g) : f₂.cwd = f.cwd := by
  obtain ⟨after, hstub, -⟩ := h.stub
  exact hstub.cwd.trans h.declarations.cwd

theorem node?_of_ne (h : Stages dir name text f d f₁ f₂ i s contents p g) {l : Location}
    (hdecl : l ≠ d ++ [declarationName name]) (hstub : l ≠ d ++ [stubName]) :
    f₂.tree.node? l = f.tree.node? l := by
  obtain ⟨after, hsets, -⟩ := h.stub
  rw [hsets.of_ne hstub, h.declarations.of_ne hdecl]

theorem node?_declarations (h : Stages dir name text f d f₁ f₂ i s contents p g) :
    f₂.tree.node? (d ++ [declarationName name]) = some (.file ⟨text.toUTF8, none⟩) := by
  obtain ⟨after, hsets, -⟩ := h.stub
  rw [hsets.of_ne (by simpa using declarationName_ne_stubName name), h.declarations.self]

theorem stubTold (h : Stages dir name text f d f₁ f₂ i s contents p g) :
    StubTold dir (f.tree.node? (d ++ [stubName])) (f₂.tree.node? (d ++ [stubName]))
      p.stubChange := by
  obtain ⟨after, hsets, htold⟩ := h.stub
  rwa [hsets.self, ← h.declarations.of_ne (by simpa using (declarationName_ne_stubName name).symm)]

theorem keeps (h : Stages dir name text f d f₁ f₂ i s contents p g) : f₂.tree.Keeps f.tree := by
  have hback {l : Location} {x : Node} (hl : f₂.tree.node? l = some x)
      (hx : ∀ k, x ≠ .file k) : f.tree.node? l = some x := by
    by_cases hdecl : l = d ++ [declarationName name]
    · rw [hdecl, h.node?_declarations] at hl
      exact absurd (Option.some.inj hl).symm (hx _)
    · by_cases hstub : l = d ++ [stubName]
      · rw [hstub] at hl ⊢
        have htold := h.stubTold
        rw [hl] at htold
        obtain hsame | hfile := htold.kept_or_file
        · exact hsame.symm
        · exact absurd (Option.some.inj hfile) (hx _)
      · rwa [← h.node?_of_ne hdecl hstub]
  exact ⟨fun _ hl ↦ hback hl (by simp), fun _ _ hl ↦ hback hl (by simp)⟩

theorem noLinks (h : Stages dir name text f d f₁ f₂ i s contents p g) (hd : f.LeadsTo dir d)
    (hno : f.HoldsNoLinks dir) : f₂.HoldsNoLinks dir := by
  rw [Files.holdsNoLinks_iff h.leadsTo]
  intro r t hlink
  exact hno.ne_link d hd t (h.keeps.link _ _ hlink)

end Stages

end SharedFolder

end AmbientTypes
