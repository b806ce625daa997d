import AmbientTypes.Pipeline.Plan
import AmbientTypes.Proofs.SharedFolder.Merging

namespace AmbientTypes

open Manifest (IsAccepted sameIgnoringCase)
open AmbientTypes.Path (components join parent? same)

/-- Failures that come from the file tree, whatever the name of the package. -/
inductive Failure.OfFiles : Failure → Prop
  | makingFolder (path : String) (e : SysError) : OfFiles (.makingFolder path e)
  | readingFile (path : String) (e : SysError) : OfFiles (.readingFile path e)
  | writingFile (path : String) (e : SysError) : OfFiles (.writingFile path e)
  | makingFile (path : String) (e : SysError) : OfFiles (.makingFile path e)
  | makingTemporary (dir temporary : String) (e : SysError) :
      OfFiles (.makingTemporary dir temporary e)
  | openingIndex (path : String) (e : SysError) : OfFiles (.openingIndex path e)

open AmbientTypes.Action (FailsOnly)
open Failure (OfFiles)

namespace Storage

theorem failsOnly_requireFolder (path : String) : FailsOnly OfFiles (requireFolder path) := by
  refine .bind .files fun f ↦ ?_
  split
  · refine .bind (.setFiles _) fun _ ↦ ?_
    split
    · exact .pure _
    · exact .throw (.makingFolder path _)
  · exact .pure _

theorem failsOnly_makeTemporary (dir contents : String) :
    FailsOnly OfFiles (makeTemporary dir contents) := by
  intro w w' e h
  rcases run_makeTemporary dir contents w with ⟨t, e', he⟩ | ⟨p, g, -, he⟩
  · obtain ⟨rfl, -⟩ : .makingTemporary dir t e' = e ∧ w = w' := by simpa using he.symm.trans h
    exact .makingTemporary dir t e'
  · cases he.symm.trans h

theorem failsOnly_moveInto (path temporary : String) :
    FailsOnly OfFiles (moveInto path temporary) := by
  intro w w' e h
  rw [run_moveInto] at h
  cases hr : w.files.rename temporary path with
  | ok g => simp [hr] at h
  | error e' =>
    simp only [hr] at h
    obtain rfl := Except.error.inj (Prod.mk.inj h).1
    exact .writingFile path e'

theorem failsOnly_replaceFile (path contents : String) :
    FailsOnly OfFiles (replaceFile path contents) := by
  refine .bind (failsOnly_requireFolder _) fun _ ↦ ?_
  exact .bind (failsOnly_makeTemporary _ _) fun temporary ↦ failsOnly_moveInto path temporary

theorem failsOnly_createFile (path contents : String) :
    FailsOnly OfFiles (createFile path contents) := by
  refine .bind .files fun f ↦ ?_
  split
  · exact .bind (.setFiles _) fun _ ↦ .pure _
  · exact .pure _
  · exact .throw (.makingFile path _)

end Storage

namespace SharedFolder

variable {name : String}

theorem failsOnly_placeStubIfWanted (dir : String) :
    FailsOnly OfFiles (placeStubIfWanted dir) := by
  unfold placeStubIfWanted
  split
  · refine .bind (Storage.failsOnly_requireFolder dir) fun _ ↦ ?_
    refine .bind (Storage.failsOnly_createFile _ _) fun made ↦ ?_
    split <;> exact .bind (.log _ _) fun _ ↦ .pure _
  · exact .bind (.log _ _) fun _ ↦ .pure _

theorem failsOnly_openIndex (path : String) : FailsOnly OfFiles (openIndex path) := by
  refine .bind (.inspect (fun e ↦ .openingIndex path e) _) fun r ↦ ?_
  exact .bind (.setFiles _) fun _ ↦ .pure _

theorem failsOnly_addToIndex (dir name : String) : FailsOnly OfFiles (addToIndex dir name) := by
  refine .bind (Storage.failsOnly_requireFolder dir) fun _ ↦ ?_
  refine .bind .files fun f ↦ ?_
  refine .bind (failsOnly_openIndex _) fun ⟨l, bytes⟩ ↦ ?_
  dsimp only
  split
  · exact .throw (.readingFile _ .invalidText)
  · split
    · exact .bind (.log _ _) fun _ ↦ .pure _
    · refine .bind .files fun g ↦ .bind (.setFiles _) fun _ ↦ ?_
      split <;> exact .bind (.log _ _) fun _ ↦ .pure _

/-- A package that has a manifest is never refused for its name. -/
theorem failsOnly_place (ha : IsAccepted name) (dir text : String) :
    FailsOnly OfFiles (place dir name text) := by
  rw [place, if_neg (by rw [not_same_indexName ha]; decide)]
  have hdeclarations : FailsOnly OfFiles (placeDeclarations dir name text) :=
    .bind (Storage.failsOnly_replaceFile _ _) fun _ ↦ .bind (.log _ _) fun _ ↦ .pure _
  refine .bind hdeclarations fun _ ↦ .bind (failsOnly_placeStubIfWanted dir) fun _ ↦ ?_
  exact .bind (failsOnly_addToIndex dir name) fun _ ↦ .pure _

end SharedFolder

/-- Besides new folders nothing has changed but what stands under one name of a directory. -/
def Files.ChangesAt (f : Files) (dir s : String) (g : Files) : Prop :=
  ∃ h, f.Grows h ∧ ∀ l, g.tree.node? l ≠ h.tree.node? l → ∃ d, h.LeadsTo dir d ∧ l = d ++ [s]

theorem SharedFolder.placeDeclarations_changesAt {name : String} (ha : IsAccepted name)
    (dir text : String) (w : World) :
    w.files.ChangesAt dir (declarationName name)
      ((placeDeclarations dir name text).run w).2.files := by
  cases h : (placeDeclarations dir name text).run w with
  | mk r w' =>
    cases r with
    | ok p =>
      obtain ⟨f, d, hmakes, -, hsets⟩ := placeDeclarations_ok ha h
      refine ⟨f, hmakes.grows, fun l hl ↦ ⟨d, hmakes.leadsTo, ?_⟩⟩
      by_contra hne
      exact hl (hsets.of_ne hne)
    | error e =>
      have hmay := placeDeclarations_error ha h
      exact ⟨w'.files, hmay.grows, fun l hl ↦ absurd rfl hl⟩

theorem same_join {dir s t : String} (hs : Path.IsName s) (ht : Path.IsName t) :
    same (join dir s) (join dir t) = true ↔ s = t := by
  rw [same, decide_eq_true_iff, Path.components_join_name dir hs, Path.components_join_name dir ht]
  simp

theorem eq_of_toLower_eq {c d : Char} (hd : d.isLower = false) (h : c.toLower = d) : c = d := by
  unfold Char.toLower at h
  split at h
  · next hc =>
    have hlow : 65 ≤ c.toNat := UInt32.le_iff_toNat_le.1 hc.1
    have hhigh : c.toNat ≤ 90 := UInt32.le_iff_toNat_le.1 hc.2
    rw [← h] at hd
    have hlower (x : Char) : x.isLower = (x.val ≥ 'a'.val && x.val ≤ 'z'.val) := rfl
    simp [hlower, UInt32.le_iff_toNat_le] at hd
    omega
  · exact h

theorem eq_of_sameIgnoringCase {s t : String} (h : sameIgnoringCase s t = true)
    (hs : s.toList.all fun c ↦ !c.isLower && c.toLower = c) : t = s := by
  have hplain (c : Char) (hc : c ∈ s.toList) : c.isLower = false ∧ c.toLower = c := by
    have hboth := List.all_eq_true.1 hs c hc
    rwa [Bool.and_eq_true, Bool.not_eq_true', decide_eq_true_iff] at hboth
  have hlower : t.toList.map Char.toLower = s.toList := by
    rw [← of_decide_eq_true h]
    conv_rhs => rw [← List.map_id s.toList]
    exact List.map_congr_left fun c hc ↦ (hplain c hc).2
  rw [← String.toList_inj]
  calc t.toList = t.toList.map id := (List.map_id _).symm
    _ = t.toList.map Char.toLower := List.map_congr_left fun c hc ↦ ?_
    _ = s.toList := hlower
  have hmem : c.toLower ∈ s.toList := by
    rw [← hlower]
    exact List.mem_map_of_mem hc
  exact eq_of_toLower_eq (hplain _ hmem).1 rfl

theorem isName_of_sameIgnoringCase {s t : String} (h : sameIgnoringCase s t = true)
    (ht : Path.IsName t) : Path.IsName s := by
  refine ⟨fun hslash ↦ ht.no_slash ?_, ?_, ?_, ?_⟩
  · have hmem : '/' ∈ t.toList.map Char.toLower := by
      rw [← of_decide_eq_true h]
      exact List.mem_map.2 ⟨'/', hslash, by decide⟩
    obtain ⟨c, hc, hlower⟩ := List.mem_map.1 hmem
    rwa [← eq_of_toLower_eq (by decide) hlower]
  · rintro rfl
    exact ht.ne_empty (eq_of_sameIgnoringCase h (by decide))
  · rintro rfl
    exact ht.ne_dot (eq_of_sameIgnoringCase h (by decide))
  · rintro rfl
    exact ht.ne_dots (eq_of_sameIgnoringCase h (by decide))

/-- Declarations of an accepted manifest go into the shared directory itself, under a name that is
neither that of a shared file nor that of another package. -/
theorem Plan.declarations_apart {text path : String} {m : Manifest}
    (h : Manifest.parse text path = .ok m) (p : Plan) :
    (∃ q, parent? (p.declarationPath m.name) = some q ∧ components q = components p.sharedDir) ∧
    (∀ s : String, s.toList.map Char.toLower = "index.d.ts".toList →
      same (p.declarationPath m.name) (join p.sharedDir s) = false) ∧
    same (p.declarationPath m.name) (join p.sharedDir stubName) = false ∧
    (∀ text' path' m', Manifest.parse text' path' = .ok m' →
      same (p.declarationPath m.name) (p.declarationPath m'.name) = true → m.name = m'.name) ∧
    (∀ declarations, FailsOnly OfFiles (SharedFolder.place p.sharedDir m.name declarations)) ∧
    ∀ declarations (w : World), w.files.ChangesAt p.sharedDir (declarationName m.name)
      ((SharedFolder.placeDeclarations p.sharedDir m.name declarations).run w).2.files := by
  have ha := Manifest.isAccepted_of_parse h
  have hname := isName_declarationName ha
  refine ⟨?_, fun s hs ↦ ?_, ?_, fun text' path' m' h' hsame ↦ ?_, ?_, ?_⟩
  · have hc := Path.components_join_name p.sharedDir hname
    obtain ⟨q, hq⟩ := Path.parent?_of_components hc
    refine ⟨q, hq, ?_⟩
    rw [Path.components_of_parent? hq, hc, List.dropLast_concat]
  · rw [Bool.eq_false_iff]
    intro hsame
    have hlower : indexName.toList.map Char.toLower = "index.d.ts".toList := by decide
    replace hs : sameIgnoringCase s indexName = true := decide_eq_true (hs.trans hlower.symm)
    have hs' := isName_of_sameIgnoringCase hs isName_indexName
    obtain rfl := (same_join hname hs').1 hsame
    exact absurd hs (by rw [not_same_indexName ha]; decide)
  · rw [Bool.eq_false_iff]
    intro hsame
    exact declarationName_ne_stubName m.name ((same_join hname isName_stubName).1 hsame)
  · have hname' := isName_declarationName (Manifest.isAccepted_of_parse h')
    exact declarationName_injective ((same_join hname hname').1 hsame)
  · exact SharedFolder.failsOnly_place ha p.sharedDir
  · exact SharedFolder.placeDeclarations_changesAt ha p.sharedDir

theorem Plan.declarations_apart_shop :
    (∃ q, parent? ((ofRoot "/repo").declarationPath "shop") = some q ∧
      components q = components (ofRoot "/repo").sharedDir) ∧
    ∀ declarations,
      FailsOnly OfFiles (SharedFolder.place (ofRoot "/repo").sharedDir "shop" declarations) := by
  have hparse : Manifest.parse "\x7b\"name\":\"shop\"\x7d" "/repo/federation.config.json" =
      .ok ⟨"shop", [], "/repo/federation.config.json"⟩ := by
    decide +kernel
  obtain ⟨hparent, -, -, -, hplace, -⟩ := declarations_apart hparse (ofRoot "/repo")
  exact ⟨hparent, hplace⟩

end AmbientTypes
