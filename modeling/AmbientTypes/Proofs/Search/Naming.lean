import AmbientTypes.Proofs.Search.Listing
import AmbientTypes.Proofs.SharedFolder.Merging

namespace AmbientTypes

namespace Tree

variable {n : String} {f : Option Tree → Option Tree} {es : List (String × Tree)}

theorem mem_alterEntry {e : String × Tree} (h : e ∈ alterEntry n f es) :
    e ∈ es ∧ e.1 ≠ n ∨ e.1 = n ∧ f (es.lookup n) = some e.2 := by
  induction es with
  | nil =>
    obtain ⟨t, ht, rfl⟩ := List.mem_map.1 h
    exact .inr ⟨rfl, by simpa using ht⟩
  | cons e₀ es ih =>
    rw [alterEntry] at h
    split at h
    · next hn =>
      rcases List.mem_append.1 h with h | h
      · obtain ⟨t, ht, rfl⟩ := List.mem_map.1 h
        refine .inr ⟨rfl, ?_⟩
        rw [List.lookup_cons, hn, beq_self_eq_true]
        simpa using ht
      · obtain ⟨hmem, hne⟩ := List.mem_filter.1 h
        exact .inl ⟨List.mem_cons_of_mem _ hmem, by simpa using hne⟩
    · next hn =>
      have hb : (n == e₀.1) = false := by simpa using Ne.symm hn
      rw [List.lookup_cons, hb]
      rcases List.mem_cons.1 h with rfl | h
      · exact .inl ⟨List.mem_cons_self, hn⟩
      · exact (ih h).imp_left fun h ↦ ⟨List.mem_cons_of_mem _ h.1, h.2⟩

theorem nodup_alterEntry (hes : (es.map Prod.fst).Nodup) :
    ((alterEntry n f es).map Prod.fst).Nodup := by
  have hnew (o : Option Tree) : (o.toList.map (n, ·)).map Prod.fst = o.toList.map fun _ ↦ n := by
    rw [List.map_map]
    rfl
  induction es with
  | nil =>
    rw [alterEntry, hnew]
    cases f none <;> simp
  | cons e₀ es ih =>
    rw [List.map_cons, List.nodup_cons] at hes
    rw [alterEntry]
    split
    · have hrest : ((es.filter (·.1 != n)).map Prod.fst).Nodup :=
        hes.2.sublist (List.filter_sublist.map _)
      rw [List.map_append, hnew, List.nodup_append]
      refine ⟨by cases f (some e₀.2) <;> simp, hrest, ?_⟩
      intro a ha b hb
      obtain ⟨-, -, rfl⟩ := List.mem_map.1 ha
      obtain ⟨e, he, rfl⟩ := List.mem_map.1 hb
      have hne := (List.mem_filter.1 he).2
      simpa using Ne.symm (by simpa using hne)
    · next hn =>
      rw [List.map_cons, List.nodup_cons]
      refine ⟨fun hmem ↦ ?_, ih hes.2⟩
      obtain ⟨e, he, heq⟩ := List.mem_map.1 hmem
      rcases mem_alterEntry he with ⟨he, -⟩ | ⟨he, -⟩
      · exact hes.1 (heq ▸ List.mem_map_of_mem he)
      · exact hn (heq.symm.trans he)

namespace IsWellNamed

theorem get? {t u : Tree} {l : Location} (ht : t.IsWellNamed) (h : t.get? l = some u) :
    u.IsWellNamed := by
  induction l generalizing t with
  | nil =>
    obtain rfl : t = u := by simpa [Tree.get?] using h
    exact ht
  | cons m l ih =>
    cases ht with
    | file f => cases h
    | link target => cases h
    | @folder es names distinct entries =>
      rw [Tree.get?] at h
      cases hm : es.lookup m with
      | none => simp [hm] at h
      | some v =>
        rw [hm] at h
        exact ih (entries _ (mem_of_lookup hm)) h

theorem alter (hf : ∀ o : Option Tree, (∀ u, o = some u → u.IsWellNamed) →
      ∀ u, f o = some u → u.IsWellNamed) {l : Location} (hl : ∀ n ∈ l, Path.IsName n)
    {o : Option Tree} (ho : ∀ u, o = some u → u.IsWellNamed) {u : Tree}
    (h : Tree.alter f l o = some u) : u.IsWellNamed := by
  induction l generalizing o u with
  | nil => exact hf o ho u h
  | cons n l ih =>
    rw [List.forall_mem_cons] at hl
    cases o with
    | none => cases h
    | some t =>
      have ht := ho t rfl
      cases ht with
      | file k =>
        obtain rfl := Option.some.inj h
        exact .file k
      | link s =>
        obtain rfl := Option.some.inj h
        exact .link s
      | @folder es names distinct entries =>
        obtain rfl := Option.some.inj h
        refine .folder (fun e he ↦ ?_) (nodup_alterEntry distinct) fun e he ↦ ?_
        · rcases mem_alterEntry he with ⟨he, -⟩ | ⟨he, -⟩
          · exact names e he
          · exact he ▸ hl.1
        · rcases mem_alterEntry he with ⟨he, -⟩ | ⟨-, he⟩
          · exact entries e he
          · exact ih hl.2 (fun v hv ↦ entries _ (mem_of_lookup hv)) he

variable {t : Tree} {l : Location}

theorem getD_alter (ht : t.IsWellNamed) (hf : ∀ o : Option Tree, (∀ u, o = some u →
      u.IsWellNamed) → ∀ u, f o = some u → u.IsWellNamed) (hl : ∀ n ∈ l, Path.IsName n) :
    ((Tree.alter f l (some t)).getD t).IsWellNamed := by
  cases h : Tree.alter f l (some t) with
  | none => exact ht
  | some u => exact alter hf hl (fun v hv ↦ Option.some.inj hv ▸ ht) h

theorem put (ht : t.IsWellNamed) (hl : ∀ n ∈ l, Path.IsName n) {u : Tree} (hu : u.IsWellNamed) :
    (t.put l u).IsWellNamed :=
  ht.getD_alter (fun _ _ _ h ↦ Option.some.inj h ▸ hu) hl

theorem remove (ht : t.IsWellNamed) (hl : ∀ n ∈ l, Path.IsName n) : (t.remove l).IsWellNamed :=
  ht.getD_alter (fun _ _ _ h ↦ nomatch h) hl

end IsWellNamed

end Tree

namespace Files

section Walks

variable {tree : Tree} {ending : Ending} {segs : List String} {d : Location} {s : String}

theorem isName_of_walk {n : Nat} {here : Location} {folderWanted : Bool}
    (hsegs : ∀ x ∈ segs, '/' ∉ x.toList ∧ x ≠ "")
    (h : walk tree ending n here folderWanted segs = .ok (.absent d s)) : Path.IsName s := by
  rw [walk_eq_ok_iff] at h
  generalize htarget : Target.absent d s = target at h
  induction h with
  | here | stop => cases htarget
  | dot _ _ ih | up _ _ ih | enter _ _ _ ih =>
    exact ih (List.forall_mem_cons.1 hsegs).2 htarget
  | absent hs =>
    obtain ⟨rfl, rfl⟩ := Target.absent.inj htarget
    obtain ⟨hslash, hne⟩ := hsegs s List.mem_cons_self
    exact ⟨hslash, hne, hs.ne_dot, hs.ne_dots⟩
  | follow _ _ _ _ ih =>
    refine ih (fun x hx ↦ ?_) htarget
    rcases List.mem_append.1 hx with hx | hx
    · exact not_mem_of_mem_segments hx
    · exact hsegs x (List.mem_cons_of_mem _ hx)

end Walks

variable {f g : Files} {path source : String} {bytes : ByteArray}

theorem isName_of_resolveWith (hf : f.tree.IsWellNamed) {folderWanted : Bool} {ending : Ending}
    {target : Target} (h : f.resolveWith folderWanted ending path = .ok target) :
    ∀ n ∈ target.location, Path.IsName n := by
  intro n hn
  cases target with
  | present l t => exact hf.isName_of_get? (get?_of_resolveWith_present h) hn
  | absent d s =>
    obtain ⟨es, hes⟩ := Tree.node?_eq_some_folder.1 (node?_of_resolveWith_absent h).1
    rcases List.mem_append.1 hn with hn | hn
    · exact hf.isName_of_get? hes hn
    · rw [List.mem_singleton.1 hn]
      rw [resolveWith] at h
      split at h
      · cases h
      · exact isName_of_walk (fun x hx ↦ not_mem_of_mem_segments hx) h

theorem get?_of_lookupLink {l : Location} {t : Tree} (h : f.lookupLink path = .ok (l, t)) :
    f.tree.get? l = some t := by
  rw [lookupLink] at h
  split at h
  · next l' t' hr =>
    obtain ⟨rfl, rfl⟩ := Prod.mk.inj (Except.ok.inj h)
    exact get?_of_resolveWith_present hr
  · cases h
  · cases h

section Operations

variable (hf : f.tree.IsWellNamed)
include hf

theorem isWellNamed_makeFolder (h : f.makeFolder path = .ok g) : g.tree.IsWellNamed := by
  unfold makeFolder at h
  cases hr : f.resolveName path with
  | error e => simp [hr, bind, Except.bind] at h
  | ok target =>
    have hname := isName_of_resolveWith hf hr
    cases target with
    | present l t => simp [hr, bind, Except.bind] at h
    | absent l n =>
      obtain rfl : f.put (l ++ [n]) .empty = g := by
        simpa [hr, bind, Except.bind, pure, Except.pure] using h
      exact hf.put hname (.folder (by simp) (by simp) (by simp))

theorem isWellNamed_makeFolders (fuel : Nat) (path : String) :
    (makeFolders fuel path f).2.tree.IsWellNamed := by
  induction fuel generalizing path f with
  | zero => exact hf
  | succ fuel ih =>
    unfold makeFolders
    split
    · exact hf
    · split
      · next g h => exact isWellNamed_makeFolder hf h
      · split
        · exact hf
        · next p hp =>
          have hfirst := ih hf p
          split
          · next e g h =>
            rw [h] at hfirst
            exact hfirst
          · next g h =>
            rw [h] at hfirst
            split
            · next k hk => exact isWellNamed_makeFolder hfirst hk
            · exact hfirst
      · exact hf

theorem isWellNamed_openOrCreate {l : Location} (h : f.openOrCreate path = .ok (l, bytes, g)) :
    g.tree.IsWellNamed ∧ ∀ n ∈ l, Path.IsName n := by
  unfold openOrCreate at h
  cases hr : f.resolve .file path with
  | error e => simp [hr, bind, Except.bind] at h
  | ok target =>
    have hname := isName_of_resolveWith hf hr
    cases target with
    | absent d s =>
      obtain ⟨rfl, -, rfl⟩ : d ++ [s] = l ∧ ByteArray.empty = bytes ∧
          f.putBytes (d ++ [s]) .empty = g := by
        simpa [hr, bind, Except.bind, pure, Except.pure] using h
      exact ⟨hf.put hname (.file _), hname⟩
    | present l' t =>
      cases t with
      | link t => simp [hr, bind, Except.bind] at h
      | folder es => simp [hr, bind, Except.bind] at h
      | file k =>
        obtain ⟨rfl, -, rfl⟩ : l' = l ∧ k.bytes = bytes ∧ f = g := by
          simpa [hr, bind, Except.bind, pure, Except.pure] using h
        exact ⟨hf, hname⟩

theorem isWellNamed_writeBytes (h : f.writeBytes path bytes = .ok g) : g.tree.IsWellNamed := by
  unfold writeBytes at h
  cases hopen : f.openOrCreate path with
  | error e => simp [hopen, bind, Except.bind] at h
  | ok r =>
    obtain ⟨l, old, g'⟩ := r
    obtain rfl : g'.putBytes l bytes = g := by
      simpa [hopen, bind, Except.bind, pure, Except.pure] using h
    obtain ⟨hg', hl⟩ := isWellNamed_openOrCreate hf hopen
    exact hg'.put hl (.file _)

theorem isWellNamed_createNew (h : f.createNew path bytes = .ok g) : g.tree.IsWellNamed := by
  unfold createNew at h
  cases hr : f.resolve .newFile path with
  | error e => simp [hr, bind, Except.bind] at h
  | ok target =>
    have hname := isName_of_resolveWith hf hr
    cases target with
    | present l t => simp [hr, bind, Except.bind] at h
    | absent l n =>
      obtain rfl : f.putBytes (l ++ [n]) bytes = g := by
        simpa [hr, bind, Except.bind, pure, Except.pure] using h
      exact hf.put hname (.file _)

theorem isWellNamed_removeFile (h : f.removeFile path = .ok g) : g.tree.IsWellNamed := by
  unfold removeFile at h
  cases hr : f.resolveName path with
  | error e => simp [hr, bind, Except.bind] at h
  | ok target =>
    have hname := isName_of_resolveWith hf hr
    cases target with
    | absent l n => simp [hr, bind, Except.bind] at h
    | present l t =>
      cases t with
      | folder es => simp [hr, bind, Except.bind] at h
      | file k | link s =>
        simp only [hr, bind, Except.bind] at h
        split at h
        · cases h
        · obtain rfl := Except.ok.inj h
          exact hf.remove hname

theorem isWellNamed_rename {source : String} (h : f.rename source path = .ok g) :
    g.tree.IsWellNamed := by
  unfold rename at h
  cases hsource : f.lookupLink source with
  | error e => simp [hsource, bind, Except.bind] at h
  | ok r =>
    obtain ⟨l, t⟩ := r
    have ht := get?_of_lookupLink hsource
    cases hr : f.resolveName path with
    | error e => simp [hsource, hr, bind, Except.bind] at h
    | ok target =>
      have hname := isName_of_resolveWith hf hr
      obtain rfl : (f.erase l).put target.location t = g := by
        simp only [hsource, hr, bind, Except.bind] at h
        split at h
        · cases h
        split at h
        · cases h
        split at h
        · cases h
        · exact Except.ok.inj h
      exact (hf.remove fun _ ↦ hf.isName_of_get? ht).put hname (hf.get? ht)

theorem isWellNamed_makeTemporary {attempts n : Nat}
    (h : f.makeTemporary path bytes attempts n = .ok (source, g)) : g.tree.IsWellNamed := by
  induction attempts generalizing n with
  | zero => cases h
  | succ attempts ih =>
    rw [makeTemporary_succ] at h
    split at h
    · next hnew =>
      obtain ⟨-, rfl⟩ := Prod.mk.inj (Except.ok.inj h)
      exact isWellNamed_createNew hf hnew
    · exact ih h
    · cases h

end Operations

end Files

/-- An action that leaves a well-named tree well named, whatever comes out. -/
def Action.KeepsNames {α : Type} (a : Action α) : Prop :=
  ∀ w, w.files.tree.IsWellNamed → (a.run w).2.files.tree.IsWellNamed

namespace Action.KeepsNames

variable {α β : Type}

theorem of_keepsFiles {a : Action α} (ha : a.KeepsFiles) : a.KeepsNames := by
  intro w hw
  rwa [ha w]

theorem bind {a : Action α} {f : α → Action β} (ha : a.KeepsNames)
    (hf : ∀ x, (f x).KeepsNames) : (a >>= f).KeepsNames := by
  intro w hw
  have hv := ha w hw
  rw [run_bind]
  cases h : a.run w with
  | mk r v =>
    rw [h] at hv
    cases r with
    | ok x => exact hf x v hv
    | error e => exact hv

end Action.KeepsNames

open AmbientTypes.Action (KeepsNames)

namespace Storage

theorem keepsNames_requireFolder (path : String) : (requireFolder path).KeepsNames := by
  intro w hw
  rw [requireFolder, Action.run_bind, Action.run_files]
  have hmade := Files.isWellNamed_makeFolders hw (path.length + 1) path
  cases hm : w.files.makeAllFolders path with
  | mk r g =>
    rw [Files.makeAllFolders] at hm
    rw [hm] at hmade
    by_cases hex : w.files.pathExists path = true
    · simpa [hex] using hw
    · cases r <;> simpa [hex, Files.makeAllFolders, hm, Action.run_bind] using hmade

theorem keepsNames_makeTemporary (dir contents : String) :
    (makeTemporary dir contents).KeepsNames := by
  intro w hw
  rcases run_makeTemporary dir contents w with ⟨t, e, he⟩ | ⟨path, g, hg, he⟩
  · rwa [he]
  · rw [he]
    exact Files.isWellNamed_makeTemporary hw hg

theorem keepsNames_moveInto (path temporary : String) : (moveInto path temporary).KeepsNames := by
  intro w hw
  rw [run_moveInto]
  split
  · next g hg => exact Files.isWellNamed_rename hw hg
  · cases hr : w.files.removeFile temporary with
    | ok g => exact Files.isWellNamed_removeFile hw hr
    | error e => exact hw

theorem keepsNames_replaceFile (path contents : String) :
    (replaceFile path contents).KeepsNames := by
  apply KeepsNames.bind (keepsNames_requireFolder _)
  intro _
  exact .bind (keepsNames_makeTemporary _ _) fun _ ↦ keepsNames_moveInto _ _

theorem keepsNames_createFile (path contents : String) : (createFile path contents).KeepsNames := by
  intro w hw
  rw [run_createFile]
  split
  · next g hg => exact Files.isWellNamed_createNew hw hg
  · exact hw
  · exact hw

theorem keepsNames_discardFile (path : String) : (discardFile path).KeepsNames := by
  intro w hw
  rw [run_discardFile]
  split
  · next g hg => exact Files.isWellNamed_removeFile hw hg
  · exact hw
  · exact hw

end Storage

namespace SharedFolder

theorem keepsNames_placeStubIfWanted (dir : String) : (placeStubIfWanted dir).KeepsNames := by
  unfold placeStubIfWanted
  split
  · apply KeepsNames.bind (Storage.keepsNames_requireFolder dir)
    intro _
    apply KeepsNames.bind (Storage.keepsNames_createFile _ _)
    intro b
    apply KeepsNames.of_keepsFiles
    cases b <;> exact .bind (.log _ _) fun _ ↦ .pure _
  · exact .of_keepsFiles (.bind (.log _ _) fun _ ↦ .pure _)

theorem keepsNames_addToIndex (dir name : String) : (addToIndex dir name).KeepsNames := by
  apply KeepsNames.bind (Storage.keepsNames_requireFolder dir)
  intro _ w hw
  rw [Action.run_bind, Action.run_files]
  simp only [Action.run_bind, run_openIndex]
  cases hopen : w.files.openOrCreate (Path.join dir indexName) with
  | error e => exact hw
  | ok r =>
    obtain ⟨l, bytes, g⟩ := r
    obtain ⟨hg, hl⟩ := Files.isWellNamed_openOrCreate hw hopen
    cases htext : Text.ofUtf8? bytes with
    | none =>
      simp only [htext]
      exact hg
    | some contents =>
      cases haddition : indexAddition? contents name with
      | none =>
        simp only [htext, haddition]
        exact hg
      | some addition =>
        have hput : (g.putBytes l (bytes ++ addition.toUTF8)).tree.IsWellNamed :=
          hg.put hl (.file _)
        simp only [htext, haddition, Action.run_bind, Action.run_files, Action.run_setFiles]
        split <;> exact hput

theorem keepsNames_place (dir name text : String) : (place dir name text).KeepsNames := by
  have hrest : (do
      let declarationPath ← placeDeclarations dir name text
      let stub ← placeStubIfWanted dir
      let index ← addToIndex dir name
      return ⟨declarationPath, Path.join dir indexName, index, Path.join dir stubName, stub⟩ :
        Action Placement).KeepsNames := by
    apply KeepsNames.bind
    · exact .bind (Storage.keepsNames_replaceFile _ _) fun _ ↦
        .of_keepsFiles (.bind (.log _ _) fun _ ↦ .pure _)
    intro _
    apply KeepsNames.bind (keepsNames_placeStubIfWanted dir)
    intro _
    exact .bind (keepsNames_addToIndex dir name) fun _ ↦ .of_keepsFiles (.pure _)
  unfold place
  split
  · exact .of_keepsFiles (.throw _)
  · exact hrest

end SharedFolder

end AmbientTypes
