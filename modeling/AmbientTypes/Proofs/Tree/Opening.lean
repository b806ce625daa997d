import AmbientTypes.Proofs.Tree.Changes

namespace AmbientTypes.Files

section Walks

variable {tree tree' : Tree} {l : Location} {k : File}

/-- Of the two trees, the second one has a file where the first one has a file or nothing; they are
alike elsewhere. -/
structure Refills (tree : Tree) (l : Location) (k : File) (tree' : Tree) : Prop where
  file : tree'.node? l = some (.file k)
  ne_folder : tree.node? l ≠ some .folder
  ne_link : ∀ t, tree.node? l ≠ some (.link t)
  others : ∀ l' ≠ l, tree'.node? l' = tree.node? l'

theorem Refills.folder (h : Refills tree l k tree') {l' : Location}
    (hl : tree.node? l' = some .folder) : tree'.node? l' = some .folder := by
  rw [h.others, hl]
  rintro rfl
  exact h.ne_folder hl

theorem Refills.link (h : Refills tree l k tree') {l' : Location} {t : String} :
    tree'.node? l' = some (.link t) ↔ tree.node? l' = some (.link t) := by
  by_cases hl : l' = l
  · rw [hl, h.file]
    exact iff_of_false nofun (h.ne_link t)
  · rw [h.others l' hl]

theorem walk_refills (h : Refills tree l k tree') {n : Nat} {here : Location}
    {folderWanted : Bool} {segs : List String} {target : Target}
    (hw : walk tree .file n here folderWanted segs = .ok target) (hl : target.location = l) :
    walk tree' .file n here folderWanted segs = .ok (.present l (.file k)) := by
  have hfile := Tree.node?_eq_some_file.1 h.file
  rw [walk_eq_ok_iff] at hw ⊢
  induction hw with
  | @here n here wanted t ht hkind =>
    obtain rfl : here = l := hl
    refine .here hfile fun hwanted ↦ absurd ?_ h.ne_folder
    cases t with
    | folder es => exact Tree.node?_eq_some_folder.2 ⟨es, ht⟩
    | file k' | link t => cases hkind hwanted
  | dot hfolder _ ih => exact .dot (h.folder hfolder) (ih hl)
  | up hfolder _ ih => exact .up (h.folder hfolder) (ih hl)
  | @absent n here wanted s hs _ _ =>
    obtain rfl : here ++ [s] = l := hl
    refine .enter hs (by simp [h.file]) (.here hfile fun hwanted ↦ ?_)
    exact absurd rfl (hs.slash rfl hwanted)
  | stop _ hstop => cases hstop
  | follow hs hgo hlink _ ih => exact .follow hs hgo (h.link.2 hlink) (ih hl)
  | enter hs hnot _ ih => exact .enter hs (fun t ht ↦ hnot t (h.link.1 ht)) (ih hl)

end Walks

variable {f g : Files} {path : String} {d : Location} {bytes : ByteArray}

theorem folder_top {tree : Tree} {l : Location} (h : tree.node? l = some .folder) :
    tree.node? [] = some .folder := by
  cases tree with
  | folder es => rfl
  | file k => cases l <;> cases h
  | link t => cases l <;> cases h

theorem get?_of_resolveWith_present {folderWanted : Bool} {ending : Ending} {l : Location}
    {t : Tree} (h : f.resolveWith folderWanted ending path = .ok (.present l t)) :
    f.tree.get? l = some t := by
  rw [resolveWith] at h
  split at h
  · cases h
  · have hend := h ▸ isEnd_walk mostLinks (f.start path) folderWanted (segments path)
    cases hend with
    | present h => exact h

theorem folder_of_resolveWith {folderWanted : Bool} {ending : Ending} {target : Target}
    (hpath : segments path ≠ []) (h : f.resolveWith folderWanted ending path = .ok target) :
    f.tree.node? [] = some .folder := by
  obtain ⟨s, rest, hsegs⟩ := List.exists_cons_of_ne_nil hpath
  rw [resolveWith] at h
  split at h
  · cases h
  · rw [hsegs] at h
    exact folder_top (folder_of_walk h)

/-- A file is opened where its path leads: one that is there, or a new one in a folder. -/
theorem resolve_of_openOrCreate {l : Location} (h : f.openOrCreate path = .ok (l, bytes, g)) :
    ∃ target, f.resolve .file path = .ok target ∧ target.location = l ∧
      ((∃ k, f.tree.node? l = some (.file k) ∧ bytes = k.bytes ∧ g = f) ∨
        f.tree.node? l = none ∧ bytes = .empty ∧ ∃ d s, l = d ++ [s] ∧
          Sets f d s (some (.file ⟨.empty, none⟩)) g) := by
  unfold openOrCreate at h
  cases hr : f.resolve .file path with
  | error e => simp [hr, bind, Except.bind] at h
  | ok target =>
    rw [hr] at h
    refine ⟨target, rfl, ?_⟩
    cases target with
    | absent d s =>
      obtain ⟨hd, hs⟩ := node?_of_resolveWith_absent hr
      obtain ⟨rfl, rfl, rfl⟩ : d ++ [s] = l ∧ ByteArray.empty = bytes ∧
          f.putBytes (d ++ [s]) .empty = g := by
        simpa [bind, Except.bind, pure, Except.pure] using h
      exact ⟨rfl, .inr ⟨hs, rfl, d, s, rfl, sets_putBytes hd (by simp [hs]) .empty⟩⟩
    | present l' t =>
      cases t with
      | link t => simp [bind, Except.bind] at h
      | folder es => simp [bind, Except.bind] at h
      | file k =>
        obtain ⟨rfl, rfl, rfl⟩ : l' = l ∧ k.bytes = bytes ∧ f = g := by
          simpa [bind, Except.bind, pure, Except.pure] using h
        exact ⟨rfl, .inl ⟨k, Tree.node?_eq_some_file.2 (get?_of_resolveWith_present hr), rfl, rfl⟩⟩

theorem openOrCreate_ok {l : Location} (hpath : segments path ≠ [])
    (h : f.openOrCreate path = .ok (l, bytes, g)) :
    ∃ d s, l = d ++ [s] ∧ ((∃ k, f.tree.node? l = some (.file k) ∧ bytes = k.bytes ∧ g = f) ∨
      f.tree.node? l = none ∧ bytes = .empty ∧ Sets f d s (some (.file ⟨.empty, none⟩)) g) := by
  obtain ⟨target, hr, -, ⟨k, hk, hbytes, rfl⟩ | ⟨hnone, hbytes, d, s, rfl, hset⟩⟩ :=
    resolve_of_openOrCreate h
  · obtain rfl | ⟨d, s, rfl⟩ := List.eq_nil_or_concat' l
    · rw [folder_of_resolveWith hpath hr] at hk
      cases hk
    · exact ⟨d, s, rfl, .inl ⟨k, hk, hbytes, rfl⟩⟩
  · exact ⟨d, s, rfl, .inr ⟨hnone, hbytes, hset⟩⟩

/-- A file that could be opened once is opened again, with the content that it has by then. -/
theorem openOrCreate_again {s : String} {h : Files} {k : File}
    (hf : f.openOrCreate path = .ok (d ++ [s], bytes, g))
    (hset : Sets f d s (some (.file k)) h) :
    h.openOrCreate path = .ok (d ++ [s], k.bytes, h) := by
  obtain ⟨target, hr, hl, hnode⟩ := resolve_of_openOrCreate hf
  have hrefills : Refills f.tree (d ++ [s]) k h.tree := by
    refine ⟨hset.self, ?_, fun t ↦ ?_, fun l' hl' ↦ hset.of_ne hl'⟩ <;>
    · rcases hnode with ⟨k', hk', -⟩ | ⟨hnone, -⟩
      · simp [hk']
      · simp [hnone]
  have hstart : h.start path = f.start path := by rw [start, start, hset.cwd]
  rw [resolve, resolveWith] at hr
  rw [openOrCreate, resolve, resolveWith]
  split at hr
  · cases hr
  · rw [hstart, walk_refills hrefills hr hl]
    rfl

end AmbientTypes.Files
