import AmbientTypes.Proofs.Tree.Keeping

namespace AmbientTypes.Files

variable {tree : Tree} {ending : Ending} {f g : Files} {path : String} {l : Location} {t : Tree}

theorem walk_entry {n : Nat} {here : Location} {wanted wanted' : Bool} {segs : List String}
    (hwanted : wanted' = true → wanted = true)
    (h : walk tree ending n here wanted segs = .ok (.present l t)) :
    ∃ l' t', walk tree .entry n here wanted' segs = .ok (.present l' t') := by
  simp only [walk_eq_ok_iff] at h ⊢
  generalize htarget : Target.present l t = target at h
  have hstep {wanted wanted' : Bool} {s : String} {rest : List String}
      (hs : IsStep ending wanted s rest) : IsStep .entry wanted' s rest :=
    ⟨hs.ne_dot, hs.ne_dots, hs.size, nofun⟩
  induction h generalizing wanted' with
  | here ht hkind => exact ⟨_, _, .here ht (hkind ∘ hwanted)⟩
  | dot hl _ ih =>
    obtain ⟨l', t', h⟩ := ih hwanted htarget
    exact ⟨l', t', .dot hl h⟩
  | up hl _ ih =>
    obtain ⟨l', t', h⟩ := ih hwanted htarget
    exact ⟨l', t', .up hl h⟩
  | absent => cases htarget
  | stop hs _ hlink =>
    obtain rfl : wanted' = false := Bool.eq_false_iff.2 fun hw ↦ by cases hwanted hw
    exact ⟨_, _, .stop (hstep hs) rfl hlink⟩
  | @follow n here wanted s link segs target hs _ hlink _ ih =>
    by_cases hend : segs = [] ∧ wanted' = false
    · obtain ⟨rfl, rfl⟩ := hend
      exact ⟨_, _, .stop (hstep hs) rfl hlink⟩
    · have hgo (hsegs : segs = []) : wanted' = true := by simpa [hsegs] using hend
      have hbehind : (if segs = [] then wanted' || endsInSlash link else wanted') = true →
          (if segs = [] then wanted || endsInSlash link else wanted) = true := by
        split
        · simpa using Or.imp_left hwanted
        · exact hwanted
      obtain ⟨l', t', h⟩ := ih hbehind htarget
      exact ⟨l', t', .follow (hstep hs) (fun hsegs _ ↦ hgo hsegs) hlink h⟩
  | enter hs hnot _ ih =>
    obtain ⟨l', t', h⟩ := ih hwanted htarget
    exact ⟨l', t', .enter (hstep hs) hnot h⟩

theorem resolveWith_entry {wanted wanted' : Bool} (hwanted : wanted' = true → wanted = true)
    (h : f.resolveWith wanted ending path = .ok (.present l t)) :
    ∃ l' t', f.resolveWith wanted' .entry path = .ok (.present l' t') := by
  rw [resolveWith] at h ⊢
  cases hfault : pathFault? path with
  | some e => simp [hfault] at h
  | none =>
    simp only [hfault] at h
    exact walk_entry hwanted h

theorem lookupLink_eq_ok : f.lookupLink path = .ok (l, t) ↔
    f.resolve .entry path = .ok (.present l t) := by
  unfold lookupLink
  cases h : f.resolve .entry path with
  | error e => simp
  | ok target => cases target <;> simp

theorem lookup_eq_ok : f.lookup path = .ok (l, t) ↔
    f.resolve .behind path = .ok (.present l t) := by
  unfold lookup
  cases h : f.resolve .behind path with
  | error e => simp
  | ok target => cases target <;> simp

namespace Vacant

theorem lookup_ne_ok (h : f.Vacant path) : f.lookup path ≠ .ok (l, t) := by
  intro hl
  obtain ⟨l', t', hr⟩ := resolveWith_entry id (lookup_eq_ok.1 hl)
  exact h l' t' (lookupLink_eq_ok.2 hr)

theorem isFile_eq_false (h : f.Vacant path) : f.isFile path = false := by
  rw [isFile]
  split
  · next l k hl => exact absurd hl h.lookup_ne_ok
  · rfl

end Vacant

theorem removeFile_present (h : f.resolveName path = .ok (.present l t)) :
    f.removeFile path =
      if t.isFolder then .error .isADirectory
      else if endsInSlash path then .error .notADirectory
      else .ok (f.erase l) := by
  rw [removeFile, h]
  cases t <;> rfl

/-- A removal finds the path missing only where nothing stands. -/
theorem vacant_of_removeFile_notFound (h : f.removeFile path = .error .notFound) :
    f.Vacant path := by
  intro l t hl
  have hwanted : false = true → endsInSlash path = true := nofun
  obtain ⟨l', t', hr⟩ := resolveWith_entry hwanted (lookupLink_eq_ok.1 hl)
  rw [removeFile_present hr] at h
  split at h
  · cases h
  · split at h <;> cases h

/-- A removed entry was that of a path to no folder, and is all that has changed. -/
theorem sets_of_removeFile (h : f.removeFile path = .ok g) :
    ∃ d s t, f.resolve .entry path = .ok (.present (d ++ [s]) t) ∧ Sets f d s none g := by
  cases hr : f.resolveName path with
  | error e => simp [removeFile, hr, bind, Except.bind] at h
  | ok target =>
    cases target with
    | absent d s => simp [removeFile, hr, bind, Except.bind] at h
    | present l t =>
      rw [removeFile_present hr] at h
      split at h
      · cases h
      next hfolder =>
      split at h
      · cases h
      next hslash =>
      obtain rfl := Except.ok.inj h
      have hentry : f.resolve .entry path = .ok (.present l t) := by
        rwa [resolve, Bool.eq_false_iff.2 hslash]
      have hget := get?_of_resolveWith_present hr
      have hnode : f.tree.node? l ≠ some .folder := by
        intro hnode
        obtain ⟨es, hes⟩ := Tree.node?_eq_some_folder.1 hnode
        obtain rfl := Option.some.inj (hget.symm.trans hes)
        exact hfolder rfl
      have hpath : path ≠ "" := by
        rintro rfl
        cases hr
      have hsegs : segments path ≠ [] := fun h ↦ hslash (endsInSlash_of_segments_eq_nil h hpath)
      obtain rfl | ⟨d, s, rfl⟩ := List.eq_nil_or_concat' l
      · exact absurd (folder_of_resolveWith hsegs hr) hnode
      · have hparent := Tree.node?_parent (by rw [ne_eq, Tree.node?_eq_none, hget]; simp)
        exact ⟨d, s, t, hentry, sets_erase hparent hnode⟩

/-- Nothing stands at a path whose file was removed. -/
theorem vacant_of_removeFile (h : f.removeFile path = .ok g) : g.Vacant path := by
  obtain ⟨d, s, t, hr, hsets⟩ := sets_of_removeFile h
  intro l u hl
  have hg := lookupLink_eq_ok.1 hl
  have hsame {l : Location} (hl : g.tree.node? l ≠ none) : f.tree.node? l = g.tree.node? l := by
    rw [hsets.node, if_neg]
    rintro rfl
    exact hl hsets.self
  have hkeeps : g.tree.Keeps f.tree :=
    ⟨fun l hl ↦ (hsame (by simp [hl])).trans hl, fun l s hl ↦ (hsame (by simp [hl])).trans hl⟩
  have hthere : g.tree.node? l ≠ none := by
    rw [ne_eq, Tree.node?_eq_none, get?_of_resolveWith_present hg]
    simp
  obtain ⟨target, hf, hloc⟩ :=
    resolve_keeps hsets.cwd.symm hkeeps rfl id hg (.of_eq (hsame hthere))
  obtain rfl := Except.ok.inj (hf.symm.trans hr)
  obtain rfl : d ++ [s] = l := hloc
  exact hthere hsets.self

/-- What stood at a path is gone, and all else is there. -/
structure Clears (f : Files) (path : String) (g : Files) : Prop where
  vacant : g.Vacant path
  rest : g = f ∨ ∃ d s t, f.lookupLink path = .ok (d ++ [s], t) ∧ Sets f d s none g

theorem clears_of_removeFile (h : f.removeFile path = .ok g) : f.Clears path g := by
  obtain ⟨d, s, t, hr, hsets⟩ := sets_of_removeFile h
  exact ⟨vacant_of_removeFile h, .inr ⟨d, s, t, lookupLink_eq_ok.2 hr, hsets⟩⟩

end AmbientTypes.Files
