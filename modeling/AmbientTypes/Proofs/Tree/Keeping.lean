import AmbientTypes.Proofs.Tree.Opening

namespace AmbientTypes

/-- Folders and links of the first tree are still there in the second one. -/
structure Tree.Keeps (tree tree' : Tree) : Prop where
  folder : ∀ l, tree.node? l = some .folder → tree'.node? l = some .folder
  link : ∀ l s, tree.node? l = some (.link s) → tree'.node? l = some (.link s)

theorem Tree.Keeps.refl (tree : Tree) : tree.Keeps tree :=
  ⟨fun _ h ↦ h, fun _ _ h ↦ h⟩

namespace Files

variable {tree tree' : Tree} {ending ending' : Ending}

/-- A location that was free is free, and one of a file is one of a file. -/
structure Stays (tree tree' : Tree) (l : Location) : Prop where
  free : tree.node? l = none → tree'.node? l = none
  file : ∀ k, tree.node? l = some (.file k) → ∃ k', tree'.node? l = some (.file k')

theorem Stays.of_eq {l : Location} (h : tree'.node? l = tree.node? l) : Stays tree tree' l :=
  ⟨fun hl ↦ h.trans hl, fun k hl ↦ ⟨k, h.trans hl⟩⟩

theorem Stays.get? (hkeeps : tree.Keeps tree') {l : Location} {t : Tree}
    (hstays : Stays tree tree' l) (ht : tree.get? l = some t) :
    ∃ t', tree'.get? l = some t' ∧ t'.isFolder = t.isFolder := by
  cases t with
  | folder es =>
    have hfolder := hkeeps.folder l (Tree.node?_eq_some_folder.2 ⟨es, ht⟩)
    obtain ⟨es', hes'⟩ := Tree.node?_eq_some_folder.1 hfolder
    exact ⟨_, hes', rfl⟩
  | link s =>
    have hlink := hkeeps.link l s (Tree.node?_eq_some_link.2 ht)
    exact ⟨_, Tree.node?_eq_some_link.1 hlink, rfl⟩
  | file k =>
    obtain ⟨k', hk'⟩ := hstays.file k (Tree.node?_eq_some_file.2 ht)
    exact ⟨_, Tree.node?_eq_some_file.1 hk', rfl⟩

/-- A walk that may follow more links ends where it did. -/
theorem walk_keeps (hkeeps : tree.Keeps tree') (hfollows : ending'.follows = ending.follows)
    (hslash : ending'.refusesSlash = true → ending.refusesSlash = true) {n m : Nat} (hle : n ≤ m)
    {here : Location} {folderWanted : Bool} {segs : List String} {target : Target}
    (hw : walk tree ending n here folderWanted segs = .ok target)
    (hstays : Stays tree tree' target.location) :
    ∃ target', walk tree' ending' m here folderWanted segs = .ok target' ∧
      target'.location = target.location := by
  have hstep {wanted : Bool} {s : String} {rest : List String} (hs : IsStep ending wanted s rest) :
      IsStep ending' wanted s rest :=
    ⟨hs.ne_dot, hs.ne_dots, hs.size, fun h ↦ hs.slash (hslash h)⟩
  simp only [walk_eq_ok_iff] at hw ⊢
  induction hw generalizing m with
  | here ht hkind =>
    obtain ⟨t', ht', hkind'⟩ := hstays.get? hkeeps ht
    exact ⟨_, .here ht' (hkind' ▸ hkind), rfl⟩
  | dot hl _ ih =>
    obtain ⟨target', hw, hloc⟩ := ih hle hstays
    exact ⟨target', .dot (hkeeps.folder _ hl) hw, hloc⟩
  | up hl _ ih =>
    obtain ⟨target', hw, hloc⟩ := ih hle hstays
    exact ⟨target', .up (hkeeps.folder _ hl) hw, hloc⟩
  | absent hs hl hnone =>
    exact ⟨_, .absent (hstep hs) (hkeeps.folder _ hl) (hstays.free hnone), rfl⟩
  | stop hs hstop hlink =>
    exact ⟨_, .stop (hstep hs) (hfollows.trans hstop) (hkeeps.link _ _ hlink), rfl⟩
  | follow hs hgo hlink _ ih =>
    obtain ⟨m, rfl⟩ := Nat.exists_eq_add_of_le' (Nat.le_of_add_left_le hle)
    obtain ⟨target', hw, hloc⟩ := ih (Nat.le_of_succ_le_succ hle) hstays
    rw [← hfollows] at hgo
    exact ⟨target', .follow (hstep hs) hgo (hkeeps.link _ _ hlink) hw, hloc⟩
  | @enter n l wanted s segs target hs hnot h ih =>
    obtain ⟨target', hw, hloc⟩ := ih hle hstays
    refine ⟨target', .enter (hstep hs) (fun link hlink ↦ ?_) hw, hloc⟩
    -- No link has taken the place of what the walk goes on behind, or ends at.
    obtain ⟨node, hnode⟩ := Option.ne_none_iff_exists'.1 h.ne_none
    cases node with
    | link link' => exact hnot link' hnode
    | folder => cases (hkeeps.folder _ hnode).symm.trans hlink
    | file k =>
      rw [h.location_of_file hnode] at hstays
      obtain ⟨k', hk'⟩ := hstays.file k hnode
      cases hk'.symm.trans hlink

/-- A walk ends at no more than one target for a location. -/
theorem IsEnd.unique {t t' : Target} (h : IsEnd tree (.ok t)) (h' : IsEnd tree (.ok t'))
    (hl : t'.location = t.location) : t' = t := by
  cases h with
  | @present l u hu =>
    cases h' with
    | @present l' u' hu' =>
      obtain rfl : l' = l := hl
      obtain rfl := Option.some.inj (hu.symm.trans hu')
      rfl
    | @absent d s hd hs =>
      obtain rfl : d ++ [s] = l := hl
      rw [Tree.node?_eq_none, hu] at hs
      cases hs
  | @absent d s hd hs =>
    cases h' with
    | @present l' u' hu' =>
      obtain rfl : l' = d ++ [s] := hl
      rw [Tree.node?_eq_none, hu'] at hs
      cases hs
    | @absent d' s' hd' hs' =>
      obtain ⟨rfl, hss⟩ := List.append_inj' hl rfl
      obtain rfl := List.singleton_inj.1 hss
      rfl

theorem walk_mono (hfollows : ending'.follows = ending.follows)
    (hslash : ending'.refusesSlash = true → ending.refusesSlash = true) {n m : Nat} (hle : n ≤ m)
    {here : Location} {folderWanted : Bool} {segs : List String} {target : Target}
    (hw : walk tree ending n here folderWanted segs = .ok target) :
    walk tree ending' m here folderWanted segs = .ok target := by
  obtain ⟨target', hw', hl⟩ :=
    walk_keeps (.refl tree) hfollows hslash hle hw (.of_eq rfl)
  have hend : IsEnd tree (.ok target) := hw ▸ isEnd_walk n here folderWanted segs
  have hend' : IsEnd tree (.ok target') := hw' ▸ isEnd_walk m here folderWanted segs
  rw [hw', hend.unique hend' hl]

namespace Leads

theorem cons_cases {n : Nat} {l d : Location} {s : String} {segs : List String}
    (h : Leads tree n l (s :: segs) d) :
    (s = "." ∧ Leads tree n l segs d) ∨ (s = ".." ∧ Leads tree n l.dropLast segs d) ∨
      s ≠ "." ∧ s ≠ ".." ∧ utf8Size s ≤ longestName ∧
        (tree.node? (l ++ [s]) = some .folder ∧ Leads tree n (l ++ [s]) segs d ∨
          ∃ m target, n = m + 1 ∧ tree.node? (l ++ [s]) = some (.link target) ∧
            Leads tree m (if Path.isAbsolute target then [] else l) (segments target ++ segs)
              d) := by
  cases h with
  | dot _ hs => exact .inl ⟨rfl, hs⟩
  | up _ hs => exact .inr (.inl ⟨rfl, hs⟩)
  | enter h1 h2 hsize h hs => exact .inr (.inr ⟨h1, h2, hsize, .inl ⟨h, hs⟩⟩)
  | follow h1 h2 hsize h hs => exact .inr (.inr ⟨h1, h2, hsize, .inr ⟨_, _, rfl, h, hs⟩⟩)

/-- A way that is open where a file has taken the place of an entry, and where more may have been
added since, does not lead over that entry. -/
theorem around {before after : Tree} {n : Nat} {l d d' here : Location} {segs : List String}
    {k : File} (h : Leads before n l segs d) (h' : Leads after n l segs d')
    (hsame : ∀ l ≠ here, tree.node? l = before.node? l) (hfile : after.node? here = some (.file k))
    (hkept : ∀ l, tree.node? l ≠ none → after.node? l = tree.node? l) : Leads tree n l segs d := by
  have hopen {x : Location} {node : Node} (hx : before.node? x = some node)
      (hx' : after.node? x ≠ some (.file k)) :
      tree.node? x = some node ∧ after.node? x = some node := by
    have hnode : tree.node? x = some node := by
      rw [hsame x (by rintro rfl; exact hx' hfile), hx]
    exact ⟨hnode, (hkept x (by simp [hnode])).trans hnode⟩
  induction h with
  | done h =>
    cases h' with
    | done h' => exact .done (hopen h (by simp [h'])).1
  | dot h _ ih =>
    have hl := h'.folder_start
    rcases h'.cons_cases with ⟨-, h'⟩ | ⟨hs, -⟩ | ⟨h1, -⟩
    · exact .dot (hopen h (by simp [hl])).1 (ih h')
    · exact absurd hs (by decide)
    · exact absurd rfl h1
  | up h _ ih =>
    have hl := h'.folder_start
    rcases h'.cons_cases with ⟨hs, -⟩ | ⟨-, h'⟩ | ⟨-, h2, -⟩
    · exact absurd hs (by decide)
    · exact .up (hopen h (by simp [hl])).1 (ih h')
    · exact absurd rfl h2
  | enter h1 h2 hsize h _ ih =>
    rcases h'.cons_cases with ⟨hs, -⟩ | ⟨hs, -⟩ | ⟨-, -, -, ⟨hx, h'⟩ | ⟨m, t, -, hx, h'⟩⟩
    · exact absurd hs h1
    · exact absurd hs h2
    · exact .enter h1 h2 hsize (hopen h (by simp [hx])).1 (ih h')
    · cases hx.symm.trans (hopen h (by simp [hx])).2
  | follow h1 h2 hsize h _ ih =>
    rcases h'.cons_cases with ⟨hs, -⟩ | ⟨hs, -⟩ | ⟨-, -, -, ⟨hx, h'⟩ | ⟨m, t, hm, hx, h'⟩⟩
    · exact absurd hs h1
    · exact absurd hs h2
    · cases hx.symm.trans (hopen h (by simp [hx])).2
    · obtain rfl := Nat.succ.inj hm
      obtain ⟨hnode, hnode'⟩ := hopen h (by simp [hx])
      cases hx.symm.trans hnode'
      exact .follow h1 h2 hsize hnode (ih h')

end Leads
variable {f g : Files} {dir path s : String} {d e : Location}

/-- The way to a directory does not lead over a file that was put in its place, if the directory
could be reached later on. -/
theorem LeadsTo.around {h : Files} {k : File} (hd : f.LeadsTo dir d)
    (hsets : Sets f e s (some (.file k)) g) (hgrows : g.Grows h) {d' : Location}
    (hd' : h.LeadsTo dir d') : g.LeadsTo dir d := by
  have hstart : g.start dir = f.start dir := by rw [start, start, hsets.cwd]
  have hstart' : h.start dir = f.start dir := by rw [start, start, hgrows.cwd, hsets.cwd]
  rw [LeadsTo, hstart'] at hd'
  rw [LeadsTo, hstart]
  have hfile : h.tree.node? (e ++ [s]) = some (.file k) := by
    rw [hgrows.node_of_ne_none (by simp [hsets.self]), hsets.self]
  exact Leads.around hd hd' (fun l hl ↦ hsets.of_ne hl) hfile fun l hl ↦ hgrows.node_of_ne_none hl

theorem get?_location {target : Target} {folderWanted : Bool} {ending : Ending}
    (h : f.resolveWith folderWanted ending path = .ok target) :
    f.tree.get? target.location = match target with
      | .present _ t => some t
      | .absent .. => none := by
  cases target with
  | present l t => exact get?_of_resolveWith_present h
  | absent d s => exact Tree.node?_eq_none.1 (node?_of_resolveWith_absent h).2

theorem lookup_of_resolve {target : Target} (h : f.resolve .behind path = .ok target) :
    f.lookup path = match f.tree.get? target.location with
      | some t => .ok (target.location, t)
      | none => .error .notFound := by
  rw [get?_location h, lookup, h]
  cases target <;> rfl

theorem resolve_keeps {ending ending' : Ending} {target : Target} (hcwd : g.cwd = f.cwd)
    (hkeeps : f.tree.Keeps g.tree) (hfollows : ending'.follows = ending.follows)
    (hslash : ending'.refusesSlash = true → ending.refusesSlash = true)
    (h : f.resolve ending path = .ok target) (hstays : Stays f.tree g.tree target.location) :
    ∃ target', g.resolve ending' path = .ok target' ∧ target'.location = target.location := by
  have hstart : g.start path = f.start path := by rw [start, start, hcwd]
  rw [resolve, resolveWith] at h
  rw [resolve, resolveWith, hstart]
  split at h
  · cases h
  · exact walk_keeps hkeeps hfollows hslash (Nat.le_refl _) h hstays

/-- A path that can be opened leads to its file, or to where the file will be. -/
theorem resolve_behind_of_openOrCreate {l : Location} {bytes : ByteArray}
    (h : f.openOrCreate path = .ok (l, bytes, g)) :
    ∃ target, f.resolve .behind path = .ok target ∧ target.location = l := by
  obtain ⟨target, hr, rfl, -⟩ := resolve_of_openOrCreate h
  have hfollows : Ending.behind.follows = Ending.file.follows := rfl
  exact resolve_keeps rfl (.refl _) hfollows (by decide) hr (.of_eq rfl)

theorem pathExists_of_openOrCreate {l : Location} {bytes : ByteArray}
    (h : f.openOrCreate path = .ok (l, bytes, g)) :
    f.pathExists path = (f.tree.node? l).isSome := by
  obtain ⟨target, hr, rfl⟩ := resolve_behind_of_openOrCreate h
  rw [pathExists, lookup_of_resolve hr, Tree.node?, Option.isSome_map]
  cases f.tree.get? target.location <;> rfl

/-- Folders may be new, and so may files be at certain locations, where what the files hold may
change. -/
structure Publishes (f : Files) (P : Location → Prop) (g : Files) : Prop where
  cwd : g.cwd = f.cwd
  node : ∀ l, g.tree.node? l = f.tree.node? l ∨
    f.tree.node? l = none ∧ g.tree.node? l = some .folder ∨
      P l ∧ (f.tree.node? l = none ∨ ∃ k, f.tree.node? l = some (.file k)) ∧
        ∃ k, g.tree.node? l = some (.file k)

namespace Publishes

variable {P : Location → Prop}

theorem of_grows (h : f.Grows g) : f.Publishes P g :=
  ⟨h.cwd, fun l ↦ (h.node l).imp_right .inl⟩

theorem of_sets {k : File} (h : Sets f d s (some (.file k)) g) (hP : P (d ++ [s]))
    (hbefore : f.tree.node? (d ++ [s]) = none ∨ ∃ k, f.tree.node? (d ++ [s]) = some (.file k)) :
    f.Publishes P g := by
  refine ⟨h.cwd, fun l ↦ ?_⟩
  by_cases hl : l = d ++ [s]
  · rw [hl]
    exact .inr (.inr ⟨hP, hbefore, k, h.self⟩)
  · exact .inl (h.of_ne hl)

theorem trans {h : Files} (hfg : f.Publishes P g) (hgh : g.Publishes P h) : f.Publishes P h := by
  refine ⟨hgh.cwd.trans hfg.cwd, fun l ↦ ?_⟩
  rcases hgh.node l with hh | ⟨hg, hh⟩ | ⟨hP, hg, hh⟩
  · rw [hh]
    exact hfg.node l
  · rcases hfg.node l with hf | ⟨-, hf⟩ | ⟨-, -, k, hf⟩
    · exact .inr (.inl ⟨hf ▸ hg, hh⟩)
    · cases hf.symm.trans hg
    · cases hf.symm.trans hg
  · rcases hfg.node l with hf | ⟨-, hf⟩ | ⟨-, hf, -⟩
    · exact .inr (.inr ⟨hP, hf ▸ hg, hh⟩)
    · simp [hf] at hg
    · exact .inr (.inr ⟨hP, hf, hh⟩)

theorem keeps (h : f.Publishes P g) : f.tree.Keeps g.tree := by
  constructor
  · intro l hl
    rcases h.node l with hg | ⟨hf, -⟩ | ⟨-, hf, -⟩
    · exact hg.trans hl
    · cases hl.symm.trans hf
    · simp [hl] at hf
  · intro l t hl
    rcases h.node l with hg | ⟨hf, -⟩ | ⟨-, hf, -⟩
    · exact hg.trans hl
    · cases hl.symm.trans hf
    · simp [hl] at hf

theorem ne_none (h : f.Publishes P g) {l : Location} (hl : f.tree.node? l ≠ none) :
    g.tree.node? l ≠ none := by
  rcases h.node l with hg | ⟨hf, -⟩ | ⟨-, -, k, hg⟩
  · rwa [hg]
  · exact absurd hf hl
  · simp [hg]

theorem link_before (h : f.Publishes P g) {l : Location} {t : String}
    (hl : g.tree.node? l = some (.link t)) : f.tree.node? l = some (.link t) := by
  rcases h.node l with hg | ⟨-, hg⟩ | ⟨-, -, k, hg⟩
  · rwa [← hg]
  · cases hl.symm.trans hg
  · cases hl.symm.trans hg

theorem file (h : f.Publishes P g) {l : Location} {k : File}
    (hl : f.tree.node? l = some (.file k)) :
    ∃ k', g.tree.node? l = some (.file k') ∧ (¬ P l → k' = k) := by
  rcases h.node l with hg | ⟨hf, -⟩ | ⟨hP, -, k', hg⟩
  · exact ⟨k, hg.trans hl, fun _ ↦ rfl⟩
  · cases hl.symm.trans hf
  · exact ⟨k', hg, fun hnot ↦ absurd hP hnot⟩

theorem stays (h : f.Publishes P g) {l : Location} (hl : f.tree.node? l ≠ none) :
    Stays f.tree g.tree l :=
  ⟨fun hnone ↦ absurd hnone hl, fun _ hk ↦ (h.file hk).imp fun _ hk' ↦ hk'.1⟩

theorem resolve_present (h : f.Publishes P g) {ending : Ending} {l : Location} {t : Tree}
    (hr : f.resolve ending path = .ok (.present l t)) :
    ∃ t', g.resolve ending path = .ok (.present l t') ∧ g.tree.get? l = some t' := by
  have hget := get?_of_resolveWith_present hr
  have hthere : f.tree.node? l ≠ none := by simp [Tree.node?_eq_none, hget]
  obtain ⟨target, hr', hl⟩ := resolve_keeps h.cwd h.keeps rfl id hr (h.stays hthere)
  have htarget := get?_location hr'
  cases target with
  | present l' t' =>
    obtain rfl : l' = l := hl
    exact ⟨t', hr', htarget⟩
  | absent d' s' =>
    rw [hl] at htarget
    exact absurd (Tree.node?_eq_none.2 htarget) (h.ne_none hthere)

theorem lookupLink (h : f.Publishes P g) {l : Location} {t : Tree}
    (hl : f.lookupLink path = .ok (l, t)) :
    ∃ t', g.lookupLink path = .ok (l, t') ∧ f.tree.get? l = some t ∧ g.tree.get? l = some t' := by
  rw [Files.lookupLink] at hl
  split at hl
  · next l' u hr =>
    obtain ⟨rfl, rfl⟩ := Prod.mk.inj (Except.ok.inj hl)
    obtain ⟨t', hr', ht'⟩ := h.resolve_present hr
    exact ⟨t', by rw [Files.lookupLink, hr'], get?_of_resolveWith_present hr, ht'⟩
  · cases hl
  · cases hl

theorem lookup_folder (h : f.Publishes P g) {l : Location} {es : List (String × Tree)}
    (hl : f.lookup path = .ok (l, .folder es)) :
    ∃ es', g.lookup path = .ok (l, .folder es') ∧ f.tree.get? l = some (.folder es) ∧
      g.tree.get? l = some (.folder es') := by
  rw [lookup] at hl
  split at hl
  · next l' t hr =>
    obtain ⟨rfl, rfl⟩ := Prod.mk.inj (Except.ok.inj hl)
    have hes := get?_of_resolveWith_present hr
    obtain ⟨t', hr', ht'⟩ := h.resolve_present hr
    obtain ⟨es', hes'⟩ := Tree.node?_eq_some_folder.1
      (h.keeps.folder _ (Tree.node?_eq_some_folder.2 ⟨es, hes⟩))
    obtain rfl := Option.some.inj (ht'.symm.trans hes')
    exact ⟨es', by rw [lookup, hr'], hes, hes'⟩
  · cases hl
  · cases hl

theorem lookup_file (h : f.Publishes P g) {l : Location} {k : File}
    (hl : f.lookup path = .ok (l, .file k)) :
    ∃ k', g.lookup path = .ok (l, .file k') ∧ (¬ P l → k' = k) := by
  rw [lookup] at hl
  split at hl
  · next l' t hr =>
    obtain ⟨rfl, rfl⟩ := Prod.mk.inj (Except.ok.inj hl)
    obtain ⟨t', hr', ht'⟩ := h.resolve_present hr
    obtain ⟨k', hk', hsame⟩ := h.file (Tree.node?_eq_some_file.2 (get?_of_resolveWith_present hr))
    obtain rfl := Option.some.inj (ht'.symm.trans (Tree.node?_eq_some_file.1 hk'))
    exact ⟨k', by rw [lookup, hr'], hsame⟩
  · cases hl
  · cases hl

theorem isFile (h : f.Publishes P g) (hfile : f.isFile path = true) : g.isFile path = true := by
  rw [Files.isFile] at hfile ⊢
  split at hfile
  · next l k hl =>
    obtain ⟨k', hk', -⟩ := h.lookup_file hl
    rw [hk']
  · cases hfile

theorem readText (h : f.Publishes P g) {text : String} (htext : f.readText path = .ok text)
    (hnot : ∀ l t, f.lookup path = .ok (l, t) → ¬ P l) : g.readText path = .ok text := by
  rw [Files.readText, readBytes] at htext ⊢
  cases hl : f.lookup path with
  | error e => simp [hl, bind, Except.bind] at htext
  | ok r =>
    obtain ⟨l, t⟩ := r
    cases t with
    | link t => simp [hl, bind, Except.bind] at htext
    | folder es => simp [hl, bind, Except.bind] at htext
    | file k =>
      obtain ⟨k', hk', hsame⟩ := h.lookup_file hl
      obtain rfl := hsame (hnot l _ hl)
      rw [hl] at htext
      rwa [hk']

end Publishes

end Files

end AmbientTypes
