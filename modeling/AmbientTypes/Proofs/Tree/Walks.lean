import AmbientTypes.Proofs.Tree.Steps

namespace AmbientTypes.Files

variable {tree : Tree} {ending : Ending}

/-- Segments lead from a location to a folder over at most `links` links. -/
inductive Leads (tree : Tree) : (links : Nat) → Location → List String → Location → Prop
  | done {n : Nat} {l : Location} (h : tree.node? l = some .folder) : Leads tree n l [] l
  | dot {n : Nat} {l d : Location} {segs : List String} (h : tree.node? l = some .folder)
      (hs : Leads tree n l segs d) : Leads tree n l ("." :: segs) d
  | up {n : Nat} {l d : Location} {segs : List String} (h : tree.node? l = some .folder)
      (hs : Leads tree n l.dropLast segs d) : Leads tree n l (".." :: segs) d
  | enter {n : Nat} {l d : Location} {s : String} {segs : List String}
      (h1 : s ≠ ".") (h2 : s ≠ "..")
      (hsize : utf8Size s ≤ longestName) (h : tree.node? (l ++ [s]) = some .folder)
      (hs : Leads tree n (l ++ [s]) segs d) : Leads tree n l (s :: segs) d
  | follow {n : Nat} {l d : Location} {s target : String} {segs : List String} (h1 : s ≠ ".")
      (h2 : s ≠ "..") (hsize : utf8Size s ≤ longestName)
      (h : tree.node? (l ++ [s]) = some (.link target))
      (hs : Leads tree n (if Path.isAbsolute target then [] else l) (segments target ++ segs) d) :
      Leads tree (n + 1) l (s :: segs) d

namespace Leads

theorem folder {n : Nat} {l d : Location} {segs : List String} (h : Leads tree n l segs d) :
    tree.node? d = some .folder := by
  induction h with
  | done h => exact h
  | dot _ _ ih | up _ _ ih | enter _ _ _ _ _ ih | follow _ _ _ _ _ ih => exact ih

theorem folder_start {n : Nat} {l d : Location} {segs : List String} (h : Leads tree n l segs d) :
    tree.node? l = some .folder := by
  cases h with
  | done h | dot h | up h => exact h
  | enter _ _ _ h | follow _ _ _ h => exact Tree.node?_parent (by rw [h]; simp)

theorem mono {tree' : Tree} {n : Nat} {l d : Location} {segs : List String}
    (h : Leads tree n l segs d)
    (hfolder : ∀ l, tree.node? l = some .folder → tree'.node? l = some .folder)
    (hlink : ∀ l s, tree.node? l = some (.link s) → tree'.node? l = some (.link s)) :
    Leads tree' n l segs d := by
  induction h with
  | done h => exact .done (hfolder _ h)
  | dot h _ ih => exact .dot (hfolder _ h) ih
  | up h _ ih => exact .up (hfolder _ h) ih
  | enter h1 h2 hsize h _ ih => exact .enter h1 h2 hsize (hfolder _ h) ih
  | follow h1 h2 hsize h _ ih => exact .follow h1 h2 hsize (hlink _ _ h) ih

end Leads

theorem Leads.walk_append_le {n : Nat} {l d : Location} {segs : List String}
    (h : Leads tree n l segs d) (ending : Ending) (folderWanted : Bool) {rest : List String}
    (hrest : rest ≠ []) :
    ∃ m ≤ n, walk tree ending n l folderWanted (segs ++ rest) =
      walk tree ending m d folderWanted rest := by
  have hne (segs : List String) : segs ++ rest ≠ [] := by simp [hrest]
  induction h with
  | done h => exact ⟨_, Nat.le_refl _, rfl⟩
  | dot h _ ih =>
    obtain ⟨m, hle, ih⟩ := ih
    exact ⟨m, hle, by rw [List.cons_append, walk_dot h, ih]⟩
  | up h _ ih =>
    obtain ⟨m, hle, ih⟩ := ih
    exact ⟨m, hle, by rw [List.cons_append, walk_up h, ih]⟩
  | @enter n l d s segs h1 h2 hsize h _ ih =>
    obtain ⟨m, hle, ih⟩ := ih
    have hs : IsStep ending folderWanted s (segs ++ rest) := ⟨h1, h2, hsize, fun _ _ ↦ hne segs⟩
    refine ⟨m, hle, ?_⟩
    rw [List.cons_append, hs.walk_enter h nofun, ih]
  | @follow n l d s target segs h1 h2 hsize h _ ih =>
    obtain ⟨m, hle, ih⟩ := ih
    have hs : IsStep ending folderWanted s (segs ++ rest) := ⟨h1, h2, hsize, fun _ _ ↦ hne segs⟩
    refine ⟨m, by omega, ?_⟩
    rw [List.cons_append, hs.walk_link h, ← ih, List.append_assoc]
    simp [hne segs, afterLink]

theorem Leads.walk_append {n : Nat} {l d : Location} {segs : List String}
    (h : Leads tree n l segs d) (ending : Ending) (folderWanted : Bool) {rest : List String}
    (hrest : rest ≠ []) :
    ∃ m, walk tree ending n l folderWanted (segs ++ rest) =
      walk tree ending m d folderWanted rest := by
  obtain ⟨m, -, hm⟩ := h.walk_append_le ending folderWanted hrest
  exact ⟨m, hm⟩

theorem WalksTo.leads {n : Nat} {l : Location} {wanted : Bool} {segs : List String} {s : String}
    {target : Target} (h : WalksTo tree ending n l wanted (segs ++ [s]) target) :
    ∃ d, Leads tree n l segs d := by
  cases segs with
  | nil => exact ⟨l, .done h.folder⟩
  | cons r segs =>
    rw [List.cons_append] at h
    generalize hrest : segs ++ [s] = rest at h
    cases h with
    | absent | stop => simp at hrest
    | dot hl h =>
      obtain ⟨d, hd⟩ := leads (hrest ▸ h)
      exact ⟨d, .dot hl hd⟩
    | up hl h =>
      obtain ⟨d, hd⟩ := leads (hrest ▸ h)
      exact ⟨d, .up hl hd⟩
    | follow hs _ hlink h =>
      rw [← hrest, ← List.append_assoc] at h
      obtain ⟨d, hd⟩ := leads h
      exact ⟨d, .follow hs.ne_dot hs.ne_dots hs.size hlink hd⟩
    | enter hs _ h =>
      obtain ⟨d, hd⟩ := leads (hrest ▸ h)
      exact ⟨d, .enter hs.ne_dot hs.ne_dots hs.size hd.folder_start hd⟩
termination_by (n, segs.length)

theorem leads_of_walk {n : Nat} {l : Location} {folderWanted : Bool} {segs : List String}
    {s : String} {target : Target}
    (h : walk tree ending n l folderWanted (segs ++ [s]) = .ok target) :
    ∃ d, Leads tree n l segs d :=
  (walk_eq_ok_iff.1 h).leads

/-- The steps of a walk that ends in a folder behind links. -/
theorem leads_of_walk_behind {n : Nat} {l d : Location} {folderWanted : Bool} {segs : List String}
    {es : List (String × Tree)}
    (h : walk tree .behind n l folderWanted segs = .ok (.present d (.folder es))) :
    Leads tree n l segs d := by
  rw [walk_eq_ok_iff] at h
  generalize htarget : Target.present d (.folder es) = target at h
  induction h with
  | here ht _ =>
    obtain ⟨rfl, rfl⟩ := Target.present.inj htarget
    exact .done (Tree.node?_eq_some_folder.2 ⟨es, ht⟩)
  | dot hl _ ih => exact .dot hl (ih htarget)
  | up hl _ ih => exact .up hl (ih htarget)
  | absent | stop => cases htarget
  | follow hs _ hlink _ ih => exact .follow hs.ne_dot hs.ne_dots hs.size hlink (ih htarget)
  | enter hs _ _ ih =>
    have hrest := ih htarget
    exact .enter hs.ne_dot hs.ne_dots hs.size hrest.folder_start hrest

/-- The segments that move. -/
def moving (segs : List String) : List String :=
  segs.filter (· ≠ ".")

theorem moving_append (segs segs' : List String) :
    moving (segs ++ segs') = moving segs ++ moving segs' :=
  List.filter_append ..

theorem moving_cons {s : String} (h : s ≠ ".") (segs : List String) :
    moving (s :: segs) = s :: moving segs := by
  simp [moving, h]

theorem moving_eq_cons {segs rest : List String} {s : String} (h : moving segs = s :: rest) :
    ∃ k segs', segs = List.replicate k "." ++ s :: segs' ∧ moving segs' = rest := by
  induction segs with
  | nil => cases h
  | cons r segs ih =>
    by_cases hr : r = "."
    · obtain ⟨k, segs', hsegs, hrest⟩ := ih (by simpa [moving, hr] using h)
      exact ⟨k + 1, segs', by rw [hr, hsegs]; rfl, hrest⟩
    · obtain ⟨rfl, hrest⟩ : r = s ∧ moving segs = rest := by simpa [moving, hr] using h
      exact ⟨0, segs, rfl, hrest⟩

theorem moving_eq_nil {segs : List String} (h : moving segs = []) :
    segs = List.replicate segs.length "." := by
  rw [List.eq_replicate_iff]
  exact ⟨rfl, by simpa [moving, List.filter_eq_nil_iff] using h⟩

namespace Leads

theorem replicate_dot {n : Nat} {l d : Location} {segs : List String} (h : Leads tree n l segs d)
    (k : Nat) : Leads tree n l (List.replicate k "." ++ segs) d := by
  induction k with
  | zero => exact h
  | succ k ih => exact .dot h.folder_start ih

theorem congr {n : Nat} {l d : Location} {segs segs' : List String} (h : Leads tree n l segs d)
    (hm : moving segs = moving segs') : Leads tree n l segs' d := by
  induction h generalizing segs' with
  | @done n l h =>
    rw [moving_eq_nil hm.symm, ← List.append_nil (List.replicate _ _)]
    exact (Leads.done h).replicate_dot _
  | dot h hs ih => exact ih hm
  | up h hs ih =>
    obtain ⟨k, rest, rfl, hrest⟩ := moving_eq_cons (hm.symm.trans (moving_cons (by decide) _))
    exact (Leads.up h (ih hrest.symm)).replicate_dot k
  | @enter n l d s segs h1 h2 hsize h hs ih =>
    obtain ⟨k, rest, rfl, hrest⟩ := moving_eq_cons (hm.symm.trans (moving_cons h1 segs))
    exact (Leads.enter h1 h2 hsize h (ih hrest.symm)).replicate_dot k
  | @follow n l d s target segs h1 h2 hsize h hs ih =>
    obtain ⟨k, rest, rfl, hrest⟩ := moving_eq_cons (hm.symm.trans (moving_cons h1 segs))
    refine (Leads.follow h1 h2 hsize h (ih ?_)).replicate_dot k
    rw [moving_append, moving_append, hrest]

theorem walk_behind {n : Nat} {l d : Location} {segs : List String} (h : Leads tree n l segs d)
    (folderWanted : Bool) :
    ∃ es, walk tree .behind n l folderWanted segs = .ok (.present d (.folder es)) := by
  simp only [walk_eq_ok_iff]
  induction h generalizing folderWanted with
  | done h =>
    obtain ⟨es, hes⟩ := Tree.node?_eq_some_folder.1 h
    exact ⟨es, .here hes fun _ ↦ rfl⟩
  | dot h _ ih =>
    obtain ⟨es, hw⟩ := ih folderWanted
    exact ⟨es, .dot h hw⟩
  | up h _ ih =>
    obtain ⟨es, hw⟩ := ih folderWanted
    exact ⟨es, .up h hw⟩
  | enter h1 h2 hsize h _ ih =>
    obtain ⟨es, hw⟩ := ih folderWanted
    exact ⟨es, .enter ⟨h1, h2, hsize, nofun⟩ (by simp [h]) hw⟩
  | @follow n l d s target segs h1 h2 hsize h _ ih =>
    obtain ⟨es, hw⟩ := ih (if segs = [] then folderWanted || endsInSlash target else folderWanted)
    exact ⟨es, .follow ⟨h1, h2, hsize, nofun⟩ (fun _ ↦ nofun) h hw⟩

theorem unique {n : Nat} {l d d' : Location} {segs : List String} (h : Leads tree n l segs d)
    (h' : Leads tree n l segs d') : d = d' := by
  obtain ⟨es, hw⟩ := h.walk_behind false
  obtain ⟨es', hw'⟩ := h'.walk_behind false
  rw [hw] at hw'
  cases hw'
  rfl

theorem of_append {n : Nat} {l d : Location} {segs rest : List String}
    (h : Leads tree n l (segs ++ rest) d) : ∃ e, Leads tree n l segs e := by
  generalize hall : segs ++ rest = all at h
  induction h generalizing segs with
  | @done n l h =>
    obtain ⟨rfl, -⟩ := List.append_eq_nil_iff.1 hall
    exact ⟨l, .done h⟩
  | @dot n l d more h hs ih =>
    rcases List.append_eq_cons_iff.1 hall with ⟨rfl, -⟩ | ⟨segs, rfl, hmore⟩
    · exact ⟨l, .done h⟩
    · obtain ⟨e, he⟩ := ih hmore.symm
      exact ⟨e, .dot h he⟩
  | @up n l d more h hs ih =>
    rcases List.append_eq_cons_iff.1 hall with ⟨rfl, -⟩ | ⟨segs, rfl, hmore⟩
    · exact ⟨l, .done h⟩
    · obtain ⟨e, he⟩ := ih hmore.symm
      exact ⟨e, .up h he⟩
  | @enter n l d s more h1 h2 hsize h hs ih =>
    rcases List.append_eq_cons_iff.1 hall with ⟨rfl, -⟩ | ⟨segs, rfl, hmore⟩
    · exact ⟨l, .done (Tree.node?_parent (by rw [h]; simp))⟩
    · obtain ⟨e, he⟩ := ih hmore.symm
      exact ⟨e, .enter h1 h2 hsize h he⟩
  | @follow n l d s target more h1 h2 hsize h hs ih =>
    rcases List.append_eq_cons_iff.1 hall with ⟨rfl, -⟩ | ⟨segs, rfl, rfl⟩
    · exact ⟨l, .done (Tree.node?_parent (by rw [h]; simp))⟩
    · obtain ⟨e, he⟩ := ih (List.append_assoc ..)
      exact ⟨e, .follow h1 h2 hsize h he⟩

/-- However many links a walk may follow, it ends in the folder that its segments lead to. -/
theorem walk_eq_ok {n m : Nat} {l d : Location} {segs : List String} (h : Leads tree n l segs d)
    {folderWanted : Bool} {target : Target}
    (hw : walk tree .behind m l folderWanted segs = .ok target) :
    ∃ es, target = .present d (.folder es) := by
  induction h generalizing m folderWanted with
  | done h =>
    obtain ⟨es, hes⟩ := Tree.node?_eq_some_folder.1 h
    rw [walk_nil, hes] at hw
    exact ⟨es, by simpa [Tree.isFolder, eq_comm] using hw⟩
  | dot h _ ih =>
    rw [walk_dot h] at hw
    exact ih hw
  | up h _ ih =>
    rw [walk_up h] at hw
    exact ih hw
  | @enter n l d s segs h1 h2 hsize h _ ih =>
    have hs : IsStep .behind folderWanted s segs := ⟨h1, h2, hsize, nofun⟩
    rw [hs.walk_enter h nofun] at hw
    exact ih hw
  | @follow n l d s target segs h1 h2 hsize h _ ih =>
    have hs : IsStep .behind folderWanted s segs := ⟨h1, h2, hsize, nofun⟩
    rw [hs.walk_link h] at hw
    simp only [Ending.follows, Bool.not_true, Bool.and_false, Bool.false_and, Bool.false_eq_true,
      if_false] at hw
    cases m with
    | zero => cases hw
    | succ m => exact ih hw

theorem of_same_but {tree' : Tree} {n : Nat} {l d here : Location} {segs : List String} {s : String}
    (h : Leads tree n l segs d) (h1 : s ≠ ".") (h2 : s ≠ "..") (hsize : utf8Size s ≤ longestName)
    (hnot : ∀ m e, ¬ Leads tree m here [s] e)
    (hsame : ∀ l ≠ here ++ [s], tree'.node? l = tree.node? l) : Leads tree' n l segs d := by
  have hfolder {l : Location} (hl : tree.node? l = some .folder) :
      tree'.node? l = some .folder := by
    rw [hsame l, hl]
    rintro rfl
    exact hnot 0 _ (.enter h1 h2 hsize hl (.done hl))
  induction h with
  | done h => exact .done (hfolder h)
  | dot h _ ih => exact .dot (hfolder h) ih
  | up h _ ih => exact .up (hfolder h) ih
  | enter h1 h2 hsize h _ ih => exact .enter h1 h2 hsize (hfolder h) ih
  | @follow n l d r target segs h1' h2' hsize' h hs ih =>
    refine .follow h1' h2' hsize' ?_ ih
    rw [hsame _, h]
    intro heq
    obtain ⟨rfl, hr⟩ := List.append_inj' heq rfl
    obtain rfl := List.singleton_inj.1 hr
    obtain ⟨e, he⟩ := hs.of_append
    exact hnot _ e (.follow h1 h2 hsize h (by rwa [List.append_nil]))

end Leads

end AmbientTypes.Files
