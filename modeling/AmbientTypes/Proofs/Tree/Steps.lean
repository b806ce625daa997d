import AmbientTypes.Proofs.Tree.Nodes
import AmbientTypes.Tree.Resolve

namespace AmbientTypes.Files

variable {tree : Tree} {ending : Ending}

def afterLink (tree : Tree) (ending : Ending) :
    Nat → Location → Bool → List String → Except SysError Target
  | 0 => fun _ _ _ ↦ .error .tooManyLinks
  | n + 1 => walk tree ending n

section Equations

variable {n : Nat} {l : Location} {folderWanted : Bool} {s : String} {rest : List String}

theorem walk_eq_walkWith :
    walk tree ending n = walkWith tree ending (afterLink tree ending n) := by
  cases n <;> rfl

theorem walk_nil : walk tree ending n l folderWanted [] =
    match tree.get? l with
    | none => .error .notFound
    | some t =>
      if folderWanted && !t.isFolder then .error .notADirectory else .ok (.present l t) := by
  cases n <;> rfl

theorem walk_cons_of_ne_folder (hl : tree.node? l ≠ some .folder) :
    walk tree ending n l folderWanted (s :: rest) =
      .error (if tree.node? l = none then .notFound else .notADirectory) := by
  rw [walk_eq_walkWith, walkWith]
  cases hget : tree.get? l with
  | none => simp [Tree.node?, hget]
  | some t =>
    cases t with
    | folder es => exact absurd (Tree.node?_eq_some_folder.2 ⟨es, hget⟩) hl
    | file k | link t => simp [Tree.node?, hget]

theorem folder_of_walk {target : Target}
    (h : walk tree ending n l folderWanted (s :: rest) = .ok target) :
    tree.node? l = some .folder := by
  refine Classical.not_not.1 fun hl ↦ ?_
  rw [walk_cons_of_ne_folder hl] at h
  cases h

theorem walk_cons (hl : tree.node? l = some .folder) :
    walk tree ending n l folderWanted (s :: rest) =
      if s = "." then walk tree ending n l folderWanted rest
      else if s = ".." then walk tree ending n l.dropLast folderWanted rest
      else if ending.refusesSlash && folderWanted && rest = [] then .error .isADirectory
      else if longestName < utf8Size s then .error .nameTooLong
      else
        match tree.node? (l ++ [s]) with
        | none => if rest = [] then .ok (.absent l s) else .error .notFound
        | some (.link target) =>
          if rest = [] && !ending.follows && !folderWanted then
            .ok (.present (l ++ [s]) (.link target))
          else
            afterLink tree ending n (if Path.isAbsolute target then [] else l)
              (if rest = [] then folderWanted || endsInSlash target else folderWanted)
              (segments target ++ rest)
        | some _ => walk tree ending n (l ++ [s]) folderWanted rest := by
  obtain ⟨es, hes⟩ := Tree.node?_eq_some_folder.1 hl
  rw [walk_eq_walkWith, walkWith, hes, Tree.node?, Tree.get?_child hes s]
  simp only
  cases es.lookup s with
  | none => rfl
  | some t => cases t <;> rfl

theorem walk_dot (hl : tree.node? l = some .folder) :
    walk tree ending n l folderWanted ("." :: rest) = walk tree ending n l folderWanted rest := by
  rw [walk_cons hl, if_pos rfl]

theorem walk_up (hl : tree.node? l = some .folder) :
    walk tree ending n l folderWanted (".." :: rest) =
      walk tree ending n l.dropLast folderWanted rest := by
  rw [walk_cons hl, if_neg (by decide), if_pos rfl]

end Equations

/-- A segment that a walk takes as a name, with the segments of `rest` behind it. -/
structure IsStep (ending : Ending) (folderWanted : Bool) (s : String) (rest : List String) :
    Prop where
  ne_dot : s ≠ "."
  ne_dots : s ≠ ".."
  size : utf8Size s ≤ longestName
  slash : ending.refusesSlash = true → folderWanted = true → rest ≠ []

namespace IsStep

variable {n : Nat} {l : Location} {folderWanted : Bool} {s : String} {rest : List String}

theorem walk_eq (hs : IsStep ending folderWanted s rest) (hl : tree.node? l = some .folder) :
    walk tree ending n l folderWanted (s :: rest) =
      match tree.node? (l ++ [s]) with
      | none => if rest = [] then .ok (.absent l s) else .error .notFound
      | some (.link target) =>
        if rest = [] && !ending.follows && !folderWanted then
          .ok (.present (l ++ [s]) (.link target))
        else
          afterLink tree ending n (if Path.isAbsolute target then [] else l)
            (if rest = [] then folderWanted || endsInSlash target else folderWanted)
            (segments target ++ rest)
      | some _ => walk tree ending n (l ++ [s]) folderWanted rest := by
  have hslash : ¬ (ending.refusesSlash && folderWanted && decide (rest = [])) = true := by
    simp only [Bool.and_eq_true, decide_eq_true_eq]
    rintro ⟨⟨hr, hw⟩, hrest⟩
    exact hs.slash hr hw hrest
  rw [walk_cons hl, if_neg hs.ne_dot, if_neg hs.ne_dots, if_neg hslash,
    if_neg (Nat.not_lt.2 hs.size)]

theorem walk_link (hs : IsStep ending folderWanted s rest) {target : String}
    (hlink : tree.node? (l ++ [s]) = some (.link target)) :
    walk tree ending n l folderWanted (s :: rest) =
      if rest = [] && !ending.follows && !folderWanted then
        .ok (.present (l ++ [s]) (.link target))
      else
        afterLink tree ending n (if Path.isAbsolute target then [] else l)
          (if rest = [] then folderWanted || endsInSlash target else folderWanted)
          (segments target ++ rest) := by
  have hl := Tree.node?_parent (d := l) (n := s) (by rw [hlink]; simp)
  rw [hs.walk_eq hl, hlink]

theorem walk_enter (hs : IsStep ending folderWanted s rest) {node : Node}
    (hnode : tree.node? (l ++ [s]) = some node) (hnot : ∀ target, node ≠ .link target) :
    walk tree ending n l folderWanted (s :: rest) =
      walk tree ending n (l ++ [s]) folderWanted rest := by
  have hl := Tree.node?_parent (d := l) (n := s) (by rw [hnode]; simp)
  rw [hs.walk_eq hl, hnode]
  cases node with
  | link target => exact absurd rfl (hnot target)
  | folder | file k => rfl

end IsStep

/-- How a walk comes to its target: one constructor for each thing that a segment can do. -/
inductive WalksTo (tree : Tree) (ending : Ending) :
    (links : Nat) → Location → (folderWanted : Bool) → List String → Target → Prop
  | here {n : Nat} {l : Location} {wanted : Bool} {t : Tree} (ht : tree.get? l = some t)
      (hkind : wanted = true → t.isFolder = true) :
      WalksTo tree ending n l wanted [] (.present l t)
  | dot {n : Nat} {l : Location} {wanted : Bool} {segs : List String} {target : Target}
      (hl : tree.node? l = some .folder) (h : WalksTo tree ending n l wanted segs target) :
      WalksTo tree ending n l wanted ("." :: segs) target
  | up {n : Nat} {l : Location} {wanted : Bool} {segs : List String} {target : Target}
      (hl : tree.node? l = some .folder) (h : WalksTo tree ending n l.dropLast wanted segs target) :
      WalksTo tree ending n l wanted (".." :: segs) target
  | absent {n : Nat} {l : Location} {wanted : Bool} {s : String} (hs : IsStep ending wanted s [])
      (hl : tree.node? l = some .folder) (hnone : tree.node? (l ++ [s]) = none) :
      WalksTo tree ending n l wanted [s] (.absent l s)
  | stop {n : Nat} {l : Location} {s link : String} (hs : IsStep ending false s [])
      (hstop : ending.follows = false) (hlink : tree.node? (l ++ [s]) = some (.link link)) :
      WalksTo tree ending n l false [s] (.present (l ++ [s]) (.link link))
  | follow {n : Nat} {l : Location} {wanted : Bool} {s link : String} {segs : List String}
      {target : Target} (hs : IsStep ending wanted s segs)
      (hgo : segs = [] → ending.follows = false → wanted = true)
      (hlink : tree.node? (l ++ [s]) = some (.link link))
      (h : WalksTo tree ending n (if Path.isAbsolute link then [] else l)
        (if segs = [] then wanted || endsInSlash link else wanted) (segments link ++ segs) target) :
      WalksTo tree ending (n + 1) l wanted (s :: segs) target
  | enter {n : Nat} {l : Location} {wanted : Bool} {s : String} {segs : List String}
      {target : Target} (hs : IsStep ending wanted s segs)
      (hnot : ∀ link, tree.node? (l ++ [s]) ≠ some (.link link))
      (h : WalksTo tree ending n (l ++ [s]) wanted segs target) :
      WalksTo tree ending n l wanted (s :: segs) target

namespace WalksTo

theorem ne_none {n : Nat} {l : Location} {wanted : Bool} {segs : List String} {target : Target}
    (h : WalksTo tree ending n l wanted segs target) : tree.node? l ≠ none := by
  induction h with
  | here ht => simp [Tree.node?, ht]
  | dot hl | up hl | absent _ hl => simp [hl]
  | stop _ _ hlink | follow _ _ hlink => simp [Tree.node?_parent (by rw [hlink]; simp)]
  | enter _ _ _ ih => simp [Tree.node?_parent ih]

theorem folder {n : Nat} {l : Location} {wanted : Bool} {s : String} {segs : List String}
    {target : Target} (h : WalksTo tree ending n l wanted (s :: segs) target) :
    tree.node? l = some .folder := by
  cases h with
  | dot hl | up hl | absent _ hl => exact hl
  | stop _ _ hlink | follow _ _ hlink => exact Tree.node?_parent (by rw [hlink]; simp)
  | enter _ _ h => exact Tree.node?_parent h.ne_none

theorem location_of_file {n : Nat} {l : Location} {wanted : Bool} {segs : List String}
    {target : Target} (h : WalksTo tree ending n l wanted segs target) {k : File}
    (hk : tree.node? l = some (.file k)) : target.location = l := by
  cases segs with
  | cons s segs => cases hk.symm.trans h.folder
  | nil =>
    cases h with
    | here ht => rfl

theorem walk_eq_ok {n : Nat} {l : Location} {wanted : Bool} {segs : List String} {target : Target}
    (h : WalksTo tree ending n l wanted segs target) :
    walk tree ending n l wanted segs = .ok target := by
  induction h with
  | here ht hkind =>
    rw [walk_nil, ht]
    simp only
    rw [if_neg]
    simpa using hkind
  | dot hl _ ih => rw [walk_dot hl, ih]
  | up hl _ ih => rw [walk_up hl, ih]
  | absent hs hl hnone =>
    rw [hs.walk_eq hl, hnone]
    rfl
  | stop hs hstop hlink =>
    rw [hs.walk_link hlink]
    simp [hstop]
  | follow hs hgo hlink _ ih =>
    rw [hs.walk_link hlink, if_neg, ← ih]
    · rfl
    · simpa using hgo
  | enter hs hnot h ih =>
    obtain ⟨node, hnode⟩ := Option.ne_none_iff_exists'.1 h.ne_none
    rw [hs.walk_enter hnode fun link hlink ↦ hnot link (hlink ▸ hnode), ih]

theorem of_walk {n : Nat} {l : Location} {wanted : Bool} {segs : List String} {target : Target}
    (h : walk tree ending n l wanted segs = .ok target) :
    WalksTo tree ending n l wanted segs target := by
  cases segs with
  | nil =>
    rw [walk_nil] at h
    split at h
    · cases h
    next t ht =>
    split at h
    · cases h
    next hkind =>
    obtain rfl := Except.ok.inj h
    exact .here ht (by simpa using hkind)
  | cons s rest =>
    have hl := folder_of_walk h
    rw [walk_cons hl] at h
    split at h
    · next hs => exact hs ▸ .dot hl (of_walk h)
    next h1 =>
    split at h
    · next hs => exact hs ▸ .up hl (of_walk h)
    next h2 =>
    split at h
    · cases h
    next hslash =>
    split at h
    · cases h
    next hsize =>
    have hs : IsStep ending wanted s rest :=
      ⟨h1, h2, Nat.not_lt.1 hsize, fun hr hw hrest ↦ hslash (by simp [hr, hw, hrest])⟩
    split at h
    · next hnone =>
      split at h
      · next hrest =>
        subst hrest
        obtain rfl := Except.ok.inj h
        exact .absent hs hl hnone
      · cases h
    · next link hlink =>
      split at h
      · next hend =>
        simp only [Bool.and_eq_true, Bool.not_eq_true', decide_eq_true_eq] at hend
        obtain ⟨⟨rfl, hstop⟩, rfl⟩ := hend
        obtain rfl := Except.ok.inj h
        exact .stop hs hstop hlink
      · next hend =>
        cases n with
        | zero => cases h
        | succ n => exact .follow hs (by simpa using hend) hlink (of_walk h)
    · next node hnot hnode =>
      refine .enter hs (fun link hlink ↦ ?_) (of_walk h)
      exact hnot link (Option.some.inj (hnode.symm.trans hlink))
termination_by (n, segs.length)

end WalksTo

theorem walk_eq_ok_iff {n : Nat} {l : Location} {wanted : Bool} {segs : List String}
    {target : Target} :
    walk tree ending n l wanted segs = .ok target ↔ WalksTo tree ending n l wanted segs target :=
  ⟨.of_walk, WalksTo.walk_eq_ok⟩

def walkErrors : List SysError :=
  [.notFound, .notADirectory, .isADirectory, .nameTooLong, .tooManyLinks]

/-- A walk ends in an error, at an entry of the tree, or at a name that a folder does not hold. -/
inductive IsEnd (tree : Tree) : Except SysError Target → Prop
  | error {e : SysError} (h : e ∈ walkErrors) : IsEnd tree (.error e)
  | present {l : Location} {t : Tree} (h : tree.get? l = some t) : IsEnd tree (.ok (.present l t))
  | absent {d : Location} {s : String} (hd : tree.node? d = some .folder)
      (hs : tree.node? (d ++ [s]) = none) : IsEnd tree (.ok (.absent d s))

theorem WalksTo.isEnd {n : Nat} {l : Location} {wanted : Bool} {segs : List String}
    {target : Target} (h : WalksTo tree ending n l wanted segs target) :
    IsEnd tree (.ok target) := by
  induction h with
  | here ht _ => exact .present ht
  | absent _ hl hnone => exact .absent hl hnone
  | stop _ _ hlink => exact .present (Tree.node?_eq_some_link.1 hlink)
  | dot _ _ ih | up _ _ ih | follow _ _ _ _ ih | enter _ _ _ ih => exact ih

theorem mem_walkErrors {n : Nat} {l : Location} {folderWanted : Bool} {segs : List String}
    {e : SysError} (h : walk tree ending n l folderWanted segs = .error e) : e ∈ walkErrors := by
  cases segs with
  | nil =>
    rw [walk_nil] at h
    split at h
    · simp [walkErrors, ← Except.error.inj h]
    · split at h
      · simp [walkErrors, ← Except.error.inj h]
      · cases h
  | cons s rest =>
    by_cases hl : tree.node? l = some .folder
    · rw [walk_cons hl] at h
      split at h
      · exact mem_walkErrors h
      split at h
      · exact mem_walkErrors h
      split at h
      · simp [walkErrors, ← Except.error.inj h]
      split at h
      · simp [walkErrors, ← Except.error.inj h]
      split at h
      · split at h
        · cases h
        · simp [walkErrors, ← Except.error.inj h]
      · split at h
        · cases h
        · cases n with
          | zero => simp [walkErrors, ← Except.error.inj h]
          | succ n => exact mem_walkErrors h
      · exact mem_walkErrors h
    · rw [walk_cons_of_ne_folder hl] at h
      rw [← Except.error.inj h]
      split <;> simp [walkErrors]
termination_by (n, segs.length)

theorem isEnd_walk (n : Nat) (l : Location) (folderWanted : Bool) (segs : List String) :
    IsEnd tree (walk tree ending n l folderWanted segs) := by
  cases h : walk tree ending n l folderWanted segs with
  | error e => exact .error (mem_walkErrors h)
  | ok target => exact (walk_eq_ok_iff.1 h).isEnd

end AmbientTypes.Files
