import AmbientTypes.Proofs.Path.Relative
import AmbientTypes.Proofs.Tree.Limits
import AmbientTypes.Proofs.Tree.Removal
import AmbientTypes.World
import Mathlib.Data.List.Flatten

namespace AmbientTypes

namespace Files

section Walks

variable {tree : Tree} {ending : Ending} {s : String}

theorem walk_of_ne_folder {l : Location} (hl : tree.node? l ≠ some .folder) (n : Nat)
    (folderWanted : Bool) {segs segs' : List String} (h : segs ≠ []) (h' : segs' ≠ []) :
    walk tree ending n l folderWanted segs = walk tree ending n l folderWanted segs' := by
  obtain ⟨r, rest, rfl⟩ := List.exists_cons_of_ne_nil h
  obtain ⟨r', rest', rfl⟩ := List.exists_cons_of_ne_nil h'
  rw [walk_cons_of_ne_folder hl, walk_cons_of_ne_folder hl]

/-- Only the last segment of a walk may be a dot that matters. -/
theorem walk_moving (hs : s ≠ ".") (n : Nat) (l : Location) (folderWanted : Bool)
    (segs : List String) : walk tree ending n l folderWanted (segs ++ [s]) =
      walk tree ending n l folderWanted (moving segs ++ [s]) := by
  cases segs with
  | nil => rfl
  | cons r rest =>
    by_cases hl : tree.node? l = some .folder
    · have hrest := walk_moving hs n l folderWanted rest
      by_cases hr : r = "."
      · have hmoving : moving (r :: rest) = moving rest := by simp [moving, hr]
        rw [hmoving, ← hrest, hr, List.cons_append, walk_dot hl]
      · have hne : rest ++ [s] ≠ [] := by simp
        have hne' : moving rest ++ [s] ≠ [] := by simp
        rw [moving_cons hr, List.cons_append, List.cons_append, walk_cons hl, walk_cons hl]
        simp only [hr, hne, hne', if_false, decide_false, Bool.and_false, Bool.false_and]
        rw [walk_moving hs n l.dropLast folderWanted rest,
          walk_moving hs n (l ++ [r]) folderWanted rest]
        cases n with
        | zero => rfl
        | succ n =>
          have hagain (target : String) (here : Location) :
              walk tree ending n here folderWanted (segments target ++ (rest ++ [s])) =
                walk tree ending n here folderWanted (segments target ++ (moving rest ++ [s])) := by
            have hsame : moving (segments target ++ rest) =
                moving (segments target ++ moving rest) := by
              simp [moving]
            rw [← List.append_assoc, walk_moving hs, hsame, ← walk_moving hs, List.append_assoc]
          simp only [afterLink, hagain]
    · exact walk_of_ne_folder hl n folderWanted (by simp) (by simp)
termination_by (n, segs.length)

theorem walk_congr (hs : s ≠ ".") (n : Nat) (l : Location) (folderWanted : Bool)
    {segs segs' : List String} (h : moving segs = moving segs') :
    walk tree ending n l folderWanted (segs ++ [s]) =
      walk tree ending n l folderWanted (segs' ++ [s]) := by
  rw [walk_moving hs, h, ← walk_moving hs]

theorem WalksTo.isFolder {n : Nat} {l d : Location} {wanted : Bool} {segs : List String} {t : Tree}
    (h : WalksTo tree ending n l wanted segs (.present d t)) (hwanted : wanted = true) :
    t.isFolder = true := by
  generalize htarget : Target.present d t = target at h
  induction h with
  | here _ hkind =>
    obtain ⟨rfl, rfl⟩ := Target.present.inj htarget
    exact hkind hwanted
  | absent => cases htarget
  | stop => cases hwanted
  | dot _ _ ih | up _ _ ih | enter _ _ _ ih => exact ih hwanted htarget
  | follow _ _ _ _ ih => exact ih (by simp [hwanted]) htarget

theorem isFolder_of_walk {n : Nat} {l d : Location} {segs : List String} {t : Tree}
    (h : walk tree ending n l true segs = .ok (.present d t)) : t.isFolder = true :=
  (walk_eq_ok_iff.1 h).isFolder rfl

end Walks

variable {f : Files} {path : String} {l : Location} {k : File}

/-- Where a path leads to a folder, it leads to no file. -/
theorem not_leadsTo_of_lookup_file (h : f.lookup path = .ok (l, .file k)) (d : Location) :
    ¬ f.LeadsTo path d := by
  intro hd
  have hr := lookup_eq_ok.1 h
  rw [resolve, resolveWith] at hr
  split at hr
  · cases hr
  · obtain ⟨es, hes⟩ := Leads.walk_eq_ok hd hr
    cases hes

theorem ends_of_lookup_file (h : f.lookup path = .ok (l, .file k)) :
    pathFault? path = none ∧ endsInSlash path = false ∧
      ∃ segs s, segments path = segs ++ [s] ∧ s ≠ "." := by
  have hr := lookup_eq_ok.1 h
  rw [resolve, resolveWith] at hr
  split at hr
  · cases hr
  next hfault =>
  have hslash : endsInSlash path = false := by
    rw [← Bool.not_eq_true]
    intro hslash
    rw [hslash] at hr
    cases isFolder_of_walk hr
  refine ⟨hfault, hslash, ?_⟩
  obtain hnil | ⟨segs, s, hsegs⟩ := List.eq_nil_or_concat' (segments path)
  · have hempty := (pathFault?_eq_none.1 hfault).2.1
    rw [endsInSlash_of_segments_eq_nil hnil hempty] at hslash
    cases hslash
  · refine ⟨segs, s, hsegs, ?_⟩
    rintro rfl
    rw [hsegs] at hr
    obtain ⟨d, hd⟩ := leads_of_walk hr
    refine not_leadsTo_of_lookup_file h d ?_
    rw [LeadsTo, hsegs]
    exact hd.congr (by simp [moving])

end Files

namespace Path
open Files (endsInSlash endsInSlash_join_relative isAbsolute_join_relative)

theorem join_of_endsInSlash {base path : String} (hp : isAbsolute path = false)
    (hb : base = "" ∨ endsInSlash base = true) : join base path = base ++ path := by
  rw [endsInSlash, decide_eq_true_iff] at hb
  rw [join, hp, if_neg Bool.false_ne_true, if_pos hb]

theorem join_of_not_endsInSlash {base path : String} (hp : isAbsolute path = false)
    (hne : base ≠ "") (hb : endsInSlash base = false) : join base path = base ++ "/" ++ path := by
  rw [endsInSlash, decide_eq_false_iff_not] at hb
  rw [join, hp, if_neg Bool.false_ne_true, if_neg (not_or.2 ⟨hne, hb⟩)]

theorem isAbsolute_anchor {base : String} (hbase : isAbsolute base = true) (path : String) :
    isAbsolute (anchor base path) = true := by
  rw [anchor]
  split
  · assumption
  · next hp => rw [isAbsolute_join_relative base (by simpa using hp), hbase]

theorem join_ne_empty_of_relative (base : String) {path : String} (hne : path ≠ "")
    (hp : isAbsolute path = false) : join base path ≠ "" := by
  rcases join_of_relative base hp with ⟨hj, -⟩ | hj <;> simp [hj, hne]

theorem join_join (base : String) {p n : String} (hne : p ≠ "") (hp : isAbsolute p = false)
    (hn : isAbsolute n = false) : join (join base p) n = join base (join p n) := by
  have hslash := endsInSlash_join_relative base hp hne
  have hinner : isAbsolute (join p n) = false := (isAbsolute_join_relative p hn).trans hp
  obtain ⟨sep, hsep⟩ : ∃ sep, ∀ r, isAbsolute r = false → join base r = base ++ sep ++ r := by
    by_cases hb : base = "" ∨ endsInSlash base = true
    · exact ⟨"", fun r hr ↦ by rw [join_of_endsInSlash hr hb, String.append_empty]⟩
    · rw [not_or, Bool.not_eq_true] at hb
      exact ⟨"/", fun r hr ↦ join_of_not_endsInSlash hr hb.1 hb.2⟩
  cases hlast : endsInSlash p with
  | true =>
    rw [join_of_endsInSlash hn (.inr (hslash.trans hlast)), hsep _ hinner,
      join_of_endsInSlash hn (.inr hlast), hsep p hp, String.append_assoc]
  | false =>
    rw [join_of_not_endsInSlash hn (join_ne_empty_of_relative base hne hp) (hslash.trans hlast),
      hsep _ hinner, join_of_not_endsInSlash hn hne hlast, hsep p hp]
    simp only [String.append_assoc]

theorem join_foldl_join (base : String) {p : String} (hne : p ≠ "") (hp : isAbsolute p = false)
    {cs : List Component} (hcs : ∀ c ∈ cs, c.IsStep) :
    join base (cs.foldl (fun p c ↦ join p c.text) p) =
      cs.foldl (fun p c ↦ join p c.text) (join base p) := by
  induction cs generalizing p with
  | nil => rfl
  | cons c cs ih =>
    rw [List.forall_mem_cons] at hcs
    have hc := hcs.1.isAbsolute_eq_false
    have hblank : c.text ≠ "" := ne_empty_of_components (by simp [hcs.1.components])
    rw [List.foldl_cons, List.foldl_cons, join_join base hne hp hc]
    exact ih (join_ne_empty_of_relative p hblank hc) ((isAbsolute_join_relative p hc).trans hp)
      hcs.2

end Path

def IsSegment (s : String) : Prop :=
  '/' ∉ s.toList ∧ s ≠ ""

namespace IsSegment

variable {s : String}

theorem isAbsolute_eq_false (h : IsSegment s) : Path.isAbsolute s = false := by
  rw [Path.isAbsolute, decide_eq_false_iff_not]
  exact fun hhead ↦ h.1 (List.mem_of_mem_head? hhead)

theorem of_isName (h : Path.IsName s) : IsSegment s :=
  ⟨h.no_slash, h.ne_empty⟩

theorem of_isStep {c : Path.Component} (h : c.IsStep) : IsSegment c.text := by
  cases h with
  | up => exact ⟨by decide, by decide⟩
  | name hn => exact of_isName hn

end IsSegment

namespace Location

variable {l : Location}

theorem toList_path (hl : l ≠ []) : l.path.toList = l.flatMap ('/' :: ·.toList) := by
  rw [path, if_neg hl]
  clear hl
  induction l with
  | nil => rfl
  | cons n l ih => simp [String.join_cons, ih]

theorem toList_path_eq_joinSlash (hl : l ≠ []) :
    l.path.toList = Path.joinSlash ([] :: l.map String.toList) := by
  rw [toList_path hl, Path.joinSlash, Text.joinWith_cons, List.nil_append, List.flatMap_map]

theorem isAbsolute_path (l : Location) : Path.isAbsolute l.path = true := by
  by_cases hl : l = []
  · rw [hl]
    rfl
  · obtain ⟨n, l, rfl⟩ := List.exists_cons_of_ne_nil hl
    rw [Path.isAbsolute, toList_path hl]
    simp

theorem path_ne_empty (l : Location) : l.path ≠ "" := by
  intro h
  have habsolute := isAbsolute_path l
  rw [h] at habsolute
  cases habsolute

def size : Location → Nat
  | [] => 0
  | n :: l => 1 + Files.utf8Size n + size l

theorem size_append (l m : Location) : size (l ++ m) = size l + size m := by
  induction l with
  | nil => exact (Nat.zero_add _).symm
  | cons n l ih => rw [List.cons_append, size, size, ih, Nat.add_assoc _ (size l)]

theorem size_replicate (k : Nat) (n : String) :
    size (List.replicate k n) = k * (1 + Files.utf8Size n) := by
  induction k with
  | zero => exact (Nat.zero_mul _).symm
  | succ k ih => rw [List.replicate_succ, size, ih, Nat.succ_mul, Nat.add_comm]

theorem utf8Size_path (hl : l ≠ []) : Files.utf8Size l.path = l.size := by
  rw [Files.utf8Size, toList_path hl]
  clear hl
  induction l with
  | nil => rfl
  | cons n l ih =>
    rw [List.flatMap_cons, Text.utf8Length_append, ih]
    rfl

section Segments

variable (hl : ∀ n ∈ l, IsSegment n)
include hl

theorem segments_path : Files.segments l.path = l := by
  by_cases hnil : l = []
  · rw [hnil]
    rfl
  · have hslash : ∀ p ∈ [] :: l.map String.toList, '/' ∉ p := by
      simpa using fun n hn ↦ (hl n hn).1
    rw [Files.segments, toList_path_eq_joinSlash hnil, Path.splitSlash,
      Text.splitAt_joinWith (List.cons_ne_nil _ _) hslash]
    have hsolid : (l.map String.toList).filter (· ≠ []) = l.map String.toList := by
      rw [List.filter_eq_self]
      simpa using fun n hn ↦ (hl n hn).2
    rw [List.filter_cons_of_neg (by simp), hsolid]
    simp

theorem getLast?_path : l.path.toList.getLast? = some '/' ↔ l = [] := by
  constructor
  · intro hlast
    obtain rfl | ⟨d, n, rfl⟩ := List.eq_nil_or_concat' l
    · rfl
    · have hn := hl n (by simp)
      have hempty : n.toList ≠ [] := by simpa using hn.2
      rw [toList_path (by simp), List.flatMap_append, List.flatMap_singleton,
        List.getLast?_append_of_ne_nil _ (List.cons_ne_nil _ _),
        List.getLast?_cons_of_ne_nil hempty] at hlast
      exact absurd (List.mem_of_getLast? hlast) hn.1
  · rintro rfl
    rfl

theorem join_path {n : String} (hn : IsSegment n) : Path.join l.path n = path (l ++ [n]) := by
  have hblank := l.path_ne_empty
  rw [Path.join, hn.isAbsolute_eq_false, if_neg Bool.false_ne_true, ← String.toList_inj,
    toList_path (l := l ++ [n]) (by simp)]
  by_cases hnil : l = []
  · rw [if_pos (.inr ((getLast?_path hl).2 hnil)), hnil]
    simp [path]
  · rw [if_neg (by simp [hblank, getLast?_path hl, hnil]), String.toList_append,
      String.toList_append, toList_path hnil]
    simp

theorem foldl_join_path {rest : List String} (hrest : ∀ n ∈ rest, IsSegment n) :
    rest.foldl Path.join l.path = path (l ++ rest) := by
  induction rest generalizing l with
  | nil => rw [List.foldl_nil, List.append_nil]
  | cons n rest ih =>
    rw [List.forall_mem_cons] at hrest
    have hnext : ∀ m ∈ l ++ [n], IsSegment m := by
      simpa [or_imp, forall_and] using ⟨hl, hrest.1⟩
    rw [List.foldl_cons, join_path hl hrest.1, ih hnext hrest.2, List.append_assoc,
      List.singleton_append]

theorem join_path_ofComponents {cs : List Path.Component} (hcs : ∀ c ∈ cs, c.IsStep)
    (hne : cs ≠ []) :
    Path.join l.path (Path.ofComponents cs) = path (l ++ cs.map Path.Component.text) := by
  obtain ⟨c, cs, rfl⟩ := List.exists_cons_of_ne_nil hne
  have hsegments : ∀ n ∈ (c :: cs).map Path.Component.text, IsSegment n := by
    simpa only [List.forall_mem_map] using fun c hc ↦ IsSegment.of_isStep (hcs c hc)
  rw [List.forall_mem_cons] at hcs
  have hc := hcs.1.isAbsolute_eq_false
  have hfirst : Path.join "" c.text = c.text := by simp [Path.join, hc]
  rw [Path.ofComponents, List.foldl_cons, hfirst,
    Path.join_foldl_join _ (IsSegment.of_isStep hcs.1).2 hc hcs.2,
    ← List.foldl_map (g := Path.join), ← List.foldl_cons (f := Path.join), ← List.map_cons,
    foldl_join_path hl hsegments]

end Segments

theorem components_path {l : Location} (hl : ∀ n ∈ l, Path.IsName n) :
    Path.components l.path = .root :: l.map .name := by
  have hsteps : ∀ c ∈ l.map Path.Component.name, c.IsStep := by
    simpa only [List.forall_mem_map] using fun n hn ↦ .name (hl n hn)
  have hroot : Path.components (path []) ≠ [] := by decide
  have hjoin := Path.components_foldl_join hsteps hroot
  rw [List.foldl_map] at hjoin
  rw [← List.nil_append l, ← foldl_join_path (by simp) fun n hn ↦ .of_isName (hl n hn)]
  exact hjoin

end Location

namespace Files

variable {f : Files} {path : String} {l : Location} {k : File}

theorem isSegment_of_mem_moving {n : String} (hn : n ∈ moving (segments path)) : IsSegment n :=
  not_mem_of_mem_segments (List.mem_filter.1 hn).1

/-- The plainest spelling of an absolute path is a part of the path. -/
theorem path_moving_sublist (hp : Path.isAbsolute path = true) (hne : moving (segments path) ≠ []) :
    (Location.path (moving (segments path))).toList.Sublist path.toList := by
  obtain ⟨r, hr⟩ := List.head?_eq_some_iff.1 (of_decide_eq_true hp)
  have htext : path.toList = (Path.splitSlash r).flatMap ('/' :: ·) := by
    rw [← Text.joinWith_splitAt '/' path.toList, hr, Text.splitAt_cons_mark, Text.joinWith_cons,
      List.nil_append]
  have hmoving : moving (segments path) = (Path.solid (Path.splitSlash r)).map String.ofList := by
    rw [moving_segments_eq, hr, Path.splitSlash, Text.splitAt_cons_mark]
    rfl
  rw [Location.toList_path hne, hmoving, List.flatMap_map, htext]
  simp only [String.toList_ofList]
  exact List.filter_sublist.flatMap _

/-- A file is found under the plainest spelling of its path. -/
theorem lookup_path_moving (hp : Path.isAbsolute path = true)
    (h : f.lookup path = .ok (l, .file k)) :
    f.lookup (Location.path (moving (segments path))) = .ok (l, .file k) := by
  obtain ⟨hfault, hslash, segs, s, hsegs, hs⟩ := ends_of_lookup_file h
  have hmoving : moving (segments path) = moving segs ++ [s] := by simp [hsegs, moving, hs]
  have hne : moving (segments path) ≠ [] := by simp [hmoving]
  have hsegments : ∀ n ∈ moving (segments path), IsSegment n := fun n ↦ isSegment_of_mem_moving
  have hsub := path_moving_sublist hp hne
  have hfault' : pathFault? (Location.path (moving (segments path))) = none := by
    obtain ⟨hnul, -, hsize⟩ := pathFault?_eq_none.1 hfault
    refine pathFault?_eq_none.2 ⟨fun hmem ↦ hnul (hsub.subset hmem), ?_,
      Nat.le_trans (Text.utf8Length_le_of_sublist hsub) hsize⟩
    intro hblank
    exact hne (by rw [← Location.segments_path hsegments, hblank]; rfl)
  have hslash' : endsInSlash (Location.path (moving (segments path))) = false := by
    rw [endsInSlash, decide_eq_false_iff_not, Location.getLast?_path hsegments]
    exact hne
  have hstart : f.start (Location.path (moving (segments path))) = f.start path := by
    rw [start, start, Location.isAbsolute_path, hp]
  rw [lookup_eq_ok, resolve, resolveWith] at h ⊢
  rw [hfault, hslash, hsegs] at h
  rw [hfault', hslash', hstart, Location.segments_path hsegments, hmoving]
  simp only at h ⊢
  rw [← h]
  exact walk_congr hs mostLinks _ false (by simp [moving])

theorem folder_of_append {tree : Tree} {d l : Location} (h : tree.node? (d ++ l) = some .folder) :
    tree.node? d = some .folder := by
  cases l with
  | nil => rwa [List.append_nil] at h
  | cons n l =>
    by_contra hd
    rw [Tree.node?_below hd] at h
    cases h

theorem leads_names {tree : Tree} {d l : Location} (hl : ∀ n ∈ l, IsShort n)
    (h : tree.node? (d ++ l) = some .folder) (links : Nat) : Leads tree links d l (d ++ l) := by
  induction l generalizing d with
  | nil =>
    rw [List.append_nil] at h ⊢
    exact .done h
  | cons n l ih =>
    rw [List.forall_mem_cons] at hl
    rw [← List.singleton_append, ← List.append_assoc] at h ⊢
    exact .enter hl.1.isName.ne_dot hl.1.isName.ne_dots hl.1.size (folder_of_append h) (ih hl.2 h)

section Locations

variable (hl : ∀ n ∈ l, IsShort n)
include hl

theorem leadsTo_path (hfolder : f.tree.node? l = some .folder) : f.LeadsTo l.path l := by
  have hstart : f.start l.path = [] := by
    rw [start, Location.isAbsolute_path]
    rfl
  rw [LeadsTo, hstart, Location.segments_path fun n hn ↦ .of_isName (hl n hn).isName]
  exact leads_names hl hfolder mostLinks

theorem pathFault?_path (hsize : utf8Size l.path ≤ longestPath) : pathFault? l.path = none := by
  refine pathFault?_eq_none.2 ⟨?_, l.path_ne_empty, hsize⟩
  by_cases hnil : l = []
  · rw [hnil]
    decide
  · rw [Location.toList_path hnil, List.mem_flatMap]
    rintro ⟨n, hn, hmem⟩
    rcases List.mem_cons.1 hmem with h | h
    · cases h
    · exact (hl n hn).no_nul h

/-- The path of a location leads there, if it is not too long. -/
theorem resolve_path (hne : l ≠ []) {t : Tree} (ht : f.tree.get? l = some t) {ending : Ending}
    (hlink : ending.follows = true → ∀ target, t ≠ .link target)
    (hsize : utf8Size l.path ≤ longestPath) : f.resolve ending l.path = .ok (.present l t) := by
  have hfault := pathFault?_path hl hsize
  obtain rfl | ⟨d, s, rfl⟩ := List.eq_nil_or_concat' l
  · exact absurd rfl hne
  have hd : ∀ n ∈ d, IsShort n := fun n hn ↦ hl n (List.mem_append_left _ hn)
  have hs : IsShort s := hl s (by simp)
  have hparent : f.tree.node? d = some .folder :=
    Tree.node?_parent (n := s) (by rw [Tree.node?, ht]; exact Option.some_ne_none _)
  have hdir := leadsTo_path hd hparent
  rw [← Location.join_path (fun n hn ↦ .of_isName (hd n hn).isName) (.of_isName hs.isName)]
    at hfault ⊢
  have hnode : ending.follows = true →
      ∀ e, f.LeadsTo (Location.path d) e →
        ∀ target, f.tree.node? (e ++ [s]) ≠ some (.link target) := by
    intro hf e he target h
    rw [he.unique hdir, Tree.node?_eq_some_link, ht] at h
    exact hlink hf target (Option.some.inj h)
  rw [resolve_join hs.isName, (resolveWith_join hs.isName ending hnode).2
    ⟨⟨hfault, hs.size⟩, d, hdir, rfl⟩, child_eq_present.2 ⟨rfl, ht⟩]

theorem lookup_path (hne : l ≠ []) (hk : f.tree.node? l = some (.file k))
    (hsize : utf8Size l.path ≤ longestPath) : f.lookup l.path = .ok (l, .file k) :=
  lookup_eq_ok.2 (resolve_path hl hne (Tree.node?_eq_some_file.1 hk) (fun _ ↦ nofun) hsize)

omit hl in
theorem size_of_isFile (h : f.isFile path = true) : utf8Size path ≤ longestPath := by
  obtain ⟨l, k, hlookup⟩ := isFile_iff.1 h
  rw [lookup_eq_ok, resolve, resolveWith] at hlookup
  cases hfault : pathFault? path with
  | some e => simp [hfault] at hlookup
  | none => exact (pathFault?_eq_none.1 hfault).2.2

theorem pathExists_below_missing {d : Location} {s t : String} (hpath : l = d ++ [s, t])
    (hd : f.tree.node? d = some .folder) (hmissing : f.tree.node? (d ++ [s]) = none) :
    f.pathExists l.path = false := by
  have hs : IsShort s := hl s (by simp [hpath])
  have hnames : ∀ n ∈ d, IsShort n := fun n hn ↦ hl n (hpath ▸ List.mem_append_left _ hn)
  obtain ⟨m, hwalk⟩ := (leads_names hnames (List.nil_append d ▸ hd) mostLinks).walk_append .behind
    (endsInSlash l.path) (List.cons_ne_nil s [t])
  have hstep : IsStep .behind (endsInSlash l.path) s [t] :=
    ⟨hs.isName.ne_dot, hs.isName.ne_dots, hs.size, nofun⟩
  rw [List.nil_append, hstep.walk_eq hd, hmissing, ← hpath] at hwalk
  have hresolve : ∃ e, f.resolve .behind l.path = .error e := by
    rw [resolve, resolveWith, start, Location.isAbsolute_path, if_pos rfl,
      Location.segments_path fun n hn ↦ .of_isName (hl n hn).isName]
    cases pathFault? l.path with
    | some e => exact ⟨e, rfl⟩
    | none => exact ⟨_, hwalk⟩
  obtain ⟨e, he⟩ := hresolve
  rw [pathExists, lookup, he]

/-- No link stands at the end of the path of a folder. -/
theorem lookupLink_path (hfolder : f.tree.node? l = some .folder) {d : Location} {t : Tree}
    (h : f.lookupLink l.path = .ok (d, t)) : d = l ∧ f.tree.get? l = some t := by
  obtain rfl | ⟨e, s, rfl⟩ := List.eq_nil_or_concat' l
  · obtain ⟨es, hes⟩ := Tree.node?_eq_some_folder.1 hfolder
    rw [lookupLink_eq_ok, resolve, resolveWith] at h
    change walk f.tree .entry mostLinks [] true [] = _ at h
    rw [walk_nil, hes] at h
    obtain ⟨rfl, rfl⟩ := Target.present.inj (Except.ok.inj h)
    exact ⟨rfl, hes⟩
  · have he : ∀ n ∈ e, IsShort n := fun n hn ↦ hl n (List.mem_append_left _ hn)
    have hs : IsShort s := hl s (by simp)
    rw [← Location.join_path (fun n hn ↦ .of_isName (he n hn).isName) (.of_isName hs.isName),
      lookupLink_join hs.isName] at h
    obtain ⟨-, e', he', rfl, ht⟩ := h
    obtain rfl := he'.unique (leadsTo_path he (Tree.node?_parent (by rw [hfolder]; simp)))
    exact ⟨rfl, ht⟩

end Locations

end Files

end AmbientTypes
