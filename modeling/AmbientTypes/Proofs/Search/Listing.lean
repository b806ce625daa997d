import AmbientTypes.Proofs.Action
import AmbientTypes.Proofs.Search.Order
import Mathlib.Tactic.Choose
import Mathlib.Tactic.FinCases

namespace AmbientTypes

namespace Tree

/-- A tree as file systems hold them: the entries of a folder have different names. -/
inductive IsWellNamed : Tree → Prop
  | file (f : File) : IsWellNamed (.file f)
  | link (target : String) : IsWellNamed (.link target)
  | folder {es : List (String × Tree)} (names : ∀ e ∈ es, Path.IsName e.1)
      (distinct : (es.map Prod.fst).Nodup) (entries : ∀ e ∈ es, IsWellNamed e.2) :
      IsWellNamed (.folder es)

variable {es : List (String × Tree)}

theorem IsWellNamed.empty : (Tree.folder []).IsWellNamed :=
  .folder (by simp) (by simp) (by simp)

theorem IsWellNamed.cons {n : String} {t : Tree} (hn : Path.IsName n)
    (hnew : n ∉ es.map Prod.fst) (ht : t.IsWellNamed) (hes : (Tree.folder es).IsWellNamed) :
    (Tree.folder ((n, t) :: es)).IsWellNamed := by
  cases hes with
  | folder names distinct entries =>
    exact .folder (List.forall_mem_cons.2 ⟨hn, names⟩) (List.nodup_cons.2 ⟨hnew, distinct⟩)
      (List.forall_mem_cons.2 ⟨ht, entries⟩)

theorem lookup_of_mem (hes : (es.map Prod.fst).Nodup) {e : String × Tree} (he : e ∈ es) :
    es.lookup e.1 = some e.2 := by
  obtain ⟨l₁, l₂, rfl⟩ := List.mem_iff_append.1 he
  rw [List.map_append, List.map_cons, List.nodup_append] at hes
  obtain ⟨-, -, hdisjoint⟩ := hes
  refine List.lookup_eq_some_iff.2 ⟨l₁, l₂, rfl, fun p hp ↦ ?_⟩
  have hne := hdisjoint p.1 (List.mem_map_of_mem hp) e.1 (by simp)
  simpa using Ne.symm hne

theorem mem_of_lookup {n : String} {t : Tree} (h : es.lookup n = some t) : (n, t) ∈ es := by
  obtain ⟨l₁, l₂, rfl, -⟩ := List.lookup_eq_some_iff.1 h
  simp

theorem get?_singleton (n : String) : (folder es).get? [n] = es.lookup n :=
  get?_child (d := []) rfl n

theorem holdsFolder_of_mem (hes : (es.map Prod.fst).Nodup) {e : String × Tree} (he : e ∈ es) :
    (folder es).HoldsFolder e.1 ↔ e.2.isFolder = true := by
  rw [HoldsFolder, node?, get?_singleton, lookup_of_mem hes he]
  cases e.2 <;> simp [node, isFolder]

theorem IsWellNamed.isName_of_get? {t u : Tree} {l : Location} (ht : t.IsWellNamed)
    (h : t.get? l = some u) {n : String} (hn : n ∈ l) : Path.IsName n := by
  induction l generalizing t with
  | nil => cases hn
  | cons m l ih =>
    cases ht with
    | file f => cases h
    | link target => cases h
    | @folder es names distinct entries =>
      rw [get?] at h
      cases hm : es.lookup m with
      | none => simp [hm] at h
      | some v =>
        rw [hm] at h
        have hmem := mem_of_lookup hm
        rcases List.mem_cons.1 hn with rfl | hn
        · exact names _ hmem
        · exact ih (entries _ hmem) h hn

end Tree

/-- The path of what lies at a location below a folder. -/
def Location.pathFrom (root : String) (l : Location) : String :=
  l.foldl Path.join root

theorem Location.components_pathFrom {l : Location} (hl : ∀ n ∈ l, Path.IsName n) (root : String) :
    Path.components (l.pathFrom root) = Path.components root ++ l.map .name := by
  induction l generalizing root with
  | nil => simp [pathFrom]
  | cons n l ih =>
    rw [List.forall_mem_cons] at hl
    have hrest := ih hl.2 (Path.join root n)
    rw [Path.components_join_name root hl.1, List.append_assoc] at hrest
    exact hrest

namespace Search

variable {q : Search}

/-- The files of the name sought to which folders lead that are not excluded. -/
structure Finds (q : Search) (t : Tree) (l : Location) : Prop where
  file : ∃ f, t.get? l = some (.file f)
  name : l.getLast? = some q.fileName
  entered : ∀ n ∈ l.dropLast, n ∉ q.skipped

structure FindsBelow (q : Search) (n : String) (t : Tree) (l : Location) : Prop where
  file : ∃ f, t.get? l = some (.file f)
  name : (n :: l).getLast? = some q.fileName
  entered : ∀ m ∈ (n :: l).dropLast, m ∉ q.skipped

theorem findsBelow_file {n : String} {f : File} {l : Location} :
    q.FindsBelow n (.file f) l ↔ l = [] ∧ n = q.fileName := by
  constructor
  · rintro ⟨⟨g, hg⟩, hname, -⟩
    cases l with
    | nil => exact ⟨rfl, by simpa using hname⟩
    | cons m l => cases hg
  · rintro ⟨rfl, rfl⟩
    exact ⟨⟨f, rfl⟩, rfl, by simp⟩

theorem not_findsBelow_link {n target : String} {l : Location} :
    ¬ q.FindsBelow n (.link target) l := by
  rintro ⟨⟨g, hg⟩, -, -⟩
  cases l <;> cases hg

theorem findsBelow_folder {n : String} {es : List (String × Tree)} {l : Location} :
    q.FindsBelow n (.folder es) l ↔ n ∉ q.skipped ∧ q.Finds (.folder es) l := by
  cases l with
  | nil =>
    constructor
    · rintro ⟨⟨g, hg⟩, -, -⟩
      cases hg
    · rintro ⟨-, ⟨g, hg⟩, -, -⟩
      cases hg
  | cons m l =>
    constructor
    · rintro ⟨hfile, hname, hentered⟩
      rw [List.dropLast_cons_cons, List.forall_mem_cons] at hentered
      exact ⟨hentered.1, hfile, by simpa using hname, hentered.2⟩
    · rintro ⟨hn, hfile, hname, hentered⟩
      refine ⟨hfile, by simpa using hname, ?_⟩
      rw [List.dropLast_cons_cons, List.forall_mem_cons]
      exact ⟨hn, hentered⟩

theorem finds_folder_iff {es : List (String × Tree)} {l : Location}
    (hes : (es.map Prod.fst).Nodup) :
    q.Finds (.folder es) l ↔ ∃ e ∈ es, ∃ k, q.FindsBelow e.1 e.2 k ∧ l = e.1 :: k := by
  constructor
  · rintro ⟨⟨f, hf⟩, hname, hentered⟩
    cases l with
    | nil => cases hf
    | cons n k =>
      rw [Tree.get?] at hf
      cases hn : es.lookup n with
      | none => simp [hn] at hf
      | some t =>
        rw [hn] at hf
        exact ⟨(n, t), Tree.mem_of_lookup hn, k, ⟨⟨f, hf⟩, hname, hentered⟩, rfl⟩
  · rintro ⟨e, he, k, ⟨⟨f, hf⟩, hname, hentered⟩, rfl⟩
    refine ⟨⟨f, ?_⟩, hname, hentered⟩
    rw [Tree.get?, Tree.lookup_of_mem hes he]
    exact hf

section Order

theorem Branch.le_trans (a b c : Branch) (hab : a.le b = true) (hbc : b.le c = true) :
    a.le c = true := by
  obtain ⟨x, m, _⟩ := a
  obtain ⟨y, n, _⟩ := b
  obtain ⟨z, o, _⟩ := c
  cases x <;> cases y <;> cases z <;> simp only [Branch.le] at hab hbc ⊢ <;> simp at hab hbc ⊢
  all_goals exact String.le_trans hab hbc

theorem Branch.le_total (a b : Branch) : (a.le b || b.le a) = true := by
  obtain ⟨x, m, _⟩ := a
  obtain ⟨y, n, _⟩ := b
  cases x <;> cases y <;> simp [Branch.le, String.le_total]

def branch (q : Search) (dir : String) (e : String × Tree) : Branch :=
  ⟨e.2.isFolder, e.1, q.below (Path.join dir e.1) e.1 e.2⟩

theorem branches_eq_map (dir : String) (es : List (String × Tree)) :
    q.branches dir es = es.map (q.branch dir) := by
  induction es with
  | nil => rfl
  | cons e es ih => rw [branches, ih, List.map_cons, branch]

theorem before_of_le {es : List (String × Tree)} (hes : (es.map Prod.fst).Nodup) {dir : String}
    {e e' : String × Tree} (he : e ∈ es) (he' : e' ∈ es) (hne : e.1 ≠ e'.1)
    (hle : (q.branch dir e).le (q.branch dir e') = true) : (Tree.folder es).Before e.1 e'.1 := by
  rw [Tree.Before, Tree.holdsFolder_of_mem hes he, Tree.holdsFolder_of_mem hes he',
    ← Text.lt_iff_bytes_lt]
  rw [Branch.le] at hle
  split at hle
  · next hkind =>
    have hkind : e.2.isFolder = e'.2.isFolder := hkind
    have hle : e.1 ≤ e'.1 := of_decide_eq_true hle
    refine .inr ⟨by rw [hkind], ?_⟩
    apply Classical.byContradiction
    intro hnot
    exact hne (String.le_antisymm hle (String.not_lt.1 hnot))
  · next hkind =>
    have hkind : e.2.isFolder ≠ e'.2.isFolder := hkind
    have hfile : e.2.isFolder = false := by simpa [branch] using hle
    refine .inl ⟨by simp [hfile], ?_⟩
    cases hfolder : e'.2.isFolder with
    | true => rfl
    | false => exact absurd (hfile.trans hfolder.symm) hkind

end Order

/-- `ls` are the locations found below a tree, in order. -/
structure IsListing (finds : Location → Prop) (t : Tree) (ls : List Location) : Prop where
  mem_iff : ∀ l, l ∈ ls ↔ finds l
  sorted : ls.Pairwise t.Precedes

theorem inOrder_branches {dir : String} {es : List (String × Tree)}
    (hes : (es.map Prod.fst).Nodup)
    (hlists : ∀ e ∈ es, ∃ ls, q.below (Path.join dir e.1) e.1 e.2 =
      ls.map (Location.pathFrom (Path.join dir e.1)) ∧
        IsListing (q.FindsBelow e.1 e.2) e.2 ls) :
    ∃ ks, inOrder (q.branches dir es) = ks.map (Location.pathFrom dir) ∧
      IsListing (q.Finds (.folder es)) (.folder es) ks := by
  choose! ls hls hlist using hlists
  let le (e e' : String × Tree) : Bool := (q.branch dir e).le (q.branch dir e')
  have hperm : (es.mergeSort le).Perm es := List.mergeSort_perm es le
  refine ⟨(es.mergeSort le).flatMap fun e ↦ (ls e).map (e.1 :: ·), ?_, fun l ↦ ?_, ?_⟩
  · have hmap :
        (es.mergeSort le).map (q.branch dir) = (es.map (q.branch dir)).mergeSort Branch.le :=
      List.map_mergeSort fun e _ e' _ ↦ rfl
    rw [inOrder, branches_eq_map, ← hmap, List.flatMap_map, List.map_flatMap]
    apply List.flatMap_congr
    intro e he
    rw [List.map_map]
    exact hls e (hperm.mem_iff.1 he)
  · rw [finds_folder_iff hes, List.mem_flatMap]
    constructor
    · rintro ⟨e, he, hl⟩
      obtain ⟨k, hk, rfl⟩ := List.mem_map.1 hl
      have he := hperm.mem_iff.1 he
      exact ⟨e, he, k, ((hlist e he).mem_iff k).1 hk, rfl⟩
    · rintro ⟨e, he, k, hk, rfl⟩
      exact ⟨e, hperm.mem_iff.2 he, List.mem_map_of_mem (((hlist e he).mem_iff k).2 hk)⟩
  · rw [List.pairwise_flatMap]
    constructor
    · intro e he
      have he := hperm.mem_iff.1 he
      have hget : (Tree.folder es).get? [e.1] = some e.2 := by
        rw [Tree.get?_singleton, Tree.lookup_of_mem hes he]
      rw [List.pairwise_map]
      exact (hlist e he).sorted.imp fun h ↦ .there hget h
    · have hle : (es.mergeSort le).Pairwise fun e e' ↦ le e e' = true :=
        List.pairwise_mergeSort (fun a b c ↦ Branch.le_trans (q.branch dir a) _ (q.branch dir c))
          (fun a b ↦ Branch.le_total (q.branch dir a) (q.branch dir b)) es
      have hne : (es.mergeSort le).Pairwise fun e e' ↦ e.1 ≠ e'.1 := by
        rw [← List.pairwise_map (R := (· ≠ ·))]
        exact (hperm.map Prod.fst).nodup_iff.2 hes
      refine (hle.and hne).imp_of_mem fun he he' h l hl l' hl' ↦ ?_
      obtain ⟨k, -, rfl⟩ := List.mem_map.1 hl
      obtain ⟨k', -, rfl⟩ := List.mem_map.1 hl'
      exact .here (before_of_le hes (hperm.mem_iff.1 he) (hperm.mem_iff.1 he') h.2 h.1)

theorem below_lists {t : Tree} (ht : t.IsWellNamed) (path name : String) :
    ∃ ls, q.below path name t = ls.map (Location.pathFrom path) ∧
      IsListing (q.FindsBelow name t) t ls := by
  induction ht generalizing path name with
  | file f =>
    by_cases hname : name = q.fileName
    · refine ⟨[[]], by simp [below, hname, Location.pathFrom], fun l ↦ ?_, by simp⟩
      rw [findsBelow_file]
      simp [hname]
    · refine ⟨[], by simp [below, hname], fun l ↦ ?_, by simp⟩
      rw [findsBelow_file]
      simp [hname]
  | link target =>
    refine ⟨[], rfl, fun l ↦ ?_, by simp⟩
    simp [not_findsBelow_link]
  | @folder es names distinct entries ih =>
    by_cases hskip : name ∈ q.skipped
    · refine ⟨[], by simp [below, hskip], fun l ↦ ?_, by simp⟩
      simp [findsBelow_folder, hskip]
    · obtain ⟨ks, hks, hlist⟩ := inOrder_branches distinct fun e he ↦
        ih e he (Path.join path e.1) e.1
      refine ⟨ks, by simp [below, hskip, hks], fun l ↦ ?_, hlist.sorted⟩
      rw [hlist.mem_iff, findsBelow_folder]
      simp [hskip]

theorem pathFrom_injOn {t : Tree} (ht : t.IsWellNamed) (root : String) {k l : Location}
    (hk : q.Finds t k) (hl : q.Finds t l) (h : k.pathFrom root = l.pathFrom root) : k = l := by
  obtain ⟨f, hf⟩ := hk.file
  obtain ⟨g, hg⟩ := hl.file
  have hcomp := congrArg Path.components h
  rw [Location.components_pathFrom fun _ ↦ ht.isName_of_get? hf,
    Location.components_pathFrom fun _ ↦ ht.isName_of_get? hg, List.append_cancel_left_eq] at hcomp
  exact List.map_injective_iff.2 (fun a b h ↦ Path.Component.name.inj h) hcomp

variable {w : World} {root : String} {d : Location} {es : List (String × Tree)}

theorem run_all (hroot : w.files.lookupLink root = .ok (d, .folder es)) :
    (q.all root).run w = (.ok (inOrder (q.branches root es)), w) := by
  simp only [all, Action.run_bind, Action.run_files, findings?, hroot, Action.run_pure]

theorem run_first (hroot : w.files.lookupLink root = .ok (d, .folder es)) :
    (q.first root).run w =
      (match inOrder (q.branches root es) with
        | path :: _ => .ok path
        | [] => .error (.manifest (.notFound root q.fileName)), w) := by
  rw [first, Action.run_bind, run_all hroot]
  cases inOrder (q.branches root es) <;> rfl

/-- No location found comes before `l`. -/
structure IsLeast (q : Search) (t : Tree) (l : Location) : Prop where
  finds : q.Finds t l
  least : ∀ k, q.Finds t k → k = l ∨ t.Precedes l k

theorem IsListing.isLeast_head {t : Tree} {l k : Location} {ls : List Location}
    (h : IsListing (q.Finds t) t (l :: ls)) : q.IsLeast t k ↔ k = l := by
  have hl : q.Finds t l := (h.mem_iff l).1 (by simp)
  have hbehind : ∀ k, q.Finds t k → k = l ∨ t.Precedes l k := by
    intro k hk
    rcases List.mem_cons.1 ((h.mem_iff k).2 hk) with rfl | hk
    · exact .inl rfl
    · exact .inr (List.rel_of_pairwise_cons h.sorted hk)
  constructor
  · rintro ⟨hk, hleast⟩
    rcases hbehind k hk with hkl | hlk
    · exact hkl
    · rcases hleast l hl with hlk' | hkl
      · exact hlk'.symm
      · exact absurd (hlk.trans hkl) Tree.Precedes.irrefl
  · rintro rfl
    exact ⟨hl, hbehind⟩

/-- A search lists the files of the name sought, each once and in order. Asked for one, it gives
the least of them, and only where there is none it reports that. -/
theorem all_listed (q : Search) (hroot : w.files.lookupLink root = .ok (d, .folder es))
    (hes : (Tree.folder es).IsWellNamed) :
    ∃ ls : List Location,
      (q.all root).run w = (.ok (ls.map (Location.pathFrom root)), w) ∧
      (∀ l, l ∈ ls ↔ q.Finds (.folder es) l) ∧
      (ls.map (Location.pathFrom root)).Nodup ∧
      IsStrictOrder Location (Tree.folder es).Precedes ∧
      ls.Pairwise (Tree.folder es).Precedes ∧
      (∀ path, (q.first root).run w = (.ok path, w) ↔
        ∃ l, q.IsLeast (.folder es) l ∧ path = l.pathFrom root) ∧
      ((q.first root).run w = (.error (.manifest (.notFound root q.fileName)), w) ↔
        ∀ l, ¬ q.Finds (.folder es) l) := by
  cases hes with
  | folder names distinct entries =>
    obtain ⟨ls, hls, hlist⟩ := inOrder_branches (q := q) distinct fun e he ↦
      below_lists (entries e he) (Path.join root e.1) e.1
    refine ⟨ls, by rw [run_all hroot, hls], hlist.mem_iff, ?_, inferInstance, hlist.sorted,
      ?_⟩
    · rw [List.nodup_iff_pairwise_ne, List.pairwise_map]
      refine hlist.sorted.imp_of_mem fun hk hl hprec heq ↦ ?_
      obtain rfl := pathFrom_injOn (.folder names distinct entries) root
        ((hlist.mem_iff _).1 hk) ((hlist.mem_iff _).1 hl) heq
      exact hprec.irrefl
    · rw [run_first hroot, hls]
      cases ls with
      | nil =>
        have hnone (l : Location) : ¬ q.Finds (.folder es) l := fun h ↦ by
          simpa using (hlist.mem_iff l).2 h
        refine ⟨fun path ↦ ⟨nofun, ?_⟩, fun _ ↦ hnone, fun _ ↦ rfl⟩
        rintro ⟨l, hl, -⟩
        exact absurd hl.finds (hnone l)
      | cons l ls =>
        refine ⟨fun path ↦ ?_, nofun, fun hnone ↦ absurd ((hlist.mem_iff l).1 (by simp)) (hnone l)⟩
        simp [hlist.isLeast_head, eq_comm]

/-- Manifests beside and below other entries, one of them behind a link and one in a folder that
is not entered. -/
def packages : List (String × Tree) :=
  [("shop", .folder [("federation.config.json", .file ⟨⟨#[]⟩, none⟩)]),
  ("node_modules", .folder [("federation.config.json", .file ⟨⟨#[]⟩, none⟩)]),
  ("latest", .link "shop"),
  ("federation.config.json", .file ⟨⟨#[]⟩, none⟩)]

theorem isWellNamed_packages : (Tree.folder packages).IsWellNamed := by
  have hmanifest : (Tree.folder [("federation.config.json", .file ⟨⟨#[]⟩, none⟩)]).IsWellNamed :=
    .cons (by decide) (by decide) (.file _) .empty
  have hlast : (Tree.folder [("latest", .link "shop"),
      ("federation.config.json", .file ⟨⟨#[]⟩, none⟩)]).IsWellNamed :=
    .cons (by decide) (by decide) (.link _) hmanifest
  exact .cons (by decide) (by decide) hmanifest (.cons (by decide) (by decide) hmanifest hlast)

def checkout : World where
  files := { tree := .folder [("work", .folder packages)] }

theorem all_listed_packages :
    ∃ ls : List Location,
      (({} : Search).all "work").run checkout =
        (.ok (ls.map (Location.pathFrom "work")), checkout) ∧
      ["shop", "federation.config.json"] ∈ ls ∧ ["latest", "federation.config.json"] ∉ ls ∧
      ["node_modules", "federation.config.json"] ∉ ls ∧
      ∃ path, (({} : Search).first "work").run checkout = (.ok path, checkout) := by
  have hroot : checkout.files.lookupLink "work" = .ok (["work"], .folder packages) := rfl
  obtain ⟨ls, hall, hmem, -, -, -, -, hnone⟩ := all_listed {} hroot isWellNamed_packages
  have hshop : Finds {} (.folder packages) ["shop", "federation.config.json"] :=
    ⟨⟨_, rfl⟩, rfl, by decide⟩
  refine ⟨ls, hall, (hmem _).2 hshop, fun h ↦ ?_, fun h ↦ ?_, ?_⟩
  · obtain ⟨f, hf⟩ := ((hmem _).1 h).file
    cases hf
  · exact ((hmem _).1 h).entered "node_modules" (by decide) (by decide)
  · rw [run_first hroot] at hnone ⊢
    cases hpaths : inOrder (branches {} "work" packages) with
    | cons path paths => exact ⟨path, rfl⟩
    | nil =>
      rw [hpaths] at hnone
      exact absurd hshop (hnone.1 rfl _)

end Search

end AmbientTypes
