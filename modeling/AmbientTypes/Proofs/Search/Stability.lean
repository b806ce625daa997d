import AmbientTypes.Proofs.Search.Naming
import AmbientTypes.Proofs.Tree.Keeping
import Mathlib.Data.List.Perm.Basic

namespace AmbientTypes

namespace Tree

variable {t t' : Tree} {k l : Location}

theorem get?_cons (t : Tree) (n : String) (l : Location) :
    t.get? (n :: l) = (t.get? [n]).bind (·.get? l) :=
  get?_append t [n] l

theorem holdsFolder_of_file {n : String} {f : File} (h : t.get? (n :: l) = some (.file f)) :
    t.HoldsFolder n ↔ l ≠ [] := by
  rw [get?_cons] at h
  rw [HoldsFolder, node?]
  cases hn : t.get? [n] with
  | none => simp [hn] at h
  | some u =>
    rw [hn, Option.bind_some] at h
    cases u <;> cases l <;> simp_all [get?, node]

theorem Precedes.congr (h : t.Precedes k l) {f f' g g' : File} (hk : t.get? k = some (.file f))
    (hl : t.get? l = some (.file g)) (hk' : t'.get? k = some (.file f'))
    (hl' : t'.get? l = some (.file g')) : t'.Precedes k l := by
  induction h generalizing t' with
  | here h =>
    apply Precedes.here
    rw [Before, holdsFolder_of_file hk, holdsFolder_of_file hl] at h
    rwa [Before, holdsFolder_of_file hk', holdsFolder_of_file hl']
  | @there t u n k l hu h ih =>
    rw [get?_cons, hu, Option.bind_some] at hk hl
    rw [get?_cons] at hk' hl'
    cases hu' : t'.get? [n] with
    | none => simp [hu'] at hk'
    | some u' =>
      rw [hu', Option.bind_some] at hk' hl'
      exact .there hu' (ih hk hl hk' hl')

end Tree

namespace Search

variable {q : Search} {t t' : Tree}

/-- Trees with the same files of the name sought are listed alike. -/
theorem IsListing.unique {ls ls' : List Location} (h : IsListing (q.Finds t) t ls)
    (h' : IsListing (q.Finds t') t' ls') (hfinds : ∀ l, q.Finds t' l ↔ q.Finds t l) : ls' = ls := by
  have hnodup : ls.Nodup := h.sorted.imp fun hkl heq ↦ (heq ▸ hkl).irrefl
  have hnodup' : ls'.Nodup := h'.sorted.imp fun hkl heq ↦ (heq ▸ hkl).irrefl
  have hperm : ls'.Perm ls := by
    rw [List.perm_ext_iff_of_nodup hnodup' hnodup]
    intro l
    rw [h'.mem_iff, h.mem_iff, hfinds]
  have hsorted : ls'.Pairwise t.Precedes := by
    refine h'.sorted.imp_of_mem fun hk hl hkl ↦ ?_
    have hk' := (h'.mem_iff _).1 hk
    have hl' := (h'.mem_iff _).1 hl
    obtain ⟨f, hf⟩ := hk'.file
    obtain ⟨g, hg⟩ := hl'.file
    obtain ⟨f', hf'⟩ := ((hfinds _).1 hk').file
    obtain ⟨g', hg'⟩ := ((hfinds _).1 hl').file
    exact hkl.congr hf hg hf' hg'
  refine hperm.eq_of_pairwise (fun k l _ _ hkl hlk ↦ ?_) hsorted h.sorted
  exact absurd (hkl.trans hlk) Tree.Precedes.irrefl

theorem inOrder_eq {es es' : List (String × Tree)} (hes : (Tree.folder es).IsWellNamed)
    (hes' : (Tree.folder es').IsWellNamed)
    (hfinds : ∀ l, q.Finds (.folder es') l ↔ q.Finds (.folder es) l) (root : String) :
    inOrder (q.branches root es') = inOrder (q.branches root es) := by
  cases hes with
  | folder names distinct entries =>
    cases hes' with
    | folder names' distinct' entries' =>
      obtain ⟨ls, hls, hlist⟩ := inOrder_branches (q := q) distinct fun e he ↦
        below_lists (entries e he) (Path.join root e.1) e.1
      obtain ⟨ls', hls', hlist'⟩ := inOrder_branches (q := q) distinct' fun e he ↦
        below_lists (entries' e he) (Path.join root e.1) e.1
      rw [hls, hls', hlist.unique hlist' hfinds]

section Publishing

variable {f g : Files} {P : Location → Prop} {root : String} {paths : List String}
  (hpub : f.Publishes P g) (hf : f.tree.IsWellNamed) (hg : g.tree.IsWellNamed)
  (hnew : ∀ l, P l → f.tree.node? l = none → l.getLast? ≠ some q.fileName)
include hpub hnew

theorem finds_publishes {d : Location} {es es' : List (String × Tree)}
    (hes : f.tree.get? d = some (.folder es)) (hes' : g.tree.get? d = some (.folder es'))
    (l : Location) : q.Finds (.folder es') l ↔ q.Finds (.folder es) l := by
  have hbefore : f.tree.get? (d ++ l) = (Tree.folder es).get? l := by
    rw [Tree.get?_append, hes, Option.bind_some]
  have hafter : g.tree.get? (d ++ l) = (Tree.folder es').get? l := by
    rw [Tree.get?_append, hes', Option.bind_some]
  constructor
  · rintro ⟨⟨k, hk⟩, hname, hentered⟩
    refine ⟨?_, hname, hentered⟩
    have hnode : g.tree.node? (d ++ l) = some (.file k) :=
      Tree.node?_eq_some_file.2 (hafter.trans hk)
    rw [← hbefore]
    rcases hpub.node (d ++ l) with hsame | ⟨-, hfolder⟩ | ⟨hP, hnone | ⟨k', hk'⟩, -⟩
    · exact ⟨k, Tree.node?_eq_some_file.1 (hsame.symm.trans hnode)⟩
    · cases hnode.symm.trans hfolder
    · refine absurd ?_ (hnew _ hP hnone)
      rw [List.getLast?_append, hname]
      rfl
    · exact ⟨k', Tree.node?_eq_some_file.1 hk'⟩
  · rintro ⟨⟨k, hk⟩, hname, hentered⟩
    refine ⟨?_, hname, hentered⟩
    obtain ⟨k', hk', -⟩ := hpub.file (Tree.node?_eq_some_file.2 (hbefore.trans hk))
    rw [← hafter]
    exact ⟨k', Tree.node?_eq_some_file.1 hk'⟩

include hf hg

theorem inOrder_publishes {d : Location} {es es' : List (String × Tree)}
    (hes : f.tree.get? d = some (.folder es)) (hes' : g.tree.get? d = some (.folder es')) :
    inOrder (q.branches root es') = inOrder (q.branches root es) :=
  inOrder_eq (hf.get? hes) (hg.get? hes') (finds_publishes hpub hnew hes hes') root

theorem findings?_publishes (h : q.findings? f root = .ok paths) (hne : paths ≠ []) :
    q.findings? g root = .ok paths := by
  rw [findings?] at h ⊢
  cases hl : f.lookupLink root with
  | error e =>
    rw [hl] at h
    cases h
  | ok r =>
    obtain ⟨l, t⟩ := r
    obtain ⟨t', hl', ht, ht'⟩ := hpub.lookupLink hl
    rw [hl] at h
    rw [hl']
    cases t with
    | file k =>
      obtain ⟨k', hk', -⟩ := hpub.file (Tree.node?_eq_some_file.2 ht)
      obtain rfl := Option.some.inj (ht'.symm.trans (Tree.node?_eq_some_file.1 hk'))
      exact h
    | folder es =>
      obtain ⟨es', hes'⟩ := Tree.node?_eq_some_folder.1
        (hpub.keeps.folder l (Tree.node?_eq_some_folder.2 ⟨es, ht⟩))
      obtain rfl := Option.some.inj (ht'.symm.trans hes')
      simp only at h ⊢
      rw [inOrder_publishes hpub hf hg hnew ht hes', h]
    | link s =>
      have hlink := hpub.keeps.link l s (Tree.node?_eq_some_link.2 ht)
      obtain rfl := Option.some.inj (ht'.symm.trans (Tree.node?_eq_some_link.1 hlink))
      simp only at h ⊢
      cases hbehind : f.lookup root with
      | error e => simp [hbehind] at h
      | ok r =>
        obtain ⟨d, u⟩ := r
        cases u with
        | file k | link s' => simp [hbehind, hne.symm] at h
        | folder es =>
          obtain ⟨es', hes', hget, hget'⟩ := hpub.lookup_folder hbehind
          rw [hbehind] at h
          rw [hes']
          simp only at h ⊢
          rw [inOrder_publishes hpub hf hg hnew hget hget', h]

end Publishing

theorem findings?_of_all {w v : World} {root : String} {paths : List String}
    (h : (q.all root).run w = (.ok paths, v)) (hne : paths ≠ []) :
    q.findings? w.files root = .ok paths := by
  rw [all, Action.run_bind, Action.run_files] at h
  cases hfind : q.findings? w.files root with
  | ok ps =>
    simp only [hfind, Action.run_pure] at h
    obtain ⟨hps, -⟩ := Prod.mk.inj h
    rw [Except.ok.inj hps]
  | error e =>
    simp only [hfind, Action.run_log_bind, Action.run_pure] at h
    obtain ⟨hps, -⟩ := Prod.mk.inj h
    exact absurd (Except.ok.inj hps).symm hne

theorem run_all_of_findings? {w : World} {root : String} {paths : List String}
    (h : q.findings? w.files root = .ok paths) : (q.all root).run w = (.ok paths, w) := by
  simp only [all, Action.run_bind, Action.run_files, h, Action.run_pure]

theorem chosen_again {w w' v : World} {P : Location → Prop} {root path : String}
    {choice : ManifestChoice} (hpub : w.files.Publishes P w'.files)
    (hw : w.files.tree.IsWellNamed) (hw' : w'.files.tree.IsWellNamed)
    (hnew : ∀ l, P l → w.files.tree.node? l = none → l.getLast? ≠ some q.fileName)
    (h : (q.chosen root choice).run w = (.ok path, v)) :
    (q.chosen root choice).run w' = (.ok path, w') := by
  have hall {paths : List String} {u : World} (h : (q.all root).run w = (.ok paths, u))
      (hne : paths ≠ []) : (q.all root).run w' = (.ok paths, w') :=
    run_all_of_findings? (findings?_publishes hpub hw hw' hnew (findings?_of_all h hne) hne)
  cases choice with
  | given p =>
    rw [chosen, Action.run_bind, Action.run_files] at h ⊢
    by_cases hfile : w.files.isFile p = true
    · simp only [hfile, if_true, Action.run_pure] at h
      obtain ⟨hp, -⟩ := Prod.mk.inj h
      simp only [hpub.isFile hfile, if_true, Action.run_pure, hp]
    · simp only [hfile, if_false, Bool.false_eq_true] at h
      cases h
  | searched c =>
    cases c with
    | firstMatch =>
      obtain ⟨paths, u, hpaths, h⟩ := Action.run_bind_ok h
      cases paths with
      | nil => cases h
      | cons p ps =>
        obtain ⟨hp, -⟩ := Prod.mk.inj h
        rw [chosen, first, Action.run_bind, hall hpaths (by simp)]
        exact congrArg (·, w') hp
    | unique =>
      obtain ⟨paths, u, hpaths, h⟩ := Action.run_bind_ok h
      rcases paths with _ | ⟨p, _ | ⟨p', ps⟩⟩
      · cases h
      · obtain ⟨hp, -⟩ := Prod.mk.inj h
        rw [chosen, single, Action.run_bind, hall hpaths (by simp)]
        exact congrArg (·, w') hp
      · cases h

theorem find_again {w w' v : World} {P : Location → Prop} {root path : String}
    {choice : ManifestChoice} (hpub : w.files.Publishes P w'.files)
    (hw : w.files.tree.IsWellNamed) (hw' : w'.files.tree.IsWellNamed)
    (hnew : ∀ l, P l → w.files.tree.node? l = none → l.getLast? ≠ some q.fileName)
    (h : (q.find root choice).run w = (.ok path, v)) :
    ∃ v', (q.find root choice).run w' = (.ok path, v') ∧ v'.files = w'.files := by
  obtain ⟨path', u, hchosen, h⟩ := Action.run_bind_ok h
  rw [Action.run_log_bind, Action.run_pure] at h
  obtain ⟨hpath, -⟩ := Prod.mk.inj h
  obtain rfl := Except.ok.inj hpath
  refine ⟨{ w' with notices := w'.notices ++ [.log .debug ("located manifest " ++ path')] }, ?_,
    rfl⟩
  rw [find, Action.run_bind, chosen_again hpub hw hw' hnew hchosen]
  simp only [Action.run_log_bind, Action.run_pure]

end Search

end AmbientTypes
