import AmbientTypes.Proofs.Search.Naming
import AmbientTypes.Proofs.Tree.Spelling

namespace AmbientTypes

open AmbientTypes.Action

namespace Tree

def HasShortNames (t : Tree) : Prop :=
  ∀ l u, t.get? l = some u → ∀ n ∈ l, Files.IsShort n

namespace HasShortNames

theorem file (f : File) : (Tree.file f).HasShortNames := by
  intro l u h n hn
  cases l with
  | nil => cases hn
  | cons m l => cases h

theorem empty : (Tree.folder []).HasShortNames := by
  intro l u h n hn
  cases l with
  | nil => cases hn
  | cons m l => cases h

theorem cons {n : String} {t : Tree} {es : List (String × Tree)} (hn : Files.IsShort n)
    (ht : t.HasShortNames) (hes : (Tree.folder es).HasShortNames) :
    (Tree.folder ((n, t) :: es)).HasShortNames := by
  intro l u h m hm
  cases l with
  | nil => cases hm
  | cons k l =>
    by_cases hk : k = n
    · subst hk
      rw [get?, List.lookup_cons_self] at h
      rcases List.mem_cons.1 hm with rfl | hm
      · exact hn
      · exact ht l u h m hm
    · refine hes (k :: l) u ?_ m hm
      rwa [get?, List.lookup_cons, beq_eq_false_iff_ne.2 hk] at h

end HasShortNames

end Tree

namespace Files

/-- Files as a system holds them, seen from a directory that is there. -/
structure IsSound (f : Files) : Prop where
  wellNamed : f.tree.IsWellNamed
  short : f.tree.HasShortNames
  cwd : f.tree.node? f.cwd = some .folder

/-- Another spelling of a path, which looks the same from the current directory. -/
structure Respells (f : Files) (p q : String) : Prop where
  components : Path.components q = Path.components p
  lookup : f.lookup q = f.lookup p
  shown : Path.shown f.cwd.path q = Path.shown f.cwd.path p

variable {f : Files} {p q : String}

theorem Respells.refl (f : Files) (p : String) : f.Respells p p := ⟨rfl, rfl, rfl⟩

theorem Respells.isFile_eq (h : f.Respells p q) : f.isFile q = f.isFile p := by
  rw [isFile, isFile, h.lookup]

namespace IsSound

variable (hf : f.IsSound)
include hf

theorem short_cwd : ∀ n ∈ f.cwd, IsShort n := by
  obtain ⟨es, hes⟩ := Tree.node?_eq_some_folder.1 hf.cwd
  exact hf.short _ _ hes

theorem components_cwd : Path.components f.cwd.path = .root :: f.cwd.map .name :=
  Location.components_path fun n hn ↦ (hf.short_cwd n hn).isName

section Below

variable {rest : List Path.Component} (h : Path.IsBelow f.cwd.path p rest)
include h

theorem moving_of_isBelow : moving (segments p) = f.cwd ++ rest.map Path.Component.text := by
  have hcwd : (f.cwd.map Path.Component.name).filterMap Path.Component.segment? = f.cwd := by
    simp [List.filterMap_map, Function.comp_def, Path.Component.segment?]
  have hrest : rest.filterMap Path.Component.segment? = rest.map Path.Component.text := by
    rw [← List.filterMap_eq_map]
    refine List.filterMap_congr fun c hc ↦ ?_
    cases h.isStep c hc <;> rfl
  rw [moving_segments, h.components_eq, hf.components_cwd, List.filterMap_append,
    List.filterMap_cons_none rfl, hcwd, hrest]

/-- Joined to the directory, what leads to a path gives its plainest spelling. -/
theorem anchor_ofComponents (hne : rest ≠ []) :
    Path.anchor f.cwd.path (Path.ofComponents rest) = Location.path (moving (segments p)) := by
  have hjoin := Location.join_path_ofComponents
    (fun n hn ↦ .of_isName (hf.short_cwd n hn).isName) h.isStep hne
  rw [Path.anchor, Path.isAbsolute_ofComponents h.isStep, if_neg Bool.false_ne_true, hjoin,
    hf.moving_of_isBelow h]

end Below

/-- What is shown of a location below the directory leads back to it. -/
theorem anchor_shown_path {l : Location} (hl : ∀ n ∈ l, Path.IsName n) (hne : l ≠ []) :
    Path.anchor f.cwd.path (Path.shown f.cwd.path (Location.path (f.cwd ++ l))) =
      Location.path (f.cwd ++ l) := by
  have hsteps : ∀ c ∈ l.map Path.Component.name, c.IsStep := by
    simpa only [List.forall_mem_map] using fun n hn ↦ .name (hl n hn)
  have hnames : ∀ n ∈ f.cwd ++ l, Path.IsName n :=
    List.forall_mem_append.2 ⟨fun n hn ↦ (hf.short_cwd n hn).isName, hl⟩
  have hbelow : Path.IsBelow f.cwd.path (Location.path (f.cwd ++ l)) (l.map .name) := by
    refine ⟨?_, hsteps⟩
    rw [Location.components_path hnames, hf.components_cwd, List.map_append, List.cons_append]
  rw [Path.shown_of_isBelow (Location.isAbsolute_path _) (Location.isAbsolute_path _) hbelow,
    hf.anchor_ofComponents hbelow (by simpa using hne),
    Location.segments_path fun n hn ↦ .of_isName (hnames n hn)]
  exact congrArg Location.path
    (List.filter_eq_self.2 fun n hn ↦ by simpa using (hnames n hn).ne_dot)

/-- What is shown of a file leads back to it. -/
theorem respells_shown (hp : Path.isAbsolute p = true) (hfile : f.isFile p = true) :
    Path.shown f.cwd.path p ≠ "" ∧
      f.Respells p (Path.anchor f.cwd.path (Path.shown f.cwd.path p)) := by
  have hbase := Location.isAbsolute_path f.cwd
  obtain ⟨l, k, hlookup⟩ := isFile_iff.1 hfile
  by_cases hbelow : Path.components f.cwd.path <+: Path.components p
  · obtain ⟨rest, hrest⟩ := Path.isBelow_of_prefix hbase hp hbelow
    have hne : rest ≠ [] := by
      rintro rfl
      have hdir := leadsTo_path hf.short_cwd hf.cwd
      exact not_leadsTo_of_lookup_file hlookup _
        (hdir.congr (by rw [hrest.components_eq, List.append_nil]))
    have hcomponents := (Path.anchor_shown hbase hp).1
    rw [Path.shown_of_isBelow hbase hp hrest] at hcomponents ⊢
    refine ⟨Path.ne_empty_of_components ?_, hcomponents, ?_, ?_⟩
    · rwa [Path.components_ofComponents hrest.isStep]
    · rw [hf.anchor_ofComponents hrest hne, hlookup]
      exact lookup_path_moving hp hlookup
    · rw [Path.shown_of_isBelow hbase hp hrest]
      exact Path.shown_of_isBelow hbase (Path.isAbsolute_anchor hbase _)
        ⟨hcomponents.trans hrest.components_eq, hrest.isStep⟩
  · rw [Path.shown_of_not_below hbelow, Path.anchor, if_pos hp]
    refine ⟨?_, .refl f p⟩
    rintro rfl
    cases hp

end IsSound

end Files

namespace Search

variable {w : World} (hw : w.files.IsSound) {q : Search} {found : List String}
  (hall : ((q.all w.cwd).run w).1 = .ok found) {path : String} (hpath : path ∈ found)
include hw hall hpath

theorem file_of_mem_all : ∃ l k, path = Location.path l ∧ w.files.tree.get? l = some (.file k) := by
  cases hroot : w.files.lookupLink w.cwd with
  | error e =>
    simp only [all, run_bind, run_files, findings?, hroot] at hall
    obtain rfl := Except.ok.inj hall
    cases hpath
  | ok entry =>
    obtain ⟨d, t⟩ := entry
    obtain ⟨es, hes⟩ := Tree.node?_eq_some_folder.1 hw.cwd
    obtain ⟨rfl, ht⟩ := Files.lookupLink_path hw.short_cwd hw.cwd hroot
    obtain rfl := Option.some.inj (ht.symm.trans hes)
    rw [run_all hroot] at hall
    obtain rfl := Except.ok.inj hall
    cases hw.wellNamed.get? hes with
    | folder names distinct entries =>
      obtain ⟨ks, hks, hlist⟩ := inOrder_branches (q := q) distinct fun e he ↦
        below_lists (entries e he) (Path.join w.cwd e.1) e.1
      rw [hks] at hpath
      obtain ⟨k, hk, rfl⟩ := List.mem_map.1 hpath
      obtain ⟨g, hg⟩ := ((hlist.mem_iff k).1 hk).file
      have hget : w.files.tree.get? (w.files.cwd ++ k) = some (.file g) := by
        rw [Tree.get?_append, hes]
        exact hg
      have hshort := hw.short _ _ hget
      refine ⟨w.files.cwd ++ k, g, ?_, hget⟩
      exact Location.foldl_join_path (fun n hn ↦ .of_isName (hw.short_cwd n hn).isName)
        fun n hn ↦ .of_isName (hshort n (List.mem_append_right _ hn)).isName

/-- What is found can be read, unless its path is too long. -/
theorem isFile_of_mem_all : Path.isAbsolute path = true ∧
    (Files.utf8Size path ≤ Files.longestPath → w.files.isFile path = true) := by
  obtain ⟨l, k, rfl, hget⟩ := file_of_mem_all hw hall hpath
  have hne : l ≠ [] := by
    rintro rfl
    obtain ⟨es, hes⟩ := Tree.node?_eq_some_folder.1 (Files.folder_of_append (d := []) hw.cwd)
    cases hes.symm.trans hget
  refine ⟨Location.isAbsolute_path l, fun hsize ↦ Files.isFile_iff.2 ⟨l, k, ?_⟩⟩
  exact Files.lookup_path (hw.short l _ hget) hne (Tree.node?_eq_some_file.2 hget) hsize

end Search

end AmbientTypes
