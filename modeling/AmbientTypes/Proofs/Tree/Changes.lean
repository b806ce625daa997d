import AmbientTypes.Proofs.Tree.Directories
import AmbientTypes.Tree.Operations

namespace AmbientTypes.Files

variable {f g : Files}

/-- Folders may be new; all else stands where it stood. -/
structure Grows (f g : Files) : Prop where
  cwd : g.cwd = f.cwd
  node : ∀ l, g.tree.node? l = f.tree.node? l ∨
    f.tree.node? l = none ∧ g.tree.node? l = some .folder

namespace Grows

theorem refl (f : Files) : f.Grows f := ⟨rfl, fun _ ↦ .inl rfl⟩

theorem trans {h : Files} (hfg : f.Grows g) (hgh : g.Grows h) : f.Grows h := by
  refine ⟨hgh.cwd.trans hfg.cwd, fun l ↦ ?_⟩
  rcases hgh.node l with hl | ⟨hl, hl'⟩
  · rw [hl]
    exact hfg.node l
  · rcases hfg.node l with hf | ⟨-, hf⟩
    · exact .inr ⟨hf ▸ hl, hl'⟩
    · simp [hl] at hf

theorem node_of_ne_none (h : f.Grows g) {l : Location} (hl : f.tree.node? l ≠ none) :
    g.tree.node? l = f.tree.node? l :=
  (h.node l).resolve_right fun hn ↦ hl hn.1

theorem node_of_ne_folder (h : f.Grows g) {l : Location} (hl : g.tree.node? l ≠ some .folder) :
    g.tree.node? l = f.tree.node? l :=
  (h.node l).resolve_right fun hn ↦ hl hn.2

end Grows

theorem LeadsTo.mono {dir : String} {d : Location} (h : f.LeadsTo dir d) (hcwd : g.cwd = f.cwd)
    (hfolder : ∀ l, f.tree.node? l = some .folder → g.tree.node? l = some .folder)
    (hlink : ∀ l s, f.tree.node? l = some (.link s) → g.tree.node? l = some (.link s)) :
    g.LeadsTo dir d := by
  have hstart : g.start dir = f.start dir := by rw [start, start, hcwd]
  rw [LeadsTo, hstart]
  exact Leads.mono h hfolder hlink

theorem LeadsTo.grows {dir : String} {d : Location} (h : f.LeadsTo dir d) (hg : f.Grows g) :
    g.LeadsTo dir d :=
  h.mono hg.cwd (fun _ hl ↦ (hg.node_of_ne_none (by simp [hl])).trans hl)
    fun _ _ hl ↦ (hg.node_of_ne_none (by simp [hl])).trans hl

structure Alike (f g : Files) : Prop where
  cwd : g.cwd = f.cwd
  node : ∀ l, g.tree.node? l = f.tree.node? l

namespace Alike

theorem refl (f : Files) : f.Alike f := ⟨rfl, fun _ ↦ rfl⟩

theorem grows (h : f.Alike g) : f.Grows g := ⟨h.cwd, fun l ↦ .inl (h.node l)⟩

end Alike

/-- New folders at most; none where the folder of a directory is there. -/
structure MayMake (f : Files) (dir : String) (g : Files) : Prop where
  grows : f.Grows g
  alike : ∀ d, f.LeadsTo dir d → f.Alike g

/-- The folder of a directory is made where it is missing. -/
structure Makes (f : Files) (dir : String) (g : Files) (d : Location) : Prop where
  grows : f.Grows g
  same : ∀ e, f.LeadsTo dir e → g = f
  leadsTo : g.LeadsTo dir d

theorem Makes.eq {dir : String} {d e : Location} (hm : f.Makes dir g d) (h : f.LeadsTo dir e) :
    g = f ∧ d = e := by
  obtain rfl := hm.same e h
  exact ⟨rfl, hm.leadsTo.unique h⟩

/-- `g` is `f` but for what stands at the location of a name in a folder. -/
structure Sets (f : Files) (d : Location) (s : String) (node : Option Node) (g : Files) : Prop where
  cwd : g.cwd = f.cwd
  node : ∀ l, g.tree.node? l = if l = d ++ [s] then node else f.tree.node? l

namespace Sets

variable {d : Location} {s : String} {node : Option Node}

theorem self (h : Sets f d s node g) : g.tree.node? (d ++ [s]) = node := by
  rw [h.node, if_pos rfl]

theorem of_ne (h : Sets f d s node g) {l : Location} (hl : l ≠ d ++ [s]) :
    g.tree.node? l = f.tree.node? l := by
  rw [h.node, if_neg hl]

theorem refl (h : f.tree.node? (d ++ [s]) = node) : Sets f d s node f := by
  refine ⟨rfl, fun l ↦ ?_⟩
  split
  · next hl => rw [hl, h]
  · rfl

theorem trans {node' : Option Node} {h : Files} (hfg : Sets f d s node g)
    (hgh : Sets g d s node' h) : Sets f d s node' h := by
  refine ⟨hgh.cwd.trans hfg.cwd, fun l ↦ ?_⟩
  rw [hgh.node, hfg.node]
  split <;> rfl

theorem alike (h : Sets f d s node g) (hnode : f.tree.node? (d ++ [s]) = node) : f.Alike g := by
  refine ⟨h.cwd, fun l ↦ ?_⟩
  rw [h.node]
  split
  · next hl => rw [hl, hnode]
  · rfl

theorem congr_left {f' : Files} (h : Sets f' d s node g) (hf : f.Alike f') :
    Sets f d s node g := by
  refine ⟨h.cwd.trans hf.cwd, fun l ↦ ?_⟩
  rw [h.node, hf.node]

theorem congr_right {g' : Files} (h : Sets f d s node g) (hg : g.Alike g') :
    Sets f d s node g' :=
  ⟨hg.cwd.trans h.cwd, fun l ↦ (hg.node l).trans (h.node l)⟩

theorem leadsTo (h : Sets f d s node g) (hfolder : f.tree.node? (d ++ [s]) ≠ some .folder)
    (hlink : ∀ t, f.tree.node? (d ++ [s]) ≠ some (.link t)) {dir : String} {e : Location}
    (hd : f.LeadsTo dir e) : g.LeadsTo dir e := by
  refine hd.mono h.cwd (fun l hl ↦ ?_) fun l t hl ↦ ?_
  · rw [h.of_ne (by rintro rfl; exact hfolder hl), hl]
  · rw [h.of_ne (by rintro rfl; exact hlink t hl), hl]

theorem leadsTo_before (h : Sets f d s none g) {dir : String} {e : Location}
    (hd : g.LeadsTo dir e) : f.LeadsTo dir e := by
  refine hd.mono h.cwd.symm (fun l hl ↦ ?_) fun l t hl ↦ ?_ <;>
  · rw [h.node] at hl
    split at hl
    · cases hl
    · exact hl

end Sets

theorem sets_put {t : Tree} (ht : t.IsBare) {d : Location} {s : String}
    (hd : f.tree.node? d = some .folder) (hs : f.tree.node? (d ++ [s]) ≠ some .folder) :
    Sets f d s (some t.node) (f.put (d ++ [s]) t) :=
  ⟨rfl, Tree.node?_put ht hd hs⟩

theorem sets_putBytes {d : Location} {s : String} (hd : f.tree.node? d = some .folder)
    (hs : f.tree.node? (d ++ [s]) ≠ some .folder) (bytes : ByteArray) :
    Sets f d s (some (.file ⟨bytes, none⟩)) (f.putBytes (d ++ [s]) bytes) :=
  sets_put (Tree.isBare_file _) hd hs

theorem sets_erase {d : Location} {s : String} (hd : f.tree.node? d = some .folder)
    (hs : f.tree.node? (d ++ [s]) ≠ some .folder) : Sets f d s none (f.erase (d ++ [s])) :=
  ⟨rfl, Tree.node?_remove hd hs⟩

theorem Sets.grows {d : Location} {s : String} (h : Sets f d s (some .folder) g)
    (hs : f.tree.node? (d ++ [s]) = none) : f.Grows g := by
  refine ⟨h.cwd, fun l ↦ ?_⟩
  by_cases hl : l = d ++ [s]
  · subst hl
    exact .inr ⟨hs, h.self⟩
  · exact .inl (h.of_ne hl)

theorem node?_of_resolveWith_absent {folderWanted : Bool} {ending : Ending} {path s : String}
    {d : Location} (h : f.resolveWith folderWanted ending path = .ok (.absent d s)) :
    f.tree.node? d = some .folder ∧ f.tree.node? (d ++ [s]) = none := by
  rw [resolveWith] at h
  split at h
  · cases h
  · have hend := h ▸ isEnd_walk mostLinks (f.start path) folderWanted (segments path)
    cases hend with
    | absent hd hs => exact ⟨hd, hs⟩

theorem resolveWith_ne_alreadyExists (folderWanted : Bool) (ending : Ending) (path : String) :
    f.resolveWith folderWanted ending path ≠ .error .alreadyExists := by
  rw [resolveWith]
  split
  · next e he =>
    rintro ⟨⟩
    unfold pathFault? at he
    split at he
    · cases he
    split at he
    · cases he
    split at he <;> cases he
  · intro h
    have hend := h ▸ isEnd_walk mostLinks (f.start path) folderWanted (segments path)
    cases hend with
    | error he => exact absurd he (by decide)

theorem makeFolders_of_fault {fuel : Nat} {path : String} {f : Files}
    (h : path = "" ∨ pathFault? path ≠ none) : (makeFolders fuel path f).2 = f := by
  cases fuel with
  | zero => rfl
  | succ fuel =>
    by_cases hne : path = ""
    · simp [makeFolders, hne]
    · obtain ⟨e, hfault⟩ := Option.ne_none_iff_exists'.1 (h.resolve_left hne)
      have he : e ≠ .notFound := by
        rintro rfl
        simp only [pathFault?, hne, if_false] at hfault
        split at hfault
        · cases hfault
        · split at hfault <;> cases hfault
      have hmake : f.makeFolder path = .error e := by
        simp [makeFolder, resolveName, resolveWith, hfault, bind, Except.bind]
      simp [makeFolders, hne, hmake]

/-- Whether missing folders are made or not, nothing that `dir` is or will be holds a link. -/
def HoldsNoLinks (f : Files) (dir : String) : Prop :=
  ∀ g d, f.Grows g → g.LeadsTo dir d → ∀ s t, f.tree.node? (d ++ [s]) ≠ some (.link t)

def NotLinked (f : Files) (dir s : String) : Prop :=
  ∀ g d, f.Grows g → g.LeadsTo dir d → ∀ t, f.tree.node? (d ++ [s]) ≠ some (.link t)

theorem NotLinked.of_leadsTo {dir s : String} {d : Location} (hd : f.LeadsTo dir d)
    (h : ∀ t, f.tree.node? (d ++ [s]) ≠ some (.link t)) : f.NotLinked dir s := by
  intro g e hg he
  rwa [he.unique (hd.grows hg)]

theorem holdsNoLinks_iff {dir : String} {d : Location} (h : f.LeadsTo dir d) :
    f.HoldsNoLinks dir ↔ ∀ s t, f.tree.node? (d ++ [s]) ≠ some (.link t) := by
  constructor
  · exact fun hno ↦ hno f d (.refl f) h
  · intro hno g d' hg hd'
    rw [hd'.unique (h.grows hg)]
    exact hno

namespace HoldsNoLinks

variable {dir s : String} {d : Location}

theorem grows (h : f.HoldsNoLinks dir) (hg : f.Grows g) : g.HoldsNoLinks dir := by
  intro k d hk hd s t hlink
  have hf := (hg.node_of_ne_folder (by rw [hlink]; simp)).symm.trans hlink
  exact h k d (hg.trans hk) hd s t hf

theorem ne_link (h : f.HoldsNoLinks dir) :
    ∀ d, f.LeadsTo dir d → ∀ t, f.tree.node? (d ++ [s]) ≠ some (.link t) :=
  fun d hd t ↦ h f d (.refl f) hd s t

theorem sets (h : f.HoldsNoLinks dir) (hd : f.LeadsTo dir d) {node : Option Node}
    (hs : Sets f d s node g) (hfolder : f.tree.node? (d ++ [s]) ≠ some .folder)
    (hnode : ∀ t, node ≠ some (.link t)) : g.HoldsNoLinks dir := by
  have hlink : ∀ t, f.tree.node? (d ++ [s]) ≠ some (.link t) := h.ne_link d hd
  rw [holdsNoLinks_iff (hs.leadsTo hfolder hlink hd)]
  intro r t
  rw [hs.node]
  split
  · exact hnode t
  · exact (holdsNoLinks_iff hd).1 h r t

theorem congr {dir' : String} (h : f.HoldsNoLinks dir)
    (hc : Path.components dir = Path.components dir') : f.HoldsNoLinks dir' :=
  fun g d hg hd ↦ h g d hg (hd.congr hc.symm)

end HoldsNoLinks

def HoldsFile (f : Files) (d : Location) (s : String) : Prop :=
  ∃ k, f.tree.node? (d ++ [s]) = some (.file k)

/-- In a directory that is there and holds no links, what stands under one name may have changed. -/
structure Touches (f : Files) (dir : String) (d : Location) (s : String) (g : Files) : Prop where
  leadsTo : g.LeadsTo dir d
  noLinks : g.HoldsNoLinks dir
  others : ∀ r, r ≠ s → g.tree.node? (d ++ [r]) = f.tree.node? (d ++ [r])

namespace Touches

variable {dir s : String} {d : Location}

theorem refl (hd : f.LeadsTo dir d) (hno : f.HoldsNoLinks dir) (s : String) : f.Touches dir d s f :=
  ⟨hd, hno, fun _ _ ↦ rfl⟩

theorem trans {h : Files} (hfg : f.Touches dir d s g) (hgh : g.Touches dir d s h) :
    f.Touches dir d s h :=
  ⟨hgh.leadsTo, hgh.noLinks, fun r hr ↦ (hgh.others r hr).trans (hfg.others r hr)⟩

theorem of_sets (hd : f.LeadsTo dir d) (hno : f.HoldsNoLinks dir) {node : Option Node}
    (hs : Sets f d s node g) (hfolder : f.tree.node? (d ++ [s]) ≠ some .folder)
    (hnode : ∀ t, node ≠ some (.link t)) : f.Touches dir d s g :=
  ⟨hs.leadsTo hfolder (hno.ne_link d hd) hd, hno.sets hd hs hfolder hnode,
    fun r hr ↦ hs.of_ne (by simpa using hr)⟩

theorem of_alike (hd : f.LeadsTo dir d) (hno : f.HoldsNoLinks dir) (h : f.Alike g) (s : String) :
    f.Touches dir d s g :=
  ⟨hd.grows h.grows, hno.grows h.grows, fun r _ ↦ h.node (d ++ [r])⟩

end Touches

def Vacant (f : Files) (path : String) : Prop :=
  ∀ l t, f.lookupLink path ≠ .ok (l, t)

theorem vacant_iff {path : String} : f.Vacant path ↔ (f.lookupLink path).isOk = false := by
  unfold Vacant
  cases f.lookupLink path with
  | error e => simp [Except.isOk, Except.toBool]
  | ok r => exact ⟨fun h ↦ absurd rfl (h r.1 r.2), fun h ↦ by cases h⟩

instance (f : Files) (path : String) : Decidable (f.Vacant path) :=
  decidable_of_iff _ vacant_iff.symm

/-- A name in the folder of a directory that leads to no folder, not even as a link does. -/
structure IsLeaf (f : Files) (dir s : String) (d : Location) : Prop where
  fits : Fits dir s
  leadsTo : f.LeadsTo dir d
  not_leads : ∀ n e, ¬ Leads f.tree n d [s] e

namespace IsLeaf

variable {dir s : String} {d : Location}

theorem ne_folder (h : f.IsLeaf dir s d) (hs : Path.IsName s) :
    f.tree.node? (d ++ [s]) ≠ some .folder :=
  fun hl ↦ h.not_leads 0 _ (.enter hs.ne_dot hs.ne_dots h.fits.2 hl (.done hl))

/-- Nothing on the way to the directory goes through the leaf. -/
theorem leadsTo_sets (h : f.IsLeaf dir s d) (hs : Path.IsName s) {node : Option Node}
    (hsets : Sets f d s node g) : g.LeadsTo dir d := by
  have hstart : g.start dir = f.start dir := by rw [start, start, hsets.cwd]
  rw [LeadsTo, hstart]
  exact Leads.of_same_but h.leadsTo hs.ne_dot hs.ne_dots h.fits.2 h.not_leads
    fun l hl ↦ hsets.of_ne hl

end IsLeaf

theorem isFile_iff {path : String} :
    f.isFile path = true ↔ ∃ l k, f.lookup path = .ok (l, .file k) := by
  unfold isFile
  split
  · next l k hl => exact ⟨fun _ ↦ ⟨l, k, hl⟩, fun _ ↦ rfl⟩
  · next hne => exact ⟨nofun, fun ⟨l, k, hl⟩ ↦ (hne l k hl).elim⟩

theorem readBytes_of_isFile {path : String} (h : f.isFile path = true) :
    ∃ bytes, f.readBytes path = .ok bytes := by
  obtain ⟨l, k, hl⟩ := isFile_iff.1 h
  exact ⟨k.bytes, by rw [readBytes, hl]⟩

theorem isFile_of_readBytes {path : String} {bytes : ByteArray} (h : f.readBytes path = .ok bytes) :
    f.isFile path = true := by
  unfold readBytes at h
  split at h
  · next l k hl => exact isFile_iff.2 ⟨l, k, hl⟩
  · cases h
  · cases h

theorem isFile_of_readText {path text : String} (h : f.readText path = .ok text) :
    f.isFile path = true := by
  rw [readText] at h
  cases hbytes : f.readBytes path with
  | error e => simp [hbytes, bind, Except.bind] at h
  | ok bytes => exact isFile_of_readBytes hbytes

section Names

variable {dir s : String}

theorem resolve_join (hs : Path.IsName s) (ending : Ending) :
    f.resolve ending (Path.join dir s) = f.resolveWith false ending (Path.join dir s) := by
  rw [resolve, endsInSlash_join dir hs]

theorem child_eq_present {d l : Location} {t : Tree} :
    f.child d s = .present l t ↔ l = d ++ [s] ∧ f.tree.get? (d ++ [s]) = some t := by
  rw [child]
  cases f.tree.get? (d ++ [s]) with
  | none => simp
  | some u => simp [eq_comm]

theorem child_eq_absent {d l : Location} {r : String} :
    f.child d s = .absent l r ↔ l = d ∧ r = s ∧ f.tree.node? (d ++ [s]) = none := by
  rw [child, Tree.node?_eq_none]
  cases f.tree.get? (d ++ [s]) with
  | none => simp [eq_comm]
  | some u => simp

theorem location_child (d : Location) : (f.child d s).location = d ++ [s] := by
  rw [child]
  cases f.tree.get? (d ++ [s]) <;> rfl

variable (hs : Path.IsName s)
include hs

theorem createNew_join_ok {bytes : ByteArray} (h : f.createNew (Path.join dir s) bytes = .ok g) :
    Fits dir s ∧ ∃ d, f.LeadsTo dir d ∧ f.tree.node? (d ++ [s]) = none ∧
      Sets f d s (some (.file ⟨bytes, none⟩)) g := by
  unfold createNew at h
  rw [resolve_join hs] at h
  cases hr : f.resolveWith false .newFile (Path.join dir s) with
  | error e => simp [hr, bind, Except.bind] at h
  | ok target =>
    obtain ⟨hfits, d, hd, rfl⟩ := (resolveWith_join hs .newFile nofun).1 hr
    rw [hr] at h
    cases hc : f.child d s with
    | present l t => simp [hc, bind, Except.bind] at h
    | absent l r =>
      obtain ⟨rfl, rfl, hnone⟩ := child_eq_absent.1 hc
      obtain rfl : f.putBytes (l ++ [r]) bytes = g := by
        simpa [hc, bind, Except.bind, pure, Except.pure] using h
      exact ⟨hfits, l, hd, hnone, sets_putBytes (Leads.folder hd) (by simp [hnone]) bytes⟩

theorem createNew_join {d : Location} (hd : f.LeadsTo dir d) (hfits : Fits dir s)
    (bytes : ByteArray) :
    f.createNew (Path.join dir s) bytes =
      if f.tree.node? (d ++ [s]) = none then .ok (f.putBytes (d ++ [s]) bytes)
      else .error .alreadyExists := by
  have hr := (resolveWith_join hs .newFile nofun).2 ⟨hfits, d, hd, rfl⟩
  rw [createNew, resolve_join hs, hr]
  cases hget : f.tree.get? (d ++ [s]) with
  | none =>
    have hnone := Tree.node?_eq_none.2 hget
    rw [if_pos hnone, child_eq_absent.2 ⟨rfl, rfl, hnone⟩]
    rfl
  | some t =>
    rw [if_neg (by simp [Tree.node?_eq_none, hget]), child_eq_present.2 ⟨rfl, hget⟩]
    rfl

theorem createNew_join_alreadyExists {bytes : ByteArray}
    (h : f.createNew (Path.join dir s) bytes = .error .alreadyExists) :
    Fits dir s ∧ ∃ d, f.LeadsTo dir d ∧ f.tree.node? (d ++ [s]) ≠ none := by
  unfold createNew at h
  rw [resolve_join hs] at h
  cases hr : f.resolveWith false .newFile (Path.join dir s) with
  | error e =>
    obtain rfl : e = .alreadyExists := by simpa [hr, bind, Except.bind] using h
    exact absurd hr (resolveWith_ne_alreadyExists _ _ _)
  | ok target =>
    obtain ⟨hfits, d, hd, rfl⟩ := (resolveWith_join hs .newFile nofun).1 hr
    rw [hr] at h
    cases hc : f.child d s with
    | absent l r => simp [hc, bind, Except.bind, pure, Except.pure] at h
    | present l t =>
      refine ⟨hfits, d, hd, ?_⟩
      rw [ne_eq, Tree.node?_eq_none, (child_eq_present.1 hc).2]
      simp

section Following

variable (hno : ∀ d, f.LeadsTo dir d → ∀ t, f.tree.node? (d ++ [s]) ≠ some (.link t))
include hno

theorem openOrCreate_join_ok {l : Location} {bytes : ByteArray}
    (h : f.openOrCreate (Path.join dir s) = .ok (l, bytes, g)) :
    ∃ d, f.LeadsTo dir d ∧ l = d ++ [s] ∧
      ((∃ k : File, f.tree.node? l = some (.file k) ∧ bytes = k.bytes ∧ g = f) ∨
        f.tree.node? l = none ∧ bytes = .empty ∧ Sets f d s (some (.file ⟨.empty, none⟩)) g) := by
  unfold openOrCreate at h
  rw [resolve_join hs] at h
  cases hr : f.resolveWith false .file (Path.join dir s) with
  | error e => simp [hr, bind, Except.bind] at h
  | ok target =>
    obtain ⟨-, d, hd, rfl⟩ := (resolveWith_join hs .file fun _ ↦ hno).1 hr
    rw [hr] at h
    cases hc : f.child d s with
    | absent l' r =>
      obtain ⟨rfl, rfl, hnone⟩ := child_eq_absent.1 hc
      obtain ⟨rfl, rfl, rfl⟩ : l' ++ [r] = l ∧ ByteArray.empty = bytes ∧
          f.putBytes (l' ++ [r]) .empty = g := by
        simpa [hc, bind, Except.bind, pure, Except.pure] using h
      exact ⟨l', hd, rfl, .inr ⟨hnone, rfl,
        sets_putBytes (Leads.folder hd) (by simp [hnone]) .empty⟩⟩
    | present l' t =>
      obtain ⟨rfl, ht⟩ := child_eq_present.1 hc
      cases t with
      | file k =>
        obtain ⟨rfl, rfl, rfl⟩ : d ++ [s] = l ∧ k.bytes = bytes ∧ f = g := by
          simpa [hc, bind, Except.bind, pure, Except.pure] using h
        exact ⟨d, hd, rfl, .inl ⟨k, Tree.node?_eq_some_file.2 ht, rfl, rfl⟩⟩
      | link target => simp [hc, bind, Except.bind] at h
      | folder es => simp [hc, bind, Except.bind] at h

theorem openOrCreate_join {d : Location} (hd : f.LeadsTo dir d) (hfits : Fits dir s)
    (hfolder : f.tree.node? (d ++ [s]) ≠ some .folder) :
    ∃ r, f.openOrCreate (Path.join dir s) = .ok r := by
  have hr := (resolveWith_join hs .file fun _ ↦ hno).2 ⟨hfits, d, hd, rfl⟩
  rw [openOrCreate, resolve_join hs, hr]
  cases hget : f.tree.get? (d ++ [s]) with
  | none =>
    rw [child_eq_absent.2 ⟨rfl, rfl, Tree.node?_eq_none.2 hget⟩]
    exact ⟨_, rfl⟩
  | some t =>
    rw [child_eq_present.2 ⟨rfl, hget⟩]
    cases t with
    | file k => exact ⟨_, rfl⟩
    | link t => exact absurd (Tree.node?_eq_some_link.2 hget) (hno d hd t)
    | folder es => exact absurd (Tree.node?_eq_some_folder.2 ⟨es, hget⟩) hfolder

theorem writeBytes_join_ok {bytes : ByteArray} (h : f.writeBytes (Path.join dir s) bytes = .ok g) :
    ∃ d, f.LeadsTo dir d ∧ f.tree.node? (d ++ [s]) ≠ some .folder ∧
      Sets f d s (some (.file ⟨bytes, none⟩)) g := by
  unfold writeBytes at h
  cases hopen : f.openOrCreate (Path.join dir s) with
  | error e => simp [hopen, bind, Except.bind] at h
  | ok r =>
    obtain ⟨l, old, g'⟩ := r
    obtain rfl : g'.putBytes l bytes = g := by
      simpa [hopen, bind, Except.bind, pure, Except.pure] using h
    obtain ⟨d, hd, rfl, ⟨k, hk, -, rfl⟩ | ⟨hnone, -, hsets⟩⟩ := openOrCreate_join_ok hs hno hopen
    · have hfolder : g'.tree.node? (d ++ [s]) ≠ some .folder := by simp [hk]
      exact ⟨d, hd, hfolder, sets_putBytes (Leads.folder hd) hfolder bytes⟩
    · have hfolder : g'.tree.node? d = some .folder := by
        rw [hsets.of_ne (by simp), Leads.folder hd]
      exact ⟨d, hd, by simp [hnone],
        hsets.trans (sets_putBytes hfolder (by simp [hsets.self]) bytes)⟩

theorem isFile_join (hs' : f.isFile (Path.join dir s) = true) {d : Location}
    (hd : f.LeadsTo dir d) : f.HoldsFile d s := by
  unfold isFile lookup at hs'
  rw [resolve_join hs] at hs'
  rcases resolveWith_join_cases hs hd .behind fun _ ↦ hno d hd with ⟨-, hr⟩ | ⟨-, e, -, hr⟩
  · cases hget : f.tree.get? (d ++ [s]) with
    | none =>
      simp [hr, child_eq_absent.2 ⟨rfl, rfl, Tree.node?_eq_none.2 hget⟩] at hs'
    | some t =>
      cases t with
      | file k => exact ⟨k, Tree.node?_eq_some_file.2 hget⟩
      | link t => simp [hr, child_eq_present.2 ⟨rfl, hget⟩] at hs'
      | folder es => simp [hr, child_eq_present.2 ⟨rfl, hget⟩] at hs'
  · simp [hr] at hs'

end Following

theorem lookupLink_join {l : Location} {t : Tree} :
    f.lookupLink (Path.join dir s) = .ok (l, t) ↔
      Fits dir s ∧ ∃ d, f.LeadsTo dir d ∧ l = d ++ [s] ∧ f.tree.get? l = some t := by
  rw [lookupLink, resolve_join hs]
  constructor
  · intro h
    cases hr : f.resolveWith false .entry (Path.join dir s) with
    | error e => simp [hr] at h
    | ok target =>
      obtain ⟨hfits, d, hd, rfl⟩ := (resolveWith_join hs .entry nofun).1 hr
      cases hc : f.child d s with
      | absent l' r => simp [hr, hc] at h
      | present l' t' =>
        obtain ⟨rfl, rfl⟩ : l' = l ∧ t' = t := by simpa [hr, hc] using h
        obtain ⟨rfl, ht⟩ := child_eq_present.1 hc
        exact ⟨hfits, d, hd, rfl, ht⟩
  · rintro ⟨hfits, d, hd, rfl, ht⟩
    rw [(resolveWith_join hs .entry nofun).2 ⟨hfits, d, hd, rfl⟩, child_eq_present.2 ⟨rfl, ht⟩]

theorem readBytes_join {d : Location} (hd : f.LeadsTo dir d) (hfits : Fits dir s) {k : File}
    (hk : f.tree.node? (d ++ [s]) = some (.file k)) :
    f.readBytes (Path.join dir s) = .ok k.bytes := by
  have hlink : ∀ e, f.LeadsTo dir e → ∀ t, f.tree.node? (e ++ [s]) ≠ some (.link t) := by
    intro e he t
    rw [he.unique hd, hk]
    simp
  rw [readBytes, lookup, resolve_join hs,
    (resolveWith_join hs .behind fun _ ↦ hlink).2 ⟨hfits, d, hd, rfl⟩,
    child_eq_present.2 ⟨rfl, Tree.node?_eq_some_file.1 hk⟩]

theorem readText_join {d : Location} (hd : f.LeadsTo dir d) (hfits : Fits dir s) {text : String}
    (hk : f.tree.node? (d ++ [s]) = some (.file ⟨text.toUTF8, none⟩)) :
    f.readText (Path.join dir s) = .ok text := by
  rw [readText, readBytes_join hs hd hfits hk]
  simp only [bind, Except.bind, Text.ofUtf8?_toUTF8]
  rfl

theorem isLeaf_of_isFile (h : f.isFile (Path.join dir s) = true) : ∃ d, f.IsLeaf dir s d := by
  obtain ⟨l, k, hfile⟩ : ∃ l k, f.resolveWith false .behind (Path.join dir s) =
      .ok (.present l (.file k)) := by
    unfold isFile lookup at h
    rw [resolve_join hs] at h
    split at h
    · next l k hl =>
      split at hl
      · next l' t hr =>
        obtain ⟨rfl, rfl⟩ : l' = l ∧ t = .file k := by simpa using hl
        exact ⟨_, _, hr⟩
      · cases hl
      · cases hl
    · cases h
  have hstart : f.start (Path.join dir s) = f.start dir := by
    rw [start, start, isAbsolute_join dir hs]
  cases hfault : pathFault? (Path.join dir s) with
  | some e => simp [resolveWith, hfault] at hfile
  | none =>
    simp only [resolveWith, hfault, hstart, segments_join dir hs] at hfile
    obtain ⟨d, hd⟩ := leads_of_walk hfile
    obtain ⟨m, hm⟩ := hd.walk_append .behind false (List.cons_ne_nil s [])
    rw [hm] at hfile
    refine ⟨d, ⟨hfault, Nat.not_lt.1 fun hsize ↦ ?_⟩, hd, fun n e he ↦ ?_⟩
    · rw [walk_cons hd.folder, if_neg hs.ne_dot, if_neg hs.ne_dots] at hfile
      simp [hsize] at hfile
    · obtain ⟨es, hes⟩ := he.walk_eq_ok hfile
      cases hes

theorem lookupLink_ne_folder (h : f.isFile (Path.join dir s) = true) (l : Location)
    (es : List (String × Tree)) : f.lookupLink (Path.join dir s) ≠ .ok (l, .folder es) := by
  intro hl
  obtain ⟨d, hleaf⟩ := isLeaf_of_isFile hs h
  obtain ⟨-, e, he, rfl, hes⟩ := (lookupLink_join hs).1 hl
  obtain rfl := he.unique hleaf.leadsTo
  exact hleaf.ne_folder hs (Tree.node?_eq_some_folder.2 ⟨es, hes⟩)

theorem removeFile_join {d : Location} (hd : f.LeadsTo dir d) :
    (¬ Fits dir s ∨ f.tree.node? (d ++ [s]) = some .folder) ∧
        (∃ e, e ≠ .notFound ∧ f.removeFile (Path.join dir s) = .error e) ∨
      Fits dir s ∧
        (f.tree.node? (d ++ [s]) = none ∧ f.removeFile (Path.join dir s) = .error .notFound ∨
          f.tree.node? (d ++ [s]) ≠ some .folder ∧
            ∃ g, f.removeFile (Path.join dir s) = .ok g ∧ Sets f d s none g) := by
  rcases resolveWith_join_cases hs hd .entry nofun with
    ⟨hfits, hr⟩ | ⟨hfits, e, he, hr⟩
  · cases hget : f.tree.get? (d ++ [s]) with
    | none =>
      have hnone := Tree.node?_eq_none.2 hget
      refine .inr ⟨hfits, .inl ⟨hnone, ?_⟩⟩
      simp [removeFile, resolveName, hr, child_eq_absent.2 ⟨rfl, rfl, hnone⟩, bind, Except.bind]
    | some t =>
      have hc := child_eq_present.2 ⟨rfl, hget⟩
      cases t with
      | folder es =>
        refine .inl ⟨.inr (Tree.node?_eq_some_folder.2 ⟨es, hget⟩), .isADirectory, by decide, ?_⟩
        simp [removeFile, resolveName, hr, hc, bind, Except.bind]
      | link t | file k =>
        have hk : f.tree.node? (d ++ [s]) ≠ some .folder := by
          simp [Tree.node?, hget, Tree.node]
        refine .inr ⟨hfits, .inr ⟨hk, f.erase (d ++ [s]), ?_, sets_erase (Leads.folder hd) hk⟩⟩
        simp [removeFile, resolveName, hr, hc, endsInSlash_join dir hs, bind, Except.bind, pure,
          Except.pure]
  · refine .inl ⟨.inl hfits, e, he, ?_⟩
    simp [removeFile, resolveName, hr, bind, Except.bind]

theorem removeFile_join_ok (h : f.removeFile (Path.join dir s) = .ok g) :
    ∃ d, f.LeadsTo dir d ∧ f.tree.node? (d ++ [s]) ≠ some .folder ∧ Sets f d s none g := by
  cases hr : f.resolveWith false .entry (Path.join dir s) with
  | error e => simp [removeFile, resolveName, hr, bind, Except.bind] at h
  | ok target =>
    obtain ⟨-, d, hd, -⟩ := (resolveWith_join hs .entry nofun).1 hr
    obtain ⟨-, e, -, he⟩ | ⟨-, ⟨-, he⟩ | ⟨hfolder, g', hg, hsets⟩⟩ := removeFile_join hs hd
    · cases h.symm.trans he
    · cases h.symm.trans he
    · obtain rfl := Except.ok.inj (hg.symm.trans h)
      exact ⟨d, hd, hfolder, hsets⟩

theorem node?_of_removeFile_join_notFound (h : f.removeFile (Path.join dir s) = .error .notFound)
    {d : Location} (hd : f.LeadsTo dir d) : f.tree.node? (d ++ [s]) = none := by
  obtain ⟨-, e, hne, he⟩ | ⟨-, ⟨hnone, -⟩ | ⟨-, g', hg, -⟩⟩ := removeFile_join hs hd
  · exact absurd (Except.error.inj (he.symm.trans h)) hne
  · exact hnone
  · cases h.symm.trans hg

end Names

theorem endsInDots_join (dir : String) {s : String} (hs : Path.IsName s) :
    endsInDots (Path.join dir s) = false := by
  simp [endsInDots, segments_join dir hs, hs.ne_dot, hs.ne_dots]

theorem fits_of_rename {source dir s : String} (hs : Path.IsName s)
    (h : f.rename source (Path.join dir s) = .ok g) : Fits dir s := by
  cases hr : f.resolveWith false .entry (Path.join dir s) with
  | ok target => exact ((resolveWith_join hs .entry nofun).1 hr).1
  | error e =>
    unfold rename at h
    cases hl : f.lookupLink source <;> simp [hl, resolveName, hr, bind, Except.bind] at h

theorem rename_join {dir dir' s s' : String} (hs : Path.IsName s) (hs' : Path.IsName s')
    {d : Location} (hdir : f.LeadsTo dir d) (hdir' : f.LeadsTo dir' d)
    (hfits : Fits dir s) {k : File} (hk : f.tree.node? (d ++ [s]) = some (.file k)) :
    (¬ Fits dir' s' ∨ f.tree.node? (d ++ [s']) = some .folder) ∧
        (∃ e, f.rename (Path.join dir s) (Path.join dir' s') = .error e) ∨
      f.tree.node? (d ++ [s']) ≠ some .folder ∧
      ∃ g, f.rename (Path.join dir s) (Path.join dir' s') = .ok g ∧ g.cwd = f.cwd ∧
        ∀ l, g.tree.node? l = if l = d ++ [s'] then some (.file k)
          else if l = d ++ [s] then none else f.tree.node? l := by
  have hd := Leads.folder hdir
  have hlookup : f.lookupLink (Path.join dir s) = .ok (d ++ [s], .file k) :=
    (lookupLink_join hs).2 ⟨hfits, d, hdir, rfl, Tree.node?_eq_some_file.1 hk⟩
  have herase := sets_erase hd (by simp [hk] : f.tree.node? (d ++ [s]) ≠ some .folder)
  cases htarget : f.resolveWith false .entry (Path.join dir' s') with
  | error e =>
    refine .inl ⟨.inl fun hfits' ↦ ?_, e, by
      simp [rename, hlookup, resolveName, htarget, bind, Except.bind]⟩
    rw [(resolveWith_join hs' .entry nofun).2 ⟨hfits', d, hdir', rfl⟩] at htarget
    cases htarget
  | ok target =>
    obtain ⟨-, d', hd', rfl⟩ := (resolveWith_join hs' .entry nofun).1 htarget
    obtain rfl := hd'.unique hdir'
    by_cases hfolder : f.tree.node? (d' ++ [s']) = some .folder
    · obtain ⟨es, hes⟩ := Tree.node?_eq_some_folder.1 hfolder
      have hc : f.child d' s' = .present (d' ++ [s']) (.folder es) := child_eq_present.2 ⟨rfl, hes⟩
      exact .inl ⟨.inr hfolder, .isADirectory, by
        simp [rename, hlookup, resolveName, htarget, hc, endsInDots_join dir' hs',
          endsInSlash_join dir' hs', bind, Except.bind]⟩
    · have hput : Sets (f.erase (d' ++ [s])) d' s' (some (.file k))
          ((f.erase (d' ++ [s])).put (d' ++ [s']) (.file k)) :=
        sets_put (Tree.isBare_file k) ((herase.of_ne (by simp)).trans hd) (by
          rw [herase.node]
          split
          · simp
          · exact hfolder)
      refine .inr ⟨hfolder, _, ?_, hput.cwd.trans herase.cwd, fun l ↦ ?_⟩
      · have hc : ∀ l es, f.child d' s' ≠ .present l (.folder es) := by
          intro l es hc
          obtain ⟨-, hes⟩ := child_eq_present.1 hc
          exact hfolder (Tree.node?_eq_some_folder.2 ⟨es, hes⟩)
        simp only [rename, hlookup, resolveName, htarget, endsInDots_join dir' hs',
          endsInSlash_join dir' hs', bind, Except.bind, Bool.false_eq_true, if_false]
        rw [location_child]
        rfl
      · rw [hput.node, herase.node]

end AmbientTypes.Files
