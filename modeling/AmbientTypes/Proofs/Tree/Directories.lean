import AmbientTypes.Proofs.Path.Components
import AmbientTypes.Proofs.Tree.Walks

namespace AmbientTypes.Path

def Component.segment? : Component → Option String
  | root | here => none
  | up => some ".."
  | name s => some s

theorem segment?_segmentComponent (s : List Char) :
    (segmentComponent s).segment? = some (String.ofList s) := by
  unfold segmentComponent
  split
  · next h => rw [h]; rfl
  · rfl

end AmbientTypes.Path

namespace AmbientTypes.Files

open AmbientTypes.Path

theorem moving_segments_eq (path : String) :
    moving (segments path) = (solid (splitSlash path.toList)).map String.ofList := by
  rw [moving, segments, List.filter_map, List.filter_filter, solid]
  congr 1
  apply List.filter_congr
  intro s _
  have hdot : (String.ofList s = ".") ↔ s = ['.'] := by
    rw [← String.toList_inj, String.toList_ofList]
    rfl
  by_cases h1 : s = [] <;> by_cases h2 : s = ['.'] <;> simp [isIdle, h1, h2, hdot]

theorem moving_segments (path : String) :
    moving (segments path) = (components path).filterMap Component.segment? := by
  have hbody (s : List Char) : (bodyComponents s).filterMap Component.segment? =
      (solid (splitSlash s)).map String.ofList := by
    rw [bodyComponents_eq, List.filterMap_map, ← List.filterMap_eq_map]
    congr 1
    funext s
    exact segment?_segmentComponent s
  rw [moving_segments_eq]
  rcases splitHead_cases path.toList with ⟨r, h, hs⟩ | ⟨h, hs⟩ | ⟨r, h, hs⟩ | ⟨-, hs⟩
  · rw [components_of_splitHead hs, List.filterMap_append, hbody, h, splitSlash,
      Text.splitAt_cons_mark]
    rfl
  · rw [components_of_splitHead hs, h]
    rfl
  · rw [components_of_splitHead hs, List.filterMap_append, hbody, h, splitSlash,
      Text.splitAt_cons_mark]
    rw [Text.splitAt_cons_of_ne (by decide) (Text.splitAt_cons_mark r)]
    rfl
  · rw [components_of_splitHead hs, List.filterMap_append, hbody]
    rfl

variable (f : Files)

/-- The folder that a directory is. An empty path is the current directory. -/
def LeadsTo (dir : String) (d : Location) : Prop :=
  Leads f.tree mostLinks (f.start dir) (segments dir) d

def child (d : Location) (s : String) : Target :=
  match f.tree.get? (d ++ [s]) with
  | none => .absent d s
  | some t => .present (d ++ [s]) t

variable {f}

theorem LeadsTo.unique {dir : String} {d d' : Location} (h : f.LeadsTo dir d)
    (h' : f.LeadsTo dir d') : d = d' :=
  Leads.unique h h'

theorem LeadsTo.congr {p q : String} {d : Location} (h : f.LeadsTo p d)
    (hc : components p = components q) : f.LeadsTo q d := by
  have hstart : f.start p = f.start q := by
    have habs : isAbsolute p = isAbsolute q := by
      rw [Bool.eq_iff_iff, isAbsolute_iff, isAbsolute_iff, hc]
    rw [start, start, habs]
  rw [LeadsTo, ← hstart]
  exact Leads.congr h (by rw [moving_segments, moving_segments, hc])

theorem leadsTo_directory_join {dir s : String} {d : Location} (hs : IsName s) :
    f.LeadsTo (directory (join dir s)) d ↔ f.LeadsTo dir d := by
  rcases components_directory_join dir hs with ⟨hdot, hc⟩ | hc
  · have hempty : components dir = components "" := hc
    have hblank : f.LeadsTo "." d ↔ f.LeadsTo "" d :=
      ⟨fun h ↦ Leads.congr h rfl, fun h ↦ Leads.congr h rfl⟩
    rw [hdot, hblank]
    exact ⟨fun h ↦ h.congr hempty.symm, fun h ↦ h.congr hempty⟩
  · exact ⟨fun h ↦ h.congr hc, fun h ↦ h.congr hc.symm⟩

theorem eq_slash_of_segments_eq_nil {path : String} (h : segments path = []) :
    ∀ c ∈ path.toList, c = '/' := by
  have hblank : ∀ p ∈ splitSlash path.toList, p = [] := by
    simpa [segments, List.filter_eq_nil_iff] using h
  generalize path.toList = s at hblank
  induction s with
  | nil => simp
  | cons c s ih =>
    by_cases hc : c = '/'
    · rw [hc, splitSlash, Text.splitAt_cons_mark, List.forall_mem_cons] at hblank
      rw [List.forall_mem_cons]
      exact ⟨hc, ih hblank.2⟩
    · obtain ⟨p, ps, hs⟩ := List.exists_cons_of_ne_nil (Text.splitAt_ne_nil '/' s)
      rw [splitSlash, Text.splitAt_cons_of_ne hc hs, List.forall_mem_cons] at hblank
      cases hblank.1

theorem not_mem_of_mem_segments {path s : String} (h : s ∈ segments path) :
    '/' ∉ s.toList ∧ s ≠ "" := by
  obtain ⟨p, hp, rfl⟩ := List.mem_map.1 h
  obtain ⟨hp, hne⟩ := List.mem_filter.1 hp
  rw [String.toList_ofList]
  refine ⟨Text.not_mem_of_mem_splitAt hp, fun hempty ↦ ?_⟩
  have hp' : p = [] := by simpa using congrArg String.toList hempty
  simp [hp'] at hne

theorem endsInSlash_of_segments_eq_nil {path : String} (h : segments path = []) (hne : path ≠ "") :
    endsInSlash path = true := by
  have hempty : path.toList ≠ [] := by simpa using hne
  rw [endsInSlash, decide_eq_true_iff, List.getLast?_eq_some_getLast hempty]
  exact congrArg some (eq_slash_of_segments_eq_nil h _ (List.getLast_mem _))

theorem segments_join_relative (base : String) {path : String} (hp : isAbsolute path = false) :
    segments (join base path) = segments base ++ segments path := by
  rcases join_of_relative base hp with ⟨hj, rfl | ⟨t, ht⟩⟩ | hj
  · rw [hj, String.empty_append]
    rfl
  · have htext : (join base path).toList = t ++ '/' :: path.toList := by
      rw [hj, String.toList_append, ht]
      simp
    rw [segments, segments, segments, htext, ht, splitSlash, Text.splitAt_append_mark,
      Text.splitAt_append_mark]
    simp [Text.splitAt]
  · have htext : (join base path).toList = base.toList ++ '/' :: path.toList := by rw [hj]; simp
    rw [segments, segments, segments, htext, splitSlash, Text.splitAt_append_mark]
    simp

theorem isAbsolute_join_relative (base : String) {path : String} (hp : isAbsolute path = false) :
    isAbsolute (join base path) = isAbsolute base := by
  by_cases hb : base = ""
  · have hempty : isAbsolute "" = false := rfl
    rw [hb, hempty, join, hp]
    simpa using hp
  · have hne : base.toList ≠ [] := by simpa using hb
    rcases join_of_relative base hp with ⟨hj, -⟩ | hj
    · rw [hj, isAbsolute, isAbsolute, String.toList_append, List.head?_append_of_ne_nil _ hne]
    · rw [hj, isAbsolute, isAbsolute, String.toList_append, String.toList_append,
        List.append_assoc, List.head?_append_of_ne_nil _ hne]

theorem endsInSlash_join_relative (base : String) {path : String} (hp : isAbsolute path = false)
    (hne : path ≠ "") : endsInSlash (join base path) = endsInSlash path := by
  have hempty : path.toList ≠ [] := by simpa using hne
  rcases join_of_relative base hp with ⟨hj, -⟩ | hj <;>
  · rw [hj, endsInSlash, endsInSlash, String.toList_append,
      List.getLast?_append_of_ne_nil _ hempty]

theorem segments_eq_singleton {s : String} (hslash : '/' ∉ s.toList) (hne : s ≠ "") :
    segments s = [s] := by
  have hempty : s.toList ≠ [] := by simpa using hne
  rw [segments, splitSlash, Text.splitAt_eq_singleton hslash]
  simp [hempty]

theorem segments_join (dir : String) {s : String} (hs : IsName s) :
    segments (join dir s) = segments dir ++ [s] := by
  rw [segments_join_relative dir hs.isAbsolute_eq_false,
    segments_eq_singleton hs.no_slash hs.ne_empty]

theorem segments_join_ne_nil (dir : String) {s : String} (hs : IsName s) :
    segments (join dir s) ≠ [] := by
  rw [segments_join dir hs]
  simp

theorem isAbsolute_join (dir : String) {s : String} (hs : IsName s) :
    isAbsolute (join dir s) = isAbsolute dir :=
  isAbsolute_join_relative dir hs.isAbsolute_eq_false

theorem endsInSlash_join (dir : String) {s : String} (hs : IsName s) :
    endsInSlash (join dir s) = false := by
  have hlast : s.toList.getLast? ≠ some '/' := fun h ↦ hs.no_slash (List.mem_of_getLast? h)
  rw [endsInSlash_join_relative dir hs.isAbsolute_eq_false hs.ne_empty, endsInSlash,
    decide_eq_false_iff_not]
  exact hlast

theorem walk_child {d : Location} {s : String} (hd : f.tree.node? d = some .folder) (hs : IsName s)
    (ending : Ending)
    (hlink : ending.follows = true → ∀ t, f.tree.node? (d ++ [s]) ≠ some (.link t)) (n : Nat) :
    walk f.tree ending n d false [s] =
      if longestName < utf8Size s then .error .nameTooLong else .ok (f.child d s) := by
  rw [walk_cons hd, if_neg hs.ne_dot, if_neg hs.ne_dots, Bool.and_false, Bool.false_and,
    if_neg Bool.false_ne_true]
  split
  · rfl
  · cases hget : f.tree.get? (d ++ [s]) with
    | none => simp [Tree.node?, child, hget]
    | some t =>
      rw [child, hget]
      have hnode : f.tree.node? (d ++ [s]) = some t.node := by rw [Tree.node?, hget]; rfl
      rw [hnode]
      cases t with
      | link target =>
        cases hfollows : ending.follows with
        | true => exact absurd hnode (hlink hfollows target)
        | false => rfl
      | file g | folder es => simp [Tree.node, walk_nil, hget]

def Fits (dir s : String) : Prop :=
  pathFault? (join dir s) = none ∧ utf8Size s ≤ longestName

/-- Where a path to a name in a directory leads, when no link is in the way that is followed. -/
theorem resolveWith_join {dir s : String} (hs : IsName s) (ending : Ending)
    (hlink : ending.follows = true →
      ∀ d, f.LeadsTo dir d → ∀ t, f.tree.node? (d ++ [s]) ≠ some (.link t))
    {target : Target} :
    f.resolveWith false ending (join dir s) = .ok target ↔
      Fits dir s ∧ ∃ d, f.LeadsTo dir d ∧ target = f.child d s := by
  have hstart : f.start (join dir s) = f.start dir := by rw [start, start, isAbsolute_join dir hs]
  rw [resolveWith, hstart, segments_join dir hs]
  constructor
  · intro h
    cases hfault : pathFault? (join dir s) with
    | some e => simp [hfault] at h
    | none =>
      simp only [hfault] at h
      obtain ⟨d, hd⟩ := leads_of_walk h
      obtain ⟨m, hm⟩ := hd.walk_append ending false (List.cons_ne_nil s [])
      rw [hm, walk_child hd.folder hs ending fun hf ↦ hlink hf d hd] at h
      split at h
      · cases h
      · next hsize =>
        exact ⟨⟨hfault, Nat.not_lt.1 hsize⟩, d, hd, (Except.ok.inj h).symm⟩
  · rintro ⟨⟨hfault, hsize⟩, d, hd, rfl⟩
    obtain ⟨m, hm⟩ := Leads.walk_append hd ending false (List.cons_ne_nil s [])
    simp only [hfault]
    rw [hm, walk_child (Leads.folder hd) hs ending fun hf ↦ hlink hf d hd,
      if_neg (Nat.not_lt.2 hsize)]

theorem join_ne_empty (dir : String) {s : String} (hs : IsName s) : join dir s ≠ "" := by
  intro hempty
  have hsegs := segments_join dir hs
  rw [hempty] at hsegs
  simp [segments, splitSlash, Text.splitAt] at hsegs

theorem pathFault?_join_ne_notFound (dir : String) {s : String} (hs : IsName s) :
    pathFault? (join dir s) ≠ some .notFound := by
  unfold pathFault?
  rw [if_neg (join_ne_empty dir hs)]
  split
  · simp
  · split <;> simp

theorem resolveWith_join_cases {dir s : String} {d : Location} (hs : IsName s)
    (hd : f.LeadsTo dir d) (ending : Ending)
    (hlink : ending.follows = true → ∀ t, f.tree.node? (d ++ [s]) ≠ some (.link t)) :
    Fits dir s ∧ f.resolveWith false ending (join dir s) = .ok (f.child d s) ∨
      ¬ Fits dir s ∧ ∃ e, e ≠ .notFound ∧ f.resolveWith false ending (join dir s) = .error e := by
  by_cases hfits : Fits dir s
  · refine .inl ⟨hfits, (resolveWith_join hs ending fun hf e he ↦ ?_).2 ⟨hfits, d, hd, rfl⟩⟩
    rw [he.unique hd]
    exact hlink hf
  · refine .inr ⟨hfits, ?_⟩
    cases hfault : pathFault? (join dir s) with
    | some e =>
      refine ⟨e, ?_, by simp [resolveWith, hfault]⟩
      rintro rfl
      exact pathFault?_join_ne_notFound dir hs hfault
    | none =>
      have hsize : longestName < utf8Size s := Nat.not_le.1 fun hle ↦ hfits ⟨hfault, hle⟩
      have hstart : f.start (join dir s) = f.start dir := by
        rw [start, start, isAbsolute_join dir hs]
      obtain ⟨m, hm⟩ := Leads.walk_append hd ending false (List.cons_ne_nil s [])
      refine ⟨.nameTooLong, by decide, ?_⟩
      simp only [resolveWith, hfault]
      rw [hstart, segments_join dir hs, hm, walk_child (Leads.folder hd) hs ending hlink,
        if_pos hsize]

end AmbientTypes.Files
