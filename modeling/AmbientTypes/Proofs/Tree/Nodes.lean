import AmbientTypes.Tree.Basic

namespace AmbientTypes

/-- An entry without what lies below it. -/
inductive Node
  | file (f : File)
  | link (target : String)
  | folder

namespace Tree

def node : Tree → Node
  | file f => .file f
  | link s => .link s
  | folder _ => .folder

def node? (t : Tree) (l : Location) : Option Node :=
  (t.get? l).map node

/-- Entries that have nothing below them: files, links and empty folders. -/
def IsBare (t : Tree) : Prop := ∀ n l, t.get? (n :: l) = none

theorem isBare_file (f : File) : (file f).IsBare := fun _ _ ↦ rfl

theorem isBare_empty : empty.IsBare := fun _ _ ↦ rfl

theorem isBare_of_node_ne_folder {t : Tree} (h : t.node ≠ .folder) : t.IsBare := by
  cases t with
  | folder es => exact absurd rfl h
  | file f => exact fun _ _ ↦ rfl
  | link s => exact fun _ _ ↦ rfl

theorem get?_append (t : Tree) (l l' : Location) :
    t.get? (l ++ l') = (t.get? l).bind (·.get? l') := by
  induction l generalizing t with
  | nil => simp [get?]
  | cons n l ih =>
    cases t with
    | folder es =>
      simp only [List.cons_append, get?]
      cases es.lookup n with
      | none => rfl
      | some u => exact ih u
    | file f => rfl
    | link s => rfl

theorem get?_child {t : Tree} {d : Location} {es : List (String × Tree)}
    (h : t.get? d = some (folder es)) (n : String) : t.get? (d ++ [n]) = es.lookup n := by
  rw [get?_append, h, Option.bind_some, get?]
  cases es.lookup n <;> simp [get?]

theorem node?_eq_some_folder {t : Tree} {l : Location} :
    t.node? l = some .folder ↔ ∃ es, t.get? l = some (folder es) := by
  rw [node?]
  cases t.get? l with
  | none => simp
  | some u => cases u <;> simp [node]

theorem node?_eq_some_file {t : Tree} {l : Location} {f : File} :
    t.node? l = some (.file f) ↔ t.get? l = some (file f) := by
  rw [node?]
  cases t.get? l with
  | none => simp
  | some u => cases u <;> simp [node]

theorem node?_eq_some_link {t : Tree} {l : Location} {s : String} :
    t.node? l = some (.link s) ↔ t.get? l = some (link s) := by
  rw [node?]
  cases t.get? l with
  | none => simp
  | some u => cases u <;> simp [node]

theorem node?_eq_none {t : Tree} {l : Location} : t.node? l = none ↔ t.get? l = none := by
  simp [node?]

theorem node?_below {t : Tree} {l : Location} (h : t.node? l ≠ some .folder) (n : String)
    (l' : Location) : t.node? (l ++ n :: l') = none := by
  rw [node?_eq_none, get?_append]
  rw [node?] at h
  cases hu : t.get? l with
  | none => rfl
  | some u =>
    rw [hu] at h
    exact isBare_of_node_ne_folder (fun hn ↦ h (by rw [Option.map_some, hn])) n l'

def altered (f : Option Tree → Option Tree) (l : Location) (t : Tree) : Tree :=
  (alter f l (some t)).getD t

theorem alter_some (f : Option Tree → Option Tree) (d : Location) (n : String) (t : Tree) :
    alter f (d ++ [n]) (some t) = some (altered f (d ++ [n]) t) := by
  cases d <;> cases t <;> rfl

theorem altered_cons (f : Option Tree → Option Tree) (n : String) (l : Location)
    (es : List (String × Tree)) :
    altered f (n :: l) (folder es) = folder (alterEntry n (alter f l) es) := rfl

variable {t : Tree} {d : Location} {es : List (String × Tree)}

theorem get?_altered (f : Option Tree → Option Tree) (h : t.get? d = some (folder es)) (n : String)
    (l : Location) :
    (altered f (d ++ [n]) t).get? (d ++ [n] ++ l) = (f (es.lookup n)).bind (·.get? l) := by
  rw [List.append_assoc, List.singleton_append]
  induction d generalizing t with
  | nil =>
    obtain rfl : t = folder es := by simpa [get?] using h
    rw [List.nil_append, List.nil_append, altered_cons, get?, lookup_alterEntry_self]
    have hleaf : alter f [] (es.lookup n) = f (es.lookup n) := rfl
    rw [hleaf]
    cases f (es.lookup n) <;> rfl
  | cons m d ih =>
    cases t with
    | file f => simp [get?] at h
    | link s => simp [get?] at h
    | folder es' =>
      simp only [get?] at h
      cases hu : es'.lookup m with
      | none => simp [hu] at h
      | some u =>
        rw [hu] at h
        rw [List.cons_append, altered_cons, List.cons_append, get?, lookup_alterEntry_self, hu,
          alter_some]
        exact ih h

theorem node?_altered (f : Option Tree → Option Tree) (h : t.get? d = some (folder es)) (n : String)
    {l : Location} (hl : ¬ d ++ [n] <+: l) : (altered f (d ++ [n]) t).node? l = t.node? l := by
  induction d generalizing t l with
  | nil =>
    obtain rfl : t = folder es := by simpa [get?] using h
    cases l with
    | nil => rfl
    | cons k l =>
      have hk : k ≠ n := by
        rintro rfl
        exact hl ⟨l, rfl⟩
      rw [List.nil_append, altered_cons, node?, node?, get?, get?, lookup_alterEntry _ _ _ _ hk]
  | cons m d ih =>
    cases t with
    | file f => simp [get?] at h
    | link s => simp [get?] at h
    | folder es' =>
      simp only [get?] at h
      cases hu : es'.lookup m with
      | none => simp [hu] at h
      | some u =>
        rw [hu] at h
        rw [List.cons_append, altered_cons]
        cases l with
        | nil => rfl
        | cons k l =>
          by_cases hk : k = m
          · subst hk
            have hl' : ¬ d ++ [n] <+: l := fun hp ↦ hl (by simpa using hp)
            have hsub := ih h hl'
            rw [node?, node?] at hsub ⊢
            rw [get?, get?, lookup_alterEntry_self, hu, alter_some]
            exact hsub
          · rw [node?, node?, get?, get?, lookup_alterEntry _ _ _ _ hk]

/-- An alteration that replaces an entry with nothing below it by another one. -/
theorem node?_altered_bare (f : Option Tree → Option Tree) (hd : t.node? d = some .folder)
    {n : String} (hn : t.node? (d ++ [n]) ≠ some .folder)
    (hf : ∀ u, f (t.get? (d ++ [n])) = some u → u.IsBare) (l : Location) :
    (altered f (d ++ [n]) t).node? l =
      if l = d ++ [n] then (f (t.get? (d ++ [n]))).map node else t.node? l := by
  obtain ⟨es, hes⟩ := node?_eq_some_folder.1 hd
  rw [get?_child hes] at hf ⊢
  by_cases hp : d ++ [n] <+: l
  · obtain ⟨l', rfl⟩ := hp
    have hget := get?_altered f hes n l'
    cases l' with
    | nil =>
      rw [List.append_nil] at hget ⊢
      rw [if_pos rfl, node?, hget]
      cases f (es.lookup n) <;> simp [get?]
    | cons k l' =>
      rw [if_neg (by simp), node?_below hn, node?_eq_none, hget]
      cases hu : f (es.lookup n) with
      | none => rfl
      | some u => exact hf u hu k l'
  · rw [node?_altered f hes n hp, if_neg (by rintro rfl; exact hp (List.prefix_refl _))]

theorem node?_put {e : Tree} (he : e.IsBare) (hd : t.node? d = some .folder) {n : String}
    (hn : t.node? (d ++ [n]) ≠ some .folder) (l : Location) :
    (t.put (d ++ [n]) e).node? l = if l = d ++ [n] then some e.node else t.node? l :=
  node?_altered_bare (fun _ ↦ some e) hd hn (fun u hu ↦ by cases hu; exact he) l

theorem node?_remove (hd : t.node? d = some .folder) {n : String}
    (hn : t.node? (d ++ [n]) ≠ some .folder) (l : Location) :
    (t.remove (d ++ [n])).node? l = if l = d ++ [n] then none else t.node? l :=
  node?_altered_bare (fun _ ↦ none) hd hn (fun u hu ↦ by cases hu) l

theorem node?_parent {n : String} (h : t.node? (d ++ [n]) ≠ none) : t.node? d = some .folder := by
  rcases Classical.em (t.node? d = some .folder) with hd | hd
  · exact hd
  · exact absurd (node?_below hd n []) h

end Tree

end AmbientTypes
