import AmbientTypes.Path
import AmbientTypes.Proofs.Text.Split
import Mathlib.Data.List.DropRight

namespace AmbientTypes.Path

structure IsName (s : String) : Prop where
  no_slash : '/' ∉ s.toList
  ne_empty : s ≠ ""
  ne_dot : s ≠ "."
  ne_dots : s ≠ ".."

instance (s : String) : Decidable (IsName s) :=
  decidable_of_iff ('/' ∉ s.toList ∧ s ≠ "" ∧ s ≠ "." ∧ s ≠ "..")
    ⟨fun ⟨hslash, hempty, hdot, hdots⟩ ↦ ⟨hslash, hempty, hdot, hdots⟩,
      fun ⟨hslash, hempty, hdot, hdots⟩ ↦ ⟨hslash, hempty, hdot, hdots⟩⟩

/-- The segments that carry meaning. -/
def solid (segments : List (List Char)) : List (List Char) :=
  segments.filter (!isIdle ·)

theorem solid_append (xs ys : List (List Char)) : solid (xs ++ ys) = solid xs ++ solid ys :=
  List.filter_append ..

theorem dropIdle_eq_rdropWhile (xs : List (List Char)) : dropIdle xs = xs.rdropWhile isIdle := rfl

theorem solid_dropIdle (xs : List (List Char)) : solid (dropIdle xs) = solid xs := by
  have hx : dropIdle xs ++ xs.rtakeWhile isIdle = xs := List.rdropWhile_append_rtakeWhile
  have hidle : solid (xs.rtakeWhile isIdle) = [] := by
    rw [solid, List.filter_eq_nil_iff]
    intro x hx
    simp [List.mem_rtakeWhile_imp hx]
  conv_rhs => rw [← hx, solid_append, hidle, List.append_nil]

theorem solid_dropLast_dropIdle (xs : List (List Char)) :
    solid (dropIdle xs).dropLast = (solid xs).dropLast := by
  rw [← solid_dropIdle xs]
  rcases List.eq_nil_or_concat (dropIdle xs) with h | ⟨ys, y, h⟩
  · rw [h]; rfl
  · have hy : isIdle y = false := by
      have hlast := List.rdropWhile_last_not isIdle xs (by rw [← dropIdle_eq_rdropWhile, h]; simp)
      simp only [← dropIdle_eq_rdropWhile, h] at hlast
      simpa using hlast
    rw [h, List.concat_eq_append, solid_append]
    simp [solid, hy]

theorem bodyComponents_eq (s : List Char) :
    bodyComponents s = (solid (splitSlash s)).map segmentComponent := rfl

theorem components_of_splitHead {path : String} {head body : List Char}
    (h : splitHead path.toList = (head, body)) :
    components path = headComponents head ++ bodyComponents body := by
  rw [components, h]

def IsPlain (s : List Char) : Prop :=
  s.head? ≠ some '/' ∧ (splitSlash s).head? ≠ some ['.']

theorem splitHead_of_isPlain {s : List Char} (h : IsPlain s) : splitHead s = ([], s) := by
  obtain ⟨hslash, hdot⟩ := h
  unfold splitHead
  split
  · simp at hslash
  · simp [splitSlash, Text.splitAt] at hdot
  · simp [splitSlash, Text.splitAt] at hdot
  · rfl

theorem splitHead_cases (s : List Char) :
    (∃ r, s = '/' :: r ∧ splitHead s = (['/'], r)) ∨ (s = ['.'] ∧ splitHead s = (['.'], [])) ∨
      (∃ r, s = '.' :: '/' :: r ∧ splitHead s = (['.'], '/' :: r)) ∨
      IsPlain s ∧ splitHead s = ([], s) := by
  by_cases h : IsPlain s
  · exact .inr (.inr (.inr ⟨h, splitHead_of_isPlain h⟩))
  · rw [IsPlain, not_and_or, not_not, not_not] at h
    rcases h with h | h
    · obtain ⟨r, rfl⟩ : ∃ r, s = '/' :: r := by
        cases s with
        | nil => simp at h
        | cons c r => exact ⟨r, by simpa using h⟩
      exact .inl ⟨r, rfl, rfl⟩
    · cases s with
      | nil => simp [splitSlash, Text.splitAt] at h
      | cons c r =>
        by_cases hc : c = '/'
        · exact .inl ⟨r, by rw [hc], by rw [hc]; rfl⟩
        · obtain ⟨p, ps, hr⟩ := List.exists_cons_of_ne_nil (Text.splitAt_ne_nil '/' r)
          rw [splitSlash, Text.splitAt_cons_of_ne hc hr] at h
          obtain ⟨rfl, rfl⟩ : c = '.' ∧ p = [] := by simpa using h
          cases r with
          | nil => exact .inr (.inl ⟨rfl, rfl⟩)
          | cons c r =>
            by_cases hc : c = '/'
            · subst hc
              exact .inr (.inr (.inl ⟨r, rfl, rfl⟩))
            · obtain ⟨q, qs, hs⟩ := List.exists_cons_of_ne_nil (Text.splitAt_ne_nil '/' r)
              rw [Text.splitAt_cons_of_ne hc hs] at hr
              simp at hr

theorem components_ofList {head body : List Char}
    (h : splitHead (head ++ body) = (head, body)) :
    components (String.ofList (head ++ body)) = headComponents head ++ bodyComponents body :=
  components_of_splitHead (by rw [String.toList_ofList, h])

theorem bodyComponents_joinSlash {xs : List (List Char)} (h : ∀ x ∈ xs, '/' ∉ x) :
    bodyComponents (joinSlash xs) = (solid xs).map segmentComponent := by
  cases xs with
  | nil => rfl
  | cons x xs => rw [bodyComponents_eq, splitSlash, Text.splitAt_joinWith (by simp) h]

theorem head?_splitSlash_eq_nil {s : List Char} :
    (splitSlash s).head? = some [] ↔ s = [] ∨ s.head? = some '/' := by
  cases s with
  | nil => simp [splitSlash, Text.splitAt]
  | cons c s =>
    by_cases hc : c = '/'
    · simp [hc, splitSlash, Text.splitAt]
    · obtain ⟨p, ps, hs⟩ := List.exists_cons_of_ne_nil (Text.splitAt_ne_nil '/' s)
      simp [splitSlash, Text.splitAt_cons_of_ne hc hs, hc]

/-- The first segments of a plain text are plain, unless that is an empty one alone. -/
theorem IsPlain.joinSlash {s : List Char} (h : IsPlain s) {xs : List (List Char)}
    (hx : xs <+: splitSlash s) (hne : xs ≠ [[]]) : IsPlain (Path.joinSlash xs) := by
  cases xs with
  | nil => exact ⟨by decide, by decide⟩
  | cons x xs =>
    obtain ⟨ys, hys⟩ := hx
    have hhead : (splitSlash s).head? = some x := by rw [← hys]; rfl
    have hsplit : splitSlash (Path.joinSlash (x :: xs)) = x :: xs :=
      Text.splitAt_joinWith (by simp) fun y hy ↦
        Text.not_mem_of_mem_splitAt (hys ▸ List.mem_append_left ys hy)
    refine ⟨fun hslash ↦ ?_, ?_⟩
    · have hxnil : x = [] := by
        have := head?_splitSlash_eq_nil.2 (.inr hslash)
        rw [hsplit] at this
        simpa using this
      rcases head?_splitSlash_eq_nil.1 (hxnil ▸ hhead) with rfl | hb
      · refine hne ?_
        rw [hxnil] at hys ⊢
        rw [(show xs = [] ∧ ys = [] by simpa [splitSlash, Text.splitAt] using hys).1]
      · exact h.1 hb
    · rw [hsplit]
      exact fun hdot ↦ h.2 (hhead.trans hdot)

theorem splitHead_append_joinSlash {s head body : List Char} (h : splitHead s = (head, body))
    {xs : List (List Char)} (hx : xs <+: splitSlash body) (hd : dropIdle xs = xs) :
    splitHead (head ++ joinSlash xs) = (head, joinSlash xs) := by
  have hidle : xs ≠ [[]] := by
    rintro rfl
    exact absurd hd (by decide)
  rcases splitHead_cases s with ⟨r, rfl, hs⟩ | ⟨rfl, hs⟩ | ⟨r, rfl, hs⟩ | ⟨hp, hs⟩
  · obtain ⟨rfl, rfl⟩ : head = ['/'] ∧ body = r := by simpa [hs, eq_comm] using h
    rfl
  · obtain ⟨rfl, rfl⟩ : head = ['.'] ∧ body = [] := by simpa [hs, eq_comm] using h
    cases xs with
    | nil => rfl
    | cons x xs =>
      obtain ⟨rfl, rfl⟩ : x = [] ∧ xs = [] := by simpa [splitSlash, Text.splitAt] using hx
      exact absurd rfl hidle
  · obtain ⟨rfl, rfl⟩ : head = ['.'] ∧ body = '/' :: r := by simpa [hs, eq_comm] using h
    cases xs with
    | nil => rfl
    | cons x xs =>
      rw [splitSlash, Text.splitAt_cons_mark, List.cons_prefix_cons] at hx
      obtain ⟨rfl, -⟩ := hx
      cases xs with
      | nil => exact absurd rfl hidle
      | cons y ys => rfl
  · obtain ⟨rfl, rfl⟩ : head = [] ∧ body = s := by simpa [hs, eq_comm] using h
    rw [List.nil_append]
    exact splitHead_of_isPlain (hp.joinSlash hx hidle)

theorem dropIdle_dropIdle (xs : List (List Char)) : dropIdle (dropIdle xs) = dropIdle xs :=
  List.rdropWhile_idempotent isIdle xs

theorem prefix_dropIdle (xs : List (List Char)) : dropIdle xs <+: xs :=
  List.rdropWhile_prefix isIdle xs

theorem append_of_splitHead {s head body : List Char} (h : splitHead s = (head, body)) :
    head ++ body = s := by
  rcases splitHead_cases s with ⟨r, rfl, hs⟩ | ⟨rfl, hs⟩ | ⟨r, rfl, hs⟩ | ⟨-, hs⟩ <;>
  · obtain ⟨rfl, rfl⟩ := Prod.mk.inj (hs.symm.trans h)
    rfl

theorem prefix_of_parent? {path q : String} (h : parent? path = some q) :
    q.toList <+: path.toList := by
  obtain ⟨head, body, hs⟩ : ∃ head body, splitHead path.toList = (head, body) := ⟨_, _, rfl⟩
  simp only [parent?, hs] at h
  rw [← append_of_splitHead hs]
  split at h
  · split at h
    · rw [← Option.some.inj h]
      exact List.nil_prefix
    · cases h
  · next x xs hd =>
    rw [← Option.some.inj h, String.toList_ofList, ← hd]
    have hpre : dropIdle (dropIdle (splitSlash body)).dropLast <+: splitSlash body :=
      (prefix_dropIdle _).trans ((List.dropLast_prefix _).trans (prefix_dropIdle _))
    have hbody : joinSlash (dropIdle (dropIdle (splitSlash body)).dropLast) <+:
        joinSlash (splitSlash body) := Text.prefix_joinWith hpre
    rw [joinSlash, Text.joinWith_splitAt] at hbody
    exact (List.prefix_append_right_inj head).2 hbody

theorem components_of_parent? {path q : String} (h : parent? path = some q) :
    components q = (components path).dropLast := by
  obtain ⟨head, body, hs⟩ : ∃ head body, splitHead path.toList = (head, body) := ⟨_, _, rfl⟩
  simp only [parent?, hs] at h
  rw [components_of_splitHead hs, bodyComponents_eq]
  cases hd : dropIdle (splitSlash body) with
  | nil =>
    have hsolid : solid (splitSlash body) = [] := by rw [← solid_dropIdle, hd]; rfl
    simp only [hd] at h
    by_cases hh : head = ['.']
    · rw [if_pos hh] at h
      rw [hsolid, hh, ← Option.some.inj h]
      rfl
    · rw [if_neg hh] at h
      cases h
  | cons x xs =>
    simp only [hd, Option.some.injEq] at h
    rw [← h, ← hd]
    have hpre : dropIdle (dropIdle (splitSlash body)).dropLast <+: splitSlash body :=
      (prefix_dropIdle _).trans ((List.dropLast_prefix _).trans (prefix_dropIdle _))
    have hslash : ∀ y ∈ dropIdle (dropIdle (splitSlash body)).dropLast, '/' ∉ y := fun y hy ↦
      Text.not_mem_of_mem_splitAt (hpre.subset hy)
    have hne : solid (splitSlash body) ≠ [] := by
      intro hnil
      have hall : ∀ y ∈ splitSlash body, isIdle y = true := by
        simpa [solid, List.filter_eq_nil_iff] using hnil
      have := List.rdropWhile_eq_nil_iff.2 hall
      rw [← dropIdle_eq_rdropWhile, hd] at this
      cases this
    rw [components_ofList (splitHead_append_joinSlash hs hpre (dropIdle_dropIdle _)),
      bodyComponents_joinSlash hslash, solid_dropIdle, solid_dropLast_dropIdle,
      List.dropLast_append_of_ne_nil (by simpa using hne), List.map_dropLast]

theorem splitHead_append_slash {s head body : List Char} (hne : s ≠ [])
    (h : splitHead s = (head, body)) (t : List Char) :
    splitHead (s ++ '/' :: t) = (head, body ++ '/' :: t) := by
  rcases splitHead_cases s with ⟨r, rfl, hs⟩ | ⟨rfl, hs⟩ | ⟨r, rfl, hs⟩ | ⟨⟨hslash, hdot⟩, hs⟩
  · obtain ⟨rfl, rfl⟩ : head = ['/'] ∧ body = r := by simpa [hs, eq_comm] using h
    rfl
  · obtain ⟨rfl, rfl⟩ : head = ['.'] ∧ body = [] := by simpa [hs, eq_comm] using h
    rfl
  · obtain ⟨rfl, rfl⟩ : head = ['.'] ∧ body = '/' :: r := by simpa [hs, eq_comm] using h
    rfl
  · obtain ⟨rfl, rfl⟩ : head = [] ∧ body = s := by simpa [hs, eq_comm] using h
    apply splitHead_of_isPlain
    obtain ⟨c, r, rfl⟩ := List.exists_cons_of_ne_nil hne
    obtain ⟨p, ps, hsplit⟩ := List.exists_cons_of_ne_nil (Text.splitAt_ne_nil '/' (c :: r))
    refine ⟨by simpa using hslash, ?_⟩
    rw [splitSlash, hsplit] at hdot
    rw [splitSlash, Text.splitAt_append_mark, hsplit]
    simpa using hdot

theorem components_append_slash {s : List Char} (hne : s ≠ []) (t : List Char) :
    components (String.ofList (s ++ '/' :: t)) =
      components (String.ofList s) ++ bodyComponents t := by
  obtain ⟨head, body, hs⟩ : ∃ head body, splitHead s = (head, body) := ⟨_, _, rfl⟩
  have ht := splitHead_append_slash hne hs t
  rw [components_of_splitHead (by rw [String.toList_ofList, ht]),
    components_of_splitHead (by rw [String.toList_ofList, hs]), bodyComponents_eq,
    bodyComponents_eq, bodyComponents_eq, splitSlash, Text.splitAt_append_mark, solid_append,
    List.map_append, List.append_assoc]

theorem components_slash_cons (t : List Char) :
    components (String.ofList ('/' :: t)) = .root :: bodyComponents t := by
  have h : splitHead (String.ofList ('/' :: t)).toList = (['/'], t) := by
    rw [String.toList_ofList]
    rfl
  rw [components_of_splitHead h]
  rfl

theorem join_of_relative (base : String) {path : String} (hp : isAbsolute path = false) :
    join base path = base ++ path ∧ (base = "" ∨ ∃ s, base.toList = s ++ ['/']) ∨
      join base path = base ++ "/" ++ path := by
  rw [join, hp, if_neg Bool.false_ne_true]
  by_cases hb : base = "" ∨ base.toList.getLast? = some '/'
  · rw [if_pos hb]
    refine .inl ⟨rfl, hb.imp_right fun h ↦ ?_⟩
    obtain ⟨s, hs⟩ := List.getLast?_eq_some_iff.1 h
    exact ⟨s, hs⟩
  · rw [if_neg hb]
    exact .inr rfl

theorem components_join {base path : String} (hb : base ≠ "") (hp : isAbsolute path = false) :
    components (join base path) = components base ++ bodyComponents path.toList := by
  have hbase : base.toList ≠ [] := by simpa using hb
  rcases join_of_relative base hp with ⟨hj, h | ⟨s, hs⟩⟩ | hj
  · exact absurd h hb
  · have htext : join base path = String.ofList (s ++ '/' :: path.toList) := by
      rw [hj, ← String.toList_inj]
      simp [hs]
    have hbtext : base = String.ofList (s ++ ['/']) := by
      rw [← String.toList_inj]
      simp [hs]
    rw [htext, hbtext]
    by_cases hnil : s = []
    · rw [hnil, List.nil_append, List.nil_append, components_slash_cons, components_slash_cons]
      rfl
    · rw [components_append_slash hnil, components_append_slash hnil]
      simp [bodyComponents, splitSlash, Text.splitAt, isIdle]
  · have htext : join base path = String.ofList (base.toList ++ '/' :: path.toList) := by
      rw [hj, ← String.toList_inj]
      simp
    rw [htext, components_append_slash hbase, String.ofList_toList]

theorem IsName.isAbsolute_eq_false {n : String} (hn : IsName n) : isAbsolute n = false := by
  rw [isAbsolute, decide_eq_false_iff_not]
  exact fun h ↦ hn.no_slash (List.mem_of_mem_head? h)

theorem IsName.bodyComponents {n : String} (hn : IsName n) :
    bodyComponents n.toList = [.name n] := by
  have hempty : n.toList ≠ [] := by simpa using hn.ne_empty
  have hdot : n.toList ≠ ['.'] := fun h ↦ hn.ne_dot (String.toList_inj.1 h)
  have hdots : n.toList ≠ ['.', '.'] := fun h ↦ hn.ne_dots (String.toList_inj.1 h)
  rw [bodyComponents_eq, splitSlash, Text.splitAt_eq_singleton hn.no_slash]
  simp [solid, isIdle, hempty, hdot, segmentComponent, hdots]

theorem components_join_name (base : String) {n : String} (hn : IsName n) :
    components (join base n) = components base ++ [.name n] := by
  by_cases hb : base = ""
  · have hplain : IsPlain n.toList := by
      refine ⟨fun h ↦ hn.no_slash (List.mem_of_mem_head? h), ?_⟩
      rw [splitSlash, Text.splitAt_eq_singleton hn.no_slash]
      simpa using fun h ↦ hn.ne_dot (String.toList_inj.1 h)
    have hj : join base n = n := by simp [join, hb, hn.isAbsolute_eq_false]
    rw [hj, components_of_splitHead (splitHead_of_isPlain hplain), hn.bodyComponents, hb]
    rfl
  · rw [components_join hb hn.isAbsolute_eq_false, hn.bodyComponents]

theorem isAbsolute_iff {path : String} :
    isAbsolute path = true ↔ (components path).head? = some .root := by
  have hbody (s : List Char) : (bodyComponents s).head? ≠ some .root := by
    rw [bodyComponents_eq]
    intro h
    obtain ⟨c, -, hc⟩ := List.mem_map.1 (List.mem_of_mem_head? h)
    unfold segmentComponent at hc
    split at hc <;> cases hc
  rw [isAbsolute, decide_eq_true_iff]
  rcases splitHead_cases path.toList with ⟨r, h, hs⟩ | ⟨h, hs⟩ | ⟨r, h, hs⟩ | ⟨hp, hs⟩
  · simp [h, components_of_splitHead hs, headComponents]
  · simp [h, components_of_splitHead hs, headComponents]
  · simp [h, components_of_splitHead hs, headComponents]
  · simp [components_of_splitHead hs, headComponents, hbody, hp.1]

theorem parent?_of_components {path : String} {cs : List Component} {n : String}
    (h : components path = cs ++ [.name n]) : ∃ q, parent? path = some q := by
  obtain ⟨head, body, hs⟩ : ∃ head body, splitHead path.toList = (head, body) := ⟨_, _, rfl⟩
  simp only [parent?, hs]
  cases hd : dropIdle (splitSlash body) with
  | cons x xs => exact ⟨_, rfl⟩
  | nil =>
    have hsolid : solid (splitSlash body) = [] := by rw [← solid_dropIdle, hd]; rfl
    rw [components_of_splitHead hs, bodyComponents_eq, hsolid, List.map_nil, List.append_nil] at h
    unfold headComponents at h
    split at h
    · simpa using congrArg List.getLast? h
    · exact ⟨"", by simp⟩
    · simp at h

/-- The directory of a named file has the components of where the name was put. -/
theorem components_directory_join (base : String) {n : String} (hn : IsName n) :
    directory (join base n) = "." ∧ components base = [] ∨
      components (directory (join base n)) = components base := by
  have hc := components_join_name base hn
  obtain ⟨q, hq⟩ := parent?_of_components hc
  have hcq := components_of_parent? hq
  rw [hc, List.dropLast_concat] at hcq
  rw [directory, hq]
  by_cases hempty : q = ""
  · refine .inl ⟨by simp [hempty], ?_⟩
    rw [← hcq, hempty]
    rfl
  · refine .inr ?_
    simpa [hempty] using hcq

theorem ne_here_of_mem_bodyComponents {s : List Char} {c : Component}
    (hc : c ∈ bodyComponents s) : c ≠ .here := by
  obtain ⟨segment, -, rfl⟩ := List.mem_map.1 hc
  rw [segmentComponent]
  split
  · simp
  · simp

theorem bodyComponents_slash (s : List Char) : bodyComponents ('/' :: s) = bodyComponents s := by
  simp [bodyComponents, splitSlash, Text.splitAt, isIdle]

theorem bodyComponents_dotSlash (s : List Char) :
    bodyComponents ('.' :: '/' :: s) = bodyComponents s := by
  simp [bodyComponents, splitSlash, Text.splitAt, isIdle]

/-- A relative path is made of what lies between its slashes. -/
theorem components_without_here {path : String} (hp : isAbsolute path = false) :
    (components path).filter (· ≠ .here) = bodyComponents path.toList := by
  have hbody (s : List Char) :
      (bodyComponents s).filter (· ≠ .here) = bodyComponents s :=
    List.filter_eq_self.2 fun c hc ↦ decide_eq_true (ne_here_of_mem_bodyComponents hc)
  rcases splitHead_cases path.toList with ⟨r, h, -⟩ | ⟨h, hs⟩ | ⟨r, h, hs⟩ | ⟨-, hs⟩
  · simp [isAbsolute, h] at hp
  · rw [components_of_splitHead hs, h]
    rfl
  · rw [components_of_splitHead hs, List.filter_append, hbody, h, bodyComponents_slash,
      bodyComponents_dotSlash]
    rfl
  · rw [components_of_splitHead hs]
    exact hbody _

end AmbientTypes.Path
