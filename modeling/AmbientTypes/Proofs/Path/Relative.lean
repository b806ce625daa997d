import AmbientTypes.Proofs.Path.Components

namespace AmbientTypes.Path

variable {base path : String} {c : Component} {cs rest : List Component}

/-- What a path may hold behind its first component. -/
inductive Component.IsStep : Component → Prop
  | up : IsStep .up
  | name {n : String} (hn : IsName n) : IsStep (.name n)

theorem isStep_of_mem_bodyComponents {s : List Char} (hc : c ∈ bodyComponents s) : c.IsStep := by
  obtain ⟨segment, hsegment, rfl⟩ := List.mem_map.1 hc
  obtain ⟨hmem, hsolid⟩ := List.mem_filter.1 hsegment
  have hslash : '/' ∉ segment := Text.not_mem_of_mem_splitAt hmem
  obtain ⟨hempty, hdot⟩ : segment ≠ [] ∧ segment ≠ ['.'] := by simpa [isIdle] using hsolid
  have hne (s : String) (hs : segment ≠ s.toList) : String.ofList segment ≠ s := by
    rintro rfl
    exact hs (String.toList_ofList).symm
  rw [segmentComponent]
  split
  · exact .up
  · next hdots => exact .name ⟨by rwa [String.toList_ofList], hne _ hempty, hne _ hdot, hne _ hdots⟩

namespace Component.IsStep

theorem ne_root (h : c.IsStep) : c ≠ .root := by
  cases h <;> simp

theorem ne_here (h : c.IsStep) : c ≠ .here := by
  cases h <;> simp

theorem isAbsolute_eq_false (h : c.IsStep) : isAbsolute c.text = false := by
  cases h with
  | up => rfl
  | name hn => exact hn.isAbsolute_eq_false

theorem bodyComponents (h : c.IsStep) : bodyComponents c.text.toList = [c] := by
  cases h with
  | up => rfl
  | name hn => exact hn.bodyComponents

theorem components (h : c.IsStep) : components c.text = [c] := by
  cases h with
  | up => rfl
  | @name n hn =>
    have hjoin := components_join_name "" hn
    rwa [join, hn.isAbsolute_eq_false, if_neg (by simp), if_pos (.inl rfl),
      String.empty_append] at hjoin

end Component.IsStep

theorem ne_empty_of_components (h : components path ≠ []) : path ≠ "" := by
  rintro rfl
  exact h rfl

section Joining

variable (hcs : ∀ c ∈ cs, c.IsStep)
include hcs

theorem components_foldl_join (hbase : components base ≠ []) :
    components (cs.foldl (fun p c ↦ join p c.text) base) = components base ++ cs := by
  induction cs generalizing base with
  | nil => simp
  | cons c cs ih =>
    rw [List.forall_mem_cons] at hcs
    have hjoin := components_join (ne_empty_of_components hbase) hcs.1.isAbsolute_eq_false
    rw [hcs.1.bodyComponents] at hjoin
    rw [List.foldl_cons, ih hcs.2 (by simp [hjoin]), hjoin, List.append_assoc,
      List.singleton_append]

theorem components_ofComponents : components (ofComponents cs) = cs := by
  cases cs with
  | nil => rfl
  | cons c cs =>
    rw [List.forall_mem_cons] at hcs
    have hfirst : join "" c.text = c.text := by simp [join, hcs.1.isAbsolute_eq_false]
    rw [ofComponents, List.foldl_cons, hfirst,
      components_foldl_join hcs.2 (by simp [hcs.1.components]), hcs.1.components,
      List.singleton_append]

theorem isAbsolute_ofComponents : isAbsolute (ofComponents cs) = false := by
  rw [Bool.eq_false_iff, ne_eq, isAbsolute_iff, components_ofComponents hcs]
  intro h
  exact (hcs _ (List.mem_of_mem_head? h)).ne_root rfl

theorem components_join_ofComponents (hbase : base ≠ "") :
    components (join base (ofComponents cs)) = components base ++ cs := by
  have hhere : (components (ofComponents cs)).filter (· ≠ .here) = cs := by
    rw [components_ofComponents hcs]
    exact List.filter_eq_self.2 fun c hc ↦ decide_eq_true (hcs c hc).ne_here
  rw [components_join hbase (isAbsolute_ofComponents hcs),
    ← components_without_here (isAbsolute_ofComponents hcs), hhere]

end Joining

theorem components_of_isAbsolute (h : isAbsolute path = true) :
    ∃ cs, components path = .root :: cs ∧ ∀ c ∈ cs, c.IsStep := by
  obtain ⟨r, hr⟩ := List.head?_eq_some_iff.1 (of_decide_eq_true h)
  have hs : splitHead path.toList = (['/'], r) := by rw [hr]; rfl
  exact ⟨bodyComponents r, components_of_splitHead hs, fun c hc ↦ isStep_of_mem_bodyComponents hc⟩

theorem difference_append (cs rest : List Component) :
    difference [] cs (cs ++ rest) = some rest := by
  induction cs with
  | nil => simp [difference]
  | cons c cs ih => simpa [difference] using ih

/-- Two absolute paths of which the second one goes on where the first one ends. -/
structure IsBelow (base path : String) (rest : List Component) : Prop where
  components_eq : components path = components base ++ rest
  isStep : ∀ c ∈ rest, c.IsStep

theorem shown_of_not_below (h : ¬ components base <+: components path) :
    shown base path = path := by
  rw [shown, if_neg]
  rwa [startsWith, List.isPrefixOf_iff_prefix]

section Showing

variable (hbase : isAbsolute base = true) (hpath : isAbsolute path = true)
include hbase hpath

theorem isBelow_of_prefix (h : components base <+: components path) :
    ∃ rest, IsBelow base path rest := by
  obtain ⟨rest, hrest⟩ := h
  obtain ⟨cs, hcs, -⟩ := components_of_isAbsolute hbase
  obtain ⟨ds, hds, hsteps⟩ := components_of_isAbsolute hpath
  rw [hcs, hds, List.cons_append, List.cons.injEq] at hrest
  exact ⟨rest, by rw [hds, hcs, ← hrest.2, List.cons_append],
    fun c hc ↦ hsteps c (hrest.2 ▸ List.mem_append_right cs hc)⟩

theorem shown_of_isBelow (h : IsBelow base path rest) : shown base path = ofComponents rest := by
  have hprefix : startsWith path base = true := by
    rw [startsWith, List.isPrefixOf_iff_prefix, h.components_eq]
    exact List.prefix_append _ _
  rw [shown, if_pos hprefix, relative, hpath, hbase, h.components_eq, difference_append]
  rfl

/-- What is shown leads back from the same directory, and is relative just where the path lies at or
below it. -/
theorem anchor_shown : components (anchor base (shown base path)) = components path ∧
    (isAbsolute (shown base path) = false ↔ components base <+: components path) := by
  by_cases h : components base <+: components path
  · obtain ⟨rest, hrest⟩ := isBelow_of_prefix hbase hpath h
    have hrelative := isAbsolute_ofComponents hrest.isStep
    have hne : base ≠ "" := by
      rintro rfl
      cases hbase
    rw [shown_of_isBelow hbase hpath hrest, anchor, hrelative, if_neg Bool.false_ne_true,
      components_join_ofComponents hrest.isStep hne, hrest.components_eq]
    exact ⟨rfl, fun _ ↦ List.prefix_append _ _, fun _ ↦ rfl⟩
  · rw [shown_of_not_below h, anchor, if_pos hpath, hpath]
    exact ⟨rfl, nofun, fun hprefix ↦ absurd hprefix h⟩

end Showing

end AmbientTypes.Path
