import AmbientTypes.Proofs.Tree.Changes

namespace AmbientTypes.Files

section Walks

variable {tree : Tree} {n : Nat} {l d : Location} {segs : List String} {s : String}

theorem Leads.concat (h : Leads tree n l segs d) (h1 : s ≠ ".") (h2 : s ≠ "..")
    (hsize : utf8Size s ≤ longestName) (hs : tree.node? (d ++ [s]) = some .folder) :
    Leads tree n l (segs ++ [s]) (d ++ [s]) := by
  induction h with
  | done => exact .enter h1 h2 hsize hs (.done hs)
  | dot h _ ih => exact .dot h (ih hs)
  | up h _ ih => exact .up h (ih hs)
  | enter h1' h2' hsize' h _ ih => exact .enter h1' h2' hsize' h (ih hs)
  | follow h1' h2' hsize' h _ ih =>
    rw [List.append_assoc] at ih
    exact .follow h1' h2' hsize' h (ih hs)

theorem leads_of_walk_absent (h : walk tree .entry n l false segs = .ok (.absent d s)) :
    ∃ before, segs = before ++ [s] ∧ Leads tree n l before d ∧ s ≠ "." ∧ s ≠ ".." ∧
      utf8Size s ≤ longestName := by
  rw [walk_eq_ok_iff] at h
  generalize hwanted : false = wanted at h
  generalize htarget : Target.absent d s = target at h
  induction h with
  | here | stop => cases htarget
  | dot hl _ ih =>
    obtain ⟨before, rfl, hd, hs⟩ := ih hwanted htarget
    exact ⟨"." :: before, rfl, .dot hl hd, hs⟩
  | up hl _ ih =>
    obtain ⟨before, rfl, hd, hs⟩ := ih hwanted htarget
    exact ⟨".." :: before, rfl, .up hl hd, hs⟩
  | absent hs hl _ =>
    obtain ⟨rfl, rfl⟩ := Target.absent.inj htarget
    exact ⟨[], rfl, .done hl, hs.ne_dot, hs.ne_dots, hs.size⟩
  | @follow n l wanted r link segs target hr hgo hlink _ ih =>
    -- A link at the end is not followed, so the name stands behind this one.
    subst hwanted
    have hsegs : segs ≠ [] := fun hsegs ↦ by cases hgo hsegs rfl
    obtain ⟨rest, x, rfl⟩ := (List.eq_nil_or_concat' segs).resolve_left hsegs
    rw [if_neg hsegs] at ih
    obtain ⟨before, hbefore, hd, hs⟩ := ih rfl htarget
    rw [← List.append_assoc] at hbefore
    obtain ⟨rfl, hx⟩ := List.append_inj' hbefore rfl
    obtain rfl := List.singleton_inj.1 hx
    exact ⟨r :: rest, rfl, .follow hr.ne_dot hr.ne_dots hr.size hlink hd, hs⟩
  | @enter n l wanted r segs target hr _ _ ih =>
    obtain ⟨before, rfl, hd, hs⟩ := ih hwanted htarget
    exact ⟨r :: before, rfl, .enter hr.ne_dot hr.ne_dots hr.size hd.folder_start hd, hs⟩

end Walks

variable {f g h : Files} {path p : String}

theorem makeFolder_ok (h : f.makeFolder path = .ok g) :
    ∃ d s, f.tree.node? (d ++ [s]) = none ∧ Sets f d s (some .folder) g ∧
      g.LeadsTo path (d ++ [s]) := by
  unfold makeFolder at h
  cases hr : f.resolveName path with
  | error e => simp [hr, bind, Except.bind] at h
  | ok target =>
    cases target with
    | present l t => simp [hr, bind, Except.bind] at h
    | absent d s =>
      obtain ⟨hd, hs⟩ := node?_of_resolveWith_absent hr
      obtain rfl : f.put (d ++ [s]) .empty = g := by
        simpa [hr, bind, Except.bind, pure, Except.pure] using h
      have hfolder : f.tree.node? (d ++ [s]) ≠ some .folder := by simp [hs]
      have hsets := sets_put Tree.isBare_empty hd hfolder
      refine ⟨d, s, hs, hsets, ?_⟩
      rw [resolveName, resolveWith] at hr
      split at hr
      · cases hr
      obtain ⟨before, hsegs, hbefore, h1, h2, hsize⟩ := leads_of_walk_absent hr
      have hgrows := hsets.grows hs
      have hway := hbefore.mono (fun l hl ↦ (hgrows.node_of_ne_none (by simp [hl])).trans hl)
        fun l t hl ↦ (hgrows.node_of_ne_none (by simp [hl])).trans hl
      rw [LeadsTo, hsegs]
      exact hway.concat h1 h2 hsize hsets.self

/-- Folders may be new, each of them one that the path goes through; all else stands where it
stood. -/
structure MakesWay (f : Files) (path : String) (g : Files) : Prop where
  grows : f.Grows g
  onWay : ∀ l, f.tree.node? l = none → g.tree.node? l ≠ none →
    ∃ p, Path.startsWith path p = true ∧ g.LeadsTo p l

namespace MakesWay

theorem of_alike (h : f.Alike g) : f.MakesWay path g :=
  ⟨h.grows, fun l hf hg ↦ absurd ((h.node l).trans hf) hg⟩

theorem refl (f : Files) (path : String) : f.MakesWay path f :=
  .of_alike (.refl f)

theorem trans (hfg : f.MakesWay path g) (hgh : g.MakesWay path h) : f.MakesWay path h := by
  refine ⟨hfg.grows.trans hgh.grows, fun l hf hh ↦ ?_⟩
  by_cases hg : g.tree.node? l = none
  · exact hgh.onWay l hg hh
  · obtain ⟨p, hp, hl⟩ := hfg.onWay l hf hg
    exact ⟨p, hp, hl.grows hgh.grows⟩

theorem of_below (h : f.MakesWay p g) (hp : Path.components p <+: Path.components path) :
    f.MakesWay path g := by
  refine ⟨h.grows, fun l hf hg ↦ ?_⟩
  obtain ⟨q, hq, hl⟩ := h.onWay l hf hg
  rw [Path.startsWith, List.isPrefixOf_iff_prefix] at hq
  exact ⟨q, List.isPrefixOf_iff_prefix.2 (hq.trans hp), hl⟩

theorem of_makeFolder (h : f.makeFolder path = .ok g) : f.MakesWay path g := by
  obtain ⟨d, s, hnone, hsets, hl⟩ := makeFolder_ok h
  refine ⟨hsets.grows hnone, fun l hf hg ↦ ⟨path, ?_, ?_⟩⟩
  · exact List.isPrefixOf_iff_prefix.2 (List.prefix_refl _)
  · obtain rfl : l = d ++ [s] := by
      by_contra hne
      exact hg (by rw [hsets.of_ne hne, hf])
    exact hl

end MakesWay

theorem makesWay_makeFolders (fuel : Nat) (path : String) (f : Files) :
    f.MakesWay path (makeFolders fuel path f).2 := by
  induction fuel generalizing path f with
  | zero => exact .refl f path
  | succ fuel ih =>
    unfold makeFolders
    split
    · exact .refl f path
    split
    · next g h => exact .of_makeFolder h
    · split
      · exact .refl f path
      next p hp =>
      have hbefore : Path.components p <+: Path.components path := by
        rw [Path.components_of_parent? hp]
        exact List.dropLast_prefix _
      have hfirst := (ih p f).of_below hbefore
      split
      · next e g h =>
        rw [h] at hfirst
        exact hfirst
      · next g h =>
        rw [h] at hfirst
        split
        · next k hk => exact hfirst.trans (.of_makeFolder hk)
        · exact hfirst
    · exact .refl f path

end AmbientTypes.Files
