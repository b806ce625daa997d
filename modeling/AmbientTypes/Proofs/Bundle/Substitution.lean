import AmbientTypes.Proofs.Bundle.Segments

namespace AmbientTypes

theorem Segments.text_eq_iff {s : Segments} {text : String} : s.text = text ↔
    s.code.toList ++ s.literals.flatMap Literal.text = text.toList := by
  rw [Segments.text, ← String.toList_inj, String.toList_ofList]

namespace Renaming

variable {r : Renaming} {before : Option Char} {c : Char} {s : List Char}
  {m : Text.Match (List Char)} {id : String}

theorem le_longer (best : Option (List Char)) (x : List Char) : ∃ y, longer best x = some y ∧
    x.length ≤ y.length ∧ ∀ b, best = some b → b.length ≤ y.length := by
  unfold longer
  split
  · exact ⟨x, rfl, Nat.le_refl _, nofun⟩
  · next b =>
    split
    · next hlt => exact ⟨x, rfl, Nat.le_refl _, fun _ hb ↦ Option.some.inj hb ▸ hlt.le⟩
    · next hnot =>
      exact ⟨b, rfl, Nat.not_lt.1 hnot, fun _ hb ↦ Option.some.inj hb ▸ Nat.le_refl _⟩

theorem le_foldl_longer {l : List (List Char)} {best : Option (List Char)} {x y : List Char}
    (h : l.foldl longer best = some x) (hy : best = some y ∨ y ∈ l) : y.length ≤ x.length := by
  induction l generalizing best y with
  | nil =>
    obtain rfl : best = some x := h
    have hbest := hy.resolve_right (by simp)
    exact Option.some.inj hbest ▸ Nat.le_refl _
  | cons z l ih =>
    rw [List.foldl_cons] at h
    obtain ⟨w, hw, hz, hbest⟩ := le_longer best z
    have hwx : w.length ≤ x.length := ih h (.inl hw)
    rcases hy with hy | hy
    · exact (hbest y hy).trans hwx
    · rcases List.mem_cons.1 hy with rfl | hy
      · exact hz.trans hwx
      · exact ih h (.inr hy)

theorem length_le_longestFit {ids : List String} {x y : List Char}
    (h : longestFit ids c s = some x) (hy : y ∈ ids.map String.toList) (hfit : y ++ [c] <+: s) :
    y.length ≤ x.length := by
  refine le_foldl_longer h (.inr ?_)
  rw [List.mem_filter]
  exact ⟨hy, by simpa using hfit⟩

def Opens (r : Renaming) (id : String) (s : List Char) : Prop :=
  (r.get? id).isSome ∧ ∃ mark, IsQuote mark ∧ mark :: (id.toList ++ [mark]) <+: s

theorem find_eq_none_iff : r.find before s = none ↔ ∀ id, ¬ r.Opens id s := by
  constructor
  · rintro h id ⟨hid, mark, hmark, t, rfl⟩
    obtain ⟨pub, hpub⟩ := Option.isSome_iff_exists.1 hid
    have hkey := mem_keys_iff.2 ⟨pub, maps_toList.2 hpub⟩
    have hfit : id.toList ++ [mark] <+: id.toList ++ [mark] ++ t := List.prefix_append _ _
    obtain ⟨x, hx⟩ := Option.isSome_iff_exists.1 (longestFit_isSome hkey hfit)
    have hquote : mark = '"' ∨ mark = '\'' := hmark
    rw [List.cons_append, find, if_pos hquote, hx] at h
    cases h
  · intro h
    rw [Option.eq_none_iff_forall_ne_some]
    intro m hm
    obtain ⟨mark, id, pub, hmark, hid, rfl, -⟩ := find_eq_some hm
    refine h (String.ofList id) ⟨Option.isSome_iff_exists.2 ⟨pub, hid⟩, mark, hmark, m.rest, ?_⟩
    simp

/-- What is found is the longest literal that starts there. -/
theorem find_longest (hm : r.find before s = some m) : ∃ mark id, IsQuote mark ∧
    (r.get? id).isSome ∧ s = mark :: (id.toList ++ mark :: m.rest) ∧
    m.taken = mark :: (id.toList ++ [mark]) ∧
    m.value = mark :: ((r.shown id).toList ++ [mark]) ∧
    ∀ id', r.Opens id' s → id'.length ≤ id.length := by
  obtain ⟨mark, id, pub, hmark, hid, hs, htaken, hvalue⟩ := find_eq_some hm
  have hget : r.get? (String.ofList id) = some pub := hid
  refine ⟨mark, String.ofList id, hmark, by simp [hget], ?_, ?_, ?_, ?_⟩
  · rw [String.toList_ofList, hs]
  · rw [String.toList_ofList, htaken]
  · rw [hvalue, shown, hget, Option.getD_some]
  · rintro id' ⟨hid', mark', -, t, ht⟩
    rw [hs, List.cons_append] at ht
    obtain ⟨rfl, ht⟩ := List.cons.inj ht
    obtain ⟨pub', hpub'⟩ := Option.isSome_iff_exists.1 hid'
    have hkey := mem_keys_iff.2 ⟨pub', maps_toList.2 hpub'⟩
    have hquote : mark' = '"' ∨ mark' = '\'' := hmark
    rw [hs, find, if_pos hquote] at hm
    obtain ⟨x, hfit, hx⟩ := Option.bind_eq_some_iff.1 hm
    obtain rfl : x = id := by
      have hsame := congrArg Text.Match.taken (Option.some.inj hx)
      simpa [htaken] using hsame
    rw [String.length_ofList, ← String.length_toList]
    exact length_le_longestFit hfit hkey ⟨t, ht⟩

def IsFree (r : Renaming) (code rest : List Char) : Prop :=
  ∀ s, s ≠ [] → s <:+ code → ∀ id, ¬ r.Opens id (s ++ rest)

theorem isFree_of_quoteFree {code rest : List Char} (h : QuoteFree code) : r.IsFree code rest := by
  rintro s hs ⟨u, rfl⟩ id ⟨-, mark, hmark, t, ht⟩
  cases s with
  | nil => exact hs rfl
  | cons c s =>
    obtain ⟨rfl, -⟩ := List.cons.inj ht
    exact h mark (by simp) hmark

/-- With `rest` behind it, a literal is internal and the longest that starts there, and in the code
up to the next one none starts. -/
structure IsTaken (r : Renaming) (l : Literal) (rest : List Char) : Prop where
  quote : IsQuote l.mark
  internal : (r.get? l.content).isSome
  longest : ∀ id, r.Opens id (l.text ++ rest) → id.length ≤ l.content.length
  free : r.IsFree l.code.toList rest

/-- Code and literals as a search from the left takes them. -/
structure Cuts (r : Renaming) (code : List Char) (ls : List Literal) : Prop where
  free : r.IsFree code (ls.flatMap Literal.text)
  taken : ∀ ls₁ l ls₂, ls = ls₁ ++ l :: ls₂ → r.IsTaken l (ls₂.flatMap Literal.text)

theorem IsTaken.opens {l : Literal} {rest : List Char} (h : r.IsTaken l rest) :
    r.Opens l.content (l.text ++ rest) :=
  ⟨h.internal, l.mark, h.quote, l.code.toList ++ rest, by simp [Literal.text]⟩

namespace Cuts

variable {code code' : List Char} {l : Literal} {ls ls' : List Literal}

theorem nil : r.Cuts [] [] where
  free s hs hsuffix := absurd (List.suffix_nil.1 hsuffix) hs
  taken ls₁ l ls₂ h := by simp at h

theorem cons_code (h : r.Cuts code ls)
    (hfirst : ∀ id, ¬ r.Opens id (c :: (code ++ ls.flatMap Literal.text))) :
    r.Cuts (c :: code) ls where
  free s hs hsuffix := by
    rcases List.suffix_cons_iff.1 hsuffix with rfl | hsuffix
    · exact hfirst
    · exact h.free s hs hsuffix
  taken := h.taken

theorem cons_literal (h : r.Cuts l.code.toList ls) (hquote : IsQuote l.mark)
    (hinternal : (r.get? l.content).isSome)
    (hlongest : ∀ id, r.Opens id (l.text ++ ls.flatMap Literal.text) →
      id.length ≤ l.content.length) : r.Cuts [] (l :: ls) where
  free s hs hsuffix := absurd (List.suffix_nil.1 hsuffix) hs
  taken ls₁ l' ls₂ heq := by
    cases ls₁ with
    | nil =>
      obtain ⟨rfl, rfl⟩ := List.cons.inj heq
      exact ⟨hquote, hinternal, hlongest, h.free⟩
    | cons _ ls₁ => exact h.taken ls₁ l' ls₂ (List.cons.inj heq).2

theorem tail (h : r.Cuts [] (l :: ls)) : r.Cuts l.code.toList ls where
  free := (h.taken [] l ls rfl).free
  taken ls₁ l' ls₂ heq := h.taken (l :: ls₁) l' ls₂ (by rw [heq, List.cons_append])

theorem of_none (h : r.Cuts code ls) (hs : code ++ ls.flatMap Literal.text = c :: s)
    (hm : r.find before (c :: s) = none) :
    ∃ u, code = c :: u ∧ r.Cuts u ls ∧ u ++ ls.flatMap Literal.text = s := by
  have hnone := find_eq_none_iff.1 hm
  cases code with
  | nil =>
    cases ls with
    | nil => cases hs
    | cons l ls =>
      have hopens := (h.taken [] l ls rfl).opens
      rw [List.nil_append, List.flatMap_cons] at hs
      rw [hs] at hopens
      exact absurd hopens (hnone _)
  | cons d u =>
    obtain ⟨rfl, hu⟩ := List.cons.inj hs
    exact ⟨u, rfl, ⟨fun s hs hsuffix ↦ h.free s hs (hsuffix.trans (List.suffix_cons _ u)), h.taken⟩,
      hu⟩

theorem of_some (h : r.Cuts code ls) (hs : code ++ ls.flatMap Literal.text = s)
    (hm : r.find before s = some m) :
    ∃ l ls', code = [] ∧ ls = l :: ls' ∧ r.Cuts l.code.toList ls' ∧
      l.code.toList ++ ls'.flatMap Literal.text = m.rest ∧
      m.taken = l.mark :: (l.content.toList ++ [l.mark]) ∧
      m.value = l.mark :: ((r.shown l.content).toList ++ [l.mark]) := by
  obtain ⟨mark, id, hmark, hid, hopen, htaken, hvalue, hlongest⟩ := find_longest hm
  have hopens : r.Opens id s := ⟨hid, mark, hmark, m.rest, by simp [hopen]⟩
  cases code with
  | cons d u => exact absurd (hs ▸ hopens) (h.free (d :: u) (by simp) (List.suffix_refl _) id)
  | nil =>
    cases ls with
    | nil =>
      rw [hopen] at hs
      cases hs
    | cons l ls =>
      have htake := h.taken [] l ls rfl
      rw [List.nil_append, List.flatMap_cons] at hs
      have htext := hs.trans hopen
      rw [Literal.text, List.cons_append, List.append_assoc, List.cons_append] at htext
      obtain ⟨rfl, htext⟩ := List.cons.inj htext
      have hlength : l.content.toList.length = id.toList.length := by
        have hle := hlongest _ (hs ▸ htake.opens)
        have hge := htake.longest _ (hs ▸ hopens)
        rw [String.length_toList, String.length_toList]
        exact Nat.le_antisymm hle hge
      obtain ⟨hcontent, hrest⟩ := List.append_inj htext hlength
      obtain rfl := String.toList_inj.1 hcontent
      exact ⟨l, ls, rfl, rfl, h.tail, (List.cons.inj hrest).2, htaken, hvalue⟩

theorem unique (h : r.Cuts code ls) (h' : r.Cuts code' ls')
    (hs : code ++ ls.flatMap Literal.text = code' ++ ls'.flatMap Literal.text) :
    code = code' ∧ ls = ls' := by
  generalize ht : code' ++ ls'.flatMap Literal.text = s at hs
  induction (none : Option Char), s using r.lawful_find.induction
    generalizing code code' ls ls' with
  | nil =>
    obtain ⟨rfl, hls⟩ := List.append_eq_nil_iff.1 hs
    obtain ⟨rfl, hls'⟩ := List.append_eq_nil_iff.1 ht
    have hempty {ls : List Literal} (hls : ls.flatMap Literal.text = []) : ls = [] := by
      cases ls with
      | nil => rfl
      | cons l ls => simp [Literal.text] at hls
    exact ⟨rfl, (hempty hls).trans (hempty hls').symm⟩
  | plain before c s hm ih =>
    obtain ⟨u, rfl, hu, hus⟩ := h.of_none hs hm
    obtain ⟨u', rfl, hu', hus'⟩ := h'.of_none ht hm
    obtain ⟨rfl, rfl⟩ := ih hu hu' hus' hus
    exact ⟨rfl, rfl⟩
  | found before s m hm ih =>
    obtain ⟨l, ls, rfl, rfl, hl, hrest, htaken, -⟩ := h.of_some hs hm
    obtain ⟨l', ls', rfl, rfl, hl', hrest', htaken', -⟩ := h'.of_some ht hm
    obtain ⟨hcode, rfl⟩ := ih hl hl' hrest' hrest
    obtain ⟨hmark, hcontent⟩ := List.cons.inj (htaken.symm.trans htaken')
    rw [hmark] at hcontent
    have hcontent := String.toList_inj.1 (List.append_cancel_right hcontent)
    have hcode := String.toList_inj.1 hcode
    have hl : l = l' := by
      calc
        l = ⟨l.mark, l.content, l.code⟩ := rfl
        _ = ⟨l'.mark, l'.content, l'.code⟩ := by rw [hmark, hcontent, hcode]
        _ = l' := rfl
    exact ⟨rfl, congrArg (· :: ls) hl⟩

theorem renamed (h : r.Cuts code ls) : r.renamed (code ++ ls.flatMap Literal.text) =
    code ++ (ls.map fun l ↦ { l with content := r.shown l.content }).flatMap Literal.text := by
  generalize hs : code ++ ls.flatMap Literal.text = s
  induction (none : Option Char), s using r.lawful_find.induction generalizing code ls with
  | nil =>
    obtain ⟨rfl, hls⟩ := List.append_eq_nil_iff.1 hs
    cases ls with
    | nil => rfl
    | cons l ls => simp [Literal.text] at hls
  | plain before c s hm ih =>
    obtain ⟨u, rfl, hu, hus⟩ := h.of_none hs hm
    rw [renamed_of_none hm, ih hu hus, List.cons_append]
  | found before s m hm ih =>
    obtain ⟨l, ls, rfl, rfl, hl, hrest, -, hvalue⟩ := h.of_some hs hm
    rw [renamed_of_some hm, ih hl hrest, hvalue]
    simp [Literal.text]

/-- Every text is cut. -/
theorem exists_cuts (r : Renaming) (s : List Char) :
    ∃ code ls, code ++ ls.flatMap Literal.text = s ∧ r.Cuts code ls := by
  induction (none : Option Char), s using r.lawful_find.induction with
  | nil => exact ⟨[], [], rfl, nil⟩
  | plain before c s hm ih =>
    obtain ⟨code, ls, rfl, h⟩ := ih
    exact ⟨c :: code, ls, rfl, h.cons_code (find_eq_none_iff.1 hm)⟩
  | found before s m hm ih =>
    obtain ⟨code, ls, hrest, h⟩ := ih
    obtain ⟨mark, id, hmark, hid, hs, -, -, hlongest⟩ := find_longest hm
    have htext : Literal.text ⟨mark, id, String.ofList code⟩ ++ ls.flatMap Literal.text = s := by
      rw [Literal.text, hs, ← hrest]
      simp
    refine ⟨[], ⟨mark, id, String.ofList code⟩ :: ls, htext, cons_literal ?_ hmark hid ?_⟩
    · simpa using h
    · rw [htext]
      exact hlongest

end Cuts

/-- A text in the code and the literals that a search from the left takes. -/
structure IsCut (r : Renaming) (s : Segments) (text : String) : Prop where
  text_eq : s.text = text
  cuts : r.Cuts s.code.toList s.literals

theorem exists_isCut (r : Renaming) (text : String) : ∃ s, r.IsCut s text := by
  obtain ⟨code, ls, hcut, h⟩ := Cuts.exists_cuts r text.toList
  refine ⟨⟨String.ofList code, ls⟩, Segments.text_eq_iff.2 ?_, ?_⟩
  · simpa using hcut
  · simpa using h

theorem isCut_code {text : String} (h : ∀ s, s <:+ text.toList → ∀ id, ¬ r.Opens id s) :
    r.IsCut ⟨text, []⟩ text where
  text_eq := Segments.text_eq_iff.2 (by simp)
  cuts := by
    refine ⟨fun s _ hs id ↦ ?_, Cuts.nil.taken⟩
    simpa using h s hs id

/-- Plain literals, all of them internal, are those that a search takes. -/
theorem isCut_of_isPlain {s : Segments} (hr : r.QuoteFreeKeys) (hs : s.IsPlain)
    (hinternal : ∀ l ∈ s.literals, (r.get? l.content).isSome) : r.IsCut s s.text where
  text_eq := rfl
  cuts.free := isFree_of_quoteFree hs.code
  cuts.taken ls₁ l ls₂ heq := by
    have hmem : l ∈ s.literals := by simp [heq]
    have hl := hs.literals l hmem
    refine ⟨hl.quote, hinternal l hmem, ?_, isFree_of_quoteFree hl.code⟩
    rintro id ⟨hid, mark, hmark, t, ht⟩
    obtain ⟨pub, hpub⟩ := Option.isSome_iff_exists.1 hid
    rw [List.cons_append, Literal.text, List.cons_append] at ht
    obtain ⟨rfl, ht⟩ := List.cons.inj ht
    rw [List.append_assoc, List.append_assoc, List.singleton_append, List.cons_append] at ht
    obtain ⟨hsame, -⟩ :=
      quoteFree_append_inj (hr _ _ (maps_toList.2 hpub)) hl.content hmark hl.quote ht
    rw [String.toList_inj.1 hsame]

namespace IsCut

variable {s s' : Segments} {text : String}

theorem unique (h : r.IsCut s text) (h' : r.IsCut s' text) : s = s' := by
  obtain ⟨hcode, hls⟩ := h.cuts.unique h'.cuts
    ((Segments.text_eq_iff.1 h.text_eq).trans (Segments.text_eq_iff.1 h'.text_eq).symm)
  calc
    s = ⟨s.code, s.literals⟩ := rfl
    _ = ⟨s'.code, s'.literals⟩ := by rw [String.toList_inj.1 hcode, hls]
    _ = s' := rfl

theorem quote (h : r.IsCut s text) : ∀ l ∈ s.literals, IsQuote l.mark := by
  intro l hl
  obtain ⟨ls₁, ls₂, heq⟩ := List.append_of_mem hl
  exact (h.cuts.taken ls₁ l ls₂ heq).quote

theorem substitute (h : r.IsCut s text) : r.substitute text = (s.mapContents r.shown).text := by
  rw [← String.toList_inj, toList_substitute, ← Segments.text_eq_iff.1 h.text_eq,
    h.cuts.renamed, Segments.text, String.toList_ofList]
  rfl

end IsCut

/-- A text is cut in one way, and the literals of the cut get their public names at once. -/
theorem substitute_cut (r : Renaming) (text : String) :
    (∃! s, r.IsCut s text) ∧
      (∀ s, r.IsCut s text → r.substitute text = (s.mapContents r.shown).text) ∧
      ((∀ s, s <:+ text.toList → ∀ id, ¬ r.Opens id s) → r.substitute text = text) := by
  refine ⟨?_, fun s h ↦ h.substitute, fun hnone ↦ ?_⟩
  · obtain ⟨s, hs⟩ := exists_isCut r text
    exact ⟨s, hs, fun s' hs' ↦ hs'.unique hs⟩
  · have hcode := (isCut_code hnone).substitute
    simpa [Segments.mapContents, Segments.text] using hcode

/-- A public name that is internal too stays, and the longer of two names that fit is taken. -/
example : substitute ⟨[("a", "b"), ("b", "c"), ("b\" + \"a", "d")]⟩ "'a' + \"b\" + \"a\"" =
    "'b' + \"d\"" := by
  decide +kernel

end Renaming

end AmbientTypes
