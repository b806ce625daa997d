import AmbientTypes.Proofs.Bundle.Literal
import AmbientTypes.Proofs.Text.Pieces
import Mathlib.Data.List.TakeWhile

namespace AmbientTypes

namespace Header

structure IsGap (s : List Char) : Prop where
  ne_nil : s ≠ []
  blank : ∀ c ∈ s, Text.isBlank c = true

theorem afterBlanks_eq_some {s t : List Char} (h : afterBlanks s = some t) :
    ∃ gap, IsGap gap ∧ s = gap ++ t := by
  cases s with
  | nil => cases h
  | cons c s =>
    rw [afterBlanks] at h
    split at h
    · next hc =>
      obtain rfl := Option.some.inj h
      refine ⟨c :: s.takeWhile Text.isBlank, ⟨by simp, ?_⟩, ?_⟩
      · rw [List.forall_mem_cons]
        exact ⟨hc, fun d hd ↦ List.mem_takeWhile_imp hd⟩
      · rw [List.cons_append, List.takeWhile_append_dropWhile]
    · cases h

/-- What stands in front of the literal of a header. -/
def IsLead (lead : List Char) : Prop :=
  ∃ gap gap', IsGap gap ∧ IsGap gap' ∧
    lead = "declare".toList ++ gap ++ "module".toList ++ gap'

theorem afterKeywords_eq_some {s t : List Char} (h : afterKeywords s = some t) :
    ∃ lead, IsLead lead ∧ s = lead ++ t := by
  unfold afterKeywords at h
  obtain ⟨s₁, h₁, h⟩ := Option.bind_eq_some_iff.1 h
  obtain ⟨s₂, h₂, h⟩ := Option.bind_eq_some_iff.1 h
  obtain ⟨s₃, h₃, h₄⟩ := Option.bind_eq_some_iff.1 h
  obtain ⟨gap, hgap, rfl⟩ := afterBlanks_eq_some h₂
  obtain ⟨gap', hgap', rfl⟩ := afterBlanks_eq_some h₄
  refine ⟨_, ⟨gap, gap', hgap, hgap', rfl⟩, ?_⟩
  rw [Text.after?_eq_some_iff.1 h₁, Text.after?_eq_some_iff.1 h₃]
  simp only [List.append_assoc]

namespace IsLead

variable {lead : List Char}

theorem quoteFree (h : IsLead lead) : QuoteFree lead := by
  obtain ⟨gap, gap', hgap, hgap', rfl⟩ := h
  have hdeclare : QuoteFree "declare".toList := by decide
  have hmodule : QuoteFree "module".toList := by decide
  rw [quoteFree_append, quoteFree_append, quoteFree_append]
  exact ⟨⟨⟨hdeclare, quoteFree_of_blank hgap.blank⟩, hmodule⟩, quoteFree_of_blank hgap'.blank⟩

theorem head (h : IsLead lead) : ∃ rest, lead = 'd' :: rest := by
  obtain ⟨gap, gap', -, -, rfl⟩ := h
  exact ⟨_, rfl⟩

theorem count (h : IsLead lead) : lead.count 'd' = 2 := by
  obtain ⟨gap, gap', hgap, hgap', rfl⟩ := h
  have hblank {s : List Char} (hs : IsGap s) : s.count 'd' = 0 :=
    List.count_eq_zero.2 fun hd ↦ absurd (hs.blank _ hd) (by decide)
  simp only [List.count_append, hblank hgap, hblank hgap']
  decide

/-- No lead is the end of another one. -/
theorem eq_of_suffix {lead' : List Char} (h : IsLead lead) (h' : IsLead lead')
    (hs : lead' <:+ lead) : lead' = lead := by
  obtain ⟨u, rfl⟩ := hs
  cases u with
  | nil => rfl
  | cons c u =>
    obtain ⟨rest, hrest⟩ := h.head
    obtain ⟨rfl, -⟩ := List.cons.inj hrest
    have hcount := h.count
    rw [List.cons_append, List.count_cons_self, List.count_append, h'.count] at hcount
    omega

theorem getLast?_blank (h : IsLead lead) : ∃ b, lead.getLast? = some b ∧ Text.isBlank b = true := by
  obtain ⟨gap, gap', -, hgap', rfl⟩ := h
  refine ⟨gap'.getLast hgap'.ne_nil, ?_, hgap'.blank _ (List.getLast_mem _)⟩
  rw [List.getLast?_append, List.getLast?_eq_some_getLast hgap'.ne_nil, Option.some_or]

end IsLead

variable {before : Option Char} {s : List Char} {m : Text.Match (List Char)}

theorem find_eq_some (h : find before s = some m) :
    before.any Text.isWordChar = false ∧ ∃ lead mark, IsLead lead ∧ IsQuote mark ∧
      afterKeywords s = some (mark :: (m.value ++ mark :: m.rest)) ∧
      literalBody mark (m.value ++ mark :: m.rest) = some (m.value, m.rest) ∧
      s = lead ++ mark :: (m.value ++ mark :: m.rest) ∧
      m.taken = lead ++ mark :: (m.value ++ [mark]) := by
  unfold find at h
  split at h
  · cases h
  · next hword =>
    refine ⟨by simpa using hword, ?_⟩
    obtain ⟨⟨body, rest⟩, hfound, hm⟩ := Option.bind_eq_some_iff.1 h
    obtain ⟨t, hkey, hlit⟩ := Option.bind_eq_some_iff.1 hfound
    obtain rfl := Option.some.inj hm
    obtain ⟨lead, hlead, rfl⟩ := afterKeywords_eq_some hkey
    obtain ⟨mark, hmark, rfl, hbody⟩ := literal_eq_some hlit
    have htext : lead ++ mark :: (body ++ mark :: rest) =
        (lead ++ mark :: (body ++ [mark])) ++ rest := by simp
    have hlength : (lead ++ mark :: (body ++ mark :: rest)).length - rest.length =
        (lead ++ mark :: (body ++ [mark])).length := by
      rw [htext, List.length_append, Nat.add_sub_cancel]
    refine ⟨lead, mark, hlead, hmark, hkey, hbody, rfl, ?_⟩
    simp only [hlength]
    rw [htext, List.take_left]

theorem find_value (before : Option Char) (s : List Char) :
    (find before s).map (·.value) = if before.any Text.isWordChar then none
      else ((afterKeywords s).bind literal).map (·.1) := by
  unfold find
  split
  · rfl
  · cases (afterKeywords s).bind literal <;> rfl

theorem lawful_find : Text.Finder.Lawful find where
  append h := by
    obtain ⟨-, lead, mark, -, -, -, -, rfl, htaken⟩ := find_eq_some h
    simp [htaken]
  ne_nil h := by
    obtain ⟨-, lead, mark, -, -, -, -, -, htaken⟩ := find_eq_some h
    simp [htaken]

/-- The identifiers of headers at every place of a text, also at places inside of other headers. -/
def everywhere : Option Char → List Char → List (List Char)
  | _, [] => []
  | before, c :: s => ((find before (c :: s)).map (·.value)).toList ++ everywhere (some c) s

theorem everywhere_of_none {c : Char} (h : find before (c :: s) = none) :
    everywhere before (c :: s) = everywhere (some c) s := by
  rw [everywhere, h]
  rfl

theorem find_eq_none_of_afterKeywords (h : afterKeywords s = none) : find before s = none := by
  rw [find, h]
  split <;> rfl

theorem find_of_ne {c : Char} (h : c ≠ 'd') : find before (c :: s) = none := by
  refine find_eq_none_of_afterKeywords ?_
  rw [Option.eq_none_iff_forall_ne_some]
  intro r hr
  obtain ⟨lead, hlead, htext⟩ := afterKeywords_eq_some hr
  obtain ⟨rest, rfl⟩ := hlead.head
  exact h (List.cons.inj htext).1

theorem everywhere_cons (before : Option Char) (c : Char) (s : List Char) :
    everywhere before (c :: s) =
      ((find before (c :: s)).map (·.value)).toList ++ everywhere (some c) s := rfl

theorem mem_everywhere_of_find (h : find before s = some m) : m.value ∈ everywhere before s := by
  cases s with
  | nil => cases lawful_find.ne_nil h (List.append_eq_nil_iff.1 (lawful_find.append h)).1
  | cons c s =>
    rw [everywhere_cons, h]
    exact List.mem_append_left _ List.mem_cons_self

theorem everywhere_append {u : List Char} {id : List Char}
    (h : id ∈ everywhere (u.getLast?.or before) s) : id ∈ everywhere before (u ++ s) := by
  induction u generalizing before with
  | nil => simpa using h
  | cons c u ih =>
    rw [List.cons_append, everywhere_cons]
    refine List.mem_append_right _ (ih ?_)
    rw [List.getLast?_cons] at h
    cases hu : u.getLast? with
    | none => simpa [hu] using h
    | some d => simpa [hu] using h

theorem isBody_of_mem_everywhere {id : List Char} (h : id ∈ everywhere before s)
    (hfree : QuoteFree id) : IsBody id := by
  induction s generalizing before with
  | nil => cases h
  | cons c s ih =>
    rw [everywhere_cons, List.mem_append, Option.mem_toList, Option.map_eq_some_iff] at h
    rcases h with ⟨m, hm, rfl⟩ | h
    · obtain ⟨-, lead, mark, -, -, -, hbody, -⟩ := find_eq_some hm
      exact isBody_of_literalBody hfree hbody
    · exact ih h

/-- There is no header in front of the first quotation mark but those whose lead ends there. -/
theorem everywhere_quoteFree {u : List Char} {c : Char} (hu : QuoteFree u) (hc : IsQuote c)
    (hlead : ∀ v, v <:+ u → ¬ IsLead v) :
    everywhere before (u ++ c :: s) = everywhere (some c) s := by
  have hnone {before : Option Char} {v : List Char} (hv : v <:+ u) :
      find before (v ++ c :: s) = none := by
    rw [Option.eq_none_iff_forall_ne_some]
    intro m hm
    obtain ⟨-, lead, mark, hlead', hmark, -, -, htext, -⟩ := find_eq_some hm
    have hvfree : QuoteFree v := fun d hd ↦ hu d (hv.subset hd)
    obtain ⟨rfl, -⟩ := quoteFree_append_inj hvfree hlead'.quoteFree hc hmark htext
    exact hlead v hv hlead'
  induction u generalizing before with
  | nil => exact everywhere_of_none (hnone (v := []) (List.suffix_refl _))
  | cons d u ih =>
    have hsub {v : List Char} (hv : v <:+ u) : v <:+ d :: u := hv.trans (List.suffix_cons d u)
    have hfirst : find before (d :: (u ++ c :: s)) = none := hnone (List.suffix_refl (d :: u))
    rw [List.cons_append, everywhere_of_none hfirst]
    exact ih (quoteFree_cons.1 hu).2 (fun v hv ↦ hlead v (hsub hv)) fun hv ↦ hnone (hsub hv)

/-- An identifier without quotation marks that ends in no blank. -/
structure IsClean (identifier : List Char) : Prop where
  quoteFree : QuoteFree identifier
  last : identifier.getLast?.any Text.isBlank = false

theorem IsClean.not_isLead {u v : List Char} (h : IsClean u) (hv : v <:+ u) : ¬ IsLead v := by
  intro hlead
  obtain ⟨b, hb, hblank⟩ := hlead.getLast?_blank
  obtain ⟨w, rfl⟩ := hv
  have hlast := h.last
  rw [List.getLast?_append, hb, Option.some_or, Option.any_some, hblank] at hlast
  cases hlast

/-- Clean literals hold no headers, and none begins at their end. -/
theorem everywhere_clean {u : List Char} {c : Char} (hu : IsClean u) (hc : IsQuote c) :
    everywhere before (u ++ c :: s) = everywhere (some c) s :=
  everywhere_quoteFree hu.quoteFree hc fun _ hv ↦ hu.not_isLead hv

theorem everywhere_lead {lead : List Char} {c d : Char} (h : IsLead (d :: lead)) (hc : IsQuote c) :
    everywhere before (lead ++ c :: s) = everywhere (some c) s := by
  refine everywhere_quoteFree (quoteFree_cons.1 h.quoteFree).2 hc fun v hv hlead ↦ ?_
  have heq := h.eq_of_suffix hlead (hv.trans (List.suffix_cons d lead))
  have hlength := hv.length_le
  rw [heq, List.length_cons] at hlength
  omega

def values (ps : List (Text.Piece (List Char))) : List (List Char) :=
  ps.filterMap Text.Piece.value?

theorem values_plain (c : Char) (ps : List (Text.Piece (List Char))) :
    values (.plain c :: ps) = values ps := rfl

theorem values_found (id taken : List Char) (ps : List (Text.Piece (List Char))) :
    values (.found id taken :: ps) = id :: values ps := rfl

theorem mem_everywhere_of_mem_values {id : List Char}
    (h : id ∈ values (Text.piecesBehind find before s)) : id ∈ everywhere before s := by
  induction before, s using lawful_find.induction with
  | nil => cases h
  | plain before c s hm ih =>
    rw [Text.piecesBehind_of_none hm, values_plain] at h
    rw [everywhere_of_none hm]
    exact ih h
  | found before s m hm ih =>
    rw [Text.piecesBehind_of_some lawful_find hm, values_found] at h
    rcases List.mem_cons.1 h with rfl | h
    · exact mem_everywhere_of_find hm
    · rw [← lawful_find.append hm]
      refine everywhere_append ?_
      obtain ⟨d, hd⟩ := Option.isSome_iff_exists.1
        (List.getLast?_isSome.2 (lawful_find.ne_nil hm))
      rw [hd, Option.some_or, ← hd]
      exact ih h

/-- When the identifiers that are found are clean, no header is missed inside of another one. -/
theorem everywhere_eq (before : Option Char) (s : List Char)
    (h : ∀ id ∈ values (Text.piecesBehind find before s), IsClean id) :
    everywhere before s = values (Text.piecesBehind find before s) := by
  induction before, s using lawful_find.induction with
  | nil => rfl
  | plain before c s hm ih =>
    rw [Text.piecesBehind_of_none hm] at h ⊢
    rw [everywhere_of_none hm]
    exact ih h
  | found before s m hm ih =>
    rw [Text.piecesBehind_of_some lawful_find hm, values_found] at h ⊢
    rw [List.forall_mem_cons] at h
    obtain ⟨-, lead, mark, hlead, hmark, -, -, htext, htaken⟩ := find_eq_some hm
    obtain ⟨rest, rfl⟩ := hlead.head
    have hlast : m.taken.getLast? = some mark := by
      rw [htaken, ← List.cons_append, ← List.append_assoc, List.getLast?_concat]
    have hbehind : everywhere (some 'd') (rest ++ mark :: (m.value ++ mark :: m.rest)) =
        values (Text.piecesBehind find m.taken.getLast? m.rest) := by
      rw [everywhere_lead hlead hmark, everywhere_clean h.1 hmark, ← hlast, ih h.2]
    rw [List.cons_append] at htext
    rw [htext, everywhere_cons, ← htext, hm, hbehind]
    rfl

theorem scan_identifiers (text : String) :
    (scan text).map (·.identifier) =
      (values (Text.piecesBehind find none text.toList)).map String.ofList := by
  have h (offset : Nat) (ps : List (Text.Piece (List Char))) :
      (ofPieces offset ps).map (·.identifier) = (values ps).map String.ofList := by
    induction ps generalizing offset with
    | nil => rfl
    | cons p ps ih =>
      cases p with
      | plain c => exact ih _
      | found id taken => exact congrArg _ (ih _)
  exact h 0 _

end Header

end AmbientTypes
