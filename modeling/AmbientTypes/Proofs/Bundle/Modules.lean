import AmbientTypes.Proofs.Bundle.Renaming

namespace AmbientTypes

namespace Header

structure IsIdentifier (id : List Char) : Prop extends IsClean id where
  body : IsBody id

end Header

namespace Renaming

open Header

variable {r : Renaming} {before : Option Char} {c : Char} {s t u : List Char}

/-- The second text has public literals where the first one has internal ones. -/
inductive Corresponds (r : Renaming) : List Char → List Char → Prop
  | nil : Corresponds r [] []
  | plain {c : Char} {s t : List Char} (none : r.find none (c :: s) = none) :
      Corresponds r s t → Corresponds r (c :: s) (c :: t)
  | literal {mark : Char} {id : List Char} {pub : String} {s t : List Char}
      (quote : IsQuote mark) (maps : r.Maps id pub) : Corresponds r s t →
      Corresponds r (mark :: (id ++ mark :: s)) (mark :: (pub.toList ++ mark :: t))

theorem corresponds_renamed (r : Renaming) (s : List Char) : r.Corresponds s (r.renamed s) := by
  induction (none : Option Char), s using r.lawful_find.induction with
  | nil => exact .nil
  | plain before c s hm ih =>
    rw [renamed_of_none hm]
    exact .plain hm ih
  | found before s m hm ih =>
    obtain ⟨mark, id, pub, hmark, hpub, hs, -, hvalue⟩ := find_eq_some hm
    rw [renamed_of_some hm, hs, hvalue, List.cons_append, List.append_assoc]
    exact .literal hmark hpub ih

structure IsProper (r : Renaming) : Prop where
  internal : ∀ {id pub}, r.Maps id pub → IsIdentifier id
  external : ∀ {id pub}, r.Maps id pub → IsIdentifier pub.toList

theorem IsProper.quoteFreeKeys (h : r.IsProper) : r.QuoteFreeKeys :=
  fun _ _ hid ↦ (h.internal hid).quoteFree

namespace Corresponds

theorem after? (h : r.Corresponds s t) (hu : QuoteFree u) :
    Option.Rel r.Corresponds (Text.after? u s) (Text.after? u t) := by
  induction u generalizing s t with
  | nil => exact .some h
  | cons e u ih =>
    obtain ⟨he, hu⟩ := quoteFree_cons.1 hu
    cases h with
    | nil => exact .none
    | @plain c s t hnone h =>
      rw [Text.after?, Text.after?]
      split
      · exact ih h hu
      · exact .none
    | @literal mark _ _ _ _ hmark =>
      have hne : mark ≠ e := fun heq ↦ he (heq ▸ hmark)
      rw [Text.after?, Text.after?, if_neg hne, if_neg hne]
      exact .none

theorem dropWhile_isBlank (h : r.Corresponds s t) :
    r.Corresponds (s.dropWhile Text.isBlank) (t.dropWhile Text.isBlank) := by
  induction h with
  | nil => exact .nil
  | @plain c s t hnone h ih =>
    rw [List.dropWhile_cons, List.dropWhile_cons]
    split
    · exact ih
    · exact .plain hnone h
  | literal hmark hid h =>
    rw [List.dropWhile_cons_of_neg (by simp [hmark.not_isBlank]),
      List.dropWhile_cons_of_neg (by simp [hmark.not_isBlank])]
    exact .literal hmark hid h

theorem afterBlanks (h : r.Corresponds s t) :
    Option.Rel r.Corresponds (Header.afterBlanks s) (Header.afterBlanks t) := by
  cases h with
  | nil => exact .none
  | plain hnone h =>
    rw [Header.afterBlanks, Header.afterBlanks]
    split
    · exact .some h.dropWhile_isBlank
    · exact .none
  | literal hmark =>
    simp only [Header.afterBlanks, hmark.not_isBlank]
    exact .none

end Corresponds

theorem rel_bind {α β : Type} {R : α → α → Prop} {S : β → β → Prop} {x y : Option α}
    {f : α → Option β} (h : Option.Rel R x y) (hf : ∀ {a b}, R a b → Option.Rel S (f a) (f b)) :
    Option.Rel S (x.bind f) (y.bind f) := by
  cases h with
  | none => exact .none
  | some hab => exact hf hab

theorem Corresponds.afterKeywords (h : r.Corresponds s t) :
    Option.Rel r.Corresponds (Header.afterKeywords s) (Header.afterKeywords t) := by
  have hdeclare : QuoteFree "declare".toList := by decide
  have hmodule : QuoteFree "module".toList := by decide
  exact rel_bind (h.after? hdeclare) fun h ↦ rel_bind h.afterBlanks fun h ↦
    rel_bind (h.after? hmodule) fun h ↦ h.afterBlanks

namespace Corresponds

theorem closes (hr : r.IsProper) (h : r.Corresponds s t) {mark : Char} (hmark : IsQuote mark)
    (escaped : Bool) : Header.closes mark escaped s = Header.closes mark escaped t := by
  induction h generalizing escaped with
  | nil => rfl
  | plain _ _ ih => cases escaped <;> simp only [Header.closes, ih]
  | @literal mark' id pub s t hmark' hid h ih =>
    have hs := closes_append (s := mark' :: s) (hr.internal hid).body hmark
    have ht := closes_append (s := mark' :: t) (hr.external hid).body hmark
    have hline : mark' ≠ '\n' := by rcases hmark' with rfl | rfl <;> decide
    -- The opening mark may close or be escaped; what is between it and the next one does neither.
    cases escaped
    · simp only [Header.closes, if_neg hmark'.ne_backslash, hs, ht, ih]
    · simp only [Header.closes, if_neg hmark'.ne_backslash, if_neg hline, hs, ht, ih]

theorem literal_fst (hr : r.IsProper) (h : r.Corresponds s t)
    (hmaps : ∀ p, Header.literal s = some p → ∃ pub, r.Maps p.1 pub) :
    (Header.literal t).map (fun p ↦ some (String.ofList p.1)) =
      (Header.literal s).map fun p ↦ r.get? (String.ofList p.1) := by
  cases h with
  | nil => rfl
  | @plain c s t hnone h =>
    by_cases hc : IsQuote c
    · have hs : Header.literal (c :: s) = literalBody c s := if_pos hc
      have ht : Header.literal (c :: t) = literalBody c t := if_pos hc
      cases hbody : literalBody c s with
      | some p =>
        obtain ⟨pub, hpub⟩ := hmaps p (hs.trans hbody)
        rw [literalBody_eq_some hbody, find_of_maps hr.quoteFreeKeys hc hpub] at hnone
        cases hnone
      | none =>
        have hclosed : literalBody c t = none := by
          rw [← Option.not_isSome_iff_eq_none, literalBody_isSome hc, ← h.closes hr hc,
            ← literalBody_isSome hc, hbody]
          decide
        rw [hs, ht, hbody, hclosed]
        rfl
    · have hs : Header.literal (c :: s) = none := if_neg hc
      have ht : Header.literal (c :: t) = none := if_neg hc
      rw [hs, ht]
      rfl
  | @literal mark id pub s t hmark hid h =>
    have hs : Header.literal (mark :: (id ++ mark :: s)) = some (id, s) :=
      (if_pos hmark).trans (literalBody_append (hr.internal hid).body hmark)
    have ht : Header.literal (mark :: (pub.toList ++ mark :: t)) = some (pub.toList, t) :=
      (if_pos hmark).trans (literalBody_append (hr.external hid).body hmark)
    have hget : r.get? (String.ofList id) = some pub := hid
    rw [hs, ht, Option.map_some, Option.map_some, hget, String.ofList_toList]

theorem find_value (hr : r.IsProper) (h : r.Corresponds s t)
    (hmaps : ∀ m, Header.find before s = some m → ∃ pub, r.Maps m.value pub) :
    ((Header.find before t).map (·.value)).map (fun id ↦ some (String.ofList id)) =
      ((Header.find before s).map (·.value)).map fun id ↦ r.get? (String.ofList id) := by
  rw [Header.find_value, Header.find_value]
  split
  · rfl
  · next hword =>
    have hkeys := h.afterKeywords
    cases hs : Header.afterKeywords s with
    | none =>
      rw [hs] at hkeys
      generalize Header.afterKeywords t = y at hkeys
      cases hkeys
      rfl
    | some s' =>
      rw [hs] at hkeys
      generalize Header.afterKeywords t = y at hkeys
      cases hkeys with
      | @some _ t' h' =>
        rw [Option.bind_some, Option.bind_some, Option.map_map, Option.map_map]
        refine h'.literal_fst hr fun p hp ↦ ?_
        have hvalue := Header.find_value before s
        rw [if_neg hword, hs, Option.bind_some, hp] at hvalue
        obtain ⟨m, hm, hid⟩ := Option.map_eq_some_iff.1 hvalue
        have hid : m.value = p.1 := hid
        exact hid ▸ hmaps m hm

theorem everywhere (hr : r.IsProper) (h : r.Corresponds s t)
    (hmaps : ∀ id ∈ Header.everywhere before s, ∃ pub, r.Maps id pub) :
    (Header.everywhere before t).map (fun id ↦ some (String.ofList id)) =
      (Header.everywhere before s).map fun id ↦ r.get? (String.ofList id) := by
  induction h generalizing before with
  | nil => rfl
  | @plain c s t hnone h ih =>
    rw [everywhere_cons, List.forall_mem_append] at hmaps
    have hfound : ∀ m, Header.find before (c :: s) = some m → ∃ pub, r.Maps m.value pub :=
      fun m hm ↦ hmaps.1 m.value (by simp [hm])
    have hfind := (Corresponds.plain hnone h).find_value hr hfound
    rw [everywhere_cons, everywhere_cons, List.map_append, List.map_append, ih hmaps.2,
      ← Option.toList_map, ← Option.toList_map, hfind]
  | @literal mark id pub s t hmark hid h ih =>
    have hfirst {u : List Char} : Header.find before (mark :: u) = none :=
      find_of_ne (by rcases hmark with rfl | rfl <;> decide)
    have hs : Header.everywhere before (mark :: (id ++ mark :: s)) =
        Header.everywhere (some mark) s := by
      rw [everywhere_of_none hfirst, everywhere_clean (hr.internal hid).toIsClean hmark]
    have ht : Header.everywhere before (mark :: (pub.toList ++ mark :: t)) =
        Header.everywhere (some mark) t := by
      rw [everywhere_of_none hfirst, everywhere_clean (hr.external hid).toIsClean hmark]
    rw [hs] at hmaps ⊢
    rw [ht, ih hmaps]

/-- What is found in the one text is found in the other one, under its public name. -/
theorem values (hr : r.IsProper) (h : r.Corresponds s t)
    (hmaps : ∀ id ∈ Header.values (Text.piecesBehind Header.find before s), ∃ pub, r.Maps id pub) :
    (Header.values (Text.piecesBehind Header.find before t)).map
        (fun id ↦ some (String.ofList id)) =
      (Header.values (Text.piecesBehind Header.find before s)).map
        fun id ↦ r.get? (String.ofList id) := by
  have hs := everywhere_eq before s fun id hid ↦
    have ⟨_, hpub⟩ := hmaps id hid
    (hr.internal hpub).toIsClean
  rw [← hs] at hmaps ⊢
  have heverywhere := h.everywhere hr hmaps
  have ht := everywhere_eq before t fun id hid ↦ by
    have hmem := List.mem_map_of_mem (f := fun id ↦ some (String.ofList id))
      (mem_everywhere_of_mem_values hid)
    rw [heverywhere] at hmem
    obtain ⟨id', -, hid'⟩ := List.mem_map.1 hmem
    have hclean := (hr.external hid').toIsClean
    rwa [String.toList_ofList] at hclean
  rw [← ht, heverywhere]

end Corresponds

end Renaming

end AmbientTypes
