import AmbientTypes.Bundle.Header

namespace AmbientTypes

def IsQuote (c : Char) : Prop := c = '"' ∨ c = '\''

instance (c : Char) : Decidable (IsQuote c) :=
  inferInstanceAs (Decidable (_ ∨ _))

def QuoteFree (s : List Char) : Prop := ∀ c ∈ s, ¬ IsQuote c

instance (s : List Char) : Decidable (QuoteFree s) :=
  List.decidableBAll (fun c ↦ ¬ IsQuote c) s

theorem quoteFree_append {s t : List Char} : QuoteFree (s ++ t) ↔ QuoteFree s ∧ QuoteFree t :=
  List.forall_mem_append

theorem quoteFree_cons {c : Char} {s : List Char} :
    QuoteFree (c :: s) ↔ ¬ IsQuote c ∧ QuoteFree s :=
  List.forall_mem_cons

theorem IsQuote.not_isBlank {c : Char} (h : IsQuote c) : Text.isBlank c = false := by
  rcases h with rfl | rfl <;> decide

theorem IsQuote.ne_backslash {c : Char} (h : IsQuote c) : c ≠ '\\' := by
  rcases h with rfl | rfl <;> decide

theorem quoteFree_of_blank {s : List Char} (h : ∀ c ∈ s, Text.isBlank c = true) : QuoteFree s := by
  intro c hc hq
  have hblank := h c hc
  rw [hq.not_isBlank] at hblank
  cases hblank

/-- Two ways to cut a text at the first quotation mark are one. -/
theorem quoteFree_append_inj {u v s t : List Char} {c d : Char} (hu : QuoteFree u)
    (hv : QuoteFree v) (hc : IsQuote c) (hd : IsQuote d) (h : u ++ c :: s = v ++ d :: t) :
    u = v ∧ c = d ∧ s = t := by
  induction u generalizing v with
  | nil =>
    cases v with
    | nil => simpa using h
    | cons e v =>
      obtain rfl : c = e := by simpa using (List.cons.inj h).1
      exact absurd hc (quoteFree_cons.1 hv).1
  | cons e u ih =>
    cases v with
    | nil =>
      obtain rfl : e = d := (List.cons.inj h).1
      exact absurd hd (quoteFree_cons.1 hu).1
    | cons e' v =>
      obtain ⟨rfl, htail⟩ := List.cons.inj h
      obtain ⟨rfl, hcd⟩ := ih (quoteFree_cons.1 hu).2 (quoteFree_cons.1 hv).2 htail
      exact ⟨rfl, hcd⟩

namespace Header

theorem literalBody_eq_some {mark : Char} {s body rest : List Char}
    (h : literalBody mark s = some (body, rest)) : s = body ++ mark :: rest := by
  fun_induction literalBody mark s generalizing body rest with
  | case1 => cases h
  | case2 c s hc ih =>
    obtain ⟨p, hp, hpair⟩ := Option.map_eq_some_iff.1 h
    obtain ⟨rfl, rfl⟩ := Prod.mk.inj hpair
    rw [ih hp]
    rfl
  | case3 => simp_all
  | case4 => cases h
  | case5 c s _ _ _ ih =>
    obtain ⟨p, hp, hpair⟩ := Option.map_eq_some_iff.1 h
    obtain ⟨rfl, rfl⟩ := Prod.mk.inj hpair
    rw [ih hp]
    rfl
  | case6 => cases h

theorem literal_eq_some {s body rest : List Char} (h : literal s = some (body, rest)) :
    ∃ mark, IsQuote mark ∧ s = mark :: (body ++ mark :: rest) ∧
      literalBody mark (body ++ mark :: rest) = some (body, rest) := by
  cases s with
  | nil => cases h
  | cons c s =>
    rw [literal] at h
    split at h
    · next hc =>
      obtain rfl := literalBody_eq_some h
      exact ⟨c, hc, rfl, h⟩
    · cases h

variable {mark c : Char} {s u v rest : List Char}

/-- What may stand between quotation marks, without any in it. -/
inductive IsBody : List Char → Prop
  | nil : IsBody []
  | plain {c : Char} {s : List Char} (quote : ¬ IsQuote c) (escape : c ≠ '\\')
      (line : c ≠ '\r' ∧ c ≠ '\n') : IsBody s → IsBody (c :: s)
  | escaped {c : Char} {s : List Char} (line : c ≠ '\n') : IsBody s → IsBody ('\\' :: c :: s)

theorem IsBody.append (hu : IsBody u) (hv : IsBody v) : IsBody (u ++ v) := by
  induction hu with
  | nil => exact hv
  | plain quote escape line _ ih => exact .plain quote escape line ih
  | escaped line _ ih => exact .escaped line ih

theorem isBody_of_forall
    (h : ∀ c ∈ s, ¬ IsQuote c ∧ c ≠ '\\' ∧ c ≠ '\r' ∧ c ≠ '\n') : IsBody s := by
  induction s with
  | nil => exact .nil
  | cons c s ih =>
    rw [List.forall_mem_cons] at h
    obtain ⟨⟨hquote, hescape, hline⟩, hs⟩ := h
    exact .plain hquote hescape hline (ih hs)

theorem literalBody_cons (h : c ≠ '\\') : literalBody mark (c :: s) =
    if c = mark then some ([], s)
    else if c = '\r' ∨ c = '\n' then none
    else (literalBody mark s).map fun p ↦ (c :: p.1, p.2) := by
  rw [literalBody]
  · simp only [h, false_or]
  · exact fun _ _ hc ↦ absurd hc h

/-- What may stand between two quotation marks of one kind. -/
inductive IsBodyIn (mark : Char) : List Char → Prop
  | nil : IsBodyIn mark []
  | plain {c : Char} {s : List Char} (close : c ≠ mark) (escape : c ≠ '\\')
      (line : c ≠ '\r' ∧ c ≠ '\n') : IsBodyIn mark s → IsBodyIn mark (c :: s)
  | escaped {c : Char} {s : List Char} (line : c ≠ '\n') :
      IsBodyIn mark s → IsBodyIn mark ('\\' :: c :: s)

theorem isBodyIn_cons (close : c ≠ mark) (escape : c ≠ '\\') (line : c ≠ '\r' ∧ c ≠ '\n') :
    IsBodyIn mark (c :: s) ↔ IsBodyIn mark s := by
  refine ⟨fun h ↦ ?_, .plain close escape line⟩
  cases h with
  | plain _ _ _ h => exact h
  | escaped _ _ => exact absurd rfl escape

theorem isBodyIn_append (hmark : IsQuote mark)
    (hu : ∀ c ∈ u, ¬ IsQuote c ∧ c ≠ '\\' ∧ c ≠ '\r' ∧ c ≠ '\n') :
    IsBodyIn mark (u ++ v) ↔ IsBodyIn mark v := by
  induction u with
  | nil => rfl
  | cons c u ih =>
    rw [List.forall_mem_cons] at hu
    obtain ⟨⟨hquote, hescape, hline⟩, hu⟩ := hu
    have hc : c ≠ mark := fun h ↦ hquote (h ▸ hmark)
    rw [List.cons_append, isBodyIn_cons hc hescape hline, ih hu]

theorem isBodyIn_iff_not_mem (h : '\\' ∉ s) :
    IsBodyIn mark s ↔ mark ∉ s ∧ '\r' ∉ s ∧ '\n' ∉ s := by
  induction s with
  | nil => simp [IsBodyIn.nil]
  | cons c s ih =>
    rw [List.mem_cons, not_or] at h
    obtain ⟨hescape, hs⟩ := h
    simp only [List.mem_cons, not_or]
    constructor
    · intro hbody
      cases hbody with
      | plain close _ line hbody =>
        obtain ⟨hmark, hreturn, hnewline⟩ := (ih hs).1 hbody
        exact ⟨⟨close.symm, hmark⟩, ⟨line.1.symm, hreturn⟩, line.2.symm, hnewline⟩
      | escaped _ _ => exact absurd rfl hescape
    · rintro ⟨⟨hclose, hmark⟩, ⟨hcr, hreturn⟩, hlf, hnewline⟩
      exact .plain (Ne.symm hclose) (Ne.symm hescape) ⟨Ne.symm hcr, Ne.symm hlf⟩
        ((ih hs).2 ⟨hmark, hreturn, hnewline⟩)

theorem isBodyIn_of_literalBody {body : List Char} (h : literalBody mark s = some (body, rest)) :
    IsBodyIn mark body := by
  fun_induction literalBody mark s generalizing body rest with
  | case1 => cases h
  | case2 c s hc ih =>
    obtain ⟨p, hp, hpair⟩ := Option.map_eq_some_iff.1 h
    obtain ⟨rfl, rfl⟩ := Prod.mk.inj hpair
    exact .escaped hc (ih hp)
  | case3 =>
    obtain ⟨rfl, -⟩ := Prod.mk.inj (Option.some.inj h)
    exact .nil
  | case4 => cases h
  | case5 c s _ hc hplain ih =>
    obtain ⟨p, hp, hpair⟩ := Option.map_eq_some_iff.1 h
    obtain ⟨rfl, rfl⟩ := Prod.mk.inj hpair
    rw [not_or, not_or] at hplain
    exact .plain hc hplain.1 hplain.2 (ih hp)
  | case6 => cases h

theorem IsBodyIn.literalBody_append (hu : IsBodyIn mark u) (hmark : IsQuote mark) :
    literalBody mark (u ++ mark :: s) = some (u, s) := by
  induction hu with
  | nil => rw [List.nil_append, literalBody_cons hmark.ne_backslash, if_pos rfl]
  | @plain c u close escape line _ ih =>
    rw [List.cons_append, literalBody_cons escape, if_neg close, if_neg (not_or.2 line), ih]
    rfl
  | escaped line _ ih =>
    rw [List.cons_append, List.cons_append, literalBody, if_neg line, ih]
    rfl

theorem IsBody.isBodyIn (hu : IsBody u) (hmark : IsQuote mark) : IsBodyIn mark u := by
  induction hu with
  | nil => exact .nil
  | plain quote escape line _ ih => exact .plain (fun h ↦ quote (h ▸ hmark)) escape line ih
  | escaped line _ ih => exact .escaped line ih

theorem IsBodyIn.isBody (hu : IsBodyIn mark u) (hfree : QuoteFree u) : IsBody u := by
  induction hu with
  | nil => exact .nil
  | plain _ escape line _ ih =>
    obtain ⟨hc, hfree⟩ := quoteFree_cons.1 hfree
    exact .plain hc escape line (ih hfree)
  | escaped line _ ih =>
    exact .escaped line (ih (quoteFree_cons.1 (quoteFree_cons.1 hfree).2).2)

theorem isBody_of_literalBody (hu : QuoteFree u) (h : literalBody mark s = some (u, rest)) :
    IsBody u := (isBodyIn_of_literalBody h).isBody hu

theorem literalBody_append (hu : IsBody u) (hmark : IsQuote mark) :
    literalBody mark (u ++ mark :: s) = some (u, s) :=
  (hu.isBodyIn hmark).literalBody_append hmark

def closes (mark : Char) : (escaped : Bool) → List Char → Bool
  | _, [] => false
  | true, c :: s => if c = '\n' then false else closes mark false s
  | false, c :: s =>
    if c = '\\' then closes mark true s
    else if c = mark then true
    else if c = '\r' ∨ c = '\n' then false
    else closes mark false s

theorem literalBody_isSome (hmark : IsQuote mark) :
    (literalBody mark s).isSome = closes mark false s := by
  fun_induction literalBody mark s with
  | case1 => rfl
  | case2 c s hc ih =>
    rw [Option.isSome_map, ih]
    simp [closes, hc]
  | case3 s h =>
    simp [closes, hmark.ne_backslash]
  | case4 c s hs hc h =>
    rcases h with rfl | h
    · cases s with
      | nil => rfl
      | cons d s => exact absurd rfl (hs d s rfl)
    · have hescape : c ≠ '\\' := by rcases h with rfl | rfl <;> decide
      simp [closes, hescape, hc, h]
  | case5 c s _ hc h ih =>
    rw [not_or] at h
    rw [Option.isSome_map, ih]
    simp [closes, hc, h]
  | case6 => rfl

theorem closes_append (hu : IsBody u) (hmark : IsQuote mark) :
    closes mark false (u ++ s) = closes mark false s := by
  induction hu with
  | nil => rfl
  | @plain c u quote escape line _ ih =>
    have hc : c ≠ mark := fun h ↦ quote (h ▸ hmark)
    rw [List.cons_append, closes, if_neg escape, if_neg hc, if_neg (not_or.2 line), ih]
  | escaped line _ ih =>
    rw [List.cons_append, List.cons_append, closes, if_pos rfl, closes, if_neg line, ih]

end Header
end AmbientTypes
