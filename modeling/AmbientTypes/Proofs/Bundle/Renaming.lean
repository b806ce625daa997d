import AmbientTypes.Bundle.Renaming
import AmbientTypes.Proofs.Bundle.Header

namespace AmbientTypes

namespace Header

theorem foldl_distinct (headers : List Header) (seen : List String) :
    headers.foldl (fun seen h ↦ if h.identifier ∈ seen then seen else seen ++ [h.identifier]) seen =
      seen ++ ((headers.map (·.identifier)).filter (· ∉ seen)).eraseDups := by
  induction headers generalizing seen with
  | nil => simp
  | cons h headers ih =>
    rw [List.foldl_cons, ih, List.map_cons]
    split
    · next hmem => rw [List.filter_cons_of_neg (by simpa using hmem)]
    · next hnot =>
      have hfilter : (headers.map (·.identifier)).filter (· ∉ seen ++ [h.identifier]) =
          ((headers.map (·.identifier)).filter (· ∉ seen)).filter (!· == h.identifier) := by
        rw [List.filter_filter]
        apply List.filter_congr
        intro id _
        simp [and_comm, beq_eq_decide]
      rw [List.filter_cons_of_pos (by simpa using hnot), List.eraseDups_cons, hfilter,
        List.append_assoc]
      rfl

theorem distinct_eq (headers : List Header) :
    distinct headers = (headers.map (·.identifier)).eraseDups := by
  rw [distinct, foldl_distinct, List.nil_append, List.filter_eq_self.2 (by simp)]

theorem mem_distinct {headers : List Header} {id : String} :
    id ∈ distinct headers ↔ id ∈ headers.map (·.identifier) := by
  rw [distinct_eq, List.mem_eraseDups]

theorem nodup_distinct (headers : List Header) : (distinct headers).Nodup := by
  have hfold (seen : List String) (h : seen.Nodup) : (headers.foldl (fun seen h ↦
      if h.identifier ∈ seen then seen else seen ++ [h.identifier]) seen).Nodup := by
    induction headers generalizing seen with
    | nil => exact h
    | cons e headers ih =>
      rw [List.foldl_cons]
      apply ih
      split
      · exact h
      · next hnot =>
        rw [List.nodup_append]
        refine ⟨h, List.pairwise_singleton _ _, fun id hid _ hmem heq ↦ hnot ?_⟩
        rwa [← List.mem_singleton.1 hmem, ← heq]
  exact hfold [] List.nodup_nil

end Header

namespace Renaming

theorem get?_ofIdentifiers (m : Manifest) (ids : List String) (id : String) :
    (ofIdentifiers m ids).get? id = if id ∈ ids then some (publicName m id) else none := by
  have h (entries : List (String × String)) :
      (ids.foldl (fun entries id ↦ if entries.any (·.1 = id) then entries
        else entries ++ [(id, publicName m id)]) entries).lookup id =
        (entries.lookup id).or (if id ∈ ids then some (publicName m id) else none) := by
    induction ids generalizing entries with
    | nil => simp
    | cons i ids ih =>
      rw [List.foldl_cons, ih]
      by_cases hi : id = i
      · subst hi
        split
        · next hany =>
          obtain ⟨e, he, hid⟩ := List.any_eq_true.1 hany
          have hsome : (entries.lookup id).isSome :=
            List.lookup_isSome_iff.2 ⟨e, he, beq_iff_eq.2 (of_decide_eq_true hid).symm⟩
          obtain ⟨pub, hpub⟩ := Option.isSome_iff_exists.1 hsome
          rw [hpub, Option.some_or, Option.some_or]
        · rw [List.lookup_append, List.lookup_cons_self, Option.or_assoc, Option.some_or,
            if_pos List.mem_cons_self]
      · have hmem : id ∈ i :: ids ↔ id ∈ ids := by simp [hi]
        have hnone : [(i, publicName m i)].lookup id = none := by simp [hi]
        simp only [hmem]
        split
        · rfl
        · rw [List.lookup_append, hnone, Option.or_none]
  rw [get?, ofIdentifiers, h []]
  simp

variable {r : Renaming} {before : Option Char} {c : Char} {s : List Char} {id : List Char}

def Maps (r : Renaming) (id : List Char) (pub : String) : Prop :=
  r.get? (String.ofList id) = some pub

theorem mem_keys_iff : id ∈ (r.entries.map (·.1)).map String.toList ↔ ∃ pub, r.Maps id pub := by
  rw [List.map_map, List.mem_map]
  constructor
  · rintro ⟨e, he, rfl⟩
    refine Option.isSome_iff_exists.1 (List.lookup_isSome_iff.2 ⟨e, he, ?_⟩)
    simp
  · rintro ⟨pub, hpub⟩
    obtain ⟨e, he, hid⟩ := List.lookup_isSome_iff.1 (Option.isSome_iff_exists.2 ⟨pub, hpub⟩)
    refine ⟨e, he, ?_⟩
    have hkey : String.ofList id = e.1 := by simpa using hid
    rw [Function.comp_apply, ← hkey, String.toList_ofList]

theorem foldl_longer_eq_some {l : List (List Char)} {best : Option (List Char)} {x : List Char}
    (h : l.foldl longer best = some x) : best = some x ∨ x ∈ l := by
  induction l generalizing best with
  | nil => exact Or.inl h
  | cons y l ih =>
    rw [List.foldl_cons] at h
    rcases ih h with hbest | hmem
    · unfold longer at hbest
      split at hbest
      · exact Or.inr (Option.some.inj hbest ▸ List.mem_cons_self)
      · split at hbest
        · exact Or.inr (Option.some.inj hbest ▸ List.mem_cons_self)
        · exact Or.inl hbest
    · exact Or.inr (List.mem_cons_of_mem y hmem)

theorem foldl_longer_isSome {l : List (List Char)} {best : Option (List Char)}
    (h : best.isSome ∨ l ≠ []) : (l.foldl longer best).isSome := by
  induction l generalizing best with
  | nil => simpa using h
  | cons y l ih =>
    rw [List.foldl_cons]
    refine ih (Or.inl ?_)
    unfold longer
    split
    · rfl
    · split <;> rfl

theorem longestFit_eq_some {ids : List String} (h : longestFit ids c s = some id) :
    id ∈ ids.map String.toList ∧ id ++ [c] <+: s := by
  have hmem := (foldl_longer_eq_some h).resolve_left (by simp)
  simpa [List.mem_filter] using hmem

theorem longestFit_isSome {ids : List String} (hid : id ∈ ids.map String.toList)
    (hs : id ++ [c] <+: s) : (longestFit ids c s).isSome := by
  refine foldl_longer_isSome (Or.inr (List.ne_nil_of_mem (a := id) ?_))
  rw [List.mem_filter]
  exact ⟨hid, by simpa using hs⟩

/-- A literal that is found holds an internal identifier, and becomes the literal of its public
one. -/
theorem find_eq_some {m : Text.Match (List Char)} (h : r.find before s = some m) :
    ∃ mark id pub, IsQuote mark ∧ r.Maps id pub ∧ s = mark :: (id ++ mark :: m.rest) ∧
      m.taken = mark :: (id ++ [mark]) ∧ m.value = mark :: (pub.toList ++ [mark]) := by
  cases s with
  | nil => cases h
  | cons mark s =>
    simp only [find] at h
    split at h
    · next hmark =>
      obtain ⟨id, hfit, hm⟩ := Option.bind_eq_some_iff.1 h
      obtain ⟨hkey, t, rfl⟩ := longestFit_eq_some hfit
      obtain ⟨pub, hpub⟩ := mem_keys_iff.1 hkey
      have hshown : (r.get? (String.ofList id)).map String.toList = some pub.toList := by
        rw [hpub, Option.map_some]
      obtain rfl := Option.some.inj hm
      have hdrop : (mark :: (id ++ [mark] ++ t)).drop (mark :: (id ++ [mark])).length = t := by
        rw [← List.cons_append]
        exact List.drop_left
      refine ⟨mark, id, pub, hmark, hpub, ?_, rfl, ?_⟩
      · simp only [hdrop]
        simp
      · simp only [hshown, Option.getD_some]
    · cases h

theorem lawful_find (r : Renaming) : Text.Finder.Lawful r.find where
  append h := by
    obtain ⟨mark, id, pub, -, -, hs, htaken, -⟩ := find_eq_some h
    simp [htaken, hs]
  ne_nil h := by
    obtain ⟨mark, id, pub, -, -, -, htaken, -⟩ := find_eq_some h
    simp [htaken]

theorem find_of_not_isQuote (h : ¬ IsQuote c) : r.find before (c :: s) = none := by
  simp only [find]
  exact if_neg h

variable {pub : String} {u : List Char} {d : Char}

theorem find_quoteFree (hu : QuoteFree u) : r.find before (c :: u) = none := by
  rw [Option.eq_none_iff_forall_ne_some]
  intro m hm
  obtain ⟨mark, id, pub, hmark, -, hs, -⟩ := find_eq_some hm
  obtain ⟨-, rfl⟩ := List.cons.inj hs
  exact (quoteFree_cons.1 (quoteFree_append.1 hu).2).1 hmark

/-- The internal identifiers hold no quotation marks. -/
def QuoteFreeKeys (r : Renaming) : Prop := ∀ id pub, r.Maps id pub → QuoteFree id

theorem find_of_maps (hr : r.QuoteFreeKeys) (hc : IsQuote c) (hid : r.Maps id pub) :
    r.find before (c :: (id ++ c :: s)) = some ⟨c :: (pub.toList ++ [c]), c :: (id ++ [c]), s⟩ := by
  cases hm : r.find before (c :: (id ++ c :: s)) with
  | none =>
    have hfit : id ++ [c] <+: id ++ c :: s := by simp
    obtain ⟨id', hid'⟩ := Option.isSome_iff_exists.1
      (longestFit_isSome (mem_keys_iff.2 ⟨pub, hid⟩) hfit)
    have hquote : c = '"' ∨ c = '\'' := hc
    simp [find, hquote, hid'] at hm
  | some m =>
    obtain ⟨mark, id', pub', -, hid', hs, htaken, hvalue⟩ := find_eq_some hm
    obtain ⟨rfl, hs⟩ := List.cons.inj hs
    obtain ⟨rfl, -, rfl⟩ := quoteFree_append_inj (hr _ _ hid) (hr _ _ hid') hc hc hs
    obtain rfl : pub = pub' := Option.some.inj (hid.symm.trans hid')
    rw [← htaken, ← hvalue]

/-- Nothing is found at a quotation mark when the text up to the next one is not internal, or the
next one is another. -/
theorem find_eq_none (hr : r.QuoteFreeKeys) (hu : QuoteFree u) (hd : IsQuote d)
    (h : c = d → ∀ pub, ¬ r.Maps u pub) : r.find before (c :: (u ++ d :: s)) = none := by
  rw [Option.eq_none_iff_forall_ne_some]
  intro m hm
  obtain ⟨mark, id, pub, hmark, hid, hs, -⟩ := find_eq_some hm
  obtain ⟨rfl, hs⟩ := List.cons.inj hs
  obtain ⟨rfl, rfl, -⟩ := quoteFree_append_inj hu (hr _ _ hid) hd hmark hs
  exact h rfl pub hid

def renamed (r : Renaming) (s : List Char) : List Char :=
  (Text.piecesBehind r.find none s).flatMap substituted

theorem toList_substitute (r : Renaming) (text : String) :
    (r.substitute text).toList = r.renamed text.toList := by
  rw [substitute, String.toList_ofList, renamed, Text.pieces_eq]

theorem piecesBehind_find (before : Option Char) (s : List Char) :
    Text.piecesBehind r.find before s = Text.piecesBehind r.find none s := by
  cases s with
  | nil => rfl
  | cons c s =>
    cases hm : r.find none (c :: s) with
    | none =>
      have hbefore : r.find before (c :: s) = none := hm
      rw [Text.piecesBehind_of_none hm, Text.piecesBehind_of_none hbefore]
    | some m =>
      have hbefore : r.find before (c :: s) = some m := hm
      rw [Text.piecesBehind_of_some r.lawful_find hm,
        Text.piecesBehind_of_some r.lawful_find hbefore]

theorem renamed_of_none (h : r.find none (c :: s) = none) :
    r.renamed (c :: s) = c :: r.renamed s := by
  rw [renamed, Text.piecesBehind_of_none h, List.flatMap_cons, piecesBehind_find]
  rfl

theorem renamed_of_some {m : Text.Match (List Char)} (h : r.find none s = some m) :
    r.renamed s = m.value ++ r.renamed m.rest := by
  rw [renamed, Text.piecesBehind_of_some r.lawful_find h, List.flatMap_cons, piecesBehind_find]
  rfl

end Renaming

end AmbientTypes
