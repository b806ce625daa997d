import AmbientTypes.Proofs.Bundle.Segments

namespace AmbientTypes

namespace Text

def IsWordBoundary (u v : List Char) : Prop :=
  u.getLast?.any isWordChar ≠ v.head?.any isWordChar

theorem prefix_of_utf8Length_le {u v s t : List Char} (h : u ++ s = v ++ t)
    (hle : utf8Length u ≤ utf8Length v) : u <+: v := by
  rcases List.prefix_or_prefix_of_prefix (List.prefix_append u s) ⟨t, h.symm⟩ with hu | hv
  · exact hu
  · obtain ⟨w, rfl⟩ := hv
    have hlength : utf8Length (v ++ w) = utf8Length v := by
      rw [utf8Length_append] at hle ⊢
      omega
    rw [List.append_assoc] at h
    have hsame : (v ++ w) ++ s = v ++ (w ++ s) := List.append_assoc v w s
    refine ⟨[], ?_⟩
    rw [List.append_nil, eq_of_utf8Length hsame hlength]

theorem utf8ByteSize_ofList (s : List Char) : (String.ofList s).utf8ByteSize = utf8Length s := by
  induction s with
  | nil => rfl
  | cons c s ih =>
    rw [String.ofList_cons, String.utf8ByteSize_append, String.utf8ByteSize_singleton, ih,
      utf8Length_cons]

theorem isValid_utf8Length (u v : List Char) :
    String.Pos.Raw.IsValid (String.ofList (u ++ v)) ⟨utf8Length u⟩ := by
  rw [String.Pos.Raw.isValid_iff_exists_append]
  refine ⟨String.ofList u, String.ofList v, by simp, ?_⟩
  rw [String.rawEndPos, utf8ByteSize_ofList]

theorem extract_utf8Length (u v w : List Char) :
    (String.ofList (u ++ (v ++ w))).toByteArray.extract (utf8Length u) (utf8Length (u ++ v)) =
      (String.ofList v).toByteArray := by
  have hsize (s : List Char) : (String.ofList s).toByteArray.size = utf8Length s := by
    rw [String.size_toByteArray, utf8ByteSize_ofList]
  have hfront : (String.ofList u).toByteArray.extract (utf8Length u) (utf8Length (u ++ v)) =
      ByteArray.empty := by
    rw [ByteArray.extract_eq_empty_iff, hsize]
    exact Nat.min_le_right _ _
  rw [String.ofList_append, String.toByteArray_append, ByteArray.extract_append, hfront, hsize,
    ByteArray.empty_append, Nat.sub_self, utf8Length_append, Nat.add_sub_cancel_left,
    String.ofList_append, String.toByteArray_append, ByteArray.extract_append_eq_left]
  exact (hsize v).symm

end Text

namespace Header

variable {before : Option Char} {s t u lead gap : List Char} {m : Text.Match (List Char)}

theorem afterBlanks_append (hgap : IsGap gap) (ht : t.head?.any Text.isBlank = false) :
    afterBlanks (gap ++ t) = some t := by
  obtain ⟨c, g, rfl⟩ := List.exists_cons_of_ne_nil hgap.ne_nil
  obtain ⟨hc, hg⟩ := List.forall_mem_cons.1 hgap.blank
  rw [List.cons_append, afterBlanks, if_pos hc, List.dropWhile_append_of_pos hg]
  cases t with
  | nil => rfl
  | cons d t => rw [List.dropWhile_cons_of_neg (by simpa using ht)]

theorem IsLead.afterKeywords_append (h : IsLead lead) (ht : t.head?.any Text.isBlank = false) :
    afterKeywords (lead ++ t) = some t := by
  obtain ⟨gap, gap', hgap, hgap', rfl⟩ := h
  have hm : Text.isBlank 'm' = false := by decide
  have hmodule : ("module".toList ++ (gap' ++ t)).head?.any Text.isBlank = false := hm
  simp only [List.append_assoc, afterKeywords, Text.after?_eq_some_iff.2 rfl,
    afterBlanks_append hgap hmodule, Option.bind_some, Option.bind_eq_bind,
    afterBlanks_append hgap' ht]

/-- A header in a text: what precedes it, its lead and its literal, and what follows. -/
structure Occurrence where
  before : List Char
  lead : List Char
  mark : Char
  body : List Char
  after : List Char

namespace Occurrence

variable {o o' : Occurrence}

def taken (o : Occurrence) : List Char :=
  o.lead ++ o.mark :: (o.body ++ [o.mark])

def start (o : Occurrence) : Nat :=
  Text.utf8Length o.before

def stop (o : Occurrence) : Nat :=
  Text.utf8Length (o.before ++ o.taken)

def header (o : Occurrence) : Header where
  identifier := String.ofList o.body
  start := Text.utf8Length (o.before ++ o.lead ++ [o.mark])
  stop := Text.utf8Length (o.before ++ o.lead ++ [o.mark] ++ o.body)

structure IsIn (o : Occurrence) (s : List Char) : Prop where
  text : o.before ++ (o.taken ++ o.after) = s
  boundary : Text.IsWordBoundary o.before (o.taken ++ o.after)
  lead : IsLead o.lead
  quote : IsQuote o.mark
  body : IsBodyIn o.mark o.body

theorem taken_append (o : Occurrence) :
    o.taken ++ o.after = o.lead ++ o.mark :: (o.body ++ o.mark :: o.after) := by
  simp [taken]

theorem getLast?_taken (o : Occurrence) : o.taken.getLast? = some o.mark := by
  rw [taken, ← List.cons_append, ← List.append_assoc, List.getLast?_concat]

theorem start_lt_stop (o : Occurrence) : o.start < o.stop := by
  have hpos := o.mark.utf8Size_pos
  simp only [start, stop, taken, Text.utf8Length_append, Text.utf8Length_cons]
  omega

theorem start_le (o : Occurrence) : o.start ≤ o.header.start := by
  simp only [start, header, Text.utf8Length_append]
  omega

theorem header_stop_lt (o : Occurrence) : o.header.stop < o.stop := by
  have hpos := o.mark.utf8Size_pos
  simp only [header, stop, taken, Text.utf8Length_append, Text.utf8Length_cons]
  omega

end Occurrence

/-- The first letter is a word character, so that the boundary is in front of it. -/
theorem isWordBoundary_lead (h : IsLead lead) :
    Text.IsWordBoundary u (lead ++ s) ↔ u.getLast?.any Text.isWordChar = false := by
  obtain ⟨rest, rfl⟩ := h.head
  have hd : Text.isWordChar 'd' = true := by decide
  simp [Text.IsWordBoundary, hd]

theorem find_append {o : Occurrence} (h : o.IsIn s) :
    find o.before.getLast? (o.taken ++ o.after) = some ⟨o.body, o.taken, o.after⟩ := by
  have hboundary := h.boundary
  rw [o.taken_append, isWordBoundary_lead h.lead] at hboundary
  have hmark : (o.mark :: (o.body ++ o.mark :: o.after)).head?.any Text.isBlank = false := by
    simpa using h.quote.not_isBlank
  have hquote : o.mark = '"' ∨ o.mark = '\'' := h.quote
  have hparts : (afterKeywords (o.taken ++ o.after)).bind literal = some (o.body, o.after) := by
    rw [o.taken_append, h.lead.afterKeywords_append hmark, Option.bind_some, literal,
      if_pos hquote, h.body.literalBody_append h.quote]
  have hlength : (o.taken ++ o.after).length - o.after.length = o.taken.length := by
    rw [List.length_append, Nat.add_sub_cancel]
  rw [find, if_neg (by simp [hboundary]), hparts]
  simp only [Option.bind_eq_bind, Option.bind_some, Option.pure_def, hlength, List.take_left]

theorem exists_isIn_of_find (h : find u.getLast? s = some m) :
    ∃ o : Occurrence, o.IsIn (u ++ s) ∧ o.before = u ∧ o.taken = m.taken ∧ o.body = m.value ∧
      o.after = m.rest := by
  obtain ⟨hword, lead, mark, hlead, hmark, -, hbody, htext, htaken⟩ := find_eq_some h
  refine ⟨⟨u, lead, mark, m.value, m.rest⟩, ⟨?_, ?_, hlead, hmark, isBodyIn_of_literalBody hbody⟩,
    rfl, htaken.symm, rfl, rfl⟩
  · exact congrArg (u ++ ·) ((Occurrence.taken_append _).trans htext.symm)
  · rw [Occurrence.taken_append, isWordBoundary_lead hlead]
    exact hword

/-- At one place there is at most one header. -/
theorem Occurrence.IsIn.eq {o o' : Occurrence} (h : o.IsIn s) (h' : o'.IsIn s)
    (hbefore : o.before = o'.before) : o = o' := by
  have htext := h.text.trans h'.text.symm
  rw [hbefore] at htext
  have hfind := find_append h
  rw [hbefore, List.append_cancel_left htext, find_append h'] at hfind
  obtain ⟨hbody, htaken, hafter⟩ := Text.Match.mk.inj (Option.some.inj hfind)
  have hmark : o'.mark = o.mark := by
    have hlast := congrArg List.getLast? htaken
    simpa only [getLast?_taken, Option.some.injEq] using hlast
  rw [taken, taken, hbody, hmark] at htaken
  have hlead := List.append_cancel_right htaken
  calc
    o = ⟨o.before, o.lead, o.mark, o.body, o.after⟩ := rfl
    _ = ⟨o'.before, o'.lead, o'.mark, o'.body, o'.after⟩ := by
      rw [hbefore, hlead, hmark, hbody, hafter]
    _ = o' := rfl

/-- From byte `n` on, the headers that a search from the left takes: they lie apart, and every other
one begins inside of one of them. -/
structure IsLeftmostFrom (n : Nat) (s : List Char) (os : List Occurrence) : Prop where
  isIn : ∀ o ∈ os, o.IsIn s ∧ n ≤ o.start
  apart : os.Pairwise fun o o' ↦ o.stop ≤ o'.start
  covers : ∀ o : Occurrence, o.IsIn s → n ≤ o.start →
    o ∈ os ∨ ∃ o' ∈ os, o'.start < o.start ∧ o.start < o'.stop

theorem isLeftmostFrom_length (s : List Char) : IsLeftmostFrom (Text.utf8Length s) s [] where
  isIn := by simp
  apart := .nil
  covers o h hle := by
    have hlt := o.start_lt_stop
    rw [← h.text, ← List.append_assoc, Text.utf8Length_append] at hle
    rw [Occurrence.stop] at hlt
    omega

theorem IsLeftmostFrom.plain {u : List Char} {c : Char} {os : List Occurrence}
    (h : IsLeftmostFrom (Text.utf8Length (u ++ [c])) (u ++ c :: s) os)
    (hm : find u.getLast? (c :: s) = none) :
    IsLeftmostFrom (Text.utf8Length u) (u ++ c :: s) os where
  isIn o ho := by
    have hle := (h.isIn o ho).2
    rw [Text.utf8Length_append] at hle
    exact ⟨(h.isIn o ho).1, by omega⟩
  apart := h.apart
  covers o ho hle := by
    refine h.covers o ho ?_
    obtain ⟨w, hw⟩ := Text.prefix_of_utf8Length_le ho.text.symm hle
    have htext := ho.text
    rw [← hw, List.append_assoc] at htext
    have htail := List.append_cancel_left htext
    cases w with
    | nil =>
      have hfind := find_append ho
      rw [← hw, List.append_nil, ← List.nil_append (o.taken ++ o.after), htail, hm] at hfind
      cases hfind
    | cons d w =>
      obtain ⟨rfl, -⟩ := List.cons.inj htail
      rw [Occurrence.start, ← hw]
      simp only [Text.utf8Length_append, Text.utf8Length_cons, Text.utf8Length_nil]
      omega

theorem IsLeftmostFrom.found {o : Occurrence} {os : List Occurrence}
    (h : IsLeftmostFrom o.stop s os) (ho : o.IsIn s) : IsLeftmostFrom o.start s (o :: os) where
  isIn o' ho' := by
    rcases List.mem_cons.1 ho' with rfl | ho'
    · exact ⟨ho, Nat.le_refl _⟩
    · exact ⟨(h.isIn o' ho').1, o.start_lt_stop.le.trans (h.isIn o' ho').2⟩
  apart := .cons (fun o' ho' ↦ (h.isIn o' ho').2) h.apart
  covers o' ho' hle := by
    rcases Nat.lt_or_ge o'.start o.stop with hlt | hge
    · rcases Nat.lt_or_eq_of_le hle with hstart | hstart
      · exact .inr ⟨o, List.mem_cons_self, hstart, hlt⟩
      · have htext := ho.text.trans ho'.text.symm
        have heq := ho.eq ho' (Text.eq_of_utf8Length htext hstart)
        exact .inl (heq ▸ List.mem_cons_self)
    · rcases h.covers o' ho' hge with hmem | ⟨e, he, hinside⟩
      · exact .inl (List.mem_cons_of_mem o hmem)
      · exact .inr ⟨e, List.mem_cons_of_mem o he, hinside⟩

theorem ofPieces_found {o : Occurrence} (ho : o.IsIn s) (ps : List (Text.Piece (List Char))) :
    ofPieces o.start (.found o.body o.taken :: ps) = o.header :: ofPieces o.stop ps := by
  have hmark := ho.quote.utf8Size
  have hstop : o.start + Text.utf8Length o.taken = o.stop := by
    rw [Occurrence.stop, Text.utf8Length_append, Occurrence.start]
  have hheader : Header.mk (String.ofList o.body) (o.stop - 1 - Text.utf8Length o.body)
      (o.stop - 1) = o.header := by
    simp only [Occurrence.header, Occurrence.stop, Occurrence.taken, Text.utf8Length_append,
      Text.utf8Length_cons, Text.utf8Length_nil, hmark]
    congr 1 <;> omega
  rw [ofPieces, hstop, hheader]

/-- The search behind `u` takes the leftmost headers, and gives their identifiers and bytes. -/
theorem exists_isLeftmostFrom (u s : List Char) : ∃ os,
    IsLeftmostFrom (Text.utf8Length u) (u ++ s) os ∧
      ofPieces (Text.utf8Length u) (Text.piecesBehind find u.getLast? s) =
        os.map Occurrence.header := by
  generalize hbefore : u.getLast? = before
  induction before, s using lawful_find.induction generalizing u with
  | nil before =>
    refine ⟨[], ?_, rfl⟩
    rw [List.append_nil]
    exact isLeftmostFrom_length u
  | plain before c s hm ih =>
    obtain ⟨os, hos, hpieces⟩ := ih (u ++ [c]) (by simp)
    rw [List.append_assoc, List.singleton_append] at hos
    refine ⟨os, hos.plain (hbefore ▸ hm), ?_⟩
    rw [Text.piecesBehind_of_none hm, ofPieces, ← hpieces, Text.utf8Length_append]
    rfl
  | found before s m hm ih =>
    obtain ⟨o, ho, rfl, htaken, hbody, hafter⟩ := exists_isIn_of_find (hbefore ▸ hm)
    have hlast : (o.before ++ m.taken).getLast? = m.taken.getLast? := by
      rw [List.getLast?_append_of_ne_nil _ (lawful_find.ne_nil hm)]
    obtain ⟨os, hos, hpieces⟩ := ih (o.before ++ m.taken) hlast
    rw [List.append_assoc, lawful_find.append hm, ← htaken] at hos
    refine ⟨o :: os, hos.found ho, ?_⟩
    rw [Text.piecesBehind_of_some lawful_find hm, ← hbody, ← htaken]
    rw [← htaken] at hpieces
    exact (ofPieces_found ho _).trans (congrArg _ hpieces)

structure IsLeftmost (s : List Char) (os : List Occurrence) : Prop where
  isIn : ∀ o ∈ os, o.IsIn s
  apart : os.Pairwise fun o o' ↦ o.stop ≤ o'.start
  covers : ∀ o : Occurrence, o.IsIn s → o ∈ os ∨ ∃ o' ∈ os, o'.start < o.start ∧ o.start < o'.stop

namespace IsLeftmost

variable {os os' : List Occurrence} {o o' : Occurrence}

theorem stop_le_or (h : IsLeftmost s os) (ho : o ∈ os) (ho' : o' ∈ os) (hne : o ≠ o') :
    o.stop ≤ o'.start ∨ o'.stop ≤ o.start := by
  let R (o o' : Occurrence) : Prop := o.stop ≤ o'.start ∨ o'.stop ≤ o.start
  have hsymm : Std.Symm R := ⟨fun _ _ ↦ Or.symm⟩
  have hor : os.Pairwise R := h.apart.imp Or.inl
  exact hor.forall ho ho' hne

theorem mem_iff (h : IsLeftmost s os) (h' : IsLeftmost s os') (o : Occurrence) :
    o ∈ os ↔ o ∈ os' := by
  induction hn : o.start using Nat.strongRecOn generalizing o with
  | _ n ih =>
    -- One that is missing begins inside of an earlier one, which is missing in neither list.
    have hmem {os os' : List Occurrence} (h : IsLeftmost s os) (h' : IsLeftmost s os')
        (hsame : ∀ e : Occurrence, e.start < n → e ∈ os' → e ∈ os) (ho : o ∈ os) : o ∈ os' := by
      rcases h'.covers o (h.isIn o ho) with hmem | ⟨e, he, hstart, hstop⟩
      · exact hmem
      · have hne : e ≠ o := fun heq ↦ absurd hstart (heq ▸ Nat.lt_irrefl _)
        have hlt := o.start_lt_stop
        rcases h.stop_le_or (hsame e (hn ▸ hstart) he) ho hne with hle | hle <;> omega
    exact ⟨hmem h h' fun e he ↦ (ih e.start he e rfl).2,
      hmem h' h fun e he ↦ (ih e.start he e rfl).1⟩

theorem unique (h : IsLeftmost s os) (h' : IsLeftmost s os') : os = os' := by
  have hsorted {os : List Occurrence} (h : IsLeftmost s os) :
      os.Pairwise fun o o' ↦ o.start < o'.start :=
    h.apart.imp fun {o _} hle ↦ o.start_lt_stop.trans_le hle
  have hnodup {os : List Occurrence} (h : IsLeftmost s os) : os.Nodup :=
    (hsorted h).imp fun {o o'} hlt (heq : o = o') ↦ absurd hlt (heq ▸ Nat.lt_irrefl _)
  have hperm : os.Perm os' :=
    (List.perm_ext_iff_of_nodup (hnodup h) (hnodup h')).2 (h.mem_iff h')
  exact hperm.eq_of_pairwise (fun _ _ _ _ hlt hgt ↦ absurd (hlt.trans hgt) (Nat.lt_irrefl _))
    (hsorted h) (hsorted h')

end IsLeftmost

structure IsSlice (h : Header) (text : String) : Prop where
  start : String.Pos.Raw.IsValid text ⟨h.start⟩
  stop : String.Pos.Raw.IsValid text ⟨h.stop⟩
  le : h.start ≤ h.stop
  extract : text.toByteArray.extract h.start h.stop = h.identifier.toByteArray

theorem Occurrence.IsIn.isSlice {o : Occurrence} {text : String} (h : o.IsIn text.toList) :
    o.header.IsSlice text := by
  have htext : text =
      String.ofList (o.before ++ o.lead ++ [o.mark] ++ (o.body ++ o.mark :: o.after)) := by
    rw [← String.toList_inj, String.toList_ofList, ← h.text, o.taken_append]
    simp
  constructor
  · rw [htext]
    exact Text.isValid_utf8Length _ _
  · rw [htext, ← List.append_assoc]
    exact Text.isValid_utf8Length _ _
  · simp only [header, Text.utf8Length_append]
    omega
  · rw [htext]
    exact Text.extract_utf8Length _ _ _

theorem exists_isLeftmost (text : String) :
    ∃ os, IsLeftmost text.toList os ∧ scan text = os.map Occurrence.header := by
  obtain ⟨os, hos, hpieces⟩ := exists_isLeftmostFrom [] text.toList
  refine ⟨os, ⟨fun o ho ↦ (hos.isIn o ho).1, hos.apart,
    fun o ho ↦ hos.covers o ho (Nat.zero_le _)⟩, ?_⟩
  rw [scan, Text.pieces_eq]
  exact hpieces

/-- A scan gives the headers that stand in a text, from the left, but those that begin inside of one
that it gives. -/
theorem scan_leftmost (text : String) :
    (∃! os, IsLeftmost text.toList os) ∧
      (∀ os, IsLeftmost text.toList os → scan text = os.map Occurrence.header) ∧
      (∀ h ∈ scan text, h.IsSlice text) ∧
      (scan text).Pairwise fun h h' ↦ h.stop < h'.start := by
  obtain ⟨os, hos, hscan⟩ := exists_isLeftmost text
  refine ⟨⟨os, hos, fun os' h ↦ h.unique hos⟩, fun os' h ↦ ?_, ?_, ?_⟩
  · rw [h.unique hos, hscan]
  · rw [hscan, List.forall_mem_map]
    exact fun o ho ↦ (hos.isIn o ho).isSlice
  · rw [hscan, List.pairwise_map]
    exact hos.apart.imp fun {o o'} hle ↦ o.header_stop_lt.trans_le (hle.trans o'.start_le)

/-- A lookalike, and a header in the identifier of another one. -/
example : scan "undeclare module 'a'; declare\tmodule \"é declare module 'b'\"" =
    [⟨"é declare module 'b'", 38, 59⟩] := by
  decide +kernel

end Header

end AmbientTypes
