import AmbientTypes.Proofs.Bundle.PublicName
import Mathlib.Data.List.Chain

namespace AmbientTypes

namespace Text

theorem eq_of_utf8Length {u v s t : List Char} (h : u ++ s = v ++ t)
    (hlength : utf8Length u = utf8Length v) : u = v := by
  induction u generalizing v with
  | nil =>
    cases v with
    | nil => rfl
    | cons d v =>
      have hpos := d.utf8Size_pos
      simp only [utf8Length_nil, utf8Length_cons] at hlength
      omega
  | cons c u ih =>
    cases v with
    | nil =>
      have hpos := c.utf8Size_pos
      simp only [utf8Length_nil, utf8Length_cons] at hlength
      omega
    | cons d v =>
      obtain ⟨rfl, htail⟩ := List.cons.inj h
      rw [utf8Length_cons, utf8Length_cons, Nat.add_left_cancel_iff] at hlength
      rw [ih htail hlength]

end Text

theorem IsQuote.utf8Size {c : Char} (h : IsQuote c) : c.utf8Size = 1 := by
  rcases h with rfl | rfl <;> rfl

namespace Header

structure IsAt (h : Header) (offset : Nat) (s u v : List Char) (mark : Char) : Prop where
  quote : IsQuote mark
  text : s = u ++ mark :: (h.identifier.toList ++ mark :: v)
  start : h.start = offset + Text.utf8Length (u ++ [mark])
  stop : h.stop = h.start + Text.utf8Length h.identifier.toList

theorem IsAt.append {h : Header} {offset : Nat} {s u v w : List Char} {mark : Char}
    (hat : h.IsAt (offset + Text.utf8Length w) s u v mark) :
    h.IsAt offset (w ++ s) (w ++ u) v mark where
  quote := hat.quote
  text := by rw [hat.text, List.append_assoc]
  start := by
    rw [hat.start, List.append_assoc, Text.utf8Length_append w, Nat.add_assoc]
  stop := hat.stop

theorem exists_isAt_of_mem_ofPieces {h : Header} (before : Option Char) (s : List Char)
    (offset : Nat) (hh : h ∈ ofPieces offset (Text.piecesBehind find before s)) :
    ∃ u v mark, h.IsAt offset s u v mark := by
  induction before, s using lawful_find.induction generalizing offset with
  | nil => cases hh
  | plain before c s hm ih =>
    rw [Text.piecesBehind_of_none hm, ofPieces] at hh
    obtain ⟨u, v, mark, hat⟩ := ih _ hh
    exact ⟨_, _, _, IsAt.append (w := [c]) (by simpa using hat)⟩
  | found before s m hm ih =>
    rw [Text.piecesBehind_of_some lawful_find hm, ofPieces] at hh
    rcases List.mem_cons.1 hh with rfl | hh
    · obtain ⟨-, lead, mark, -, hmark, -, -, htext, htaken⟩ := find_eq_some hm
      refine ⟨lead, m.rest, mark, hmark, ?_, ?_, ?_⟩
      · rw [String.toList_ofList, htext]
      · simp only [htaken, Text.utf8Length_append, Text.utf8Length_cons, Text.utf8Length_nil,
          hmark.utf8Size]
        omega
      · simp only [htaken, Text.utf8Length_append, Text.utf8Length_cons, Text.utf8Length_nil,
          hmark.utf8Size, String.toList_ofList]
        omega
    · obtain ⟨u, v, mark, hat⟩ := ih _ hh
      rw [← lawful_find.append hm]
      exact ⟨_, _, _, hat.append⟩

end Header

structure Literal where
  mark : Char
  content : String
  code : String
  deriving DecidableEq, Repr

namespace Literal

def text (l : Literal) : List Char :=
  l.mark :: (l.content.toList ++ l.mark :: l.code.toList)

@[mk_iff]
structure IsPlain (l : Literal) : Prop where
  quote : IsQuote l.mark
  content : QuoteFree l.content.toList
  code : QuoteFree l.code.toList

instance (l : Literal) : Decidable l.IsPlain :=
  decidable_of_iff _ (isPlain_iff l).symm

def spans (offset : Nat) : List Literal → List (Nat × Nat)
  | [] => []
  | l :: ls =>
    let start := offset + l.mark.utf8Size
    (start, start + Text.utf8Length l.content.toList) ::
      spans (offset + Text.utf8Length l.text) ls

theorem mem_spans {offset : Nat} {ls : List Literal} {span : Nat × Nat}
    (h : span ∈ spans offset ls) : ∃ ls₁ l ls₂, ls = ls₁ ++ l :: ls₂ ∧
      span.1 = offset + Text.utf8Length (ls₁.flatMap text ++ [l.mark]) ∧
      span.2 = span.1 + Text.utf8Length l.content.toList := by
  induction ls generalizing offset with
  | nil => cases h
  | cons l ls ih =>
    rcases List.mem_cons.1 h with rfl | h
    · exact ⟨[], l, ls, rfl, by simp, rfl⟩
    · obtain ⟨ls₁, l', ls₂, rfl, hstart, hstop⟩ := ih h
      refine ⟨l :: ls₁, l', ls₂, rfl, ?_, hstop⟩
      rw [hstart, List.flatMap_cons, List.append_assoc, Text.utf8Length_append l.text,
        Nat.add_assoc]

end Literal

structure Segments where
  code : String
  literals : List Literal
  deriving DecidableEq, Repr

namespace Segments

def text (s : Segments) : String :=
  String.ofList (s.code.toList ++ s.literals.flatMap Literal.text)

def mapContents (f : String → String) (s : Segments) : Segments where
  code := s.code
  literals := s.literals.map fun l ↦ { l with content := f l.content }

@[mk_iff]
structure IsPlain (s : Segments) : Prop where
  code : QuoteFree s.code.toList
  literals : ∀ l ∈ s.literals, l.IsPlain

instance (s : Segments) : Decidable s.IsPlain :=
  decidable_of_iff _ (isPlain_iff s).symm

def spans (s : Segments) : List (Nat × Nat) :=
  Literal.spans (Text.utf8Length s.code.toList) s.literals

theorem identifier_of_span {s : Segments} {h : Header} (hh : h ∈ Header.scan s.text)
    (hspan : (h.start, h.stop) ∈ s.spans) : ∃ l ∈ s.literals, l.content = h.identifier := by
  obtain ⟨u, v, mark, hat⟩ := Header.exists_isAt_of_mem_ofPieces none _ 0 hh
  obtain ⟨ls₁, l, ls₂, hls, hstart, hstop⟩ := Literal.mem_spans hspan
  have htext : (s.code.toList ++ (ls₁.flatMap Literal.text ++ [l.mark])) ++
      (l.content.toList ++ l.mark :: (l.code.toList ++ ls₂.flatMap Literal.text)) =
      (u ++ [mark]) ++ (h.identifier.toList ++ mark :: v) := by
    calc
      _ = s.text.toList := by simp [text, hls, Literal.text]
      _ = u ++ mark :: (h.identifier.toList ++ mark :: v) := hat.text
      _ = _ := by rw [List.append_assoc, List.singleton_append]
  have hbegin : s.code.toList ++ (ls₁.flatMap Literal.text ++ [l.mark]) = u ++ [mark] := by
    refine Text.eq_of_utf8Length htext ?_
    rw [Text.utf8Length_append, ← hstart, hat.start, Nat.zero_add]
  rw [hbegin] at htext
  have hcontent : l.content.toList = h.identifier.toList := by
    refine Text.eq_of_utf8Length (List.append_cancel_left htext) ?_
    have hsame := hstop.symm.trans hat.stop
    exact Nat.add_left_cancel hsame
  exact ⟨l, by simp [hls], String.toList_inj.1 hcontent⟩

end Segments

namespace Renaming

variable {r : Renaming}

theorem maps_toList {internal pub : String} :
    r.Maps internal.toList pub ↔ r.get? internal = some pub := by
  rw [Maps, String.ofList_toList]

theorem renamed_code {u s : List Char} (hu : QuoteFree u) :
    r.renamed (u ++ s) = u ++ r.renamed s := by
  induction u with
  | nil => rfl
  | cons c u ih =>
    obtain ⟨hc, hu⟩ := quoteFree_cons.1 hu
    rw [List.cons_append, renamed_of_none (find_of_not_isQuote hc), ih hu, List.cons_append]

def shown (r : Renaming) (content : String) : String :=
  (r.get? content).getD content

/-- No internal name stands between two literals in the same marks. -/
def IsApart (r : Renaming) (ls : List Literal) : Prop :=
  ls.IsChain fun l l' ↦ l.mark = l'.mark → r.get? l.code = none

theorem find_behind {l : Literal} {ls : List Literal} (hr : r.QuoteFreeKeys) (hl : l.IsPlain)
    (hls : ∀ l ∈ ls, l.IsPlain) (hapart : r.IsApart (l :: ls)) :
    r.find none (l.mark :: (l.code.toList ++ ls.flatMap Literal.text)) = none := by
  cases ls with
  | nil =>
    rw [List.flatMap_nil, List.append_nil]
    exact find_quoteFree hl.code
  | cons l' ls =>
    have hnone := (List.isChain_cons_cons.1 hapart).1
    rw [List.flatMap_cons, Literal.text, List.cons_append]
    refine find_eq_none hr hl.code (hls l' List.mem_cons_self).quote fun hmark pub hpub ↦ ?_
    rw [maps_toList, hnone hmark] at hpub
    cases hpub

theorem renamed_literals {ls : List Literal} (hr : r.QuoteFreeKeys)
    (hls : ∀ l ∈ ls, l.IsPlain) (hapart : r.IsApart ls) :
    r.renamed (ls.flatMap Literal.text) =
      (ls.map fun l ↦ { l with content := r.shown l.content }).flatMap Literal.text := by
  induction ls with
  | nil => rfl
  | cons l ls ih =>
    rw [List.forall_mem_cons] at hls
    obtain ⟨hl, hls⟩ := hls
    have hrest := ih hls (List.IsChain.of_cons hapart)
    have hcode := renamed_code (r := r) (s := ls.flatMap Literal.text) hl.code
    have htext : (l :: ls).flatMap Literal.text =
        l.mark :: (l.content.toList ++ l.mark :: (l.code.toList ++ ls.flatMap Literal.text)) := by
      simp [Literal.text]
    rw [htext, List.map_cons, List.flatMap_cons, Literal.text, ← hrest]
    -- A literal that is not renamed is passed over mark by mark: neither may open another one.
    cases hpub : r.get? l.content with
    | some pub =>
      have hfind : r.find none (l.mark :: (l.content.toList ++ l.mark ::
          (l.code.toList ++ ls.flatMap Literal.text))) = some _ :=
        find_of_maps hr hl.quote (maps_toList.2 hpub)
      rw [renamed_of_some hfind, shown, hpub, Option.getD_some, hcode]
      simp
    | none =>
      have hopen : r.find none (l.mark :: (l.content.toList ++ l.mark ::
          (l.code.toList ++ ls.flatMap Literal.text))) = none := by
        refine find_eq_none hr hl.content hl.quote fun _ pub hmaps ↦ ?_
        rw [maps_toList, hpub] at hmaps
        cases hmaps
      rw [renamed_of_none hopen, renamed_code hl.content,
        renamed_of_none (find_behind hr hl hls hapart), hcode, shown, hpub, Option.getD_none]
      simp

theorem substitute_segments {s : Segments} (hr : r.QuoteFreeKeys) (hs : s.IsPlain)
    (hapart : r.IsApart s.literals) : r.substitute s.text = (s.mapContents r.shown).text := by
  rw [← String.toList_inj, toList_substitute, Segments.text, String.toList_ofList,
    renamed_code hs.code, renamed_literals hr hs.literals hapart, Segments.text,
    String.toList_ofList]
  rfl

end Renaming

namespace PublicBundle

variable {m : Manifest}

/-- Exactly the literals of declared modules get public names; everything else stays. -/
theorem text_segments {s : Segments} (hs : s.IsPlain)
    (hspans : ∀ h ∈ Header.scan s.text, (h.start, h.stop) ∈ s.spans)
    (hcode : s.literals.IsChain fun l l' ↦ l.mark = l'.mark →
      l.code ∉ (Header.scan s.text).map (·.identifier)) :
    (ofBundle m s.text).text = (s.mapContents (ofBundle m s.text).names.shown).text ∧
      ∀ content, (ofBundle m s.text).names.get? content =
        if content ∈ (Header.scan s.text).map (·.identifier)
        then some (Renaming.publicName m content) else none := by
  have hget (content : String) : (ofBundle m s.text).names.get? content =
      if content ∈ (Header.scan s.text).map (·.identifier)
      then some (Renaming.publicName m content) else none := by
    simp only [ofBundle, Renaming.get?_ofIdentifiers, Header.mem_distinct]
  have hapart : (ofBundle m s.text).names.IsApart s.literals :=
    hcode.imp fun l l' h hmark ↦ by rw [hget, if_neg (h hmark)]
  have hkeys : (ofBundle m s.text).names.QuoteFreeKeys := by
    intro id pub hid
    rw [Renaming.Maps, hget] at hid
    split at hid
    · next hmem =>
      obtain ⟨h, hh, hid'⟩ := List.mem_map.1 hmem
      obtain ⟨l, hl, hcontent⟩ := Segments.identifier_of_span hh (hspans h hh)
      have hfree := (hs.literals l hl).content
      rwa [hcontent, hid', String.toList_ofList] at hfree
    · cases hid
  exact ⟨Renaming.substitute_segments hkeys hs hapart, hget⟩

section Example

def windows : Segments where
  code := "declare module "
  literals := [
    ⟨'"', "src/Button", " \x7b import "⟩,
    ⟨'\'', "theme", "; import "⟩,
    ⟨'\'', "theme/dark", "; \x7d declare module "⟩,
    ⟨'\'', "theme", " \x7b export * from "⟩,
    ⟨'\'', "src/Button", "; import "⟩,
    ⟨'"', "react", "; \x7d"⟩]

theorem text_segments_windows : (ofBundle shop windows.text).text =
    "declare module \"shop/Button\" \x7b import 'shop/theme'; import 'theme/dark'; \x7d " ++
      "declare module 'shop/theme' \x7b export * from 'shop/Button'; import \"react\"; \x7d" := by
  have hspans : ∀ h ∈ Header.scan windows.text, (h.start, h.stop) ∈ windows.spans := by
    decide +kernel
  have hcode : windows.literals.IsChain fun l l' ↦ l.mark = l'.mark →
      l.code ∉ (Header.scan windows.text).map (·.identifier) := by
    decide +kernel
  rw [(text_segments (m := shop) (by decide) hspans hcode).1]
  decide +kernel

end Example

end PublicBundle

end AmbientTypes
