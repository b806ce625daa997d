import AmbientTypes.Proofs.Bundle.Occurrences
import AmbientTypes.Proofs.Bundle.Substitution

namespace AmbientTypes

namespace Header

/-- The literal of a header is literal number `n` of a text. -/
structure Occurrence.IsLiteral (o : Occurrence) (s : Segments) (n : Nat) : Prop where
  front : s.code.toList ++ (s.literals.take n).flatMap Literal.text = o.before ++ o.lead
  literal : ∃ l, s.literals[n]? = some l ∧ l.mark = o.mark ∧ l.content.toList = o.body

end Header

namespace Segments

variable {s : Segments} {n : Nat}

theorem literals_mapContents (f : String → String) (s : Segments) : (s.mapContents f).literals =
    s.literals.map fun l ↦ { l with content := f l.content } := rfl

theorem toList_text_of_getElem? {l : Literal} (h : s.literals[n]? = some l) :
    s.text.toList = (s.code.toList ++ (s.literals.take n).flatMap Literal.text) ++
      (l.text ++ (s.literals.drop (n + 1)).flatMap Literal.text) := by
  have hdrop : s.literals.drop n = l :: s.literals.drop (n + 1) := by
    rw [List.drop_eq_getElem?_toList_append, h]
    rfl
  rw [text, String.toList_ofList, List.append_assoc, ← List.flatMap_cons, ← hdrop,
    ← List.flatMap_append, List.take_append_drop]

/-- What stands in front of the last piece of code ends in a quotation mark, if it is not empty. It
does so with other contents too. -/
theorem exists_last_code (f : String → String) (code : String) (ls : List Literal)
    (hls : ∀ l ∈ ls, IsQuote l.mark) : ∃ u u' c,
      code.toList ++ ls.flatMap Literal.text = u ++ c ∧
      code.toList ++ (ls.map fun l ↦ { l with content := f l.content }).flatMap Literal.text =
        u' ++ c ∧
      u.getLast? = u'.getLast? ∧ ∀ b, u.getLast? = some b → IsQuote b := by
  rcases List.eq_nil_or_concat ls with rfl | ⟨ls, l, rfl⟩
  · exact ⟨[], [], code.toList, by simp, by simp, rfl, by simp⟩
  · rw [List.concat_eq_append] at hls ⊢
    have hl : IsQuote l.mark := hls l (by simp)
    refine ⟨code.toList ++ ls.flatMap Literal.text ++ l.mark :: l.content.toList ++ [l.mark],
      code.toList ++ (ls.map fun l ↦ { l with content := f l.content }).flatMap Literal.text ++
        l.mark :: (f l.content).toList ++ [l.mark], l.code.toList, ?_, ?_, ?_, ?_⟩
    · simp [Literal.text]
    · simp [Literal.text]
    · rw [List.getLast?_concat, List.getLast?_concat]
    · intro b hb
      rw [List.getLast?_concat] at hb
      exact Option.some.inj hb ▸ hl

/-- A lead stands in one piece of code. With other contents it stands there again, and the same
character precedes it. -/
theorem exists_before {code : String} {ls : List Literal} {before lead : List Char}
    (f : String → String) (hls : ∀ l ∈ ls, IsQuote l.mark) (hlead : QuoteFree lead)
    (hfront : code.toList ++ ls.flatMap Literal.text = before ++ lead) : ∃ before',
      code.toList ++ (ls.map fun l ↦ { l with content := f l.content }).flatMap Literal.text =
        before' ++ lead ∧ before'.getLast? = before.getLast? := by
  obtain ⟨u, u', c, hu, hu', hlast, hquote⟩ := exists_last_code f code ls hls
  -- Without quotation marks the lead cannot reach back into `u`.
  have hsplit : ∃ d, before = u ++ d ∧ c = d ++ lead := by
    rcases List.append_eq_append_iff.1 (hu.symm.trans hfront) with hd | ⟨d, rfl, hd⟩
    · exact hd
    · rcases List.eq_nil_or_concat d with rfl | ⟨d, b, rfl⟩
      · exact ⟨[], by simp, by simpa using hd.symm⟩
      · have hb : IsQuote b := hquote b (by simp)
        exact absurd hb (hlead b (by simp [hd]))
  obtain ⟨d, rfl, rfl⟩ := hsplit
  refine ⟨u' ++ d, by rw [hu', List.append_assoc], ?_⟩
  rw [List.getLast?_append, List.getLast?_append, hlast]

end Segments

namespace Header

/-- A header whose literal gets other content is a header again if the content may stand there. -/
theorem Occurrence.IsLiteral.exists_mapContents {o : Occurrence} {s : Segments} {n : Nat}
    (h : o.IsLiteral s n) (ho : o.IsIn s.text.toList) (hs : ∀ l ∈ s.literals, IsQuote l.mark)
    (f : String → String) (hbody : IsBodyIn o.mark (f (String.ofList o.body)).toList) :
    ∃ o' : Occurrence, o'.IsIn (s.mapContents f).text.toList ∧ o'.IsLiteral (s.mapContents f) n ∧
      o'.lead = o.lead ∧ o'.mark = o.mark ∧ o'.body = (f (String.ofList o.body)).toList := by
  obtain ⟨l, hl, hmark, hcontent⟩ := h.literal
  obtain ⟨before', hfront, hlast⟩ := Segments.exists_before f
    (fun l hl ↦ hs l (List.mem_of_mem_take hl)) ho.lead.quoteFree h.front
  have hshown : f l.content = f (String.ofList o.body) := by rw [← hcontent, String.ofList_toList]
  have hfront' : (s.mapContents f).code.toList ++
      ((s.mapContents f).literals.take n).flatMap Literal.text = before' ++ o.lead := by
    rw [Segments.literals_mapContents, ← List.map_take]
    exact hfront
  have hget : (s.mapContents f).literals[n]? = some { l with content := f l.content } := by
    rw [Segments.literals_mapContents, List.getElem?_map, hl, Option.map_some]
  refine ⟨⟨before', o.lead, o.mark, (f (String.ofList o.body)).toList,
    l.code.toList ++ ((s.mapContents f).literals.drop (n + 1)).flatMap Literal.text⟩,
    ⟨?_, ?_, ho.lead, ho.quote, hbody⟩, ⟨hfront', _, hget, hmark, ?_⟩, rfl, rfl, rfl⟩
  · rw [Segments.toList_text_of_getElem? hget, hfront']
    simp [Occurrence.taken, Literal.text, hmark, hshown]
  · have hboundary := ho.boundary
    rw [Occurrence.taken_append, isWordBoundary_lead ho.lead] at hboundary ⊢
    rw [hlast]
    exact hboundary
  · rw [← hshown]

end Header

theorem isBodyIn_scopedName {name key : String} {mark : Char} (hname : Manifest.IsAccepted name)
    (hmark : IsQuote mark) : Header.IsBodyIn mark (scopedName name key).toList ↔
      Header.IsBodyIn mark key.toList := by
  rw [toList_scopedName, Header.isBodyIn_append hmark hname.unquoted]
  refine Header.isBodyIn_cons ?_ (by decide) (by decide)
  rcases hmark with rfl | rfl <;> decide

/-- A key that may stand between two quotation marks of one kind. Its backslashes are turned. -/
@[mk_iff]
structure FitsIn (mark : Char) (key : List Char) : Prop where
  no_mark : mark ∉ key
  no_return : '\r' ∉ key
  no_newline : '\n' ∉ key

theorem isBodyIn_tidyKey {key : String} {mark : Char} (hmark : IsQuote mark) :
    Header.IsBodyIn mark (tidyKey key).toList ↔ FitsIn mark key.toList := by
  have hescape : '\\' ∉ (tidyKey key).toList := by
    intro h
    rcases mem_slashed ((tidyKey_suffix key).subset h) with heq | ⟨-, hne⟩
    · exact absurd heq (by decide)
    · exact hne rfl
  have hquote : mark ≠ '/' ∧ mark ≠ '\\' ∧ mark ≠ '.' := by
    rcases hmark with rfl | rfl <;> decide
  rw [Header.isBodyIn_iff_not_mem hescape, mem_tidyKey hquote, mem_tidyKey (by decide),
    mem_tidyKey (by decide), fitsIn_iff]

namespace PublicBundle

open Header

variable {m : Manifest} {bundle : String} {os : List Occurrence} {o : Occurrence}

theorem isBodyIn_publicName {id : String} {mark : Char} (hname : Manifest.IsAccepted m.name)
    (hmark : IsQuote mark) (hid : IsBodyIn mark id.toList) :
    IsBodyIn mark (Renaming.publicName m id).toList ↔
      ∀ key, ModulePath.keyFor? m id = some key → FitsIn mark key.toList := by
  unfold Renaming.publicName
  split
  · next key hkey =>
    rw [isBodyIn_scopedName hname hmark, isBodyIn_tidyKey hmark, hkey]
    simp
  · next hkey =>
    rw [isBodyIn_scopedName hname hmark, hkey]
    simp [hid]

theorem get?_identifier (hos : IsLeftmost bundle.toList os) (ho : o ∈ os) :
    (ofBundle m bundle).names.get? o.header.identifier =
      some (Renaming.publicName m o.header.identifier) := by
  obtain ⟨os', hos', hscan⟩ := exists_isLeftmost bundle
  obtain rfl := hos.unique hos'
  rw [ofBundle, Renaming.get?_ofIdentifiers, if_pos]
  rw [mem_distinct, hscan, List.map_map]
  exact List.mem_map_of_mem ho

/-- A public name may stand in the literal of a header just when the expose key of the module, if
there is one, may stand there. Then the header gets that literal, and is a header again. -/
theorem isBodyIn_name_iff {text path : String} (hm : Manifest.parse text path = .ok m)
    (hos : IsLeftmost bundle.toList os) (ho : o ∈ os) :
    ∃ pub, (ofBundle m bundle).names.get? o.header.identifier = some pub ∧
      (IsBodyIn o.mark pub.toList ↔ ∀ key,
        ModulePath.keyFor? m o.header.identifier = some key → FitsIn o.mark key.toList) ∧
      (IsBodyIn o.mark pub.toList → ∀ s n,
        (ofBundle m bundle).names.IsCut s bundle → o.IsLiteral s n → ∃ o' : Occurrence,
          o'.IsIn (ofBundle m bundle).text.toList ∧
          o'.IsLiteral (s.mapContents (ofBundle m bundle).names.shown) n ∧
          o'.lead = o.lead ∧ o'.mark = o.mark ∧ o'.body = pub.toList) := by
  have hin := hos.isIn o ho
  have hget := get?_identifier (m := m) hos ho
  have hid : IsBodyIn o.mark o.header.identifier.toList := by
    rw [Occurrence.header, String.toList_ofList]
    exact hin.body
  refine ⟨_, hget, isBodyIn_publicName (Manifest.isAccepted_of_parse hm) hin.quote hid,
    fun hbody s n hs hliteral ↦ ?_⟩
  have hshown : (ofBundle m bundle).names.shown (String.ofList o.body) =
      Renaming.publicName m o.header.identifier := by
    have hidentifier : String.ofList o.body = o.header.identifier := rfl
    rw [hidentifier, Renaming.shown, hget, Option.getD_some]
  have htext : (ofBundle m bundle).text = (s.mapContents (ofBundle m bundle).names.shown).text :=
    hs.substitute
  rw [← hshown] at hbody ⊢
  rw [htext]
  exact hliteral.exists_mapContents (hs.text_eq.symm ▸ hin) hs.quote _ hbody

section Example

def site : Segments :=
  ⟨"declare module ", [⟨'"', "src/Button", " \x7b\x7d"⟩]⟩

def button : Occurrence where
  before := []
  lead := "declare module ".toList
  mark := '"'
  body := "src/Button".toList
  after := " \x7b\x7d".toList

theorem isIn_button : button.IsIn site.text.toList where
  text := by decide
  boundary := by
    unfold Text.IsWordBoundary
    decide
  lead := by
    have hgap : IsGap [' '] := ⟨by decide, List.forall_mem_singleton.2 (by decide)⟩
    exact ⟨[' '], [' '], hgap, hgap, by decide⟩
  quote := by decide
  body := (isBodyIn_iff_not_mem (by decide)).2 (by decide)

theorem isLeftmost_site : IsLeftmost site.text.toList [button] := by
  obtain ⟨os, hos, hscan⟩ := exists_isLeftmost site.text
  have hlength : os.length = 1 := by
    rw [← List.length_map (f := Occurrence.header), ← hscan]
    decide +kernel
  obtain ⟨o, rfl⟩ := List.length_eq_one_iff.1 hlength
  rcases hos.covers button isIn_button with hmem | ⟨o', -, hlt, -⟩
  · rwa [List.mem_singleton.1 hmem]
  · cases hlt

theorem isCut_site : (ofBundle shop site.text).names.IsCut site site.text := by
  refine Renaming.isCut_of_isPlain (fun id pub hid ↦ ?_) (by decide) (by decide +kernel)
  have hentries : (ofBundle shop site.text).names.entries = [("src/Button", "shop/Button")] := by
    decide +kernel
  have hkey := Renaming.mem_keys_iff.2 ⟨pub, hid⟩
  rw [hentries] at hkey
  rw [List.mem_singleton.1 hkey]
  decide

theorem isBodyIn_name_iff_shop : ∃ o' : Occurrence,
    o'.IsIn (ofBundle shop site.text).text.toList ∧ o'.lead = button.lead ∧
      o'.body = "shop/Button".toList := by
  obtain ⟨pub, hpub, hiff, hheader⟩ :=
    isBodyIn_name_iff parse_shop isLeftmost_site (List.mem_singleton_self button)
  have hget : (ofBundle shop site.text).names.get? button.header.identifier =
      some "shop/Button" := by
    decide +kernel
  obtain rfl : "shop/Button" = pub := Option.some.inj (hget.symm.trans hpub)
  have hkey : ModulePath.keyFor? shop button.header.identifier = some "./Button" := by
    decide +kernel
  have hbody : IsBodyIn button.mark "shop/Button".toList := by
    rw [hiff, hkey]
    rintro key ⟨⟩
    exact ⟨by decide, by decide, by decide⟩
  have hliteral : button.IsLiteral site 0 := ⟨by decide, _, rfl, rfl, rfl⟩
  obtain ⟨o', hin, -, hlead, -, hpublic⟩ := hheader hbody site 0 isCut_site hliteral
  exact ⟨o', hin, hlead, hpublic⟩

def bigButton : Manifest :=
  ⟨"shop", [⟨"Big\"Button", "src/Button.tsx"⟩], "shop/federation.config.json"⟩

/-- The public name ends the literal, and what is read back is another module. -/
theorem name_ends_literal : Manifest.parse
      "\x7b\"name\": \"shop\", \"exposes\": \x7b\"Big\\\"Button\": \"src/Button.tsx\"\x7d\x7d"
      "shop/federation.config.json" = .ok bigButton ∧
    IsLeftmost site.text.toList [button] ∧
    (ofBundle bigButton site.text).names.get? button.header.identifier =
      some "shop/Big\"Button" ∧
    ¬ IsBodyIn button.mark "shop/Big\"Button".toList ∧
    (ofBundle bigButton site.text).text = "declare module \"shop/Big\"Button\" \x7b\x7d" ∧
    (scan (ofBundle bigButton site.text).text).map (·.identifier) = ["shop/Big"] := by
  have htext : (ofBundle bigButton site.text).text =
      "declare module \"shop/Big\"Button\" \x7b\x7d" := by
    decide +kernel
  refine ⟨by decide +kernel, isLeftmost_site, by decide +kernel, ?_, htext, ?_⟩
  · rw [isBodyIn_iff_not_mem (by decide)]
    decide
  · rw [htext]
    decide +kernel

end Example

end PublicBundle

end AmbientTypes
