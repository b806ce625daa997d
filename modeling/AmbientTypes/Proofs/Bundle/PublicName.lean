import AmbientTypes.Proofs.Bundle.Modules
import AmbientTypes.Proofs.Manifest.Names

namespace AmbientTypes

namespace Header

variable {u v : List Char}

theorem isClean_slash (hu : QuoteFree u) (hv : IsClean v) : IsClean (u ++ '/' :: v) where
  quoteFree := quoteFree_append.2 ⟨hu, quoteFree_cons.2 ⟨by decide, hv.quoteFree⟩⟩
  last := by
    have hlast := hv.last
    rw [List.getLast?_append, List.getLast?_cons]
    cases hl : v.getLast? with
    | none =>
      rw [Option.getD_none, Option.some_or]
      decide
    | some b => simpa [hl] using hlast

theorem isIdentifier_slash (hu : ∀ c ∈ u, ¬ IsQuote c ∧ c ≠ '\\' ∧ c ≠ '\r' ∧ c ≠ '\n')
    (hv : IsIdentifier v) : IsIdentifier (u ++ '/' :: v) where
  toIsClean := isClean_slash (fun c hc ↦ (hu c hc).1) hv.toIsClean
  body := (isBody_of_forall hu).append
    (.plain (by decide) (by decide) (by decide) hv.body)

end Header

theorem toList_scopedName (name key : String) :
    (scopedName name key).toList = name.toList ++ '/' :: key.toList := by
  simp [scopedName]

theorem Manifest.IsAccepted.unquoted {name : String} (h : Manifest.IsAccepted name) :
    ∀ c ∈ name.toList, ¬ IsQuote c ∧ c ≠ '\\' ∧ c ≠ '\r' ∧ c ≠ '\n' := by
  intro c hc
  have hne {d : Char} (hd : Manifest.isForbidden d = true) : c ≠ d :=
    fun heq ↦ h.not_mem hd (heq ▸ hc)
  refine ⟨?_, hne (by decide), hne (by decide), hne (by decide)⟩
  rintro (hquote | hquote)
  · exact hne (by decide) hquote
  · exact hne (by decide) hquote

theorem isIdentifier_scopedName {name key : String} (hname : Manifest.IsAccepted name)
    (hkey : Header.IsIdentifier key.toList) :
    Header.IsIdentifier (scopedName name key).toList := by
  rw [toList_scopedName]
  exact Header.isIdentifier_slash hname.unquoted hkey

/-- Tidying turns backslashes and takes off a beginning, if anything. -/
theorem tidyKey_suffix (key : String) :
    (tidyKey key).toList <:+ ModulePath.slashed key.toList := by
  rw [tidyKey, String.toList_ofList]
  generalize ModulePath.slashed key.toList = s
  split
  · exact ⟨['.', '/'], rfl⟩
  · exact List.suffix_refl _

theorem mem_tidyKey {key : String} {c : Char} (hc : c ≠ '/' ∧ c ≠ '\\' ∧ c ≠ '.') :
    c ∈ (tidyKey key).toList ↔ c ∈ key.toList := by
  have hslashed : c ∈ ModulePath.slashed key.toList ↔ c ∈ key.toList := by
    rw [ModulePath.slashed, List.mem_map]
    constructor
    · rintro ⟨d, hd, rfl⟩
      split
      · next heq => simp [heq] at hc
      · exact hd
    · exact fun h ↦ ⟨c, h, if_neg hc.2.1⟩
  rw [← hslashed, tidyKey, String.toList_ofList]
  generalize ModulePath.slashed key.toList = s
  split
  · simp [hc]
  · rfl

structure IsShowable (key : List Char) : Prop extends Header.IsClean key where
  no_return : '\r' ∉ key
  no_newline : '\n' ∉ key

theorem mem_slashed {s : List Char} {c : Char} (h : c ∈ ModulePath.slashed s) :
    c = '/' ∨ c ∈ s ∧ c ≠ '\\' := by
  obtain ⟨d, hd, rfl⟩ := List.mem_map.1 h
  split
  · exact Or.inl rfl
  · next hne => exact Or.inr ⟨hd, hne⟩

theorem isIdentifier_tidyKey {key : String} (h : IsShowable key.toList) :
    Header.IsIdentifier (tidyKey key).toList := by
  have hsuffix := tidyKey_suffix key
  have hchars : ∀ c ∈ (tidyKey key).toList, ¬ IsQuote c ∧ c ≠ '\\' ∧ c ≠ '\r' ∧ c ≠ '\n' := by
    intro c hc
    rcases mem_slashed (hsuffix.subset hc) with rfl | ⟨hmem, hescape⟩
    · decide
    · refine ⟨h.quoteFree c hmem, hescape, ?_, ?_⟩
      · rintro rfl
        exact h.no_return hmem
      · rintro rfl
        exact h.no_newline hmem
  refine ⟨⟨fun c hc ↦ (hchars c hc).1, ?_⟩, Header.isBody_of_forall hchars⟩
  cases hl : (tidyKey key).toList.getLast? with
  | none => rfl
  | some b =>
    obtain ⟨u, hu⟩ := hsuffix
    have hlast : (ModulePath.slashed key.toList).getLast? = some b := by
      rw [← hu, List.getLast?_append, hl, Option.some_or]
    rw [ModulePath.slashed, List.getLast?_map] at hlast
    obtain ⟨a, ha, rfl⟩ := Option.map_eq_some_iff.1 hlast
    rw [Option.any_some]
    split
    · decide
    · simpa [ha] using h.last

namespace Renaming

variable {m : Manifest}

theorem isIdentifier_publicName {id : String} (hname : Manifest.IsAccepted m.name)
    (hkeys : ∀ e ∈ m.exposes, IsShowable e.key.toList) (hid : Header.IsIdentifier id.toList) :
    Header.IsIdentifier (publicName m id).toList := by
  unfold publicName
  split
  · next key hkey =>
    have hmem : ∃ e ∈ m.exposes, e.key = key := by
      unfold ModulePath.keyFor? at hkey
      dsimp only at hkey
      split at hkey
      · cases hkey
      · obtain ⟨e, he, rfl⟩ := Option.map_eq_some_iff.1 hkey
        exact ⟨e, List.mem_of_find?_eq_some he, rfl⟩
    obtain ⟨e, he, rfl⟩ := hmem
    exact isIdentifier_scopedName hname (isIdentifier_tidyKey (hkeys e he))
  · exact isIdentifier_scopedName hname hid

theorem maps_ofIdentifiers {ids : List String} {id : List Char} {pub : String} :
    (ofIdentifiers m ids).Maps id pub ↔
      String.ofList id ∈ ids ∧ publicName m (String.ofList id) = pub := by
  rw [Maps, get?_ofIdentifiers]
  split
  · next h => simp [h]
  · next h => simp [h]

end Renaming

namespace PublicBundle

variable {m : Manifest} {bundle : String} {id : List Char} {pub : String}

theorem maps_iff : (ofBundle m bundle).names.Maps id pub ↔
    id ∈ Header.values (Text.piecesBehind Header.find none bundle.toList) ∧
      Renaming.publicName m (String.ofList id) = pub := by
  rw [ofBundle, Renaming.maps_ofIdentifiers, Header.mem_distinct, Header.scan_identifiers,
    List.mem_map]
  refine and_congr_left fun _ ↦ ⟨?_, fun hid ↦ ⟨id, hid, rfl⟩⟩
  rintro ⟨id', hid, heq⟩
  exact String.ofList_injective heq ▸ hid

theorem isProper_names (hname : Manifest.IsAccepted m.name)
    (hkeys : ∀ e ∈ m.exposes, IsShowable e.key.toList)
    (hids : ∀ id ∈ Header.values (Text.piecesBehind Header.find none bundle.toList),
      Header.IsClean id) : (ofBundle m bundle).names.IsProper := by
  have hinternal {id : List Char}
      (hid : id ∈ Header.values (Text.piecesBehind Header.find none bundle.toList)) :
      Header.IsIdentifier id :=
    ⟨hids id hid, Header.isBody_of_mem_everywhere
      (Header.mem_everywhere_of_mem_values hid) (hids id hid).quoteFree⟩
  constructor
  · intro id pub h
    exact hinternal (maps_iff.1 h).1
  · intro id pub h
    obtain ⟨hid, rfl⟩ := maps_iff.1 h
    refine Renaming.isIdentifier_publicName hname hkeys ?_
    rw [String.toList_ofList]
    exact hinternal hid

/-- The modules of a bundle are those of its public form, one for one, under their public names. -/
theorem scan_text {text path : String} (hm : Manifest.parse text path = .ok m)
    (hkeys : ∀ e ∈ m.exposes, IsShowable e.key.toList)
    (hids : ∀ h ∈ Header.scan bundle, Header.IsClean h.identifier.toList) :
    (Header.scan (ofBundle m bundle).text).map (fun h ↦ some h.identifier) =
      (Header.scan bundle).map fun h ↦ (ofBundle m bundle).names.get? h.identifier := by
  have hclean : ∀ id ∈ Header.values (Text.piecesBehind Header.find none bundle.toList),
      Header.IsClean id := by
    intro id hid
    have hmem := List.mem_map_of_mem (f := String.ofList) hid
    rw [← Header.scan_identifiers] at hmem
    obtain ⟨h, hh, hid'⟩ := List.mem_map.1 hmem
    simpa [hid'] using hids h hh
  have hproper := isProper_names (Manifest.isAccepted_of_parse hm) hkeys hclean
  have hcorresponds := (ofBundle m bundle).names.corresponds_renamed bundle.toList
  rw [← Renaming.toList_substitute] at hcorresponds
  have hvalues := hcorresponds.values hproper fun id hid ↦ ⟨_, maps_iff.2 ⟨hid, rfl⟩⟩
  have hscan {β : Type} (text : String) (f : String → β) :
      (Header.scan text).map (fun h ↦ f h.identifier) =
        (Header.values (Text.piecesBehind Header.find none text.toList)).map
          fun id ↦ f (String.ofList id) := by
    rw [← Function.comp_def f, ← List.map_map, Header.scan_identifiers, List.map_map]
    rfl
  rw [hscan _ some, hscan _ (ofBundle m bundle).names.get?]
  exact hvalues

section Example

def shop : Manifest :=
  ⟨"shop", [⟨"./Button", "src/Button.tsx"⟩], "shop/federation.config.json"⟩

theorem parse_shop : Manifest.parse
    "\x7b\"name\": \"shop\", \"exposes\": \x7b\"./Button\": \"src/Button.tsx\"\x7d\x7d"
    "shop/federation.config.json" = .ok shop := by
  decide +kernel

def doors : String :=
  "// don't read: declare module \"lost\n" ++
  "declare module \"src/Button\" \x7b import 'theme'; \x7d\n" ++
  "declare module 'theme' \x7b export * from \"src/Button\"; \x7d\n"

theorem scan_text_doors :
    (Header.scan (ofBundle shop doors).text).map (fun h ↦ some h.identifier) =
      [some "shop/Button", some "shop/theme"] := by
  have hkeys : ∀ e ∈ shop.exposes, IsShowable e.key.toList := by
    intro e he
    obtain rfl := List.mem_singleton.1 he
    exact ⟨⟨by decide, by decide⟩, by decide, by decide⟩
  have hscan : (Header.scan doors).map (·.identifier) = ["src/Button", "theme"] := by
    decide +kernel
  have hids : ∀ h ∈ Header.scan doors, Header.IsClean h.identifier.toList := by
    intro h hh
    have hmem := List.mem_map_of_mem (f := Header.identifier) hh
    rw [hscan, List.mem_cons, List.mem_singleton] at hmem
    rcases hmem with hid | hid <;> rw [hid] <;> exact ⟨by decide, by decide⟩
  rw [scan_text parse_shop hkeys hids]
  decide +kernel

end Example

end PublicBundle

end AmbientTypes
