import AmbientTypes.Bundle.Renaming
import AmbientTypes.Proofs.Bundle.EntryPoints

namespace AmbientTypes

open ModulePath (StandsFor)

theorem scopedName_inj {name key key' : String} :
    scopedName name key = scopedName name key' ↔ key = key' := by
  rw [← String.toList_inj, ← String.toList_inj]
  simp [scopedName]

namespace Renaming

variable {m : Manifest} {a b id : String} {e : EntryPoint} {ids : List String}

theorem publicName_of_standsFor (h : StandsFor m id e) :
    publicName m id = scopedName m.name (tidyKey e.key) := by
  rw [publicName, ModulePath.keyFor?_eq_some.2 ⟨e, h, rfl⟩]

theorem publicName_of_forall_not (h : ∀ e, ¬ StandsFor m id e) :
    publicName m id = scopedName m.name id := by
  rw [publicName, ModulePath.keyFor?_eq_none.2 h]

/-- Why two identifiers share a public name: both stand for entry points, under keys that are one
when tidied, or one of them stands for none and is spelled like the tidied key of the other. -/
inductive Clash (m : Manifest) (a b : String) : Prop
  | keys {e e' : EntryPoint} (ha : StandsFor m a e) (hb : StandsFor m b e')
      (h : tidyKey e.key = tidyKey e'.key)
  | left {e : EntryPoint} (ha : StandsFor m a e) (hb : ∀ e', ¬ StandsFor m b e')
      (h : tidyKey e.key = b)
  | right {e : EntryPoint} (ha : ∀ e', ¬ StandsFor m a e') (hb : StandsFor m b e)
      (h : a = tidyKey e.key)

theorem publicName_eq_iff (hab : a ≠ b) : publicName m a = publicName m b ↔ Clash m a b := by
  constructor
  · intro h
    by_cases ha : ∃ e, StandsFor m a e
    · obtain ⟨e, ha⟩ := ha
      rw [publicName_of_standsFor ha] at h
      by_cases hb : ∃ e, StandsFor m b e
      · obtain ⟨e', hb⟩ := hb
        rw [publicName_of_standsFor hb, scopedName_inj] at h
        exact .keys ha hb h
      · rw [not_exists] at hb
        rw [publicName_of_forall_not hb, scopedName_inj] at h
        exact .left ha hb h
    · rw [not_exists] at ha
      rw [publicName_of_forall_not ha] at h
      by_cases hb : ∃ e, StandsFor m b e
      · obtain ⟨e', hb⟩ := hb
        rw [publicName_of_standsFor hb, scopedName_inj] at h
        exact .right ha hb h
      · rw [not_exists] at hb
        rw [publicName_of_forall_not hb, scopedName_inj] at h
        exact absurd h hab
  · rintro (⟨ha, hb, h⟩ | ⟨ha, hb, h⟩ | ⟨ha, hb, h⟩)
    · rw [publicName_of_standsFor ha, publicName_of_standsFor hb, h]
    · rw [publicName_of_standsFor ha, publicName_of_forall_not hb, h]
    · rw [publicName_of_forall_not ha, publicName_of_standsFor hb, h]

/-- Different identifiers are mapped one by one. -/
theorem entries_ofIdentifiers (m : Manifest) (h : ids.Nodup) :
    (ofIdentifiers m ids).entries = ids.map fun id ↦ (id, publicName m id) := by
  have hfold (done rest : List String) (h : (done ++ rest).Nodup) :
      rest.foldl (fun entries id ↦ if entries.any (·.1 = id) then entries
        else entries ++ [(id, publicName m id)]) (done.map fun id ↦ (id, publicName m id)) =
        (done ++ rest).map fun id ↦ (id, publicName m id) := by
    induction rest generalizing done with
    | nil => rw [List.foldl_nil, List.append_nil]
    | cons id rest ih =>
      have hnew : id ∉ done := fun hmem ↦
        (List.nodup_append.1 h).2.2 id hmem id List.mem_cons_self rfl
      have hany : ¬ ((done.map fun id ↦ (id, publicName m id)).any (·.1 = id)) = true := by
        simpa using hnew
      rw [List.append_cons] at h ⊢
      rw [List.foldl_cons, if_neg hany, ← ih (done ++ [id]) h, List.map_append]
      rfl
  exact hfold [] ids h

/-- Modules that differ in normal form are mapped each, and get different public names exactly
when no two of them clash. -/
theorem nodup_public_iff (m : Manifest) (h : ids.Pairwise fun a b ↦
    ModulePath.normalize a.toList ≠ ModulePath.normalize b.toList) :
    (ofIdentifiers m ids).entries.map (·.1) = ids ∧
      (((ofIdentifiers m ids).entries.map (·.2)).Nodup ↔
        ids.Pairwise fun a b ↦ ¬ Clash m a b) := by
  have hne : ids.Nodup := h.imp fun hab heq ↦ hab (by rw [heq])
  rw [entries_ofIdentifiers m hne, List.map_map, List.map_map]
  refine ⟨List.map_id ids, ?_⟩
  rw [List.Nodup, List.pairwise_map]
  constructor
  · intro hpublic
    exact (hne.and hpublic).imp fun hab hclash ↦ hab.2 ((publicName_eq_iff hab.1).2 hclash)
  · intro hclash
    exact (hne.and hclash).imp fun hab hpublic ↦ hab.2 ((publicName_eq_iff hab.1).1 hpublic)

section Example

open ModulePath (twoButtons parse_twoButtons)

theorem nodup_public_iff_twoButtons :
    ((ofIdentifiers twoButtons ["src/lib/Button", "theme"]).entries.map (·.2)).Nodup ∧
      Clash twoButtons "src/lib/Button" "Button" := by
  have hparts : publicName twoButtons "src/lib/Button" ≠ publicName twoButtons "theme" := by
    decide +kernel
  constructor
  · refine (nodup_public_iff twoButtons (by decide)).2.2 ?_
    rw [List.pairwise_pair]
    exact fun hclash ↦ hparts ((publicName_eq_iff (by decide)).2 hclash)
  · exact (publicName_eq_iff (by decide)).1 (by decide +kernel)

/-- Two modules of one bundle may get one public name. -/
theorem two_modules_one_name : ¬ ∀ (text path : String) (m : Manifest) (ids : List String),
    Manifest.parse text path = .ok m →
    (ids.Pairwise fun a b ↦ ModulePath.normalize a.toList ≠ ModulePath.normalize b.toList) →
    ((ofIdentifiers m ids).entries.map (·.2)).Nodup := by
  intro h
  have hnodup := h _ _ twoButtons ["src/lib/Button", "Button"] parse_twoButtons (by decide)
  revert hnodup
  decide +kernel

end Example

end Renaming

end AmbientTypes
