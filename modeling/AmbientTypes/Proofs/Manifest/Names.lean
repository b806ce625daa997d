import AmbientTypes.Manifest.Document

namespace AmbientTypes.Manifest

variable {name : String}

structure IsAccepted (name : String) : Prop where
  ne_empty : name ≠ ""
  ne_dot : name ≠ "."
  ne_dots : name ≠ ".."
  not_reserved : sameIgnoringCase reserved name = false
  plain : ∀ c ∈ name.toList, isForbidden c = false
  trimmed : Text.trim name.toList = name.toList

theorem nameFault?_eq_none : nameFault? name = none ↔ IsAccepted name := by
  constructor
  · intro h
    unfold nameFault? at h
    split at h
    · cases h
    split at h
    · cases h
    split at h
    · cases h
    split at h
    · cases h
    split at h
    · cases h
    next hempty hdots hreserved _ hfind htrim =>
      rw [not_or] at hdots
      rw [List.find?_eq_none] at hfind
      exact ⟨hempty, hdots.1, hdots.2, by simpa using hreserved,
        fun c hc ↦ by simpa using hfind c hc, by simpa using htrim⟩
  · rintro ⟨hempty, hdot, hdots, hreserved, hplain, htrim⟩
    have hfind : name.toList.find? isForbidden = none := by
      rw [List.find?_eq_none]
      exact fun c hc ↦ by simp [hplain c hc]
    simp [nameFault?, hempty, hdot, hdots, hreserved, hfind, htrim]

namespace IsAccepted

theorem not_mem (h : IsAccepted name) {c : Char} (hc : isForbidden c = true) : c ∉ name.toList :=
  fun hmem ↦ by simp [h.plain c hmem] at hc

end IsAccepted

theorem isAccepted_of_parse {text path : String} {m : Manifest} (h : parse text path = .ok m) :
    IsAccepted m.name := by
  unfold parse at h
  split at h
  · cases h
  · next name members _ =>
    cases hm : ofMembers path name members with
    | error f => simp [hm] at h
    | ok m' =>
      obtain rfl : m' = m := by simpa [hm] using h
      unfold ofMembers at hm
      cases hn : nameFault? name with
      | some f => simp [hn] at hm
      | none =>
        cases he : members.mapM fun m ↦ entryPoint m.1 m.2 with
        | error f => simp [hn, he, bind, Except.bind] at hm
        | ok entries =>
          obtain rfl : (⟨name, entries, path⟩ : Manifest) = m' := by
            simpa [hn, he, bind, Except.bind, pure, Except.pure] using hm
          exact nameFault?_eq_none.1 hn

/-- A manifest keeps nothing of where it was read but the path. -/
theorem parse_elsewhere {text path : String} {m : Manifest} (h : parse text path = .ok m)
    (path' : String) : m.path = path ∧ parse text path' = .ok { m with path := path' } := by
  unfold parse at h ⊢
  cases hread : readText text with
  | error e => simp [hread] at h
  | ok p =>
    obtain ⟨name, members⟩ := p
    simp only [hread, ofMembers] at h ⊢
    cases hfault : nameFault? name with
    | some f => simp [hfault] at h
    | none =>
      simp only [hfault] at h ⊢
      cases hentries : members.mapM fun m ↦ entryPoint m.1 m.2 with
      | error f =>
        rw [hentries] at h
        cases h
      | ok entries =>
        rw [hentries] at h
        obtain rfl := Except.ok.inj h
        exact ⟨rfl, rfl⟩

end AmbientTypes.Manifest
