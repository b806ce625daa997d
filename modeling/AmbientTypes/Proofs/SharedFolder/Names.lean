import AmbientTypes.Proofs.Manifest.Names
import AmbientTypes.Proofs.Storage
import AmbientTypes.SharedFolder.Layout

namespace AmbientTypes

section Files

variable {name other : String}

theorem toList_declarationName (name : String) :
    (declarationName name).toList = name.toList ++ ['.', 'd', '.', 't', 's'] := by
  simp [declarationName]

theorem getLast?_declarationName (name : String) :
    (declarationName name).toList.getLast? = some 's' := by
  simp [toList_declarationName]

theorem declarationName_injective (h : declarationName name = declarationName other) :
    name = other := by
  rw [← String.toList_inj, toList_declarationName, toList_declarationName] at h
  exact String.toList_inj.1 (List.append_cancel_right h)

theorem declarationName_ne_stubName (name : String) : declarationName name ≠ stubName := by
  intro h
  have hlast := getLast?_declarationName name
  rw [h] at hlast
  exact absurd hlast (by decide)

theorem declarationName_ne_temporaryName (name : String) (k : Nat) :
    declarationName name ≠ Files.temporaryName k := by
  intro h
  exact Files.getLast?_temporaryName k (h ▸ getLast?_declarationName name)

theorem declarationName_reserved : declarationName Manifest.reserved = indexName := rfl

theorem sameIgnoringCase_declarationName (name other : String) :
    Manifest.sameIgnoringCase (declarationName name) (declarationName other) =
      Manifest.sameIgnoringCase name other := by
  simp [Manifest.sameIgnoringCase, toList_declarationName]

variable (h : Manifest.IsAccepted name)
include h

theorem isName_declarationName : Path.IsName (declarationName name) := by
  have hne (s : String) (hs : s.toList.length < 4) : declarationName name ≠ s := by
    rintro rfl
    simp [toList_declarationName] at hs
    omega
  refine ⟨?_, hne _ (by decide), hne _ (by decide), hne _ (by decide)⟩
  rw [toList_declarationName, List.mem_append, not_or]
  exact ⟨h.not_mem (by decide), by decide⟩

theorem isShort_declarationName
    (hsize : Files.utf8Size (declarationName name) ≤ Files.longestName) :
    Files.IsShort (declarationName name) := by
  refine ⟨isName_declarationName h, ?_, hsize⟩
  rw [toList_declarationName, List.mem_append, not_or]
  exact ⟨h.not_mem (by decide), by decide⟩

theorem not_same_indexName :
    Manifest.sameIgnoringCase (declarationName name) indexName = false := by
  rw [← declarationName_reserved, sameIgnoringCase_declarationName, ← h.not_reserved,
    Bool.eq_iff_iff]
  simp [Manifest.sameIgnoringCase, eq_comm]

theorem declarationName_ne_indexName : declarationName name ≠ indexName := by
  intro heq
  have hsame := not_same_indexName h
  rw [heq] at hsame
  exact absurd hsame (by decide)

end Files

theorem isName_indexName : Path.IsName indexName := by
  decide

theorem isName_stubName : Path.IsName stubName := by
  decide

theorem isShort_indexName : Files.IsShort indexName :=
  ⟨isName_indexName, by decide, by decide⟩

theorem isShort_stubName : Files.IsShort stubName :=
  ⟨isName_stubName, by decide, by decide⟩

theorem indexName_ne_temporaryName (k : Nat) : indexName ≠ Files.temporaryName k := by
  intro h
  exact Files.getLast?_temporaryName k (h ▸ by decide)

theorem stubName_ne_temporaryName (k : Nat) : stubName ≠ Files.temporaryName k := by
  intro h
  obtain ⟨zeros, -, htext⟩ := Files.toList_temporaryName k
  rw [← h] at htext
  have hhead : stubName.toList.head? = some 'p' := by decide
  rw [htext] at hhead
  cases hhead

theorem indexName_ne_stubName : indexName ≠ stubName := by decide

end AmbientTypes
