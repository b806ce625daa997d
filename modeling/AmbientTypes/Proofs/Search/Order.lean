import AmbientTypes.Proofs.Path.Components
import AmbientTypes.Proofs.Text.ByteOrder
import AmbientTypes.Proofs.Tree.Nodes
import AmbientTypes.Search.Find
import Mathlib.Order.Defs.Unbundled

namespace AmbientTypes.Tree

def HoldsFolder (t : Tree) (n : String) : Prop :=
  t.node? [n] = some .folder

/-- Which of two entries of a folder comes first. -/
def Before (t : Tree) (m n : String) : Prop :=
  ¬ t.HoldsFolder m ∧ t.HoldsFolder n ∨
    (t.HoldsFolder m ↔ t.HoldsFolder n) ∧ Text.bytes m < Text.bytes n

/-- The first names in which two locations differ, and what leads to both. -/
inductive Precedes : Tree → Location → Location → Prop
  | here {t : Tree} {m n : String} {k l : Location} (h : t.Before m n) :
      Precedes t (m :: k) (n :: l)
  | there {t u : Tree} {n : String} {k l : Location} (ht : t.get? [n] = some u)
      (h : Precedes u k l) : Precedes t (n :: k) (n :: l)

variable {t : Tree}

theorem Before.irrefl {n : String} : ¬ t.Before n n := by
  rintro (⟨h, h'⟩ | ⟨-, h⟩)
  · exact h h'
  · exact List.lt_irrefl _ h

theorem Before.trans {m n o : String} (hm : t.Before m n) (hn : t.Before n o) : t.Before m o := by
  rcases hm with ⟨hm, hn'⟩ | ⟨hmn, hlt⟩ <;> rcases hn with ⟨hn, ho⟩ | ⟨hno, hlt'⟩
  · exact absurd hn' hn
  · exact .inl ⟨hm, hno.1 hn'⟩
  · exact .inl ⟨fun h ↦ hn (hmn.1 h), ho⟩
  · exact .inr ⟨hmn.trans hno, List.lt_trans hlt hlt'⟩

theorem Precedes.irrefl {l : Location} : ¬ t.Precedes l l := by
  intro h
  induction l generalizing t with
  | nil => cases h
  | cons n l ih =>
    cases h with
    | here h => exact h.irrefl
    | there _ h => exact ih h

theorem Precedes.trans {k l o : Location} (hk : t.Precedes k l) (hl : t.Precedes l o) :
    t.Precedes k o := by
  induction hk generalizing o with
  | here h =>
    cases hl with
    | here h' => exact .here (h.trans h')
    | there _ _ => exact .here h
  | there ht _ ih =>
    cases hl with
    | here h' => exact .here h'
    | there ht' h' =>
      obtain rfl := Option.some.inj (ht.symm.trans ht')
      exact .there ht (ih h')

instance (t : Tree) : IsStrictOrder Location t.Precedes where
  irrefl _ := Precedes.irrefl
  trans _ _ _ := Precedes.trans

end AmbientTypes.Tree
