import AmbientTypes.Json.Reader
import AmbientTypes.Proofs.Result

namespace AmbientTypes

namespace Json

variable {members done ms written : List (String × Json)} {key : String} {j : Json}
  {s r : List Char}

def Keyed (members : List (String × Json)) : Prop := (members.map (·.1)).Nodup

theorem keyed_nil : Keyed [] := List.nodup_nil

theorem keys_put : (put members key j).map (·.1) =
    if key ∈ members.map (·.1) then members.map (·.1) else members.map (·.1) ++ [key] := by
  have hany : (members.any (·.1 = key)) = true ↔ key ∈ members.map (·.1) := by
    rw [List.any_eq_true, List.mem_map]
    simp only [decide_eq_true_eq]
  rw [put]
  by_cases h : key ∈ members.map (·.1)
  · rw [if_pos h, if_pos (hany.2 h), List.map_map]
    refine List.map_congr_left fun m _ ↦ ?_
    rw [Function.comp_apply]
    split
    · next hm => exact hm.symm
    · rfl
  · rw [if_neg h, if_neg (h ∘ hany.1), List.map_append]
    rfl

theorem Keyed.put (h : Keyed members) (key : String) (j : Json) : Keyed (put members key j) := by
  rw [Keyed, keys_put]
  split
  · exact h
  · next hkey =>
    refine List.nodup_append.2 ⟨h, by simp, ?_⟩
    rintro k hk _ hmem rfl
    exact hkey (List.mem_singleton.1 hmem ▸ hk)

theorem Keyed.readMembers {value : Reader Json} {fuel : Nat} {first : Bool} (h : Keyed done)
    (hr : readMembers value fuel first done s = .ok (ms, r)) : Keyed ms := by
  induction fuel generalizing first done s with
  | zero => cases hr
  | succ fuel ih =>
    obtain ⟨step, -, hr⟩ := Except.ok_of_bind hr
    cases step with
    | last rest =>
      obtain ⟨rfl, -⟩ := Prod.mk.inj (Except.ok.inj hr)
      exact h
    | item rest =>
      obtain ⟨k, -, hr⟩ := Except.ok_of_bind hr
      obtain ⟨rest, -, hr⟩ := Except.ok_of_bind hr
      obtain ⟨v, -, hr⟩ := Except.ok_of_bind hr
      exact ih (h.put k.1 v.1) hr

theorem mismatch_ne_ok {α : Type} {expected : String} {c : Char} {a : α} :
    mismatch expected c r ≠ .ok a := by
  intro h
  unfold mismatch at h
  split at h
  case h_8 =>
    split at h
    · obtain ⟨n, -, h⟩ := Except.ok_of_bind h
      cases h
    · cases h
  all_goals
    first
    | cases h
    | obtain ⟨n, -, h⟩ := Except.ok_of_bind h
      cases h

theorem keyed_of_expectObject {depth : Nat} (h : expectObject depth s = .ok (ms, r)) :
    Keyed ms := by
  unfold expectObject at h
  split at h
  · cases h
  · split at h
    · cases h
    · exact keyed_nil.readMembers h
  · exact absurd h mismatch_ne_ok

theorem lookup_cons (m : String × Json) (members : List (String × Json)) (k : String) :
    (m :: members).lookup k = if m.1 = k then some m.2 else members.lookup k := by
  rw [List.lookup_cons]
  by_cases hk : m.1 = k
  · rw [if_pos hk, hk, beq_self_eq_true]
  · rw [if_neg hk, beq_eq_false_iff_ne.2 (Ne.symm hk)]

theorem lookup_map_replace (members : List (String × Json)) (key : String) (j : Json) (k : String) :
    (members.map fun m ↦ if m.1 = key then (key, j) else m).lookup k =
      if key = k then (members.lookup k).map fun _ ↦ j else members.lookup k := by
  induction members with
  | nil => simp
  | cons m members ih =>
    rw [List.map_cons, lookup_cons, lookup_cons, ih]
    by_cases hm : m.1 = key
    · rw [if_pos hm, hm]
      split <;> rfl
    · rw [if_neg hm]
      by_cases hk : key = k
      · rw [if_pos hk, if_pos hk, ← hk, if_neg hm, if_neg hm]
      · rw [if_neg hk, if_neg hk]

theorem lookup_put (members : List (String × Json)) (key : String) (j : Json) (k : String) :
    (put members key j).lookup k = if key = k then some j else members.lookup k := by
  have hsome : members.any (·.1 = key) = (members.lookup key).isSome := by
    rw [Bool.eq_iff_iff, List.lookup_isSome_iff, List.any_eq_true]
    refine exists_congr fun m ↦ and_congr_right fun _ ↦ ?_
    rw [decide_eq_true_iff, beq_iff_eq, eq_comm]
  rw [put, hsome]
  split
  · next h =>
    rw [lookup_map_replace]
    by_cases hk : key = k
    · obtain ⟨j', hj'⟩ := Option.isSome_iff_exists.1 h
      rw [if_pos hk, if_pos hk, ← hk, hj', Option.map_some]
    · rw [if_neg hk, if_neg hk]
  · next h =>
    rw [Option.not_isSome_iff_eq_none] at h
    rw [List.lookup_append, lookup_cons]
    by_cases hk : key = k
    · rw [← hk, h, if_pos rfl, if_pos rfl, Option.none_or]
    · rw [if_neg hk, if_neg hk, List.lookup_nil, Option.or_none]

/-- What members come to that were written one after the other: a key stands where it came first,
with the value that came last. -/
structure Settles (written members : List (String × Json)) : Prop where
  keys : members.map (·.1) = (written.map (·.1)).eraseDups
  values : ∀ k, members.lookup k = written.reverse.lookup k

theorem settles_nil : Settles [] [] := ⟨rfl, fun _ ↦ rfl⟩

theorem Settles.put (h : Settles written members) (key : String) (j : Json) :
    Settles (written ++ [(key, j)]) (put members key j) := by
  constructor
  · rw [keys_put, h.keys, List.map_append, List.eraseDups_append]
    by_cases hkey : key ∈ written.map (·.1)
    · rw [if_pos (List.mem_eraseDups.2 hkey)]
      simp [List.cons_removeAll, hkey]
    · rw [if_neg fun hmem ↦ hkey (List.mem_eraseDups.1 hmem)]
      simp [List.cons_removeAll, hkey, List.eraseDups_cons]
  · intro k
    rw [lookup_put, List.reverse_append, List.reverse_singleton, List.singleton_append, lookup_cons,
      h.values]

/-- The members written in an object that has been opened, up to behind its closing bracket. -/
inductive Written (value : Reader Json) :
    Bool → List Char → List (String × Json) → List Char → Prop
  | last {first : Bool} {s r : List Char} (h : nextKey first s = .ok (.last r)) :
      Written value first s [] r
  | item {first : Bool} {s r₁ r₂ r₃ r₄ r : List Char} {key : String} {j : Json}
      {written : List (String × Json)} (hnext : nextKey first s = .ok (.item r₁))
      (hkey : readString r₁ = .ok (key, r₂)) (hcolon : colon r₂ = .ok r₃)
      (hvalue : value r₃ = .ok (j, r₄)) (h : Written value false r₄ written r) :
      Written value first s ((key, j) :: written) r

theorem written_of_readMembers {value : Reader Json} {fuel : Nat} {first : Bool}
    {before : List (String × Json)} (hbefore : Settles before done)
    (h : readMembers value fuel first done s = .ok (ms, r)) :
    ∃ written, Written value first s written r ∧ Settles (before ++ written) ms := by
  induction fuel generalizing first before done s with
  | zero => cases h
  | succ fuel ih =>
    obtain ⟨step, hnext, h⟩ := Except.ok_of_bind h
    cases step with
    | last rest =>
      obtain ⟨rfl, rfl⟩ := Prod.mk.inj (Except.ok.inj h)
      exact ⟨[], .last hnext, (List.append_nil before).symm ▸ hbefore⟩
    | item rest =>
      obtain ⟨⟨key, r₂⟩, hkey, h⟩ := Except.ok_of_bind h
      obtain ⟨r₃, hcolon, h⟩ := Except.ok_of_bind h
      obtain ⟨⟨j, r₄⟩, hvalue, h⟩ := Except.ok_of_bind h
      obtain ⟨written, hwritten, hsettles⟩ := ih (hbefore.put key j) h
      refine ⟨(key, j) :: written, .item hnext hkey hcolon hvalue hwritten, ?_⟩
      rwa [List.append_cons]

def WritesObject (depth : Nat) (s : List Char) (written : List (String × Json)) (r : List Char) :
    Prop :=
  ∃ t, skipSpace s = '\x7b' :: t ∧ Written (readValue depth) true t written r

theorem writesObject_of_expectObject {depth : Nat} (h : expectObject (depth + 1) s = .ok (ms, r)) :
    ∃ written, WritesObject depth s written r ∧ Settles written ms := by
  unfold expectObject at h
  split at h
  · cases h
  · next t hopen =>
    obtain ⟨written, hwritten, hsettles⟩ := written_of_readMembers settles_nil h
    exact ⟨written, ⟨t, hopen, hwritten⟩, hsettles⟩
  · exact absurd h mismatch_ne_ok

end Json

end AmbientTypes
