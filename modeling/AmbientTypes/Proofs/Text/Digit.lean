import AmbientTypes.Text.Digit

namespace AmbientTypes.Text

theorem digitChar_ne {n : Nat} (h : n < 10) :
    digitChar n ≠ '/' ∧ digitChar n ≠ 's' ∧ digitChar n ≠ '\x00' := by
  revert n
  decide

theorem isDigit_digitChar {n : Nat} (h : n < 10) : (digitChar n).isDigit = true := by
  revert n
  decide

theorem digitValue_digitChar {n : Nat} (h : n < 10) : digitValue (digitChar n) = n := by
  revert n
  decide

theorem mem_decimalDigits {n : Nat} {c : Char} (h : c ∈ decimalDigits n) :
    ∃ k < 10, c = digitChar k := by
  fun_induction decimalDigits n with
  | case1 n hn => exact ⟨n, hn, by simpa using h⟩
  | case2 n hn ih =>
    rcases List.mem_append.1 h with h | h
    · exact ih h
    · exact ⟨n % 10, Nat.mod_lt _ (by decide), by simpa using h⟩

theorem isDigit_of_mem_decimalDigits {n : Nat} {c : Char} (h : c ∈ decimalDigits n) :
    c.isDigit = true := by
  obtain ⟨k, hk, rfl⟩ := mem_decimalDigits h
  exact isDigit_digitChar hk

theorem decimalDigits_ne_nil (n : Nat) : decimalDigits n ≠ [] := by
  fun_cases decimalDigits n <;> simp

theorem exists_digit_cons (n : Nat) : ∃ c ds, decimalDigits n = c :: ds ∧ c.isDigit = true := by
  obtain ⟨c, ds, hcons⟩ := List.exists_cons_of_ne_nil (decimalDigits_ne_nil n)
  have hmem : c ∈ decimalDigits n := hcons ▸ List.mem_cons_self
  exact ⟨c, ds, hcons, isDigit_of_mem_decimalDigits hmem⟩

/-- Only zero is written with a zero in front. -/
theorem decimalDigits_eq_cons {n : Nat} (h : 0 < n) :
    ∃ c ds, decimalDigits n = c :: ds ∧ c ≠ '0' := by
  fun_induction decimalDigits n with
  | case1 n hn =>
    refine ⟨_, [], rfl, ?_⟩
    revert n
    decide
  | case2 n hn ih =>
    obtain ⟨c, ds, hcons, hc⟩ := ih (by omega)
    exact ⟨c, ds ++ [digitChar (n % 10)], by rw [hcons, List.cons_append], hc⟩

theorem length_decimalDigits_le {n m : Nat} (h : n < Nat.pow 10 (m + 1)) :
    (decimalDigits n).length ≤ m + 1 := by
  induction m generalizing n with
  | zero =>
    have hn : n < 10 := h
    rw [decimalDigits, if_pos hn]
    exact Nat.le_refl _
  | succ m ih =>
    rw [decimalDigits]
    split
    · exact Nat.succ_le_succ (Nat.zero_le _)
    · rw [List.length_append, List.length_singleton]
      exact Nat.succ_le_succ (ih ((Nat.div_lt_iff_lt_mul (by decide)).2 h))

theorem ofDigits_append_singleton (s : List Char) (c : Char) :
    ofDigits (s ++ [c]) = ofDigits s * 10 + digitValue c := by
  rw [ofDigits, List.foldl_append]
  rfl

theorem ofDigits_decimalDigits (n : Nat) : ofDigits (decimalDigits n) = n := by
  fun_induction decimalDigits n with
  | case1 n hn =>
    rw [← List.nil_append [digitChar n], ofDigits_append_singleton, digitValue_digitChar hn]
    exact Nat.zero_add n
  | case2 n hn ih =>
    rw [ofDigits_append_singleton, ih, digitValue_digitChar (Nat.mod_lt n (by decide))]
    omega

theorem natBelow?_decimalDigits {bound n : Nat} (h : n < bound) :
    natBelow? bound (decimalDigits n) = some n := by
  have hall : (decimalDigits n).all Char.isDigit := by
    apply List.all_eq_true.2
    intro c hc
    exact isDigit_of_mem_decimalDigits hc
  rw [natBelow?, ofDigits_decimalDigits, if_pos ⟨decimalDigits_ne_nil n, hall, h⟩]

end AmbientTypes.Text
