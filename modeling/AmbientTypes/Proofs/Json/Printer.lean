import AmbientTypes.Json.Printer
import AmbientTypes.Proofs.Json.Members

namespace AmbientTypes.Json

theorem hexValue?_hexDigit {n : Nat} (h : n < 16) : Text.hexValue? (Text.hexDigit n) = some n := by
  revert n
  decide

theorem hexQuad_hexDigits {n : Nat} (h : n < 32) (s : List Char) :
    hexQuad ('0' :: '0' :: Text.hexDigit (n / 16) :: Text.hexDigit (n % 16) :: s) = .ok (n, s) := by
  have hzero : Text.hexValue? '0' = some 0 := by decide
  have hhigh : Text.hexValue? (Text.hexDigit (n / 16)) = some (n / 16) :=
    hexValue?_hexDigit (by omega)
  have hlow : Text.hexValue? (Text.hexDigit (n % 16)) = some (n % 16) :=
    hexValue?_hexDigit (by omega)
  have hn : ((0 * 16 + 0) * 16 + n / 16) * 16 + n % 16 = n := by omega
  simp only [hexQuad, hexQuad?, hzero, hhigh, hlow, Option.bind_eq_bind, Option.bind_some,
    Option.pure_def, hn]

theorem escapeSequence_control {c : Char} (h : c.toNat < 32) (s : List Char) :
    escapeSequence ('u' :: '0' :: '0' :: Text.hexDigit (c.toNat / 16) ::
      Text.hexDigit (c.toNat % 16) :: s) = .ok (c, s) := by
  have htrail : isTrailSurrogate c.toNat = false := by
    simp only [isTrailSurrogate, Bool.and_eq_false_iff, decide_eq_false_iff_not]
    omega
  have hlead : isLeadSurrogate c.toNat = false := by
    simp only [isLeadSurrogate, Bool.and_eq_false_iff, decide_eq_false_iff_not]
    omega
  simp [escapeSequence, unicodeEscape, hexQuad_hexDigits h, htrail, hlead, bind, Except.bind,
    pure, Except.pure]

/-- A character is written as itself or as an escape that stands for it. -/
theorem escaped_cases (c : Char) :
    escaped c = [c] ∧ c ≠ '"' ∧ c ≠ '\\' ∧ 32 ≤ c.toNat ∨
      ∃ e, escaped c = '\\' :: e ∧ ∀ s, escapeSequence (e ++ s) = .ok (c, s) := by
  have hcode {n : Nat} (h : c.toNat = n) : Char.ofNat n = c := by rw [← h, Char.ofNat_toNat]
  unfold escaped
  iterate 5
    split
    · next h =>
      subst h
      exact .inr ⟨_, rfl, fun s ↦ rfl⟩
  iterate 2
    split
    · next h =>
      refine .inr ⟨_, rfl, fun s ↦ ?_⟩
      rw [← hcode h]
      rfl
  split
  · next h => exact .inr ⟨_, rfl, escapeSequence_control h⟩
  · next hquote hbackslash _ _ _ _ _ h => exact .inl ⟨rfl, hquote, hbackslash, by omega⟩

theorem stringBody_of_escape {done s r : List Char} {c : Char} (h : escapeSequence s = .ok (c, r)) :
    stringBody done ('\\' :: s) = stringBody (c :: done) r := by
  rw [stringBody]
  split
  · next e he => rw [h] at he; cases he
  · next d t hd =>
    rw [h] at hd
    cases hd
    rfl

theorem stringBody_escaped (done : List Char) (c : Char) (s : List Char) :
    stringBody done (escaped c ++ s) = stringBody (c :: done) s := by
  rcases escaped_cases c with ⟨hc, hquote, hbackslash, hcontrol⟩ | ⟨e, hc, he⟩
  · rw [hc, List.singleton_append, stringBody]
    · rw [if_neg (by omega)]
    · exact hquote
    · exact hbackslash
  · rw [hc, List.cons_append]
    exact stringBody_of_escape (he s)

theorem stringBody_text (done t s : List Char) :
    stringBody done (t.flatMap escaped ++ '"' :: s) = .ok (done.reverse ++ t, s) := by
  induction t generalizing done with
  | nil => rw [List.flatMap_nil, List.nil_append, stringBody, List.append_nil]
  | cons c t ih =>
    rw [List.flatMap_cons, List.append_assoc, stringBody_escaped, ih, List.reverse_cons,
      List.append_assoc, List.singleton_append]

/-- What stands between the quotation marks of a printed text is read as that text. -/
theorem readString_text (t : String) (s : List Char) :
    readString (t.toList.flatMap escaped ++ '"' :: s) = .ok (t, s) := by
  rw [readString, stringBody_text]
  simp [bind, Except.bind, pure, Except.pure]

theorem stringChars_append (t : String) (s : List Char) :
    stringChars t ++ s = '"' :: (t.toList.flatMap escaped ++ '"' :: s) := by
  rw [stringChars, List.cons_append, List.cons_append, List.append_assoc, List.singleton_append]

theorem expectString_chars (t : String) (s : List Char) :
    expectString (chars (.string t) ++ s) = .ok (t, s) := by
  rw [chars, stringChars_append]
  exact readString_text t s

theorem readValue_string (depth : Nat) (t : String) (s : List Char) :
    readValue depth (chars (.string t) ++ s) = .ok (.string t, s) := by
  have hspace (r : List Char) : skipSpace ('"' :: r) = '"' :: r := rfl
  rw [chars, stringChars_append, readValue]
  simp only [hspace, readString_text, bind, Except.bind, pure, Except.pure]

theorem put_of_not_mem {members : List (String × Json)} {key : String}
    (h : key ∉ members.map (·.1)) (j : Json) : put members key j = members ++ [(key, j)] := by
  rw [put, if_neg]
  rw [List.any_eq_true]
  rintro ⟨m, hm, hkey⟩
  exact h (List.mem_map.2 ⟨m, hm, of_decide_eq_true hkey⟩)

def opened (k : String) (j : Json) (s : List Char) : List Char :=
  k.toList.flatMap escaped ++ '"' :: ':' :: (chars j ++ s)

theorem memberChars_append (k : String) (j : Json) (ms : List (String × Json)) (s : List Char) :
    memberChars ((k, j) :: ms) ++ s = ',' :: '"' :: opened k j (memberChars ms ++ s) := by
  simp only [memberChars, stringChars, opened, List.cons_append, List.append_assoc,
    List.nil_append]

theorem chars_object_append (k : String) (j : Json) (ms : List (String × Json)) (s : List Char) :
    chars (.object ((k, j) :: ms)) ++ s = '\x7b' :: '"' :: opened k j (memberChars ms ++ s) := by
  simp only [chars, stringChars, opened, List.cons_append, List.append_assoc, List.nil_append]

/-- What may stand behind a value: nothing, or what ends it in a list or an object. -/
def Closes : List Char → Prop
  | [] => True
  | c :: _ => c = ',' ∨ c = ']' ∨ c = '\x7d'

theorem closes_memberChars (ms : List (String × Json)) (s : List Char) :
    Closes (memberChars ms ++ s) := by
  cases ms with
  | nil => exact .inr (.inr rfl)
  | cons m ms => exact .inl rfl

theorem length_lt_memberChars (ms : List (String × Json)) :
    ms.length < (memberChars ms).length := by
  induction ms with
  | nil => exact Nat.zero_lt_one
  | cons m ms ih =>
    obtain ⟨k, j⟩ := m
    simp only [memberChars, List.length_append, List.length_cons]
    omega

variable {value : Reader Json} {done ms : List (String × Json)} {fuel : Nat}

theorem readMembers_opened {first : Bool} {k : String} {j : Json} {s r : List Char}
    (hkey : nextKey first s = .ok (.item (opened k j r)))
    (hvalue : value (chars j ++ r) = .ok (j, r)) (hnew : k ∉ done.map (·.1)) :
    readMembers value (fuel + 1) first done s =
      readMembers value fuel false (done ++ [(k, j)]) r := by
  have hcolon : colon (':' :: (chars j ++ r)) = .ok (chars j ++ r) := rfl
  rw [readMembers, hkey]
  simp only [bind, Except.bind, opened, readString_text, hcolon, hvalue, put_of_not_mem hnew]

/-- Members of which every value is read back are read back, behind others with other keys. -/
theorem readMembers_memberChars (hfuel : ms.length < fuel) (hkeys : Keyed (done ++ ms))
    (hvalue : ∀ m ∈ ms, ∀ s, Closes s → value (chars m.2 ++ s) = .ok (m.2, s)) (s : List Char) :
    readMembers value fuel false done (memberChars ms ++ s) = .ok (done ++ ms, s) := by
  induction ms generalizing done fuel with
  | nil =>
    obtain ⟨n, rfl⟩ := Nat.exists_eq_add_one.2 hfuel
    rw [List.append_nil]
    rfl
  | cons m ms ih =>
    obtain ⟨k, j⟩ := m
    obtain ⟨n, rfl⟩ := Nat.exists_eq_add_one.2 (Nat.zero_lt_of_lt hfuel)
    have hnew : k ∉ done.map (·.1) := by
      intro hmem
      rw [Keyed, List.map_append, List.nodup_append] at hkeys
      exact hkeys.2.2 k hmem k List.mem_cons_self rfl
    have hfirst := hvalue (k, j) List.mem_cons_self _ (closes_memberChars ms s)
    have hrest : Keyed (done ++ [(k, j)] ++ ms) := by rwa [List.append_assoc]
    rw [memberChars_append, readMembers_opened rfl hfirst hnew,
      ih (Nat.lt_of_succ_lt_succ hfuel) hrest fun m hm ↦ hvalue m (List.mem_cons_of_mem _ hm),
      List.append_assoc, List.singleton_append]

/-- An object of which every value is read back is read back. -/
theorem readMembers_object {depth : Nat} (hkeys : Keyed ms)
    (hvalue : ∀ m ∈ ms, ∀ s, Closes s → readValue depth (chars m.2 ++ s) = .ok (m.2, s))
    (s : List Char) :
    ∃ r, chars (.object ms) ++ s = '\x7b' :: r ∧
      readMembers (readValue depth) (r.length + 1) true [] r = .ok (ms, s) := by
  cases ms with
  | nil => exact ⟨_, rfl, rfl⟩
  | cons m ms =>
    obtain ⟨k, j⟩ := m
    have hfirst := hvalue (k, j) List.mem_cons_self _ (closes_memberChars ms s)
    have hfuel : ms.length < ('"' :: opened k j (memberChars ms ++ s)).length := by
      have := length_lt_memberChars ms
      simp only [opened, List.length_append, List.length_cons]
      omega
    refine ⟨_, chars_object_append k j ms s, ?_⟩
    rw [readMembers_opened rfl hfirst (List.not_mem_nil),
      readMembers_memberChars hfuel hkeys fun m hm ↦ hvalue m (List.mem_cons_of_mem _ hm)]
    rfl

theorem expectObject_chars {depth : Nat} (hkeys : Keyed ms)
    (hvalue : ∀ m ∈ ms, ∀ s, readValue depth (chars m.2 ++ s) = .ok (m.2, s)) (s : List Char) :
    expectObject (depth + 1) (chars (.object ms) ++ s) = .ok (ms, s) := by
  obtain ⟨r, hr, hread⟩ := readMembers_object hkeys (fun m hm s _ ↦ hvalue m hm s) s
  rw [hr]
  exact hread

end AmbientTypes.Json
