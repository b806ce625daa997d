import AmbientTypes.Proofs.Json.Printer
import AmbientTypes.Proofs.Text.Digit

namespace AmbientTypes.Json

/-- Built from words, strings and integers of 64 bits. In an object a key stands once. -/
inductive IsPlain : Json → Prop
  | null : IsPlain .null
  | bool (b : Bool) : IsPlain (.bool b)
  | integer {n : Int} (hmin : -(Nat.pow 2 63 : Nat) ≤ n) (hmax : n < (Nat.pow 2 64 : Nat)) :
      IsPlain (.number (.integer n))
  | string (s : String) : IsPlain (.string s)
  | array {items : List Json} (h : ∀ j ∈ items, IsPlain j) : IsPlain (.array items)
  | object {members : List (String × Json)} (hkeys : Keyed members)
      (h : ∀ m ∈ members, IsPlain m.2) : IsPlain (.object members)

mutual

def nesting : Json → Nat
  | .array items => itemsNesting items + 1
  | .object members => membersNesting members + 1
  | _ => 0

def itemsNesting : List Json → Nat
  | [] => 0
  | j :: js => max (nesting j) (itemsNesting js)

def membersNesting : List (String × Json) → Nat
  | [] => 0
  | (_, j) :: ms => max (nesting j) (membersNesting ms)

end

def parseWithin (depth : Nat) (text : String) : Except ReadError Json := do
  let (j, r) ← readValue depth text.toList
  endOfText r
  return j

theorem parseWithin_deepest (text : String) : parseWithin deepest text = parse text := rfl

variable {j : Json} {js : List Json} {ms : List (String × Json)} {depth fuel : Nat}
  {s : List Char}

theorem nesting_le_itemsNesting (h : j ∈ js) : nesting j ≤ itemsNesting js := by
  induction js with
  | nil => cases h
  | cons j' js ih =>
    rw [itemsNesting]
    rcases List.mem_cons.1 h with rfl | h
    · exact Nat.le_max_left ..
    · exact Nat.le_trans (ih h) (Nat.le_max_right ..)

theorem nesting_le_membersNesting {m : String × Json} (h : m ∈ ms) :
    nesting m.2 ≤ membersNesting ms := by
  induction ms with
  | nil => cases h
  | cons m' ms ih =>
    rw [membersNesting]
    rcases List.mem_cons.1 h with rfl | h
    · exact Nat.le_max_left ..
    · exact Nat.le_trans (ih h) (Nat.le_max_right ..)

theorem Closes.not_digit (h : Closes s) : startsWithDigit s = false := by
  cases s with
  | nil => rfl
  | cons c s => rcases h with rfl | rfl | rfl <;> rfl

theorem skipDigits_eq_self (h : startsWithDigit s = false) : skipDigits s = s := by
  cases s with
  | nil => rfl
  | cons c s => exact List.dropWhile_cons_of_neg (Bool.eq_false_iff.1 h)

theorem afterInteger_closes (negative : Bool) (n : Nat) (h : Closes s) :
    afterInteger negative n s =
      if !negative then .ok (.integer n, s)
      else if n = 0 ∨ Nat.pow 2 63 < n then real true n 0 s
      else .ok (.integer (-n), s) := by
  have hskip := skipDigits_eq_self h.not_digit
  cases s with
  | nil => rfl
  | cons c s =>
    rw [afterInteger, hskip]
    rcases h with rfl | rfl | rfl <;> simp

/-- What comes of `n` with more digits behind it. -/
def continued (n : Nat) (ds : List Char) : Nat :=
  ds.foldl (fun n c ↦ n * 10 + Text.digitValue c) n

theorem le_continued (n : Nat) (ds : List Char) : n ≤ continued n ds := by
  induction ds generalizing n with
  | nil => exact Nat.le_refl n
  | cons c ds ih =>
    have := ih (n * 10 + Text.digitValue c)
    rw [continued, List.foldl_cons]
    rw [continued] at this
    omega

theorem absorb_digits {bound n : Nat} {ds : List Char} (hds : ∀ c ∈ ds, c.isDigit = true)
    (hs : startsWithDigit s = false) (hbound : continued n ds ≤ bound) :
    absorb bound n (ds ++ s) = (continued n ds, s) := by
  induction ds generalizing n with
  | nil =>
    cases s with
    | nil => rfl
    | cons c s =>
      have hc : c.isDigit = false := hs
      simp [absorb, hc, continued]
  | cons c ds ih =>
    have hnext : n * 10 + Text.digitValue c ≤ bound := Nat.le_trans (le_continued _ ds) hbound
    rw [List.cons_append, absorb, if_pos ⟨hds c List.mem_cons_self, hnext⟩]
    exact ih (fun c hc ↦ hds c (List.mem_cons_of_mem _ hc)) hbound

theorem readNumber_decimalDigits (negative : Bool) {n : Nat} (hn : n ≤ largestSignificand)
    (hs : Closes s) :
    readNumber negative (Text.decimalDigits n ++ s) = afterInteger negative n s := by
  obtain rfl | hpos := Nat.eq_zero_or_pos n
  · have hzero : Text.decimalDigits 0 = ['0'] := by
      rw [Text.decimalDigits]
      rfl
    simp [hzero, readNumber, hs.not_digit]
  · obtain ⟨c, ds, hcons, hc⟩ := Text.decimalDigits_eq_cons hpos
    have hdigits : ∀ c ∈ Text.decimalDigits n, c.isDigit = true :=
      fun _ ↦ Text.isDigit_of_mem_decimalDigits
    have hvalue : continued 0 (Text.decimalDigits n) = n := Text.ofDigits_decimalDigits n
    have habsorb : absorb largestSignificand 0 (Text.decimalDigits n ++ s) = (n, s) := by
      rw [absorb_digits hdigits hs.not_digit (hvalue.symm ▸ hn), hvalue]
    rw [hcons] at habsorb hdigits
    rw [hcons, List.cons_append, readNumber]
    · rw [if_pos (hdigits c List.mem_cons_self), ← List.cons_append, habsorb]
    · exact hc

theorem skipSpace_cons {c : Char} (hc : isSpace c = false) (s : List Char) :
    skipSpace (c :: s) = c :: s :=
  List.dropWhile_cons_of_neg (Bool.eq_false_iff.1 hc)

theorem isSpace_of_isDigit {c : Char} (hc : c.isDigit = true) : isSpace c = false := by
  simp only [isSpace, Bool.or_eq_false_iff, decide_eq_false_iff_not]
  refine ⟨⟨⟨?_, ?_⟩, ?_⟩, ?_⟩ <;> rintro rfl <;> cases hc

theorem readValue_of_isDigit {c : Char} (hc : c.isDigit = true) (s : List Char) :
    readValue depth (c :: s) =
      (readNumber false (c :: s)).bind fun p ↦ .ok (.number p.1, p.2) := by
  rw [readValue.eq_def, skipSpace_cons (isSpace_of_isDigit hc)]
  split
  · next h => cases h
  · next c' r h =>
    obtain ⟨rfl, rfl⟩ : c = c' ∧ s = r := by simpa using h
    split
    case h_8 => rw [if_pos hc]; rfl
    all_goals cases hc

theorem toList_render_ofNat (n : Nat) :
    (Number.integer (.ofNat n)).render.toList = Text.decimalDigits n := by
  simp [Number.render, Text.decimal]

theorem toList_render_negSucc (n : Nat) :
    (Number.integer (.negSucc n)).render.toList = '-' :: Text.decimalDigits (n + 1) := by
  simp [Number.render, Text.decimal]

theorem readValue_integer {n : Int} (hmin : -(Nat.pow 2 63 : Nat) ≤ n)
    (hmax : n < (Nat.pow 2 64 : Nat)) (hs : Closes s) :
    readValue depth (chars (.number (.integer n)) ++ s) = .ok (.number (.integer n), s) := by
  cases n with
  | ofNat n =>
    have hn : n ≤ largestSignificand := Nat.le_pred_of_lt (Int.ofNat_lt.1 hmax)
    have hread := readNumber_decimalDigits false hn hs
    obtain ⟨c, ds, hcons, hc⟩ := Text.exists_digit_cons n
    have hchars : chars (.number (.integer (.ofNat n))) ++ s = c :: (ds ++ s) := by
      rw [chars, toList_render_ofNat, hcons, List.cons_append]
    rw [hcons, List.cons_append, afterInteger_closes false n hs] at hread
    rw [hchars, readValue_of_isDigit hc, hread]
    rfl
  | negSucc n =>
    have hbound : n + 1 ≤ Nat.pow 2 63 := Int.ofNat_le.1 (Int.neg_le_neg_iff.1 hmin)
    have hread := readNumber_decimalDigits true (Nat.le_trans hbound (by decide)) hs
    have hsmall : ¬ (n + 1 = 0 ∨ Nat.pow 2 63 < n + 1) :=
      not_or.2 ⟨Nat.succ_ne_zero n, Nat.not_lt.2 hbound⟩
    rw [afterInteger_closes true (n + 1) hs, if_neg (by decide), if_neg hsmall] at hread
    have hchars : chars (.number (.integer (.negSucc n))) ++ s =
        '-' :: (Text.decimalDigits (n + 1) ++ s) := by
      rw [chars, toList_render_negSucc, List.cons_append]
    rw [hchars, readValue.eq_def, skipSpace_cons rfl]
    simp only [hread, bind, Except.bind, pure, Except.pure]
    rfl

theorem closes_itemChars (js : List Json) (s : List Char) : Closes (itemChars js ++ s) := by
  cases js with
  | nil => exact .inr (.inl rfl)
  | cons j js => exact .inl rfl

theorem length_lt_itemChars (js : List Json) : js.length < (itemChars js).length := by
  induction js with
  | nil => exact Nat.zero_lt_one
  | cons j js ih =>
    simp only [itemChars, List.length_append, List.length_cons]
    omega

def Opens (s : List Char) : Prop := ∃ c r, s = c :: r ∧ isSpace c = false ∧ c ≠ ']'

theorem opens_decimalDigits (n : Nat) : Opens (Text.decimalDigits n) := by
  obtain ⟨c, ds, hcons, hc⟩ := Text.exists_digit_cons n
  refine ⟨c, ds, hcons, isSpace_of_isDigit hc, ?_⟩
  rintro rfl
  cases hc

theorem opens_chars (h : IsPlain j) : Opens (chars j) := by
  cases h with
  | null => exact ⟨_, _, rfl, rfl, by decide⟩
  | bool b => cases b <;> exact ⟨_, _, rfl, rfl, by decide⟩
  | @integer n =>
    cases n with
    | ofNat n =>
      rw [chars, toList_render_ofNat]
      exact opens_decimalDigits n
    | negSucc n =>
      rw [chars, toList_render_negSucc]
      exact ⟨_, _, rfl, rfl, by decide⟩
  | string s => exact ⟨_, _, rfl, rfl, by decide⟩
  | @array items => cases items <;> exact ⟨_, _, rfl, rfl, by decide⟩
  | @object members => cases members <;> exact ⟨_, _, rfl, rfl, by decide⟩

theorem nextItem_true {t : List Char} (h : Opens t) (s : List Char) :
    nextItem true (t ++ s) = .ok (.item (t ++ s)) := by
  obtain ⟨c, r, rfl, hspace, hc⟩ := h
  simp [nextItem, skipSpace_cons hspace, hc]

theorem nextItem_false {t : List Char} (h : Opens t) (s : List Char) :
    nextItem false (',' :: (t ++ s)) = .ok (.item (t ++ s)) := by
  obtain ⟨c, r, rfl, hspace, hc⟩ := h
  have hcomma : isSpace ',' = false := rfl
  simp [nextItem, skipSpace_cons hspace, skipSpace_cons hcomma, hc]

theorem readItems_item {value : Reader Json} {done : List Json} {first : Bool} {r : List Char}
    (hnext : nextItem first s = .ok (.item (chars j ++ r)))
    (hvalue : value (chars j ++ r) = .ok (j, r)) :
    readItems value (fuel + 1) first done s = readItems value fuel false (j :: done) r := by
  rw [readItems, hnext]
  simp only [bind, Except.bind, hvalue]

/-- Items that are all read back are read back, behind others. -/
theorem readItems_itemChars {value : Reader Json} {done : List Json} (hfuel : js.length < fuel)
    (hplain : ∀ j ∈ js, IsPlain j)
    (hvalue : ∀ j ∈ js, ∀ s, Closes s → value (chars j ++ s) = .ok (j, s)) (s : List Char) :
    readItems value fuel false done (itemChars js ++ s) = .ok (done.reverse ++ js, s) := by
  induction js generalizing done fuel with
  | nil =>
    obtain ⟨n, rfl⟩ := Nat.exists_eq_add_one.2 hfuel
    rw [List.append_nil]
    rfl
  | cons j js ih =>
    obtain ⟨n, rfl⟩ := Nat.exists_eq_add_one.2 (Nat.zero_lt_of_lt hfuel)
    obtain ⟨hj, hjs⟩ := List.forall_mem_cons.1 hplain
    obtain ⟨hfirst, hrest⟩ := List.forall_mem_cons.1 hvalue
    have hitem : itemChars (j :: js) ++ s = ',' :: (chars j ++ (itemChars js ++ s)) := by
      simp [itemChars]
    have hnext := nextItem_false (opens_chars hj) (itemChars js ++ s)
    rw [hitem, readItems_item hnext (hfirst _ (closes_itemChars js s)),
      ih (Nat.lt_of_succ_lt_succ hfuel) hjs hrest, List.reverse_cons, List.append_assoc,
      List.singleton_append]

theorem readItems_array (hplain : ∀ j ∈ js, IsPlain j)
    (hvalue : ∀ j ∈ js, ∀ s, Closes s → readValue depth (chars j ++ s) = .ok (j, s))
    (s : List Char) :
    ∃ r, chars (.array js) ++ s = '[' :: r ∧
      readItems (readValue depth) (r.length + 1) true [] r = .ok (js, s) := by
  cases js with
  | nil => exact ⟨_, rfl, rfl⟩
  | cons j js =>
    obtain ⟨hj, hjs⟩ := List.forall_mem_cons.1 hplain
    obtain ⟨hfirst, hrest⟩ := List.forall_mem_cons.1 hvalue
    have hnext := nextItem_true (opens_chars hj) (itemChars js ++ s)
    refine ⟨chars j ++ (itemChars js ++ s), by simp [chars], ?_⟩
    have hfuel : js.length < (chars j ++ (itemChars js ++ s)).length := by
      have := length_lt_itemChars js
      simp only [List.length_append]
      omega
    rw [readItems_item hnext (hfirst _ (closes_itemChars js s)),
      readItems_itemChars hfuel hjs hrest]
    rfl

theorem readValue_array {r : List Char}
    (h : readItems (readValue depth) (r.length + 1) true [] r = .ok (js, s)) :
    readValue (depth + 1) ('[' :: r) = .ok (.array js, s) := by
  have hspace : skipSpace ('[' :: r) = '[' :: r := rfl
  rw [readValue]
  simp only [hspace, h, bind, Except.bind, pure, Except.pure]

theorem readValue_object {r : List Char}
    (h : readMembers (readValue depth) (r.length + 1) true [] r = .ok (ms, s)) :
    readValue (depth + 1) ('\x7b' :: r) = .ok (.object ms, s) := by
  have hspace : skipSpace ('\x7b' :: r) = '\x7b' :: r := rfl
  rw [readValue]
  simp only [hspace, h, bind, Except.bind, pure, Except.pure]

/-- A printed value is read back where nothing goes on with its last number. -/
theorem readValue_chars (h : IsPlain j) (hdepth : nesting j ≤ depth) (hs : Closes s) :
    readValue depth (chars j ++ s) = .ok (j, s) := by
  -- A list or an object takes one level of `depth`, which is what its members have less.
  induction h generalizing depth s with
  | null => cases depth <;> rfl
  | bool b => cases b <;> cases depth <;> rfl
  | integer hmin hmax => exact readValue_integer hmin hmax hs
  | string t => exact readValue_string depth t s
  | @array items hplain ih =>
    obtain ⟨depth, rfl⟩ := Nat.exists_eq_add_of_le' (Nat.le_trans (Nat.le_add_left 1 _) hdepth)
    have hitems (j : Json) (hj : j ∈ items) : nesting j ≤ depth :=
      Nat.le_trans (nesting_le_itemsNesting hj) (Nat.le_of_succ_le_succ hdepth)
    obtain ⟨r, hr, hread⟩ := readItems_array hplain (fun j hj s hs ↦ ih j hj (hitems j hj) hs) s
    rw [hr]
    exact readValue_array hread
  | @object members hkeys hplain ih =>
    obtain ⟨depth, rfl⟩ := Nat.exists_eq_add_of_le' (Nat.le_trans (Nat.le_add_left 1 _) hdepth)
    have hmembers (m : String × Json) (hm : m ∈ members) : nesting m.2 ≤ depth :=
      Nat.le_trans (nesting_le_membersNesting hm) (Nat.le_of_succ_le_succ hdepth)
    obtain ⟨r, hr, hread⟩ :=
      readMembers_object hkeys (fun m hm s hs ↦ ih m hm (hmembers m hm) hs) s
    rw [hr]
    exact readValue_object hread

/-- A printed value is read back by every reader that goes deep enough. -/
theorem parseWithin_print (h : IsPlain j) (hdepth : nesting j ≤ depth) :
    parseWithin depth j.print = .ok j := by
  have hread := readValue_chars h hdepth (s := []) trivial
  rw [List.append_nil] at hread
  rw [parseWithin, print, String.toList_ofList, hread]
  rfl

theorem hexDigit_ne_newline {n : Nat} (h : n < 16) : '\n' ≠ Text.hexDigit n := by
  revert n
  decide

theorem newline_not_mem_escaped (c : Char) : '\n' ∉ escaped c := by
  unfold escaped
  iterate 7
    split
    · decide
  split
  · next h =>
    have hhigh := hexDigit_ne_newline (n := c.toNat / 16) (by omega)
    have hlow := hexDigit_ne_newline (n := c.toNat % 16) (by omega)
    simp [hhigh, hlow]
  · next hnewline _ _ _ _ _ => exact fun h ↦ hnewline (List.mem_singleton.1 h).symm

theorem newline_not_mem_stringChars (t : String) : '\n' ∉ stringChars t := by
  simp [stringChars, newline_not_mem_escaped]

theorem newline_not_mem_decimalDigits (n : Nat) : '\n' ∉ Text.decimalDigits n := by
  intro h
  cases Text.isDigit_of_mem_decimalDigits h

theorem newline_not_mem_itemChars (h : ∀ j ∈ js, '\n' ∉ chars j) : '\n' ∉ itemChars js := by
  induction js with
  | nil => decide
  | cons j js ih =>
    obtain ⟨hj, hjs⟩ := List.forall_mem_cons.1 h
    simp [itemChars, hj, ih hjs]

theorem newline_not_mem_memberChars (h : ∀ m ∈ ms, '\n' ∉ chars m.2) :
    '\n' ∉ memberChars ms := by
  induction ms with
  | nil => decide
  | cons m ms ih =>
    obtain ⟨hm, hms⟩ := List.forall_mem_cons.1 h
    simp [memberChars, newline_not_mem_stringChars, hm, ih hms]

/-- A printed value takes one line. -/
theorem newline_not_mem_chars (h : IsPlain j) : '\n' ∉ chars j := by
  induction h with
  | null => decide
  | bool b => cases b <;> decide
  | @integer n =>
    cases n with
    | ofNat n =>
      rw [chars, toList_render_ofNat]
      exact newline_not_mem_decimalDigits n
    | negSucc n =>
      rw [chars, toList_render_negSucc]
      simp [newline_not_mem_decimalDigits]
  | string t => exact newline_not_mem_stringChars t
  | @array items _ ih =>
    cases items with
    | nil => decide
    | cons j js =>
      obtain ⟨hj, hjs⟩ := List.forall_mem_cons.1 ih
      simp [chars, hj, newline_not_mem_itemChars hjs]
  | @object members _ _ ih =>
    cases members with
    | nil => decide
    | cons m ms =>
      obtain ⟨hm, hms⟩ := List.forall_mem_cons.1 ih
      simp [chars, newline_not_mem_stringChars, hm, newline_not_mem_memberChars hms]

end AmbientTypes.Json
