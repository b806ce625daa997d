import AmbientTypes.Compilation.Printout
import AmbientTypes.Proofs.Text.Digit
import AmbientTypes.Proofs.Text.Lines

namespace AmbientTypes.Printout

open Text

def IsNumeral (s : List Char) : Prop :=
  s ≠ [] ∧ ∀ c ∈ s, isDecimalDigit c = true

def opening (k : MessageKind) (code : List Char) : List Char :=
  k.word.toList ++ (" TS".toList ++ (code ++ ": ".toList))

def position (line column : List Char) : List Char :=
  '(' :: (line ++ ',' :: (column ++ "): ".toList))

inductive IsMark : List Char → Prop
  | intro {k : MessageKind} {line column code : List Char} (hline : IsNumeral line)
      (hcolumn : IsNumeral column) (hcode : IsNumeral code) :
      IsMark (position line column ++ opening k code)

def Unmarked (s : List Char) : Prop :=
  ∀ m, IsMark m → ¬ m <:+: s

inductive IsHeading : List Char → Prop
  | placed {file m text : List Char} (hfile : file ≠ []) (hm : IsMark m) :
      IsHeading (file ++ (m ++ text))
  | global {k : MessageKind} {code text : List Char} (hcode : IsNumeral code) :
      IsHeading (opening k code ++ text)

theorem isNumeral_decimalDigits (n : Nat) : IsNumeral (decimalDigits n) := by
  refine ⟨decimalDigits_ne_nil n, ?_⟩
  intro c hc
  rw [isDecimalDigit, isDigit_of_mem_decimalDigits hc, Bool.true_or]

theorem digits_eq_some {s ds r : List Char} (h : digits s = some (ds, r)) :
    IsNumeral ds ∧ s = ds ++ r := by
  simp only [digits] at h
  split at h
  · cases h
  · next hne =>
    obtain ⟨rfl, rfl⟩ : s.takeWhile isDecimalDigit = ds ∧
        s.drop (s.takeWhile isDecimalDigit).length = r := by simpa using h
    refine ⟨⟨hne, fun c hc ↦ ?_⟩, ?_⟩
    · exact List.all_eq_true.1 List.all_takeWhile c hc
    · exact (List.prefix_iff_eq_append.1 (List.takeWhile_prefix _)).symm

theorem digits_append {ds : List Char} (h : IsNumeral ds) {c : Char}
    (hc : isDecimalDigit c = false) (s : List Char) :
    digits (ds ++ c :: s) = some (ds, c :: s) := by
  have htake : (ds ++ c :: s).takeWhile isDecimalDigit = ds := by
    rw [List.takeWhile_append_of_pos h.2, List.takeWhile_cons_of_neg (by simp [hc]),
      List.append_nil]
  rw [digits, htake, if_neg h.1, List.drop_left]

theorem kind_eq_some {s r : List Char} {k : MessageKind} (h : kind s = some (k, r)) :
    s = k.word.toList ++ r := by
  obtain ⟨l, -, hl⟩ := List.exists_of_findSome?_eq_some h
  obtain ⟨t, ht, he⟩ := Option.map_eq_some_iff.1 hl
  obtain ⟨rfl, rfl⟩ := Prod.mk.inj he
  exact after?_eq_some_iff.1 ht

theorem kind_append (k : MessageKind) (s : List Char) :
    kind (k.word.toList ++ s) = some (k, s) := by
  have hafter : after? k.word.toList (k.word.toList ++ s) = some s := after?_eq_some_iff.2 rfl
  cases k <;> simp [kind, hafter] <;> simp [MessageKind.word, after?]

theorem headline_eq_some {s : List Char} {h : Headline} (hs : headline s = some h) :
    IsNumeral h.code ∧ s = opening h.kind h.code ++ h.text := by
  simp only [headline, Option.bind_eq_bind, Option.bind_eq_some_iff] at hs
  obtain ⟨⟨k, r⟩, hk, s', hts, ⟨code, r'⟩, hcode, text, htext, ⟨⟩⟩ := hs
  obtain ⟨hnum, rfl⟩ := digits_eq_some hcode
  have hr : r = " TS".toList ++ (code ++ r') := after?_eq_some_iff.1 hts
  have hr' : r' = ": ".toList ++ text := after?_eq_some_iff.1 htext
  refine ⟨hnum, ?_⟩
  rw [kind_eq_some hk, hr, hr']
  simp only [opening, List.append_assoc]

theorem headline_append {code : List Char} (hcode : IsNumeral code) (k : MessageKind)
    (text : List Char) : headline (opening k code ++ text) = some ⟨k, code, text⟩ := by
  have hafter (t s : List Char) : after? t (t ++ s) = some s := after?_eq_some_iff.2 rfl
  have hdigits : digits (code ++ (": ".toList ++ text)) = some (code, ": ".toList ++ text) :=
    digits_append hcode (by decide) _
  simp only [opening, List.append_assoc, headline, kind_append, hafter, hdigits,
    Option.bind_eq_bind, Option.bind_some]
  rfl

theorem mark_eq_some {s : List Char} {m : Mark} (h : mark s = some m) :
    IsMark (position m.line m.column ++ opening m.head.kind m.head.code) ∧
      s = position m.line m.column ++ opening m.head.kind m.head.code ++ m.head.text := by
  simp only [mark, Option.bind_eq_bind, Option.bind_eq_some_iff] at h
  obtain ⟨s₁, hs, ⟨line, s₂⟩, hline, s₃, hs₂, ⟨column, s₄⟩, hcolumn, s₅, hs₄, head, hhead, ⟨⟩⟩ := h
  obtain ⟨hlnum, rfl⟩ := digits_eq_some hline
  obtain ⟨hcnum, rfl⟩ := digits_eq_some hcolumn
  obtain ⟨hcode, rfl⟩ := headline_eq_some hhead
  have hs₂' : s₂ = [','] ++ (column ++ s₄) := after?_eq_some_iff.1 hs₂
  have hs₄' : s₄ = "): ".toList ++ _ := after?_eq_some_iff.1 hs₄
  refine ⟨.intro hlnum hcnum hcode, ?_⟩
  rw [after?_eq_some_iff.1 hs, hs₂', hs₄']
  simp only [position, List.append_assoc, List.cons_append, List.nil_append]

theorem mark_append {line column code : List Char} (hline : IsNumeral line)
    (hcolumn : IsNumeral column) (hcode : IsNumeral code) (k : MessageKind) (text : List Char) :
    mark (position line column ++ (opening k code ++ text)) =
      some ⟨line, column, k, code, text⟩ := by
  have hafter (t s : List Char) : after? t (t ++ s) = some s := after?_eq_some_iff.2 rfl
  have hs : position line column ++ (opening k code ++ text) =
      ['('] ++ (line ++ ([','] ++ (column ++ ("): ".toList ++ (opening k code ++ text))))) := by
    simp only [position, List.append_assoc, List.cons_append, List.nil_append]
  have hcomma (s : List Char) : digits (line ++ ([','] ++ s)) = some (line, [','] ++ s) :=
    digits_append hline (by decide) _
  have hclose (s : List Char) :
      digits (column ++ ("): ".toList ++ s)) = some (column, "): ".toList ++ s) :=
    digits_append hcolumn (by decide) _
  rw [hs]
  simp only [mark, hafter, hcomma, hclose, headline_append hcode, Option.bind_eq_bind,
    Option.bind_some]
  rfl

theorem IsMark.mark_append {m : List Char} (h : IsMark m) (text : List Char) :
    ∃ mk, mark (m ++ text) = some mk := by
  obtain ⟨hline, hcolumn, hcode⟩ := h
  rw [List.append_assoc]
  exact ⟨_, Printout.mark_append hline hcolumn hcode _ text⟩

theorem IsNumeral.paren_not_mem {s : List Char} (h : IsNumeral s) : '(' ∉ s := by
  intro hc
  exact absurd (h.2 _ hc) (by decide)

theorem paren_not_mem_opening {code : List Char} (h : IsNumeral code) (k : MessageKind) :
    '(' ∉ opening k code := by
  have hword : '(' ∉ k.word.toList := by cases k <;> decide
  simp [opening, hword, h.paren_not_mem]

theorem IsMark.eq_cons {m : List Char} (h : IsMark m) : ∃ s, m = '(' :: s ∧ '(' ∉ s := by
  obtain ⟨hline, hcolumn, hcode⟩ := h
  refine ⟨_, List.cons_append, ?_⟩
  simp [hline.paren_not_mem, hcolumn.paren_not_mem, paren_not_mem_opening hcode]

theorem prefix_left_of_not_mem {c : Char} {u s v : List Char} (hc : c ∉ u)
    (h : u <+: s ++ c :: v) : u <+: s := by
  rcases List.prefix_or_prefix_of_prefix h (List.prefix_append s (c :: v)) with hu | ⟨t, rfl⟩
  · exact hu
  · rw [List.prefix_append_right_inj] at h
    cases t with
    | nil => simp
    | cons a t =>
      obtain ⟨rfl, -⟩ := List.cons_prefix_cons.1 h
      simp at hc

theorem infix_right_of_not_mem {c : Char} {u s v : List Char} (hc : c ∉ s)
    (h : (c :: u) <:+: s ++ v) : (c :: u) <:+: v := by
  induction s with
  | nil => exact h
  | cons a s ih =>
    rw [List.mem_cons, not_or] at hc
    rcases List.infix_cons_iff.1 h with hpre | hinf
    · exact absurd (List.cons_prefix_cons.1 hpre).1 hc.1
    · exact ih hc.2 hinf

theorem Unmarked.append_left {s t : List Char} (hs : '(' ∉ s) (ht : Unmarked t) :
    Unmarked (s ++ t) := by
  intro m hm hinf
  obtain ⟨u, rfl, -⟩ := hm.eq_cons
  exact ht _ hm (infix_right_of_not_mem hs hinf)

theorem located_append {file m text : List Char} {mk : Mark} (hfile : Unmarked file)
    (hm : IsMark m) (hmk : mark (m ++ text) = some mk) (passed : List Char)
    (hne : passed = [] → file ≠ []) :
    located passed (file ++ (m ++ text)) = some (passed.reverse ++ file, mk) := by
  obtain ⟨u, rfl, -⟩ := hm.eq_cons
  induction file generalizing passed with
  | nil =>
    have hpassed : passed ≠ [] := fun h ↦ hne h rfl
    rw [List.nil_append, List.cons_append, located, if_neg hpassed, ← List.cons_append, hmk,
      List.append_nil]
  | cons c file ih =>
    -- A mark that starts in the file cannot reach into the one behind it.
    have hnone : mark (c :: (file ++ ('(' :: u ++ text))) = none := by
      rw [Option.eq_none_iff_forall_ne_some]
      intro mk' h
      obtain ⟨hm', heq⟩ := mark_eq_some h
      obtain ⟨u', hu', hparen⟩ := hm'.eq_cons
      rw [hu'] at heq hm'
      obtain ⟨rfl, htail⟩ := List.cons.inj heq
      have hpre : u' <+: file := by
        apply prefix_left_of_not_mem (v := u ++ text) hparen
        exact ⟨_, htail.symm⟩
      exact hfile _ hm' (List.cons_prefix_cons.2 ⟨rfl, hpre⟩).isInfix
    have htail : Unmarked file := fun m' hm' h ↦
      hfile m' hm' (h.trans (List.suffix_cons c file).isInfix)
    rw [List.cons_append, located, hnone, ite_self]
    simpa using ih htail (c :: passed) (by simp)

theorem located_eq_some {s passed file : List Char} {mk : Mark}
    (h : located passed s = some (file, mk)) :
    ∃ u m text, file = passed.reverse ++ u ∧ file ≠ [] ∧ IsMark m ∧ s = u ++ (m ++ text) := by
  induction s generalizing passed with
  | nil => cases h
  | cons c s ih =>
    rw [located] at h
    split at h
    · next mk' hmk =>
      obtain ⟨rfl, rfl⟩ := Prod.mk.inj (Option.some.inj h)
      obtain ⟨hpassed, hmk⟩ := Option.ite_none_left_eq_some.1 hmk
      obtain ⟨hm, hs⟩ := mark_eq_some hmk
      exact ⟨[], _, _, by simp, by simpa using hpassed, hm, hs⟩
    · obtain ⟨u, m, text, hfile, hne, hm, rfl⟩ := ih h
      exact ⟨c :: u, m, text, by simpa using hfile, hne, hm, rfl⟩

theorem located_of_unmarked {s : List Char} (hs : Unmarked s) : located [] s = none := by
  rw [Option.eq_none_iff_forall_ne_some]
  rintro ⟨file, mk⟩ h
  obtain ⟨u, m, text, -, -, hm, rfl⟩ := located_eq_some h
  exact hs m hm ((List.prefix_append m text).isInfix.trans (List.suffix_append _ _).isInfix)

theorem located_isSome {file m text passed : List Char} (hm : IsMark m)
    (hne : passed = [] → file ≠ []) :
    (located passed (file ++ (m ++ text))).isSome = true := by
  induction file generalizing passed with
  | nil =>
    have hpassed : passed ≠ [] := fun h ↦ hne h rfl
    obtain ⟨u, hu, -⟩ := hm.eq_cons
    obtain ⟨mk, hmk⟩ := hm.mark_append text
    rw [hu, List.cons_append] at hmk
    rw [List.nil_append, hu, List.cons_append, located, if_neg hpassed, hmk]
    rfl
  | cons c file ih =>
    rw [List.cons_append, located]
    split
    · rfl
    · apply ih
      simp

theorem unmarked_iff (c : Char) {s : List Char} :
    Unmarked s ↔ (located [c] s).isSome = false := by
  constructor
  · intro hs
    rw [Option.isSome_eq_false_iff, Option.isNone_iff_eq_none, Option.eq_none_iff_forall_ne_some]
    rintro ⟨file, mk⟩ h
    obtain ⟨u, m, text, -, -, hm, rfl⟩ := located_eq_some h
    exact hs m hm ((List.prefix_append m text).isInfix.trans (List.suffix_append _ _).isInfix)
  · rintro hs m hm ⟨u, v, rfl⟩
    have hsome : (located [c] (u ++ (m ++ v))).isSome = true :=
      located_isSome hm fun h ↦ absurd h (by simp)
    rw [List.append_assoc, hsome] at hs
    cases hs

instance (s : List Char) : Decidable (Unmarked s) :=
  decidable_of_iff _ (unmarked_iff '.').symm

theorem message?_of_not_isHeading {line : List Char} (h : ¬ IsHeading line) (directory : String) :
    message? directory line = none := by
  rw [message?]
  split
  · next file mk hloc =>
    obtain ⟨u, m, text, hfile, hne, hm, rfl⟩ := located_eq_some hloc
    obtain rfl : file = u := by simpa using hfile
    exact absurd (.placed hne hm) h
  · rw [Option.map_eq_none_iff, Option.eq_none_iff_forall_ne_some]
    intro hd hhd
    obtain ⟨hcode, rfl⟩ := headline_eq_some hhd
    exact h (.global hcode)

theorem isHeading_iff (directory : String) {line : List Char} :
    IsHeading line ↔ (message? directory line).isSome = true := by
  refine ⟨fun h ↦ ?_, fun h ↦ ?_⟩
  · rw [message?]
    cases h with
    | @placed file m text hfile hm =>
      have hsome : (located [] (file ++ (m ++ text))).isSome = true :=
        located_isSome hm fun _ ↦ hfile
      obtain ⟨x, hx⟩ := Option.isSome_iff_exists.1 hsome
      rw [hx]
      rfl
    | @global k code text hcode =>
      split
      · rfl
      · rw [headline_append hcode]
        rfl
  · apply Classical.byContradiction
    intro hnot
    rw [message?_of_not_isHeading hnot] at h
    cases h

instance (line : List Char) : Decidable (IsHeading line) :=
  decidable_of_iff _ (isHeading_iff "").symm

structure Place where
  file : List Char
  line : Nat
  column : Nat

structure Continuation where
  indent : List Char
  text : List Char

structure Entry where
  place? : Option Place
  kind : MessageKind
  code : Nat
  first : List Char
  more : List Continuation

def Place.text (p : Place) : List Char :=
  p.file ++ position (decimalDigits p.line) (decimalDigits p.column)

def Continuation.line (c : Continuation) : List Char :=
  c.indent ++ c.text

namespace Entry

def heading (e : Entry) : List Char :=
  (e.place?.map Place.text).getD [] ++ (opening e.kind (decimalDigits e.code) ++ e.first)

def lines (e : Entry) : List (List Char) :=
  e.heading :: e.more.map Continuation.line

def message (directory : String) (e : Entry) : CompilerMessage where
  file := e.place?.map fun p ↦ Path.anchor directory (String.ofList p.file)
  line := e.place?.map Place.line
  column := e.place?.map Place.column
  code := e.code
  kind := e.kind
  text := String.ofList (joinWith '\n' (e.first :: e.more.map Continuation.text))

end Entry

structure Place.IsPlain (p : Place) : Prop where
  line : p.line < Nat.pow 2 32
  column : p.column < Nat.pow 2 32
  file : p.file ≠ []
  unmarked : Unmarked p.file

structure Continuation.IsPlain (c : Continuation) : Prop where
  indented : c.indent ≠ []
  blank : ∀ d ∈ c.indent, isBlank d = true
  text : c.text ≠ []
  trimStart : trimStart c.text = c.text
  trimEnd : trimEnd c.text = c.text
  unmarked : Unmarked c.text

structure Entry.IsPlain (e : Entry) : Prop where
  code : e.code < Nat.pow 2 32
  place : ∀ p ∈ e.place?, p.IsPlain
  first : e.first ≠ []
  trimEnd : trimEnd e.first = e.first
  unmarked : e.place? = none → Unmarked e.first
  more : ∀ c ∈ e.more, c.IsPlain

/-- A line that belongs to no message: a blank one, or one that is neither indented nor a
heading. -/
inductive IsNoise : List Char → Prop
  | blank {line : List Char} (h : ∀ c ∈ line, isBlank c = true) : IsNoise line
  | other {c : Char} {s : List Char} (hc : isBlank c = false)
      (h : ¬ IsHeading (trimEnd (c :: s))) : IsNoise (c :: s)

/-- The lines `ls` are those that were printed, each with blanks behind it or none, and others
anywhere that belong to no message. -/
inductive Interspersed : (printed ls : List (List Char)) → Prop
  | nil : Interspersed [] []
  | noise {ps ls : List (List Char)} {l : List Char} (hl : IsNoise l) (h : Interspersed ps ls) :
      Interspersed ps (l :: ls)
  | printed {ps ls : List (List Char)} {p blanks : List Char}
      (hb : ∀ c ∈ blanks, isBlank c = true) (h : Interspersed ps ls) :
      Interspersed (p :: ps) ((p ++ blanks) :: ls)

section Parsing

variable {directory : String} {found : List CompilerMessage} {l : List Char} {m : CompilerMessage}

theorem step_congr {l' : List Char} (h : trimEnd l = trimEnd l') :
    step directory found l = step directory found l' := by
  simp only [step, h]

theorem step_of_blank (h : trimEnd l = []) (hm : message? directory (trimEnd l) = none) :
    step directory found l = found := by
  simp only [step, hm]
  rw [h]

theorem step_of_heading (hm : message? directory (trimEnd l) = some m) :
    step directory found l = m :: found := by
  simp only [step, hm]

theorem step_of_not_heading {c : Char} {s : List Char} (hl : trimEnd l = c :: s)
    (hm : message? directory (c :: s) = none) :
    step directory (m :: found) l =
      if isBlank c then addLine (c :: s) m :: found else m :: found := by
  simp only [step, hl, hm]

theorem IsHeading.ne_nil (h : IsHeading l) : l ≠ [] := by
  cases h with
  | placed hfile _ => exact fun h ↦ hfile (List.append_eq_nil_iff.1 h).1
  | @global k _ _ _ => cases k <;> exact List.cons_ne_nil _ _

theorem not_isHeading_of_blank {c : Char} {s : List Char} (hc : isBlank c = true)
    (hs : Unmarked (c :: s)) : ¬ IsHeading (c :: s) := by
  intro h
  generalize hline : c :: s = line at h hs
  cases h with
  | @placed file m text hfile hm =>
    exact hs m hm ((List.prefix_append m text).isInfix.trans (List.suffix_append file _).isInfix)
  | @global k =>
    cases k <;> obtain ⟨rfl, -⟩ := List.cons.inj hline <;> exact absurd hc (by decide)

theorem step_noise (hl : IsNoise l) : step directory found l = found := by
  cases hl with
  | blank h =>
    have hnil := trimEnd_eq_nil.2 h
    apply step_of_blank hnil
    exact message?_of_not_isHeading (fun h ↦ h.ne_nil hnil) directory
  | @other c s hc h =>
    rw [trimEnd_cons hc] at h
    cases found with
    | nil => simp only [step, trimEnd_cons hc, message?_of_not_isHeading h]
    | cons m ms =>
      rw [step_of_not_heading (trimEnd_cons hc s) (message?_of_not_isHeading h directory)]
      simp [hc]

theorem foldl_step_interspersed {ps ls : List (List Char)} (h : Interspersed ps ls)
    (found : List CompilerMessage) :
    ls.foldl (step directory) found = ps.foldl (step directory) found := by
  induction h generalizing found with
  | nil => rfl
  | noise hl h ih => rw [List.foldl_cons, step_noise hl, ih]
  | printed hb h ih =>
    rw [List.foldl_cons, List.foldl_cons, step_congr (trimEnd_append_blank _ hb), ih]

theorem step_continuation {c : Continuation} (hc : c.IsPlain) :
    step directory (m :: found) c.line =
      { m with text := m.text ++ "\n" ++ String.ofList c.text } :: found := by
  have htrim : trimEnd c.line = c.line := by
    rw [Continuation.line, trimEnd_append_of_ne_nil, hc.trimEnd]
    rw [hc.trimEnd]
    exact hc.text
  have hstart : trimStart c.line = c.text := by
    rw [Continuation.line, trimStart_append_blank hc.blank, hc.trimStart]
  have hparen : '(' ∉ c.indent := fun h ↦ absurd (hc.blank _ h) (by decide)
  have hunmarked : Unmarked c.line := hc.unmarked.append_left hparen
  obtain ⟨d, s, hindent⟩ := List.exists_cons_of_ne_nil hc.indented
  have hblank : isBlank d = true := hc.blank d (by simp [hindent])
  have hline : c.line = d :: (s ++ c.text) := by rw [Continuation.line, hindent, List.cons_append]
  rw [hline] at htrim hunmarked hstart
  have hnone := message?_of_not_isHeading (not_isHeading_of_blank hblank hunmarked) directory
  rw [hline, step_of_not_heading htrim hnone, if_pos hblank, addLine, hstart]

theorem foldl_step_more {cs : List Continuation} (hcs : ∀ c ∈ cs, c.IsPlain)
    (first : List Char) (m : CompilerMessage) (found : List CompilerMessage) :
    (cs.map Continuation.line).foldl (step directory)
        ({ m with text := String.ofList first } :: found) =
      { m with text := String.ofList (joinWith '\n' (first :: cs.map Continuation.text)) } ::
        found := by
  induction cs generalizing first with
  | nil => rfl
  | cons c cs ih =>
    have hjoin (t : List Char) (ts : List (List Char)) :
        joinWith '\n' (first :: t :: ts) = joinWith '\n' ((first ++ '\n' :: t) :: ts) := by
      cases ts with
      | nil => rfl
      | cons u us => simp [joinWith]
    have htext : String.ofList first ++ "\n" ++ String.ofList c.text =
        String.ofList (first ++ '\n' :: c.text) := by
      apply String.toList_inj.1
      simp
    rw [List.map_cons, List.foldl_cons, step_continuation (hcs c (by simp)), List.map_cons, hjoin]
    simp only [htext]
    apply ih
    intro c' hc'
    exact hcs c' (by simp [hc'])

theorem step_heading {e : Entry} (he : e.IsPlain) :
    step directory found e.heading =
      { e.message directory with text := String.ofList e.first } :: found := by
  have htrim : trimEnd e.heading = e.heading := by
    rw [Entry.heading, ← List.append_assoc, trimEnd_append_of_ne_nil, he.trimEnd]
    rw [he.trimEnd]
    exact he.first
  have hnumber {n : Nat} (hn : n < Nat.pow 2 32) : number (decimalDigits n) = some n :=
    natBelow?_decimalDigits hn
  have hcode := isNumeral_decimalDigits e.code
  apply step_of_heading
  rw [htrim, Entry.heading, Entry.message]
  cases hplace : e.place? with
  | none =>
    have hunmarked := (he.unmarked hplace).append_left (paren_not_mem_opening hcode e.kind)
    simp [message?, located_of_unmarked hunmarked, headline_append hcode, Headline.message,
      hnumber he.code]
  | some p =>
    obtain ⟨hline, hcolumn, hfile, hunmarked⟩ := he.place p hplace
    have hpline := isNumeral_decimalDigits p.line
    have hpcolumn := isNumeral_decimalDigits p.column
    have hmark := mark_append hpline hpcolumn hcode e.kind e.first
    rw [← List.append_assoc] at hmark
    have hlocated := located_append hunmarked (.intro hpline hpcolumn hcode) hmark [] fun _ ↦ hfile
    have hheading : p.text ++ (opening e.kind (decimalDigits e.code) ++ e.first) =
        p.file ++ (position (decimalDigits p.line) (decimalDigits p.column) ++
          opening e.kind (decimalDigits e.code) ++ e.first) := by
      simp only [Place.text, List.append_assoc]
    simp only [Option.map_some, Option.getD_some, hheading, message?, hlocated, List.reverse_nil,
      List.nil_append, Headline.message, hnumber hline, hnumber hcolumn, hnumber he.code]

theorem foldl_step_lines {e : Entry} (he : e.IsPlain) :
    e.lines.foldl (step directory) found = e.message directory :: found := by
  rw [Entry.lines, List.foldl_cons, step_heading he, foldl_step_more he.more]
  rfl

theorem foldl_step_entries {es : List Entry} (hes : ∀ e ∈ es, e.IsPlain) :
    (es.flatMap Entry.lines).foldl (step directory) found =
      (es.map (Entry.message directory)).reverse ++ found := by
  induction es generalizing found with
  | nil => rfl
  | cons e es ih =>
    rw [List.flatMap_cons, List.foldl_append, foldl_step_lines (hes e (by simp)), ih]
    · simp
    · intro e' he'
      exact hes e' (by simp [he'])

/-- The messages that were printed are read again, in order, whatever else stands between. -/
theorem parse_printed {text : String} {es : List Entry} (hes : ∀ e ∈ es, e.IsPlain)
    (h : Interspersed (es.flatMap Entry.lines) (splitAt '\n' text.toList)) (directory : String) :
    parse text directory = es.map (Entry.message directory) := by
  have hlines := foldl_lines (f := step directory) (fun _ _ _ h ↦ step_congr h)
    (fun _ ↦ step_noise (.blank (by simp))) text.toList []
  rw [parse, hlines, foldl_step_interspersed h, foldl_step_entries hes, List.append_nil,
    List.reverse_reverse]

end Parsing

/-- One message in a file, with a second line and a text that looks like another message, and one
without a file. -/
def twoEntries : List Entry :=
  [⟨some ⟨"My (1).ts".toList, 3, 7⟩, .error, 2322, "see b(1,1): error TS1: x".toList,
    [⟨"  ".toList, "here".toList⟩]⟩,
  ⟨none, .warning, 5023, "odd".toList, []⟩]

theorem isPlain_twoEntries : ∀ e ∈ twoEntries, e.IsPlain := by
  have hplace : Place.IsPlain ⟨"My (1).ts".toList, 3, 7⟩ :=
    ⟨by decide, by decide, by decide, by decide⟩
  have hindent : ∀ c ∈ "  ".toList, isBlank c = true :=
    List.forall_mem_cons.2 ⟨by decide, List.forall_mem_singleton.2 (by decide)⟩
  have hmore : Continuation.IsPlain ⟨"  ".toList, "here".toList⟩ :=
    ⟨by decide, hindent, by decide, by decide, by decide, by decide⟩
  rw [twoEntries, List.forall_mem_cons, List.forall_mem_singleton]
  constructor
  · refine ⟨by decide, ?_, by decide, by decide, by simp, ?_⟩
    · rintro p ⟨⟩
      exact hplace
    · simpa using hmore
  · exact ⟨by decide, by simp, by decide, by decide, by decide, by simp⟩

def twoEntriesText : String :=
  "My (1).ts(3,7): error TS2322: see b(1,1): error TS1: x\r\n" ++
    "\r\n  here\r\nFound 2.\r\nwarning TS5023: odd\n"

theorem interspersed_twoEntriesText :
    Interspersed (twoEntries.flatMap Entry.lines) (splitAt '\n' twoEntriesText.toList) := by
  have hsplit : splitAt '\n' twoEntriesText.toList =
      ["My (1).ts(3,7): error TS2322: see b(1,1): error TS1: x".toList ++ ['\r'], ['\r'],
      "  here".toList ++ ['\r'], "Found 2.\r".toList, "warning TS5023: odd".toList ++ [], []] := by
    decide
  have hlines : twoEntries.flatMap Entry.lines =
      ["My (1).ts(3,7): error TS2322: see b(1,1): error TS1: x".toList, "  here".toList,
      "warning TS5023: odd".toList] := by
    decide +kernel
  have hreturn : ∀ c ∈ ['\r'], isBlank c = true := List.forall_mem_singleton.2 (by decide)
  rw [hsplit, hlines]
  apply Interspersed.printed hreturn
  apply Interspersed.noise (.blank hreturn)
  apply Interspersed.printed hreturn
  apply Interspersed.noise (.other (by decide) (by decide))
  apply Interspersed.printed (List.forall_mem_nil _)
  apply Interspersed.noise (.blank (List.forall_mem_nil _))
  exact .nil

theorem parse_printed_twoEntries :
    (∀ e ∈ twoEntries, e.IsPlain) ∧
      Interspersed (twoEntries.flatMap Entry.lines) (splitAt '\n' twoEntriesText.toList) ∧
      parse twoEntriesText "/work" =
        [⟨some "/work/My (1).ts", some 3, some 7, 2322, .error, "see b(1,1): error TS1: x\nhere"⟩,
        ⟨none, none, none, 5023, .warning, "odd"⟩] := by
  refine ⟨isPlain_twoEntries, interspersed_twoEntriesText, ?_⟩
  rw [parse_printed isPlain_twoEntries interspersed_twoEntriesText "/work"]
  decide +kernel

end AmbientTypes.Printout
