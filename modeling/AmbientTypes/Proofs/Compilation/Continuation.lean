import AmbientTypes.Compilation.Program
import AmbientTypes.Proofs.Compilation.Printout
import AmbientTypes.Proofs.Text.Trimming
import Mathlib.Data.List.Forall2

namespace AmbientTypes

namespace Printout

open Text

variable {directory : String} {found : List CompilerMessage} {m : CompilerMessage} {l : List Char}
  {ls front : List (List Char)}

def isIndented (line : List Char) : Bool :=
  line.head?.any isBlank && line.any (!isBlank ·)

def Starts (line : List Char) : Prop :=
  IsHeading (trimEnd line)

instance (line : List Char) : Decidable (Starts line) :=
  inferInstanceAs (Decidable (IsHeading _))

/-- The lines that the indented ones of `ls` put under a text. -/
def continuation (ls : List (List Char)) : List Char :=
  (ls.filter isIndented).flatMap fun l ↦ '\n' :: trim l

def goOn (m : CompilerMessage) (ls : List (List Char)) : CompilerMessage :=
  { m with text := m.text ++ String.ofList (continuation ls) }

theorem isIndented_iff : isIndented l = true ↔ ∃ c s, trimEnd l = c :: s ∧ isBlank c = true := by
  have hnil : trimEnd l = [] ↔ l.any (!isBlank ·) = false := by
    rw [trimEnd_eq_nil, List.any_eq_false]
    simp
  rw [isIndented, Bool.and_eq_true]
  constructor
  · rintro ⟨hhead, hany⟩
    cases htrim : trimEnd l with
    | nil =>
      rw [hnil.1 htrim] at hany
      cases hany
    | cons c s =>
      obtain ⟨t, rfl⟩ : c :: s <+: l := htrim ▸ prefix_trimEnd l
      exact ⟨c, s, rfl, by simpa using hhead⟩
  · rintro ⟨c, s, htrim, hc⟩
    constructor
    · obtain ⟨t, rfl⟩ : c :: s <+: l := htrim ▸ prefix_trimEnd l
      simpa using hc
    · rw [← Bool.not_eq_false, ← hnil, htrim]
      simp

theorem step_of_starts (directory : String) (h : Starts l) :
    ∃ m, message? directory (trimEnd l) = some m ∧
      ∀ found, step directory found l = m :: found := by
  obtain ⟨m, hm⟩ := Option.isSome_iff_exists.1 ((isHeading_iff directory).1 h)
  exact ⟨m, hm, fun found ↦ step_of_heading hm⟩

theorem step_nil (h : ¬ Starts l) : step directory [] l = [] := by
  simp only [step, message?_of_not_isHeading h]
  cases trimEnd l <;> rfl

theorem step_goOn (h : ¬ Starts l) : step directory (m :: found) l = goOn m [l] :: found := by
  have hnone := message?_of_not_isHeading h directory
  by_cases hl : isIndented l = true
  · obtain ⟨c, s, htrim, hc⟩ := isIndented_iff.1 hl
    rw [step_of_not_heading htrim (htrim ▸ hnone), if_pos hc, addLine, ← htrim, trimStart_trimEnd,
      goOn, continuation, List.filter_cons_of_pos hl]
    simp [String.append_assoc]
  · have hgo : goOn m [l] = m := by simp [goOn, continuation, hl]
    rw [hgo]
    cases htrim : trimEnd l with
    | nil => exact step_of_blank htrim hnone
    | cons c s =>
      have hc : ¬ isBlank c = true := fun hc ↦ hl (isIndented_iff.2 ⟨c, s, htrim, hc⟩)
      rw [step_of_not_heading htrim (htrim ▸ hnone), if_neg hc]

theorem goOn_cons (m : CompilerMessage) (l : List Char) (ls : List (List Char)) :
    goOn m (l :: ls) = goOn (goOn m [l]) ls := by
  have h : continuation (l :: ls) = continuation [l] ++ continuation ls := by
    rw [continuation, ← List.singleton_append, List.filter_append, List.flatMap_append]
    rfl
  simp only [goOn, h, String.ofList_append, String.append_assoc]

theorem goOn_eq_self : goOn m ls = m ↔ ∀ l ∈ ls, isIndented l = false := by
  have htext : goOn m ls = m ↔ continuation ls = [] := by
    constructor
    · intro h
      have hlength := congrArg (fun m ↦ m.text.toList.length) h
      simpa [goOn] using hlength
    · intro h
      simp [goOn, h]
  rw [htext, continuation, List.flatMap_eq_nil_iff]
  simp

theorem foldl_front (h : ∀ l ∈ ls, ¬ Starts l) : ls.foldl (step directory) [] = [] := by
  induction ls with
  | nil => rfl
  | cons l ls ih =>
    rw [List.forall_mem_cons] at h
    rw [List.foldl_cons, step_nil h.1, ih h.2]

theorem foldl_goOn (h : ∀ l ∈ ls, ¬ Starts l) :
    ls.foldl (step directory) (m :: found) = goOn m ls :: found := by
  induction ls generalizing m with
  | nil => rw [goOn_eq_self.2 (List.forall_mem_nil _), List.foldl_nil]
  | cons l ls ih =>
    rw [List.forall_mem_cons] at h
    rw [List.foldl_cons, step_goOn h.1, ih h.2, ← goOn_cons]

structure Block where
  first : List Char
  more : List (List Char)

def Block.lines (b : Block) : List (List Char) :=
  b.first :: b.more

/-- What a block tells: the message that its first line starts, with the text that the indented ones
of the other lines go on with. -/
def Block.Tells (directory : String) (b : Block) (m : CompilerMessage) : Prop :=
  ∃ head, message? directory (trimEnd b.first) = some head ∧ m = goOn head b.more

/-- The blocks of a text, behind lines that are in none. -/
structure Cut (ls front : List (List Char)) (blocks : List Block) : Prop where
  lines : ls = front ++ blocks.flatMap Block.lines
  front : ∀ l ∈ front, ¬ Starts l
  first : ∀ b ∈ blocks, Starts b.first
  more : ∀ b ∈ blocks, ∀ l ∈ b.more, ¬ Starts l

theorem exists_cut (ls : List (List Char)) : ∃ front blocks, Cut ls front blocks := by
  induction ls with
  | nil => exact ⟨[], [], rfl, by simp, by simp, by simp⟩
  | cons l ls ih =>
    obtain ⟨front, blocks, hls, hfront, hfirst, hmore⟩ := ih
    by_cases hl : Starts l
    · refine ⟨[], ⟨l, front⟩ :: blocks, ?_, by simp, ?_, ?_⟩
      · rw [hls]
        rfl
      · exact List.forall_mem_cons.2 ⟨hl, hfirst⟩
      · exact List.forall_mem_cons.2 ⟨hfront, hmore⟩
    · refine ⟨l :: front, blocks, ?_, ?_, hfirst, hmore⟩
      · rw [hls, List.cons_append]
      · exact List.forall_mem_cons.2 ⟨hl, hfront⟩

/-- Every block gives its message, whatever was found before. -/
theorem foldl_blocks (directory : String) {blocks : List Block}
    (hfirst : ∀ b ∈ blocks, Starts b.first) (hmore : ∀ b ∈ blocks, ∀ l ∈ b.more, ¬ Starts l) :
    ∃ ms, List.Forall₂ (Block.Tells directory) blocks ms ∧
      ∀ found, (blocks.flatMap Block.lines).foldl (step directory) found = ms.reverse ++ found := by
  induction blocks with
  | nil => exact ⟨[], .nil, fun found ↦ rfl⟩
  | cons b blocks ih =>
    rw [List.forall_mem_cons] at hfirst hmore
    obtain ⟨ms, hms, hfold⟩ := ih hfirst.2 hmore.2
    obtain ⟨head, hhead, hstep⟩ := step_of_starts directory hfirst.1
    refine ⟨goOn head b.more :: ms, .cons ⟨head, hhead, rfl⟩ hms, fun found ↦ ?_⟩
    rw [List.flatMap_cons, List.foldl_append, Block.lines, List.foldl_cons, hstep,
      foldl_goOn hmore.1, hfold]
    simp

theorem file_of_message? {line : List Char} {f : String} (h : message? directory line = some m)
    (hf : m.file = some f) :
    ∃ name, name ≠ [] ∧ name <+: line ∧ f = Path.anchor directory (String.ofList name) := by
  rw [message?] at h
  split at h
  · next file mk hlocated =>
    obtain ⟨u, mark, text, hfile, hne, -, rfl⟩ := located_eq_some hlocated
    obtain rfl : file = u := by simpa using hfile
    obtain rfl := Option.some.inj h
    exact ⟨file, hne, List.prefix_append _ _, (Option.some.inj hf).symm⟩
  · obtain ⟨head, -, rfl⟩ := Option.map_eq_some_iff.1 h
    cases hf

theorem Block.Tells.file {b : Block} {f : String} (h : b.Tells directory m) (hf : m.file = some f)
    (hb : isIndented b.first = false) :
    ∃ c s, isBlank c = false ∧ f = Path.anchor directory (String.ofList (c :: s)) := by
  obtain ⟨head, hhead, rfl⟩ := h
  obtain ⟨name, hne, ⟨rest, hrest⟩, rfl⟩ := file_of_message? hhead hf
  obtain ⟨c, s, rfl⟩ := List.exists_cons_of_ne_nil hne
  refine ⟨c, s, Bool.eq_false_iff.2 fun hc ↦ ?_, rfl⟩
  rw [isIndented_iff.2 ⟨c, s ++ rest, hrest.symm, hc⟩] at hb
  cases hb

theorem exists_block {blocks : List Block} {ms : List CompilerMessage}
    (h : List.Forall₂ (Block.Tells directory) blocks ms) (hm : m ∈ ms) :
    ∃ b ∈ blocks, b.Tells directory m := by
  induction h with
  | nil => cases hm
  | @cons b m' blocks ms hb h ih =>
    rcases List.mem_cons.1 hm with rfl | hm
    · exact ⟨b, List.mem_cons_self, hb⟩
    · obtain ⟨b', hb', htells⟩ := ih hm
      exact ⟨b', List.mem_cons_of_mem b hb', htells⟩

namespace Cut

variable {blocks : List Block}

theorem first_mem (h : Cut ls front blocks) {b : Block} (hb : b ∈ blocks) : b.first ∈ ls := by
  rw [h.lines]
  exact List.mem_append_right _ (List.mem_flatMap.2 ⟨b, hb, List.mem_cons_self⟩)

theorem length_eq (h : Cut ls front blocks) : blocks.length = ls.countP (Starts ·) := by
  have hnone {ls : List (List Char)} (hls : ∀ l ∈ ls, ¬ Starts l) : ls.countP (Starts ·) = 0 := by
    simpa [List.countP_eq_zero] using hls
  have hblocks : (blocks.flatMap Block.lines).countP (Starts ·) = blocks.length := by
    have hfirst := h.first
    have hmore := h.more
    clear h
    induction blocks with
    | nil => rfl
    | cons b blocks ih =>
      rw [List.forall_mem_cons] at hfirst hmore
      rw [List.flatMap_cons, List.countP_append, ih hfirst.2 hmore.2, Block.lines,
        List.countP_cons_of_pos (by simpa using hfirst.1), hnone hmore.1, List.length_cons]
      omega
  rw [h.lines, List.countP_append, hnone h.front, hblocks, Nat.zero_add]

end Cut

/-- A text gives one message for each line that starts one, and the other indented lines go on with
the message before them. All indented lines do so just if there are as many messages as lines
without indentation that start one, and then no file is named by a text that starts with a blank. -/
theorem parse_blocks (text directory : String) :
    (∃ front blocks, Cut (lines text.toList) front blocks ∧
      List.Forall₂ (Block.Tells directory) blocks (parse text directory)) ∧
    ((∀ l ∈ lines text.toList, isIndented l = true → ¬ Starts l) ↔
      (parse text directory).length =
        (lines text.toList).countP fun l ↦ Starts l ∧ isIndented l = false) ∧
    ((∀ l ∈ lines text.toList, isIndented l = true → ¬ Starts l) →
      ∀ m ∈ parse text directory, ∀ f, m.file = some f →
        ∃ c s, isBlank c = false ∧ f = Path.anchor directory (String.ofList (c :: s))) := by
  obtain ⟨front, blocks, hcut⟩ := exists_cut (lines text.toList)
  obtain ⟨ms, hms, hfold⟩ := foldl_blocks directory hcut.first hcut.more
  have hparse : parse text directory = ms := by
    rw [parse, hcut.lines, List.foldl_append, foldl_front hcut.front, hfold, List.append_nil,
      List.reverse_reverse]
  rw [hparse]
  refine ⟨⟨front, blocks, hcut, hms⟩, ?_, fun h m hm f hf ↦ ?_⟩
  · have hcount := List.countP_eq_countP_filter_add (lines text.toList) (Starts ·) isIndented
    rw [← hms.length_eq, hcut.length_eq, hcount, List.countP_filter, List.countP_filter]
    have hown : (lines text.toList).countP (fun l ↦ decide (Starts l) && !isIndented l) =
        (lines text.toList).countP fun l ↦ Starts l ∧ isIndented l = false :=
      List.countP_congr (by simp)
    rw [hown, Nat.add_eq_right, List.countP_eq_zero]
    simp only [Bool.and_eq_true, decide_eq_true_eq, not_and']
  · obtain ⟨b, hb, htells⟩ := exists_block hms hm
    refine htells.file hf (Bool.eq_false_iff.2 fun hindented ↦ ?_)
    exact h _ (hcut.first_mem hb) hindented (hcut.first b hb)

section Example

def continuedText : String := "  lost\na.ts(1,1): error TS1: x\n\t more \n"

theorem parse_blocks_continued :
    (∀ l ∈ lines continuedText.toList, isIndented l = true → ¬ Starts l) ∧
      (parse continuedText "/repo").length = 1 := by
  have hgoOn : ∀ l ∈ lines continuedText.toList, isIndented l = true → ¬ Starts l := by
    decide
  refine ⟨hgoOn, ?_⟩
  rw [(parse_blocks continuedText "/repo").2.1.1 hgoOn]
  decide

def indentedText : String := "a.ts(1,1): error TS1: x\n  b.ts(2,2): error TS2: y\n"

example : parse indentedText "/repo" = [⟨some "/repo/a.ts", some 1, some 1, 1, .error, "x"⟩,
    ⟨some "/repo/  b.ts", some 2, some 2, 2, .error, "y"⟩] := by
  decide

/-- There may be more messages than lines without indentation that start one. -/
theorem indented_line_starts : ¬ ∀ text directory : String, (parse text directory).length =
    (lines text.toList).countP fun l ↦ Starts l ∧ isIndented l = false := by
  intro h
  have hlength := h indentedText "/repo"
  revert hlength
  decide

end Example

/-- No indented line stands in front of the first one that starts a message. -/
def IsFresh (text : String) : Prop :=
  ∀ l ∈ (lines text.toList).takeWhile (¬ Starts ·), isIndented l = false

instance (text : String) : Decidable (IsFresh text) :=
  inferInstanceAs (Decidable (∀ l ∈ List.takeWhile _ _, _))

theorem Cut.front_eq {blocks : List Block} (h : Cut ls front blocks) :
    front = ls.takeWhile (¬ Starts ·) := by
  rw [h.lines, List.takeWhile_append_of_pos (by simpa using h.front)]
  cases blocks with
  | nil => simp
  | cons b blocks =>
    have hb : Starts b.first := h.first b List.mem_cons_self
    rw [List.flatMap_cons, Block.lines, List.cons_append, List.takeWhile_cons_of_neg (by simpa),
      List.append_nil]

theorem foldl_lines_append (a b : List Char) :
    (lines (a ++ '\n' :: b)).foldl (step directory) found =
      (lines b).foldl (step directory) ((lines a).foldl (step directory) found) := by
  have hlines := foldl_lines (f := step directory) (fun _ _ _ h ↦ step_congr h)
    (fun _ ↦ step_noise (.blank (by simp)))
  simp only [hlines, splitAt_append_mark, List.foldl_append]

/-- Only indented lines in front of the first block reach what was found before. -/
theorem foldl_eq_append_iff {blocks : List Block} (h : Cut ls front blocks) :
    ls.foldl (step directory) found = ls.foldl (step directory) [] ++ found ↔
      found = [] ∨ ∀ l ∈ front, isIndented l = false := by
  obtain ⟨ms, -, hfold⟩ := foldl_blocks directory h.first h.more
  rw [h.lines, List.foldl_append, List.foldl_append, foldl_front h.front, hfold, hfold]
  cases found with
  | nil => simp [foldl_front h.front]
  | cons m found =>
    rw [foldl_goOn h.front, List.append_nil, List.append_cancel_left_eq, List.cons.injEq,
      and_iff_left rfl, goOn_eq_self, or_iff_right (List.cons_ne_nil m found)]

/-- Two texts give the messages of the first one and those of the second one when they are read
together, unless the second one opens with indented lines and there is a message to go on with. -/
theorem parse_joined_texts (directory : String) :
    (∀ a b : String, parse (a ++ "\n" ++ b) directory = parse a directory ++ parse b directory ↔
      parse a directory = [] ∨ IsFresh b) ∧
    ∀ o : ProcessOutput, IsFresh (lenient o.stderr) →
      CompilerProgram.readMessages directory o =
        parse (lenient o.stdout ++ "\n" ++ lenient o.stderr) directory := by
  have hjoined (a b : String) :
      parse (a ++ "\n" ++ b) directory = parse a directory ++ parse b directory ↔
        parse a directory = [] ∨ IsFresh b := by
    obtain ⟨front, blocks, hcut⟩ := exists_cut (lines b.toList)
    have htext : (a ++ "\n" ++ b).toList = a.toList ++ '\n' :: b.toList := by simp
    rw [parse, parse, parse, htext, foldl_lines_append, ← List.reverse_append, List.reverse_inj,
      List.reverse_eq_nil_iff, foldl_eq_append_iff hcut, hcut.front_eq]
    rfl
  refine ⟨hjoined, fun o ho ↦ ?_⟩
  exact ((hjoined _ _).2 (.inr ho)).symm

section Example

def twoSides : ProcessOutput where
  status := some 1
  stdout := "a.ts(1,1): error TS1: x\r\n".toUTF8
  stderr := "Found 1.\nerror TS2: y\n  z\n".toUTF8

theorem parse_joined_texts_twoSides : IsFresh (lenient twoSides.stderr) ∧
    CompilerProgram.readMessages "/repo" twoSides =
      parse "a.ts(1,1): error TS1: x\r\n\nFound 1.\nerror TS2: y\n  z\n" "/repo" := by
  have hfresh : IsFresh (lenient twoSides.stderr) := by decide +kernel
  refine ⟨hfresh, ?_⟩
  rw [(parse_joined_texts "/repo").2 twoSides hfresh]
  decide +kernel

end Example

end Printout

end AmbientTypes
