import AmbientTypes.Proofs.SharedFolder.Names
import AmbientTypes.Proofs.Text.Split
import AmbientTypes.SharedFolder.Basic

namespace AmbientTypes

open Manifest (IsAccepted)

section Lines

variable {a b : String}

theorem toList_indexLine (name : String) :
    (indexLine name).toList =
      "export * from ".toList ++ '\'' :: ("./".toList ++ name.toList ++ '\'' :: ";".toList) := by
  have hstart : "export * from './".toList = "export * from ".toList ++ '\'' :: "./".toList := by
    decide
  have hstop : "';".toList = '\'' :: ";".toList := by decide
  have hline : (indexLine name).toList = "export * from './".toList ++ name.toList ++ "';".toList :=
    (String.toList_append ..).trans (congrArg (· ++ "';".toList) (String.toList_append ..))
  rw [hline, hstart, hstop, List.append_assoc, List.append_assoc, List.cons_append,
    List.append_assoc]

theorem newline_not_mem_indexLine (h : IsAccepted a) : '\n' ∉ (indexLine a).toList := by
  have hname : '\n' ∉ a.toList := h.not_mem (by decide)
  have hstart : '\n' ∉ "export * from ".toList := by decide
  have hdots : '\n' ∉ "./".toList := by decide
  have hstop : '\n' ∉ ";".toList := by decide
  rw [toList_indexLine]
  simp only [List.mem_append, List.mem_cons, not_or]
  exact ⟨hstart, by decide, ⟨hdots, hname⟩, by decide, hstop⟩

theorem splitAt_quote_name (h : IsAccepted a) :
    Text.splitAt '\'' ("./".toList ++ a.toList) = ["./".toList ++ a.toList] := by
  have hdots : '\'' ∉ "./".toList := by decide
  refine Text.splitAt_eq_singleton ?_
  rw [List.mem_append, not_or]
  exact ⟨hdots, h.not_mem (by decide)⟩

theorem splitAt_quote_indexLine (h : IsAccepted a) (u v : List Char) :
    Text.splitAt '\'' (u ++ (indexLine a).toList ++ v) =
      Text.splitAt '\'' (u ++ "export * from ".toList) ++
        ("./".toList ++ a.toList) :: Text.splitAt '\'' (";".toList ++ v) := by
  have htext : u ++ (indexLine a).toList ++ v = (u ++ "export * from ".toList) ++
      '\'' :: (("./".toList ++ a.toList) ++ '\'' :: (";".toList ++ v)) := by
    rw [toList_indexLine, ← List.append_assoc, List.append_assoc _ _ v, List.cons_append,
      List.append_assoc _ _ v, List.cons_append]
  rw [htext, Text.splitAt_append_mark, Text.splitAt_append_mark, splitAt_quote_name h]
  rfl

/-- The quotes around a name keep the lines of packages apart. -/
theorem indexLine_infix (ha : IsAccepted a) (hb : IsAccepted b) :
    (indexLine a).toList <:+: (indexLine b).toList ↔ a = b := by
  constructor
  · rintro ⟨u, v, h⟩
    have hsplit := splitAt_quote_indexLine ha u v
    have hline := splitAt_quote_indexLine hb [] []
    rw [h] at hsplit
    rw [List.nil_append, List.append_nil, hsplit] at hline
    obtain ⟨x, xs, hx⟩ := List.exists_cons_of_ne_nil
      (Text.splitAt_ne_nil '\'' (u ++ "export * from ".toList))
    obtain ⟨y, ys, hy⟩ := List.exists_cons_of_ne_nil (Text.splitAt_ne_nil '\'' (";".toList ++ v))
    have hstart : Text.splitAt '\'' ([] ++ "export * from ".toList) = ["export * from ".toList] :=
      rfl
    have hstop : Text.splitAt '\'' (";".toList ++ []) = [";".toList] := rfl
    rw [hx, hy, hstart, hstop] at hline
    -- Both lines have three pieces, so the names are the middle ones.
    have hlen := congrArg List.length hline
    simp only [List.length_append, List.length_cons, List.length_nil] at hlen
    obtain rfl : xs = [] := List.length_eq_zero_iff.1 (by omega)
    have hmiddle := (List.cons.inj (List.cons.inj hline).2).1
    exact String.toList_inj.1 (List.append_cancel_left hmiddle)
  · rintro rfl
    exact List.infix_rfl

theorem indexLine_ne_nil (name : String) : (indexLine name).toList ≠ [] := by
  simp [toList_indexLine]

theorem indexLine_append_newline (name : String) :
    indexLine name ++ "\n" = "export * from './" ++ name ++ "';\n" :=
  String.append_assoc

end Lines

namespace SharedFolder

def Lists (contents name : String) : Prop :=
  ("export * from './" ++ name ++ "';").toList <:+: contents.toList

def closing (contents : String) : String :=
  if contents = "" ∨ contents.toList.getLast? = some '\n' then "" else "\n"

theorem contains_indexLine {contents name : String} :
    Text.contains contents.toList (indexLine name).toList = true ↔ Lists contents name :=
  Text.contains_iff

instance (contents name : String) : Decidable (Lists contents name) :=
  decidable_of_iff _ contains_indexLine

variable {contents a b : String} {names : List String}

theorem indexAddition?_eq (contents name : String) :
    indexAddition? contents name =
      if Lists contents name then none else some (closing contents ++ indexLine name ++ "\n") := by
  simp only [indexAddition?, contains_indexLine, closing]

theorem not_lists_empty (name : String) : ¬ Lists "" name := by
  rw [← contains_indexLine, Text.contains_iff, String.toList_empty, List.infix_nil]
  exact indexLine_ne_nil name

theorem infix_append_newline {p u v : List Char} (hp : '\n' ∉ p) :
    p <:+: u ++ '\n' :: v ↔ p <:+: u ∨ p <:+: v := by
  rw [Text.infix_iff_of_not_mem hp, Text.infix_iff_of_not_mem hp, Text.infix_iff_of_not_mem hp,
    Text.splitAt_append_mark]
  simp only [List.mem_append, or_and_right, exists_or]

/-- A text with its last line closed is empty or ends in a line break. -/
theorem toList_append_closing (contents : String) :
    (contents ++ closing contents).toList = [] ∧ contents = "" ∨
      ∃ s, (contents ++ closing contents).toList = s ++ ['\n'] ∧
        (contents.toList = s ∨ contents.toList = s ++ ['\n']) := by
  unfold closing
  split
  · next h =>
    rcases h with rfl | h
    · exact .inl ⟨rfl, rfl⟩
    · obtain ⟨s, hs⟩ := List.getLast?_eq_some_iff.1 h
      exact .inr ⟨s, by simpa using hs, .inr hs⟩
  · exact .inr ⟨contents.toList, by simp, .inl rfl⟩

/-- An addition lists its own package, and no other one. -/
theorem lists_addition (ha : IsAccepted a) (hb : IsAccepted b) :
    Lists (contents ++ (closing contents ++ indexLine b ++ "\n")) a ↔ Lists contents a ∨ a = b := by
  have hp := newline_not_mem_indexLine ha
  have hne := indexLine_ne_nil a
  have htext : (contents ++ (closing contents ++ indexLine b ++ "\n")).toList =
      (contents ++ closing contents).toList ++ (indexLine b).toList ++ '\n' :: [] := by
    simp [String.toList_append, List.append_assoc]
  rw [← contains_indexLine, ← contains_indexLine, Text.contains_iff, Text.contains_iff, htext,
    infix_append_newline hp,
    List.infix_nil, or_iff_left hne, ← indexLine_infix ha hb]
  rcases toList_append_closing contents with ⟨h, rfl⟩ | ⟨s, h, hs⟩
  · rw [h, List.nil_append, String.toList_empty, List.infix_nil, or_iff_right hne]
  · rw [h, List.append_assoc, List.singleton_append, infix_append_newline hp]
    rcases hs with hs | hs
    · rw [hs]
    · rw [hs, infix_append_newline hp, List.infix_nil, or_iff_left hne]

def unlisted (contents : String) (names : List String) : List String :=
  names.eraseDups.filter fun n ↦ ¬ Lists contents n

/-- The index after lines for packages were asked for, one after the other. -/
def indexAfter (contents : String) (names : List String) : String :=
  match unlisted contents names with
  | [] => contents
  | ns => contents ++ closing contents ++ String.join (ns.map ("export * from './" ++ · ++ "';\n"))

theorem unlisted_concat (contents : String) (names : List String) (n : String) :
    unlisted contents (names ++ [n]) =
      unlisted contents names ++ if n ∈ names ∨ Lists contents n then [] else [n] := by
  rw [unlisted, List.eraseDups_append, List.filter_append, ← unlisted]
  by_cases hn : n ∈ names
  · simp [List.cons_removeAll, hn]
  · by_cases hl : Lists contents n <;> simp [List.cons_removeAll, hn, hl, List.eraseDups_cons]

theorem mem_unlisted {n : String} :
    n ∈ unlisted contents names ↔ n ∈ names ∧ ¬ Lists contents n := by
  simp [unlisted, List.mem_filter, List.mem_eraseDups]

theorem nodup_unlisted (contents : String) (names : List String) :
    (unlisted contents names).Nodup := by
  induction names using List.reverseRecOn with
  | nil => exact List.nodup_nil
  | append_singleton names n ih =>
    rw [unlisted_concat]
    split
    · rwa [List.append_nil]
    · next hn =>
      refine List.nodup_append.2 ⟨ih, by simp, ?_⟩
      rintro m hm _ hmem rfl
      exact hn (.inl (List.mem_singleton.1 hmem ▸ (mem_unlisted.1 hm).1))

theorem indexAfter_of_ne_nil (h : unlisted contents names ≠ []) :
    indexAfter contents names =
      contents ++ closing contents ++
        String.join ((unlisted contents names).map (indexLine · ++ "\n")) := by
  simp only [indexAfter, indexLine_append_newline]

theorem indexAfter_eq (contents : String) (names : List String) :
    indexAfter contents names =
      contents ++ (if unlisted contents names = [] then "" else closing contents) ++
        String.join ((unlisted contents names).map ("export * from './" ++ · ++ "';\n")) := by
  by_cases hnil : unlisted contents names = []
  · simp [indexAfter, hnil]
  · simp only [indexAfter_of_ne_nil hnil, if_neg hnil, indexLine_append_newline]

theorem closing_indexAfter (h : unlisted contents names ≠ []) :
    closing (indexAfter contents names) = "" := by
  obtain ⟨ns, n, hns⟩ := List.eq_nil_or_concat' (unlisted contents names) |>.resolve_left h
  rw [closing, if_pos]
  refine .inr ?_
  rw [indexAfter_of_ne_nil h, hns]
  simp [String.toList_append]

theorem indexAfter_concat_of {n : String}
    (hlists : Lists (indexAfter contents names) n ↔ Lists contents n ∨ n ∈ names) :
    indexAfter contents (names ++ [n]) =
      indexAfter contents names ++ (indexAddition? (indexAfter contents names) n).getD "" := by
  rw [indexAddition?_eq]
  by_cases hn : n ∈ names ∨ Lists contents n
  · rw [if_pos (hlists.2 hn.symm), indexAfter, unlisted_concat, if_pos hn, List.append_nil,
      ← indexAfter]
    simp
  · rw [if_neg (fun h ↦ hn (hlists.1 h).symm), Option.getD_some,
      indexAfter_of_ne_nil (by simp [unlisted_concat, hn]), unlisted_concat, if_neg hn]
    by_cases hnil : unlisted contents names = []
    · have hsame : indexAfter contents names = contents := by rw [indexAfter, hnil]
      rw [hnil, hsame]
      simp [String.append_assoc]
    · rw [closing_indexAfter hnil, indexAfter_of_ne_nil hnil, List.map_append, String.join_append]
      simp [String.append_assoc]

/-- The index lists what it listed at first and every package that was asked for. -/
theorem lists_indexAfter (ha : IsAccepted a) (hnames : ∀ n ∈ names, IsAccepted n) :
    Lists (indexAfter contents names) a ↔ Lists contents a ∨ a ∈ names := by
  induction names using List.reverseRecOn generalizing a with
  | nil => simp [indexAfter, unlisted]
  | append_singleton names n ih =>
    rw [List.forall_mem_append, List.forall_mem_singleton] at hnames
    have hn := ih hnames.2 hnames.1
    rw [indexAfter_concat_of hn, indexAddition?_eq, List.mem_append, List.mem_singleton,
      ← or_assoc, ← ih ha hnames.1]
    by_cases hlisted : Lists (indexAfter contents names) n
    · rw [if_pos hlisted, Option.getD_none, String.append_empty]
      refine ⟨.inl, ?_⟩
      rintro (h | rfl)
      · exact h
      · exact hlisted
    · rw [if_neg hlisted, Option.getD_some, lists_addition ha hnames.2]

theorem indexAfter_concat {n : String} (hn : IsAccepted n) (hnames : ∀ n ∈ names, IsAccepted n) :
    indexAfter contents (names ++ [n]) =
      indexAfter contents names ++ (indexAddition? (indexAfter contents names) n).getD "" :=
  indexAfter_concat_of (lists_indexAfter hn hnames)

theorem indexAfter_singleton {n : String} (hn : IsAccepted n) :
    indexAfter contents [n] = contents ++ (indexAddition? contents n).getD "" := by
  rw [← List.nil_append [n], indexAfter_concat hn (by simp)]
  rfl

end SharedFolder

end AmbientTypes
