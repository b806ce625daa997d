import AmbientTypes.Proofs.Bundle.EntryPoints
import AmbientTypes.Proofs.Bundle.Occurrences
import AmbientTypes.Proofs.Text.ByteOrder

namespace AmbientTypes

namespace Text

def sliceTo? (s : String) (n : Nat) : Option String :=
  if h : String.Pos.Raw.IsValid s ⟨n⟩ then some (s.sliceTo ⟨⟨n⟩, h⟩).copy else none

theorem sliceTo?_append (s t : String) : sliceTo? (s ++ t) s.utf8ByteSize = some s := by
  have hvalid : String.Pos.Raw.IsValid (s ++ t) ⟨s.utf8ByteSize⟩ :=
    String.Pos.Raw.isValid_iff_exists_append.2 ⟨s, t, rfl, rfl⟩
  have hsplits : String.Pos.Splits (s := s ++ t) ⟨⟨s.utf8ByteSize⟩, hvalid⟩ s t := ⟨rfl, rfl⟩
  rw [sliceTo?, dif_pos hvalid]
  exact congrArg some ((String.Pos.splits _).eq_left hsplits)

/-- Where the bytes of a text end another one, its characters do. -/
theorem eq_append_of_bytes_suffix {s t : String} (h : bytes t <:+ bytes s) : ∃ u, s = u ++ t := by
  obtain ⟨front, hfront⟩ := h
  have hs : s.toByteArray = ⟨front.toArray⟩ ++ t.toByteArray := by
    apply ByteArray.ext
    rw [ByteArray.data_append, ← Array.toList_inj, Array.toList_append]
    exact hfront.symm
  have hsize : s.utf8ByteSize = front.length + t.utf8ByteSize := by
    rw [← length_bytes, ← length_bytes, ← hfront, List.length_append]
  have hback : s.toByteArray.extract front.length s.utf8ByteSize = t.toByteArray := by
    rw [hs, hsize]
    exact ByteArray.extract_append_eq_right rfl rfl
  have hvalid : String.Pos.Raw.IsValid s ⟨front.length⟩ := by
    rw [String.Pos.Raw.isValid_iff_isValidUTF8_extract_utf8ByteSize, hback]
    refine ⟨?_, t.isValidUTF8⟩
    rw [String.Pos.Raw.le_iff, String.byteIdx_rawEndPos, hsize]
    exact Nat.le_add_right _ _
  obtain ⟨u, v, rfl, hu⟩ := String.Pos.Raw.isValid_iff_exists_append.1 hvalid
  have hlength : front.length = (bytes u).length := congrArg String.Pos.Raw.byteIdx hu
  rw [bytes_append] at hfront
  have hv := (List.append_inj hfront hlength).2
  exact ⟨u, by rw [bytes_injective hv]⟩

end Text

namespace ModulePath

variable {m : Manifest} {id key path : String} {s u r w p ending stem : List Char}

/-- The comparison by bytes. A text that ends in the wanted bytes is cut in front of them. -/
def endsWithBytes? (path wanted : List Char) : Option Bool :=
  if path = wanted then some true
  else if Text.bytes (String.ofList wanted) <:+ Text.bytes (String.ofList path) then
    (Text.sliceTo? (String.ofList path) (Text.utf8Length path - Text.utf8Length wanted)).map
      fun front ↦ front.toList.getLast? = some '/'
  else some false

theorem slash_suffix_append_iff {front wanted : List Char} :
    '/' :: wanted <:+ front ++ wanted ↔ front.getLast? = some '/' := by
  rw [List.getLast?_eq_some_iff]
  constructor
  · rintro ⟨z, hz⟩
    rw [← List.singleton_append, ← List.append_assoc] at hz
    exact ⟨z, (List.append_cancel_right hz).symm⟩
  · rintro ⟨z, rfl⟩
    exact ⟨z, by simp⟩

/-- No cut is made inside a character, and the answer is that of the characters. -/
theorem endsWithBytes?_eq (path wanted : List Char) :
    endsWithBytes? path wanted = some (endsWith path wanted) := by
  rw [endsWithBytes?]
  by_cases heq : path = wanted
  · rw [if_pos heq, heq, endsWith_refl]
  have hends : endsWith path wanted = true ↔ '/' :: wanted <:+ path :=
    endsWith_iff_eq_or_suffix.trans (or_iff_right heq)
  rw [if_neg heq]
  by_cases hbytes : Text.bytes (String.ofList wanted) <:+ Text.bytes (String.ofList path)
  · obtain ⟨front, hfront⟩ := Text.eq_append_of_bytes_suffix hbytes
    have hpath : path = front.toList ++ wanted := by
      simpa using congrArg String.toList hfront
    have hcut : Text.utf8Length path - Text.utf8Length wanted = front.utf8ByteSize := by
      rw [hpath, Text.utf8Length_append, Nat.add_sub_cancel, ← Text.utf8ByteSize_ofList,
        String.ofList_toList]
    rw [if_pos hbytes, hcut, hfront, Text.sliceTo?_append, Option.map_some, Option.some_inj,
      Bool.eq_iff_iff, decide_eq_true_iff, hends, hpath]
    exact slash_suffix_append_iff.symm
  · rw [if_neg hbytes, Option.some_inj, eq_comm, Bool.eq_false_iff]
    intro h
    obtain ⟨z, hz⟩ := hends.1 h
    apply hbytes
    rw [← hz, ← List.singleton_append, ← List.append_assoc, String.ofList_append,
      Text.bytes_append]
    exact List.suffix_append _ _

def Fits (s ending stem : List Char) : Prop :=
  ending ∈ extensions ∧ s = stem ++ ending ∧ stem ≠ [] ∧ stem.getLast? ≠ some '/'

/-- The longest extension that fits is taken off, if any does. -/
def Stem (s r : List Char) : Prop :=
  (∃ ending, Fits s ending r ∧ ∀ other stem, Fits s other stem → other.length ≤ ending.length) ∨
    (∀ ending stem, ¬ Fits s ending stem) ∧ r = s

/-- With slashes for backslashes, a path loses every leading `./`, then its extension, then the
slashes at its end. -/
def NormalForm (s w : List Char) : Prop :=
  ∃ u r, (∃ n, slashed s = (List.replicate n ['.', '/']).flatten ++ u) ∧ ¬ ['.', '/'] <+: u ∧
    Stem u r ∧ (∃ n, r = w ++ List.replicate n '/') ∧ w.getLast? ≠ some '/'

theorem dropDotSlashes_eq_iff : dropDotSlashes s = u ↔
    (∃ n, s = (List.replicate n ['.', '/']).flatten ++ u) ∧ ¬ ['.', '/'] <+: u := by
  induction s using dropDotSlashes.induct with
  | case1 s ih =>
    rw [dropDotSlashes, ih]
    refine and_congr_left fun hu ↦ ?_
    constructor
    · rintro ⟨n, rfl⟩
      exact ⟨n + 1, rfl⟩
    · rintro ⟨n, hn⟩
      cases n with
      | zero => exact absurd ⟨s, hn⟩ hu
      | succ n =>
        refine ⟨n, ?_⟩
        rw [List.replicate_succ, List.flatten_cons] at hn
        simpa using hn
  | case2 s hs =>
    have hdot : ¬ ['.', '/'] <+: s := by
      rintro ⟨t, rfl⟩
      exact hs t rfl
    rw [dropDotSlashes.eq_2 s hs]
    constructor
    · rintro rfl
      exact ⟨⟨0, rfl⟩, hdot⟩
    · rintro ⟨⟨n, hn⟩, -⟩
      cases n with
      | zero => exact hn
      | succ n =>
        rw [List.replicate_succ, List.flatten_cons, List.append_assoc] at hn
        exact absurd ⟨_, hn.symm⟩ hdot

/-- Of two extensions of one path, the list has the longer one first. -/
theorem extensions_ordered : extensions.Pairwise fun x y ↦ ¬ x <:+ y := by
  decide

theorem stem_dropExtension (s : List Char) : Stem s (dropExtension s) := by
  rw [dropExtension]
  cases h : extensions.findSome? (stem? s) with
  | none =>
    rw [List.findSome?_eq_none_iff] at h
    refine .inr ⟨fun ending stem hfits ↦ ?_, rfl⟩
    obtain ⟨hmem, hstem⟩ := hfits
    have hnone := h ending hmem
    rw [stem?_eq_some.2 hstem] at hnone
    cases hnone
  | some r =>
    obtain ⟨before, ending, after, hlist, hr, hbefore⟩ := List.findSome?_eq_some_iff.1 h
    refine .inl ⟨ending, ⟨hlist ▸ by simp, stem?_eq_some.1 hr⟩, fun other stem hfits ↦ ?_⟩
    obtain ⟨hmem, hstem⟩ := hfits
    rw [hlist, List.mem_append, List.mem_cons] at hmem
    obtain hmem | rfl | hmem := hmem
    · have hnone := hbefore other hmem
      rw [stem?_eq_some.2 hstem] at hnone
      cases hnone
    · exact le_rfl
    · -- A longer extension of the same path would end in this one.
      apply le_of_not_gt
      intro hlt
      have hsuffix : ending <:+ other :=
        List.suffix_of_suffix_length_le ⟨r, (stem?_eq_some.1 hr).1.symm⟩
          ⟨stem, hstem.1.symm⟩ (Nat.le_of_lt hlt)
      have hordered := extensions_ordered
      rw [hlist, List.pairwise_append, List.pairwise_cons] at hordered
      exact hordered.2.1.1 other hmem hsuffix

theorem Stem.unique (hr : Stem s r) (hu : Stem s u) : r = u := by
  rcases hr with ⟨ending, hr, hmax⟩ | ⟨hnone, rfl⟩
  · rcases hu with ⟨other, hu, hmax'⟩ | ⟨hnone', -⟩
    · have hlength : ending.length = other.length :=
        le_antisymm (hmax' ending r hr) (hmax other u hu)
      exact (List.append_inj' (hr.2.1.symm.trans hu.2.1) hlength).1
    · exact absurd hr (hnone' ending r)
  · rcases hu with ⟨other, hu, -⟩ | ⟨-, rfl⟩
    · exact absurd hu (hnone other u)
    · rfl

theorem dropTrailingSlashes_concat (s : List Char) (c : Char) :
    dropTrailingSlashes (s ++ [c]) = if c = '/' then dropTrailingSlashes s else s ++ [c] := by
  have h := List.rdropWhile_concat (· = '/') s c
  simp only [decide_eq_true_eq] at h
  exact h

theorem dropTrailingSlashes_eq_iff : dropTrailingSlashes s = w ↔
    (∃ n, s = w ++ List.replicate n '/') ∧ w.getLast? ≠ some '/' := by
  induction s using List.reverseRecOn with
  | nil =>
    constructor
    · intro h
      obtain rfl : [] = w := h
      exact ⟨⟨0, rfl⟩, by simp⟩
    · rintro ⟨⟨n, hn⟩, -⟩
      exact (List.append_eq_nil_iff.1 hn.symm).1.symm
  | append_singleton s c ih =>
    rw [dropTrailingSlashes_concat]
    by_cases hc : c = '/'
    · rw [if_pos hc, ih, hc]
      refine and_congr_left fun hw ↦ ?_
      constructor
      · rintro ⟨n, rfl⟩
        exact ⟨n + 1, by rw [List.replicate_succ', List.append_assoc]⟩
      · rintro ⟨n, hn⟩
        cases n with
        | zero =>
          rw [List.replicate_zero, List.append_nil] at hn
          exact absurd (hn ▸ List.getLast?_concat) hw
        | succ n =>
          rw [List.replicate_succ', ← List.append_assoc] at hn
          exact ⟨n, List.append_cancel_right hn⟩
    · rw [if_neg hc]
      constructor
      · rintro rfl
        exact ⟨⟨0, by simp⟩, by simpa using hc⟩
      · rintro ⟨⟨n, hn⟩, -⟩
        cases n with
        | zero => simpa using hn
        | succ n =>
          rw [List.replicate_succ', ← List.append_assoc] at hn
          exact absurd (List.append_inj' hn rfl).2 (by simpa using hc)

theorem normalize_eq_iff : normalize s = w ↔ NormalForm s w := by
  rw [normalize, dropTrailingSlashes_eq_iff]
  constructor
  · rintro ⟨hslashes, hlast⟩
    obtain ⟨hdots, hdot⟩ := dropDotSlashes_eq_iff.1 (Eq.refl (dropDotSlashes (slashed s)))
    exact ⟨_, _, hdots, hdot, stem_dropExtension _, hslashes, hlast⟩
  · rintro ⟨u, r, hdots, hdot, hstem, hslashes, hlast⟩
    rw [dropDotSlashes_eq_iff.2 ⟨hdots, hdot⟩, (stem_dropExtension u).unique hstem]
    exact ⟨hslashes, hlast⟩

def Answers (w : List Char) (path : String) : Prop :=
  ∃ p, NormalForm path.toList p ∧ (Path.splitSlash w <:+ Path.splitSlash p ∨
    ∃ folder, Path.splitSlash p = folder ++ ["index".toList] ∧ Path.splitSlash w <:+ folder)

theorem answers_iff_of_normalForm (h : NormalForm path.toList p) :
    answers p w = true ↔ Answers w path := by
  rw [answers_iff]
  constructor
  · intro hends
    exact ⟨p, h, hends⟩
  · rintro ⟨q, hq, hends⟩
    rwa [← normalize_eq_iff.2 h, normalize_eq_iff.2 hq]

theorem names_iff_answers (h : NormalForm id.toList w) : Names id path ↔ Answers w path := by
  rw [← answers_iff_names, normalize_eq_iff.2 h]
  exact answers_iff_of_normalForm (normalize_eq_iff.1 rfl)

def answersBytes? (path wanted : List Char) : Option Bool := do
  if ← endsWithBytes? path wanted then return true
  match before? "/index".toList path with
  | some dir => endsWithBytes? dir wanted
  | none => return false

theorem answersBytes?_eq (path wanted : List Char) :
    answersBytes? path wanted = some (answers path wanted) := by
  rw [answersBytes?, answers, endsWithBytes?_eq, Option.bind_eq_bind, Option.bind_some]
  cases endsWith path wanted with
  | true => rfl
  | false =>
    cases before? "/index".toList path with
    | none => rfl
    | some dir => exact endsWithBytes?_eq dir wanted

/-- An identifier has one normal form, and takes the key of the first entry point that answers to
it. The comparison by bytes comes to an answer for each of them, and to the right one. -/
theorem keyFor?_normalForm (m : Manifest) (id : String) :
    ∃ w, (∀ v, NormalForm id.toList v ↔ v = w) ∧
      (keyFor? m id = none ↔ w = [] ∨ ∀ e ∈ m.exposes, ¬ Answers w (m.sourcePath e)) ∧
      (∀ key, keyFor? m id = some key ↔ w ≠ [] ∧ ∃ before e after,
        m.exposes = before ++ e :: after ∧ e.key = key ∧ Answers w (m.sourcePath e) ∧
          ∀ e' ∈ before, ¬ Answers w (m.sourcePath e')) ∧
      ∀ e ∈ m.exposes, ∀ p, NormalForm (m.sourcePath e).toList p →
        ∃ b, answersBytes? p w = some b ∧ (b = true ↔ Answers w (m.sourcePath e)) := by
  have hid : NormalForm id.toList (normalize id.toList) := normalize_eq_iff.1 rfl
  refine ⟨normalize id.toList, fun v ↦ normalize_eq_iff.symm.trans eq_comm, ?_, ?_, ?_⟩
  · rw [keyFor?_eq]
    by_cases hne : normalize id.toList = []
    · rw [if_pos hne]
      exact iff_of_true rfl (.inl hne)
    · rw [if_neg hne, Option.map_eq_none_iff, List.find?_eq_none, or_iff_right hne]
      refine forall₂_congr fun e _ ↦ not_congr ?_
      exact answers_iff_names.trans (names_iff_answers hid)
  · intro key
    rw [keyFor?_eq_some]
    simp only [StandsFor, names_iff_answers hid]
    constructor
    · rintro ⟨e, ⟨hne, before, after, hm, he, hbefore⟩, hkey⟩
      exact ⟨hne, before, e, after, hm, hkey, he, hbefore⟩
    · rintro ⟨hne, before, e, after, hm, hkey, he, hbefore⟩
      exact ⟨e, ⟨hne, before, after, hm, he, hbefore⟩, hkey⟩
  · intro e _ p hp
    exact ⟨_, answersBytes?_eq _ _, answers_iff_of_normalForm hp⟩

end ModulePath

end AmbientTypes
