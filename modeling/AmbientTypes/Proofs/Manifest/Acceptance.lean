import AmbientTypes.Proofs.Manifest.Document
import AmbientTypes.Proofs.Manifest.Printing
import AmbientTypes.Proofs.Text.Trimming

namespace AmbientTypes

def EntryPoint.member (e : EntryPoint) : String × Json := (e.key, .string e.path)

namespace Manifest

open Json

variable {name path reason : String} {members : List (String × Json)} {p : String × Json}

/-- A name that can be a file name and the first segment of an identifier. -/
structure IsGoodName (name : String) : Prop where
  ne_empty : name ≠ ""
  ne_dot : name ≠ "."
  ne_dots : name ≠ ".."
  ne_index : name.toList.map Char.toLower ≠ ['i', 'n', 'd', 'e', 'x']
  no_control : ∀ c ∈ name.toList, Text.isControl c = false
  no_mark : ∀ c ∈ ['/', '\\', '<', '>', ':', '"', '\'', '`', '|', '?', '*'], c ∉ name.toList
  no_blank_first : ∀ c ∈ name.toList.head?, Text.isBlank c = false
  no_blank_last : ∀ c ∈ name.toList.getLast?, Text.isBlank c = false

/-- A member of `exposes` that is an entry: a key and a path, neither of them empty. -/
def IsEntry (p : String × Json) : Prop :=
  p.1 ≠ "" ∧ ∃ path, path ≠ "" ∧ p.2 = .string path

/-- What is said against a member of `exposes`. -/
inductive Objection : String × Json → String → Prop
  | emptyKey (value : Json) : Objection ("", value) "expose keys must not be empty"
  | emptyPath {key : String} (hkey : key ≠ "") :
      Objection (key, .string "") ("expose `" ++ key ++ "` has an empty path")
  | notString {key : String} {value : Json} (hkey : key ≠ "") (hvalue : ∀ s, value ≠ .string s) :
      Objection (key, value)
        ("expose `" ++ key ++ "` must be a string path, found " ++ value.print)

theorem isForbidden_eq_false {c : Char} :
    isForbidden c = false ↔ Text.isControl c = false ∧ c ∉ forbidden := by
  rw [isForbidden, Bool.or_eq_false_iff, decide_eq_false_iff_not]

theorem isAccepted_iff : IsAccepted name ↔ IsGoodName name := by
  have hreserved : sameIgnoringCase reserved name = false ↔
      name.toList.map Char.toLower ≠ ['i', 'n', 'd', 'e', 'x'] := by
    rw [sameIgnoringCase, decide_eq_false_iff_not, eq_comm]
    rfl
  constructor
  · rintro ⟨hempty, hdot, hdots, hindex, hplain, htrim⟩
    obtain ⟨hfirst, hlast⟩ := Text.trim_eq_self.1 htrim
    exact ⟨hempty, hdot, hdots, hreserved.1 hindex,
      fun c hc ↦ (isForbidden_eq_false.1 (hplain c hc)).1,
      fun c hmark hc ↦ (isForbidden_eq_false.1 (hplain c hc)).2 hmark, hfirst, hlast⟩
  · rintro ⟨hempty, hdot, hdots, hindex, hcontrol, hmark, hfirst, hlast⟩
    exact ⟨hempty, hdot, hdots, hreserved.2 hindex,
      fun c hc ↦ isForbidden_eq_false.2 ⟨hcontrol c hc, fun hmem ↦ hmark c hmem hc⟩,
      Text.trim_eq_self.2 ⟨hfirst, hlast⟩⟩

theorem Objection.not_isEntry (h : Objection p reason) : ¬ IsEntry p := by
  rintro ⟨hkey, path, hpath, hvalue⟩
  cases h with
  | emptyKey => exact hkey rfl
  | emptyPath => exact hpath (Json.string.inj hvalue).symm
  | notString _ hno => exact hno path hvalue

theorem entryPoint_eq_ok_iff {key : String} {value : Json} {e : EntryPoint} :
    entryPoint key value = .ok e ↔ IsEntry (key, value) ∧ e.member = (key, value) := by
  constructor
  · intro h
    unfold entryPoint at h
    split at h
    · cases h
    · next hkey =>
      split at h
      · next path =>
        split at h
        · cases h
        · next hpath =>
          cases h
          exact ⟨⟨hkey, path, hpath, rfl⟩, rfl⟩
      · cases h
  · rintro ⟨⟨hkey, path, hpath, hvalue⟩, hmember⟩
    obtain ⟨rfl, rfl⟩ := Prod.mk.inj hmember
    obtain rfl := Json.string.inj hvalue
    exact entryPoint_string_iff.2 ⟨rfl, hkey, hpath⟩

theorem objection_of_entryPoint {key : String} {value : Json} {f : Fault}
    (h : entryPoint key value = .error f) : Objection (key, value) f.message := by
  unfold entryPoint at h
  split at h
  · next hkey =>
    cases h
    subst hkey
    exact .emptyKey value
  · next hkey =>
    split at h
    · split at h
      · next hpath =>
        cases h
        subst hpath
        exact .emptyPath hkey
      · cases h
    · next hvalue =>
      cases h
      exact .notString hkey hvalue

theorem mapM_eq_ok_iff {es : List EntryPoint} :
    (members.mapM fun m ↦ entryPoint m.1 m.2) = .ok es ↔
      (∀ p ∈ members, IsEntry p) ∧ es.map EntryPoint.member = members := by
  induction members generalizing es with
  | nil => simp [pure, Except.pure, eq_comm]
  | cons p members ih =>
    rw [List.mapM_cons, Except.bind_eq_ok_iff, List.forall_mem_cons]
    constructor
    · rintro ⟨e, he, h⟩
      obtain ⟨rest, hrest, h⟩ := Except.ok_of_bind h
      cases h
      obtain ⟨hp, hmember⟩ := entryPoint_eq_ok_iff.1 he
      obtain ⟨hall, rfl⟩ := ih.1 hrest
      exact ⟨⟨hp, hall⟩, congrArg (· :: _) hmember⟩
    · rintro ⟨⟨hp, hall⟩, hes⟩
      cases es with
      | nil => cases hes
      | cons e rest =>
        obtain ⟨rfl, rfl⟩ := List.cons.inj hes
        refine ⟨e, entryPoint_eq_ok_iff.2 ⟨hp, rfl⟩, ?_⟩
        rw [ih.2 ⟨hall, rfl⟩]
        rfl

/-- The first member of `exposes` that is no entry, with what is said against it. -/
theorem objection_of_mapM {f : Fault}
    (h : (members.mapM fun m ↦ entryPoint m.1 m.2) = .error f) :
    ∃ before p after, members = before ++ p :: after ∧ (∀ q ∈ before, IsEntry q) ∧ ¬ IsEntry p ∧
      Objection p f.message := by
  obtain ⟨before, p, after, hsplit, hbefore, hp⟩ := Except.error_of_mapM h
  have hobjection := objection_of_entryPoint hp
  refine ⟨before, p, after, hsplit, fun q hq ↦ ?_, hobjection.not_isEntry, hobjection⟩
  obtain ⟨e, he⟩ := hbefore q hq
  exact (entryPoint_eq_ok_iff.1 he).1

theorem mapM_ok_iff : (∃ es, (members.mapM fun m ↦ entryPoint m.1 m.2) = .ok es) ↔
    ∀ p ∈ members, IsEntry p := by
  constructor
  · rintro ⟨es, hes⟩
    exact (mapM_eq_ok_iff.1 hes).1
  · intro hall
    cases h : members.mapM fun m ↦ entryPoint m.1 m.2 with
    | ok es => exact ⟨es, rfl⟩
    | error f =>
      obtain ⟨before, p, after, rfl, -, hp, -⟩ := objection_of_mapM h
      exact absurd (hall p (by simp)) hp

theorem ofMembers_eq_error {f : Fault} (hname : IsGoodName name)
    (h : ofMembers path name members = .error f) :
    (members.mapM fun m ↦ entryPoint m.1 m.2) = .error f := by
  rw [ofMembers, nameFault?_eq_none.2 (isAccepted_iff.2 hname)] at h
  cases hes : members.mapM fun m ↦ entryPoint m.1 m.2 with
  | ok es =>
    rw [hes] at h
    cases h
  | error f' =>
    rw [hes] at h
    cases h
    rfl

theorem parse_eq_error {text : String} {e : ManifestProblem} (h : parse text path = .error e) :
    ∃ reason, e = .malformed path reason ∧
      ∀ p, readText text = .ok p → ∃ f, ofMembers path p.1 p.2 = .error f ∧ reason = f.message := by
  unfold parse at h
  split at h
  · next e' hread =>
    cases h
    exact ⟨_, rfl, fun p hp ↦ by rw [hread] at hp; cases hp⟩
  · next name members hread =>
    split at h
    · next f hf =>
      cases h
      refine ⟨_, rfl, fun p hp ↦ ⟨f, ?_, rfl⟩⟩
      rw [hread] at hp
      cases hp
      exact hf
    · cases h

/-- A text is a manifest if and only if it is a document with a good name and entries only. The
manifest has then that name and those entries, each under a key of its own, in the order in which
the keys are written and with the values written last. Otherwise the text is malformed, and under a
good name the first member that is no entry is to blame. -/
theorem parse_document (text path : String) :
    ((∃ m, parse text path = .ok m) ↔
      ∃ name members, readText text = .ok (name, members) ∧ IsGoodName name ∧
        ∀ p ∈ members, IsEntry p) ∧
    (∀ m, parse text path = .ok m →
      m.path = path ∧ readText text = .ok (m.name, m.exposes.map EntryPoint.member) ∧
        (m.exposes.map (·.key)).Nodup) ∧
    (∀ name members, readText text = .ok (name, members) →
      ∃ written, Writes text.toList name written ∧ Settles written members) ∧
    ∀ e, parse text path = .error e → ∃ reason, e = .malformed path reason ∧
      ∀ name members, readText text = .ok (name, members) → IsGoodName name →
        ∃ before p after, members = before ++ p :: after ∧ (∀ q ∈ before, IsEntry q) ∧
          ¬ IsEntry p ∧ Objection p reason := by
  refine ⟨⟨?_, ?_⟩, ?_, fun _ _ ↦ writes_of_readText, ?_⟩
  · rintro ⟨m, hm⟩
    obtain ⟨⟨name, members⟩, hread, hmembers⟩ := parse_eq_ok_iff.1 hm
    obtain ⟨hname, es, hes, -⟩ := ofMembers_eq_ok_iff.1 hmembers
    exact ⟨name, members, hread, isAccepted_iff.1 hname, mapM_ok_iff.1 ⟨es, hes⟩⟩
  · rintro ⟨name, members, hread, hname, hall⟩
    obtain ⟨es, hes⟩ := mapM_ok_iff.2 hall
    exact ⟨_, parse_eq_ok_iff.2
      ⟨_, hread, ofMembers_eq_ok_iff.2 ⟨isAccepted_iff.2 hname, es, hes, rfl⟩⟩⟩
  · intro m hm
    obtain ⟨⟨name, members⟩, hread, hmembers⟩ := parse_eq_ok_iff.1 hm
    obtain ⟨-, es, hes, rfl⟩ := ofMembers_eq_ok_iff.1 hmembers
    obtain ⟨-, rfl⟩ := mapM_eq_ok_iff.1 hes
    exact ⟨rfl, hread, keys_nodup_of_parse hm⟩
  · intro e he
    obtain ⟨reason, rfl, hread⟩ := parse_eq_error he
    refine ⟨reason, rfl, fun name members hp hname ↦ ?_⟩
    obtain ⟨f, hf, rfl⟩ := hread _ hp
    exact objection_of_mapM (ofMembers_eq_error hname hf)

section Example

def repeated : String :=
  "\x7b\"name\":\"shop\",\"exposes\":\x7b\"Cart\":3,\"Button\":\"b.ts\",\"Cart\":\"c.ts\"\x7d\x7d"

example : (parse repeated "shop.json").toOption =
    some ⟨"shop", [⟨"Cart", "c.ts"⟩, ⟨"Button", "b.ts"⟩], "shop.json"⟩ := by
  decide +kernel

end Example

end Manifest

end AmbientTypes
