import AmbientTypes.Proofs.Json.Printer
import AmbientTypes.Proofs.Manifest.Entries

namespace AmbientTypes.Manifest

open Json

def toJson (m : Manifest) : Json :=
  .object [("name", m.name), ("exposes", .object (m.exposes.map fun e ↦ (e.key, .string e.path)))]

variable {name : String} {members : List (String × Json)} {fuel : Nat} {first : Bool} {d : Draft}
  {s r : List Char}

theorem colon_cons (s : List Char) : colon (':' :: s) = .ok s := rfl

theorem readFields_name (hkey : nextKey first s = .ok (.item (opened "name" name r)))
    (hnew : d.name = none) :
    readFields (fuel + 1) first d s = readFields fuel false ⟨some name, d.exposes⟩ r := by
  rw [readFields, hkey]
  simp only [bind, Except.bind, opened, readString_text, colon_cons, expectString_chars, hnew,
    Option.isSome_none, if_true, if_false, Bool.false_eq_true]

theorem readFields_exposes
    (hkey : nextKey first s = .ok (.item (opened "exposes" (.object members) r)))
    (hnew : d.exposes = none)
    (hread : expectObject (deepest - 1) (chars (.object members) ++ r) = .ok (members, r)) :
    readFields (fuel + 1) first d s = readFields fuel false ⟨d.name, some members⟩ r := by
  have hname : ("exposes" : String) ≠ "name" := by decide
  rw [readFields, hkey]
  simp only [bind, Except.bind, opened, readString_text, colon_cons, hread, hnew, if_neg hname,
    Option.isSome_none, if_true, if_false, Bool.false_eq_true]

/-- A document with texts under different keys is read as it was printed. -/
theorem readText_print (hkeys : Keyed members) (hvalue : ∀ m ∈ members, ∃ t, m.2 = .string t) :
    readText (Json.object [("name", name), ("exposes", .object members)]).print =
      .ok (name, members) := by
  have hmembers : ∀ m ∈ members, ∀ t,
      readValue (deepest - 2) (chars m.2 ++ t) = .ok (m.2, t) := by
    intro m hm t
    obtain ⟨text, htext⟩ := hvalue m hm
    rw [htext]
    exact readValue_string _ text t
  have hobject := expectObject_chars hkeys hmembers ['\x7d']
  generalize hfields : '"' :: opened "name" name
    (',' :: '"' :: opened "exposes" (.object members) ['\x7d']) = fields
  have hprinted : (Json.object [("name", name), ("exposes", .object members)]).print.toList =
      '\x7b' :: fields := by
    rw [print, String.toList_ofList, ← List.append_nil (chars _), chars_object_append,
      memberChars_append, ← hfields]
    rfl
  obtain ⟨fuel, hfuel⟩ : ∃ fuel, fields.length + 1 = fuel + 3 := by
    apply Nat.exists_eq_add_of_le'
    rw [← hfields]
    exact Nat.le_add_left 3 _
  have hread : readFields (fields.length + 1) true {} fields =
      .ok (⟨some name, some members⟩, []) := by
    rw [hfuel, ← hfields, readFields_name rfl rfl, readFields_exposes rfl rfl hobject]
    rfl
  have hdocument : readDocument ('\x7b' :: fields) = .ok ((name, members), []) := by
    change readObject fields = _
    rw [readObject, hread]
    rfl
  rw [readText, hprinted, hdocument]
  rfl

theorem entryPoint_string_iff {e e' : EntryPoint} :
    entryPoint e.key (.string e.path) = .ok e' ↔ e' = e ∧ e.key ≠ "" ∧ e.path ≠ "" := by
  by_cases hkey : e.key = ""
  · simp [entryPoint, hkey]
  · by_cases hpath : e.path = ""
    · simp [entryPoint, hkey, hpath]
    · simpa [entryPoint, hkey, hpath] using eq_comm

theorem mapM_entryPoint_iff (es es' : List EntryPoint) :
    ((es.map fun e ↦ (e.key, Json.string e.path)).mapM fun m ↦ entryPoint m.1 m.2) = .ok es' ↔
      es' = es ∧ ∀ e ∈ es, e.key ≠ "" ∧ e.path ≠ "" := by
  induction es generalizing es' with
  | nil =>
    constructor
    · intro h
      obtain rfl := Except.ok.inj h
      exact ⟨rfl, by simp⟩
    · rintro ⟨rfl, -⟩
      rfl
  | cons e es ih =>
    rw [List.map_cons, List.mapM_cons, List.forall_mem_cons]
    constructor
    · intro h
      obtain ⟨first, hfirst, h⟩ := Except.ok_of_bind h
      obtain ⟨rest, hrest, h⟩ := Except.ok_of_bind h
      obtain rfl := Except.ok.inj h
      obtain ⟨rfl, hgood⟩ := entryPoint_string_iff.1 hfirst
      obtain ⟨rfl, hall⟩ := (ih rest).1 hrest
      exact ⟨rfl, hgood, hall⟩
    · rintro ⟨rfl, hgood, hall⟩
      rw [entryPoint_string_iff.2 ⟨rfl, hgood⟩, (ih es).2 ⟨rfl, hall⟩]
      rfl

theorem ofMembers_eq_ok_iff {path : String} {m : Manifest} :
    ofMembers path name members = .ok m ↔
      IsAccepted name ∧ ∃ es, (members.mapM fun m ↦ entryPoint m.1 m.2) = .ok es ∧
        ⟨name, es, path⟩ = m := by
  rw [ofMembers, ← nameFault?_eq_none]
  cases nameFault? name with
  | some f => simp
  | none =>
    cases members.mapM fun m ↦ entryPoint m.1 m.2 with
    | error f => simp [bind, Except.bind]
    | ok es => simp [bind, Except.bind, pure, Except.pure]

theorem parse_eq_ok_iff {text path : String} {m : Manifest} :
    parse text path = .ok m ↔
      ∃ p, readText text = .ok p ∧ ofMembers path p.1 p.2 = .ok m := by
  rw [parse]
  cases readText text with
  | error e => simp
  | ok p => cases h : ofMembers path p.1 p.2 <;> simp [h]

/-- A manifest is read back from its document if and only if it has a name without fault, keys that
are neither empty nor twice there, and no empty path. -/
theorem parse_print_iff (m : Manifest) :
    parse m.toJson.print m.path = .ok m ↔
      IsAccepted m.name ∧ (m.exposes.map (·.key)).Nodup ∧
        ∀ e ∈ m.exposes, e.key ≠ "" ∧ e.path ≠ "" := by
  have hread (hkeys : (m.exposes.map (·.key)).Nodup) : readText m.toJson.print =
      .ok (m.name, m.exposes.map fun e ↦ (e.key, .string e.path)) :=
    readText_print (by simpa [Keyed, Function.comp_def] using hkeys) (by simp)
  constructor
  · intro h
    have hkeys := keys_nodup_of_parse h
    obtain ⟨p, htext, hmembers⟩ := parse_eq_ok_iff.1 h
    rw [hread hkeys] at htext
    obtain rfl := Except.ok.inj htext
    obtain ⟨hname, es, hes, hm⟩ := ofMembers_eq_ok_iff.1 hmembers
    obtain ⟨rfl, hall⟩ := (mapM_entryPoint_iff _ _).1 hes
    exact ⟨hname, hkeys, hall⟩
  · rintro ⟨hname, hkeys, hall⟩
    have hes := (mapM_entryPoint_iff m.exposes m.exposes).2 ⟨rfl, hall⟩
    exact parse_eq_ok_iff.2 ⟨_, hread hkeys, ofMembers_eq_ok_iff.2 ⟨hname, m.exposes, hes, rfl⟩⟩

end AmbientTypes.Manifest
