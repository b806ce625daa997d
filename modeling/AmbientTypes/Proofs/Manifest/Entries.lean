import AmbientTypes.Proofs.Json.Members
import AmbientTypes.Proofs.Manifest.Names

namespace AmbientTypes.Manifest

open Json

variable {members : List (String × Json)} {name : String} {s r : List Char}

def Draft.Keyed (d : Draft) : Prop := Json.Keyed (d.exposes.getD [])

theorem Draft.Keyed.readFields {fuel : Nat} {first : Bool} {d d' : Draft} (hd : d.Keyed)
    (h : readFields fuel first d s = .ok (d', r)) : d'.Keyed := by
  induction fuel generalizing first d s with
  | zero => cases h
  | succ fuel ih =>
    obtain ⟨step, -, h⟩ := Except.ok_of_bind h
    cases step with
    | last rest =>
      obtain ⟨rfl, -⟩ := Prod.mk.inj (Except.ok.inj h)
      exact hd
    | item rest =>
      obtain ⟨⟨k, rest⟩, -, h⟩ := Except.ok_of_bind h
      simp only at h
      split at h
      · split at h
        · cases h
        · obtain ⟨rest, -, h⟩ := Except.ok_of_bind h
          obtain ⟨p, -, h⟩ := Except.ok_of_bind h
          exact ih (d := ⟨some p.1, d.exposes⟩) hd h
      · split at h
        · split at h
          · cases h
          · obtain ⟨rest, -, h⟩ := Except.ok_of_bind h
            obtain ⟨p, hp, h⟩ := Except.ok_of_bind h
            exact ih (d := ⟨d.name, some p.1⟩) (keyed_of_expectObject hp) h
        · obtain ⟨rest, -, h⟩ := Except.ok_of_bind h
          obtain ⟨rest, -, h⟩ := Except.ok_of_bind h
          exact ih hd h

theorem keyed_of_readObject (h : readObject s = .ok ((name, members), r)) : Keyed members := by
  obtain ⟨⟨d, rest⟩, hd, h⟩ := Except.ok_of_bind h
  have hkeyed : d.Keyed := Draft.Keyed.readFields (d := {}) keyed_nil hd
  simp only at h
  split at h
  · obtain rfl : d.exposes.getD [] = members := congrArg (·.1.2) (Except.ok.inj h)
    exact hkeyed
  · cases h

theorem keyed_of_readList (h : readList s = .ok ((name, members), r)) : Keyed members := by
  obtain ⟨step, -, h⟩ := Except.ok_of_bind h
  cases step with
  | last rest => cases h
  | item rest =>
    obtain ⟨n, -, h⟩ := Except.ok_of_bind h
    obtain ⟨step, -, h⟩ := Except.ok_of_bind h
    cases step with
    | last rest =>
      obtain rfl : [] = members := congrArg (·.1.2) (Except.ok.inj h)
      exact keyed_nil
    | item rest =>
      obtain ⟨ms, hms, h⟩ := Except.ok_of_bind h
      obtain ⟨rest, -, h⟩ := Except.ok_of_bind h
      obtain rfl : ms.1 = members := congrArg (·.1.2) (Except.ok.inj h)
      exact keyed_of_expectObject hms

theorem keyed_of_readText {text : String} (h : readText text = .ok (name, members)) :
    Keyed members := by
  obtain ⟨⟨p, rest⟩, hp, h⟩ := Except.ok_of_bind h
  obtain ⟨u, -, h⟩ := Except.ok_of_bind h
  obtain rfl : p = (name, members) := Except.ok.inj h
  unfold readDocument at hp
  split at hp
  · cases hp
  · exact keyed_of_readObject hp
  · exact keyed_of_readList hp
  · exact absurd hp mismatch_ne_ok

theorem key_of_entryPoint {key : String} {value : Json} {e : EntryPoint}
    (h : entryPoint key value = .ok e) : e.key = key := by
  unfold entryPoint at h
  split at h
  · cases h
  · split at h
    · split at h
      · cases h
      · rw [← Except.ok.inj h]
    · cases h

theorem keys_of_mapM {entries : List EntryPoint}
    (h : (members.mapM fun m ↦ entryPoint m.1 m.2) = .ok entries) :
    entries.map (·.key) = members.map (·.1) := by
  induction members generalizing entries with
  | nil =>
    obtain rfl := Except.ok.inj h
    rfl
  | cons m members ih =>
    rw [List.mapM_cons] at h
    obtain ⟨e, he, h⟩ := Except.ok_of_bind h
    obtain ⟨es, hes, h⟩ := Except.ok_of_bind h
    obtain rfl := Except.ok.inj h
    rw [List.map_cons, List.map_cons, key_of_entryPoint he, ih hes]

/-- No two entry points of a manifest that was read have one key. -/
theorem keys_nodup_of_parse {text path : String} {m : Manifest} (h : parse text path = .ok m) :
    (m.exposes.map (·.key)).Nodup := by
  unfold parse at h
  split at h
  · cases h
  · next name members hread =>
    split at h
    · cases h
    · next m' hm =>
      obtain rfl := Except.ok.inj h
      unfold ofMembers at hm
      split at hm
      · cases hm
      · obtain ⟨entries, hentries, hm⟩ := Except.ok_of_bind hm
        obtain rfl := Except.ok.inj hm
        rw [keys_of_mapM hentries]
        exact keyed_of_readText hread

end AmbientTypes.Manifest
