import AmbientTypes.Manifest.Document
import AmbientTypes.Proofs.Json.Members

namespace AmbientTypes.Manifest

open Json

variable {name : String} {members : List (String × Json)} {s r : List Char}

/-- The fields written in an object that has been opened, up to behind its closing bracket. Each of
the two that count stands there at most once. -/
inductive Fields : Bool → List Char → Option String → Option (List (String × Json)) → List Char →
    Prop
  | last {first : Bool} {s r : List Char} (h : nextKey first s = .ok (.last r)) :
      Fields first s none none r
  | name {first : Bool} {s r₁ r₂ r₃ r₄ r : List Char} {name : String}
      {exposes : Option (List (String × Json))} (hnext : nextKey first s = .ok (.item r₁))
      (hkey : readString r₁ = .ok ("name", r₂)) (hcolon : colon r₂ = .ok r₃)
      (hname : expectString r₃ = .ok (name, r₄)) (h : Fields false r₄ none exposes r) :
      Fields first s (some name) exposes r
  | exposes {first : Bool} {s r₁ r₂ r₃ r₄ r : List Char} {name : Option String}
      {written : List (String × Json)} (hnext : nextKey first s = .ok (.item r₁))
      (hkey : readString r₁ = .ok ("exposes", r₂)) (hcolon : colon r₂ = .ok r₃)
      (hwrites : WritesObject (deepest - 2) r₃ written r₄) (h : Fields false r₄ name none r) :
      Fields first s name (some written) r
  | other {first : Bool} {s r₁ r₂ r₃ r₄ r : List Char} {key : String} {name : Option String}
      {exposes : Option (List (String × Json))} (hnext : nextKey first s = .ok (.item r₁))
      (hkey : readString r₁ = .ok (key, r₂)) (hname : key ≠ "name") (hexposes : key ≠ "exposes")
      (hcolon : colon r₂ = .ok r₃) (hskip : skipValue r₃ = .ok r₄)
      (h : Fields false r₄ name exposes r) : Fields first s name exposes r

inductive Writes : List Char → String → List (String × Json) → Prop
  | object {s t r : List Char} {name : String} {exposes : Option (List (String × Json))}
      (hopen : skipSpace s = '\x7b' :: t) (h : Fields true t (some name) exposes r)
      (hend : endOfText r = .ok ()) : Writes s name (exposes.getD [])
  | nameOnly {s t r₁ r₂ r : List Char} {name : String} (hopen : skipSpace s = '[' :: t)
      (hfirst : nextItem true t = .ok (.item r₁)) (hname : expectString r₁ = .ok (name, r₂))
      (hclose : nextItem false r₂ = .ok (.last r)) (hend : endOfText r = .ok ()) :
      Writes s name []
  | list {s t r₁ r₂ r₃ r₄ r : List Char} {name : String} {written : List (String × Json)}
      (hopen : skipSpace s = '[' :: t) (hfirst : nextItem true t = .ok (.item r₁))
      (hname : expectString r₁ = .ok (name, r₂)) (hsecond : nextItem false r₂ = .ok (.item r₃))
      (hwrites : WritesObject (deepest - 2) r₃ written r₄) (hclose : closeList r₄ = .ok r)
      (hend : endOfText r = .ok ()) : Writes s name written

/-- A field before and after some text: without a value there it stays, else it is new. -/
inductive Takes {α β : Type} (R : α → β → Prop) : Option α → Option β → Option β → Prop
  | keeps (b : Option β) : Takes R none b b
  | gains {a : α} {b : β} (h : R a b) : Takes R (some a) none (some b)

namespace Takes

variable {α β : Type} {R : α → β → Prop} {a : Option α} {b : β} {after : Option β}

theorem of_some (h : Takes R a (some b) after) : a = none ∧ after = some b := by
  cases h
  exact ⟨rfl, rfl⟩

theorem of_none (h : Takes R a none (some b)) : ∃ a', a = some a' ∧ R a' b := by
  cases h with
  | gains h => exact ⟨_, rfl, h⟩

theorem settles {exposes : Option (List (String × Json))} {after : Option (List (String × Json))}
    (h : Takes Settles exposes none after) : Settles (exposes.getD []) (after.getD []) := by
  cases h with
  | keeps => exact settles_nil
  | gains h => exact h

end Takes

theorem fields_of_readFields {fuel : Nat} {first : Bool} {d d' : Draft}
    (h : readFields fuel first d s = .ok (d', r)) :
    ∃ name exposes, Fields first s name exposes r ∧ Takes Eq name d.name d'.name ∧
      Takes Settles exposes d.exposes d'.exposes := by
  induction fuel generalizing first d s with
  | zero => cases h
  | succ fuel ih =>
    obtain ⟨step, hnext, h⟩ := Except.ok_of_bind h
    cases step with
    | last rest =>
      obtain ⟨rfl, rfl⟩ := Prod.mk.inj (Except.ok.inj h)
      exact ⟨none, none, .last hnext, .keeps _, .keeps _⟩
    | item rest =>
      obtain ⟨⟨key, r₂⟩, hkey, h⟩ := Except.ok_of_bind h
      simp only at h
      split at h
      · next hname =>
        subst hname
        split at h
        · cases h
        · next hnew =>
          obtain ⟨r₃, hcolon, h⟩ := Except.ok_of_bind h
          obtain ⟨⟨name, r₄⟩, hvalue, h⟩ := Except.ok_of_bind h
          obtain ⟨again, exposes, hfields, htakes, hexposes⟩ := ih h
          -- The draft has a name now, so that the rest writes none.
          obtain ⟨rfl, hafter⟩ := htakes.of_some
          rw [Option.not_isSome_iff_eq_none.1 hnew, hafter]
          exact ⟨some name, exposes, .name hnext hkey hcolon hvalue hfields, .gains rfl, hexposes⟩
      · next hname =>
        split at h
        · next hexposes =>
          subst hexposes
          split at h
          · cases h
          · next hnew =>
            obtain ⟨r₃, hcolon, h⟩ := Except.ok_of_bind h
            obtain ⟨⟨ms, r₄⟩, hvalue, h⟩ := Except.ok_of_bind h
            obtain ⟨written, hwrites, hsettles⟩ := writesObject_of_expectObject hvalue
            obtain ⟨name, again, hfields, hnamed, htakes⟩ := ih h
            obtain ⟨rfl, hafter⟩ := htakes.of_some
            rw [Option.not_isSome_iff_eq_none.1 hnew, hafter]
            exact ⟨name, some written, .exposes hnext hkey hcolon hwrites hfields, hnamed,
              .gains hsettles⟩
        · next hexposes =>
          obtain ⟨r₃, hcolon, h⟩ := Except.ok_of_bind h
          obtain ⟨r₄, hskip, h⟩ := Except.ok_of_bind h
          obtain ⟨name, exposes, hfields, hd⟩ := ih h
          exact ⟨name, exposes, .other hnext hkey hname hexposes hcolon hskip hfields, hd⟩

theorem writes_of_readObject {t : List Char} (hopen : skipSpace s = '\x7b' :: t)
    (h : readObject t = .ok ((name, members), r)) (hend : endOfText r = .ok ()) :
    ∃ written, Writes s name written ∧ Settles written members := by
  obtain ⟨⟨d, rest⟩, hd, h⟩ := Except.ok_of_bind h
  obtain ⟨found, exposes, hfields, hname, hexposes⟩ := fields_of_readFields hd
  simp only at h
  split at h
  · next given hgiven =>
    obtain ⟨hpair, rfl⟩ := Prod.mk.inj (Except.ok.inj h)
    obtain ⟨rfl, rfl⟩ := Prod.mk.inj hpair
    rw [hgiven] at hname
    obtain ⟨written, rfl, rfl⟩ := hname.of_none
    exact ⟨exposes.getD [], .object hopen hfields hend, hexposes.settles⟩
  · cases h

theorem writes_of_readList {t : List Char} (hopen : skipSpace s = '[' :: t)
    (h : readList t = .ok ((name, members), r)) (hend : endOfText r = .ok ()) :
    ∃ written, Writes s name written ∧ Settles written members := by
  obtain ⟨step, hfirst, h⟩ := Except.ok_of_bind h
  cases step with
  | last rest => cases h
  | item r₁ =>
    obtain ⟨⟨n, r₂⟩, hname, h⟩ := Except.ok_of_bind h
    obtain ⟨step, hsecond, h⟩ := Except.ok_of_bind h
    cases step with
    | last rest =>
      cases h
      exact ⟨[], .nameOnly hopen hfirst hname hsecond hend, settles_nil⟩
    | item r₃ =>
      obtain ⟨⟨ms, r₄⟩, hms, h⟩ := Except.ok_of_bind h
      obtain ⟨rest, hclose, h⟩ := Except.ok_of_bind h
      cases h
      obtain ⟨written, hwrites, hsettles⟩ := writesObject_of_expectObject hms
      exact ⟨written, .list hopen hfirst hname hsecond hwrites hclose hend, hsettles⟩

/-- A document that is read writes the name, and members that come to those that were read. -/
theorem writes_of_readText {text : String} (h : readText text = .ok (name, members)) :
    ∃ written, Writes text.toList name written ∧ Settles written members := by
  obtain ⟨⟨p, r⟩, hp, h⟩ := Except.ok_of_bind h
  obtain ⟨⟨⟩, hend, h⟩ := Except.ok_of_bind h
  obtain rfl : p = (name, members) := Except.ok.inj h
  unfold readDocument at hp
  split at hp
  · cases hp
  · next t hopen => exact writes_of_readObject hopen hp hend
  · next t hopen => exact writes_of_readList hopen hp hend
  · exact absurd hp mismatch_ne_ok

end AmbientTypes.Manifest
