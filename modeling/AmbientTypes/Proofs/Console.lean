import AmbientTypes.Console
import AmbientTypes.Proofs.Notices
import AmbientTypes.Proofs.Report.Calls

namespace AmbientTypes

variable {α β : Type}

namespace ConsoleAction

@[simp] theorem run_pure (x : α) (c : Console) : (pure x : ConsoleAction α).run c = (.ok x, c) :=
  rfl

theorem run_bind (a : ConsoleAction α) (f : α → ConsoleAction β) (c : Console) :
    (a >>= f).run c =
      match a.run c with
      | (.ok x, c') => (f x).run c'
      | (.error e, c') => (.error e, c') := by
  rw [run, Action.run_bind_state, run]
  cases StateT.run (ExceptT.run a) c with
  | mk r c' => cases r <;> rfl

@[simp] theorem run_cwd (c : Console) : cwd.run c = (.ok c.world.cwd, c) := rfl

@[simp] theorem run_print (q : Printed) (c : Console) :
    (print q).run c = (.ok (), { c with printed := c.printed ++ q }) := rfl

theorem print_bind (p q : Printed) : (print p >>= fun _ ↦ print q) = print (p ++ q) := by
  refine funext fun c ↦ ?_
  exact congrArg (fun q : Printed ↦ (Except.ok (), { c with printed := q }))
    (Printed.append_assoc c.printed p q)

theorem print_nothing : print {} = pure () := by
  refine funext fun c ↦ ?_
  exact congrArg (fun q : Printed ↦ (Except.ok (), { c with printed := q }))
    (Printed.append_nothing c.printed)

/-- From consoles of one world both end with one result in one world; only what they print may
differ. -/
def Coincide (a b : ConsoleAction α) : Prop :=
  ∀ ⦃c d : Console⦄, c.world = d.world →
    (a.run c).1 = (b.run d).1 ∧ (a.run c).2.world = (b.run d).2.world

namespace Coincide

theorem symm {a b : ConsoleAction α} (h : Coincide a b) : Coincide b a := by
  intro c d hcd
  obtain ⟨hresult, hworld⟩ := h hcd.symm
  exact ⟨hresult.symm, hworld.symm⟩

theorem trans {a b b' : ConsoleAction α} (h : Coincide a b) (h' : Coincide b b') :
    Coincide a b' := by
  intro c d hcd
  obtain ⟨hresult, hworld⟩ := h hcd
  obtain ⟨hresult', hworld'⟩ := h' (Eq.refl d.world)
  exact ⟨hresult.trans hresult', hworld.trans hworld'⟩

theorem pure (x : α) : Coincide (Pure.pure x) (Pure.pure x : ConsoleAction α) :=
  fun _ _ h ↦ ⟨rfl, h⟩

theorem cwd : Coincide cwd cwd := fun _ _ h ↦ ⟨congrArg (Except.ok ∘ World.cwd) h, h⟩

theorem bind {a b : ConsoleAction α} {f g : α → ConsoleAction β} (h : Coincide a b)
    (hf : ∀ x, Coincide (f x) (g x)) : Coincide (a >>= f) (b >>= g) := by
  intro c d hcd
  obtain ⟨hresult, hworld⟩ := h hcd
  rw [run_bind, run_bind]
  generalize a.run c = p at *
  obtain ⟨r, c'⟩ := p
  generalize b.run d = q at *
  obtain ⟨r', d'⟩ := q
  obtain rfl : r = r' := hresult
  cases r with
  | ok x => exact hf x hworld
  | error e => exact ⟨rfl, hworld⟩

theorem logging (p q : Presentation) (a : Action α) : Coincide (p.logging a) (q.logging a) := by
  intro c d hcd
  change (a.run { c.world with notices := [] }).1 = (a.run { d.world with notices := [] }).1 ∧
    ({ (a.run { c.world with notices := [] }).2 with notices := c.world.notices } : World) =
      { (a.run { d.world with notices := [] }).2 with notices := d.world.notices }
  rw [hcd]
  exact ⟨rfl, rfl⟩

end Coincide

def OnlyPrints (a : ConsoleAction Unit) : Prop := Coincide a (pure ())

namespace OnlyPrints

theorem print (q : Printed) : OnlyPrints (print q) := fun _ _ h ↦ ⟨rfl, h⟩

theorem call (p : Presentation) (c : Reporter.Call) : OnlyPrints (p.call c) := print _

theorem nothing : OnlyPrints (pure ()) := .pure ()

theorem bind {a : ConsoleAction Unit} {f : Unit → ConsoleAction Unit} (ha : OnlyPrints a)
    (hf : OnlyPrints (f ())) : OnlyPrints (a >>= f) :=
  Coincide.bind ha fun _ ↦ hf

theorem cwd_bind {f : String → ConsoleAction Unit} (hf : ∀ dir, OnlyPrints (f dir)) :
    OnlyPrints (cwd >>= f) := by
  intro c d hcd
  exact hf c.world.cwd hcd

theorem forM {f : β → ConsoleAction Unit} (hf : ∀ x, OnlyPrints (f x)) (xs : List β) :
    OnlyPrints (xs.forM f) := by
  induction xs with
  | nil => exact nothing
  | cons x xs ih => exact (hf x).bind ih

/-- Whatever two actions print, they do the same. -/
theorem coincide {a b : ConsoleAction Unit} (ha : OnlyPrints a) (hb : OnlyPrints b) :
    Coincide a b := Coincide.trans ha (Coincide.symm hb)

end OnlyPrints

theorem forM_print_nothing (xs : List β) : (xs.forM fun _ ↦ print {}) = pure () := by
  induction xs with
  | nil => rfl
  | cons x xs ih => rw [List.forM, ih, print_nothing, pure_bind]

theorem forM_print_stdout (line : β → String) (xs : List β) :
    (xs.forM fun x ↦ print { stdout := line x }) =
      print { stdout := String.join (xs.map line) } := by
  induction xs with
  | nil => exact print_nothing.symm
  | cons x xs ih =>
    rw [List.forM, ih, print_bind, List.map_cons, String.join_cons]
    rfl

end ConsoleAction

namespace Presentation

variable {view : Presentation} {a : ConsoleAction α} {b : Action α}

theorem foldl_print (out : Printed) (ns : List Notice) :
    ns.foldl (fun out n ↦ out ++ view.print n) out = out ++ view.printAll ns := by
  induction ns generalizing out with
  | nil => exact (Printed.append_nothing out).symm
  | cons n ns ih =>
    rw [printAll, List.foldl_cons, List.foldl_cons, ih, ih, Printed.nothing_append,
      Printed.append_assoc]

theorem printAll_append (ns ms : List Notice) :
    view.printAll (ns ++ ms) = view.printAll ns ++ view.printAll ms := by
  rw [printAll, List.foldl_append, foldl_print]
  rfl

theorem printAll_singleton (n : Notice) : view.printAll [n] = view.print n :=
  Printed.nothing_append _

/-- One run prints what the other one tells, and both end alike. -/
structure ShowsEnd (view : Presentation) (c : Console) (before : List Notice)
    (p : Except Failure α × Console) (q : Except Failure α × World) : Prop where
  result : p.1 = q.1
  world : p.2.world.Agrees q.2
  notices : p.2.world.notices = c.world.notices
  printed : ∃ ns, q.2.notices = before ++ ns ∧ p.2.printed = c.printed ++ view.printAll ns

def Shows (view : Presentation) (a : ConsoleAction α) (b : Action α) : Prop :=
  ∀ ⦃c : Console⦄ ⦃w : World⦄, c.world.Agrees w →
    ShowsEnd view c w.notices (a.run c) (b.run w)

namespace Shows

theorem pure (x : α) : Shows view (Pure.pure x) (Pure.pure x) := fun c _ h ↦
  ⟨rfl, h, rfl, [], (List.append_nil _).symm, (Printed.append_nothing c.printed).symm⟩

theorem bind {f : α → ConsoleAction β} {g : α → Action β} (h : Shows view a b)
    (hf : ∀ x, Shows view (f x) (g x)) : Shows view (a >>= f) (b >>= g) := by
  intro c w hcw
  obtain ⟨hresult, hworld, hnotices, ns, hns, hprinted⟩ := h hcw
  rw [ConsoleAction.run_bind, Action.run_bind]
  generalize a.run c = p at *
  obtain ⟨r, c'⟩ := p
  generalize b.run w = q at *
  obtain ⟨r', w'⟩ := q
  obtain rfl : r = r' := hresult
  cases r with
  | error e => exact ⟨rfl, hworld, hnotices, ns, hns, hprinted⟩
  | ok x =>
    obtain ⟨hresult, hworld, hnotices', ms, hms, hprinted'⟩ := hf x hworld
    refine ⟨hresult, hworld, hnotices'.trans hnotices, ns ++ ms, ?_, ?_⟩
    · rw [hms, hns, List.append_assoc]
    · rw [hprinted', hprinted, printAll_append, Printed.append_assoc]

theorem cwd_bind {f : String → ConsoleAction β} {g : World → Action β}
    (h : ∀ w, Shows view (f w.cwd) (g w)) :
    Shows view (ConsoleAction.cwd >>= f) (get >>= g) := by
  intro c w hcw
  rw [ConsoleAction.run_bind, Action.run_bind, ConsoleAction.run_cwd, Action.run_get, hcw.cwd]
  exact h w hcw

theorem tell (n : Notice) : Shows view (.print (view.print n)) (Action.tell n) := fun _ w h ↦
  ⟨rfl, h.trans (World.Agrees.withNotices w _).symm, rfl, [n], rfl, by rw [printAll_singleton]; rfl⟩

theorem forM {f : β → ConsoleAction Unit} {g : β → Action Unit} (h : ∀ x, Shows view (f x) (g x))
    (xs : List β) : Shows view (xs.forM f) (xs.forM g) := by
  induction xs with
  | nil => exact pure ()
  | cons x xs ih => exact (h x).bind fun _ ↦ ih

theorem logging (hb : Action.OnlyLogs b) : Shows view (view.logging b) b := by
  intro c w hcw
  obtain ⟨hresult, hworld, ns, ms, hns, hms, rfl, -⟩ :=
    hb ((World.Agrees.withNotices c.world []).trans hcw)
  refine ⟨hresult, (World.Agrees.withNotices _ _).trans hworld, rfl, ns, hms, ?_⟩
  rw [List.nil_append] at hns
  exact congrArg (fun logs ↦ c.printed ++ view.printAll logs) hns

end Shows

end Presentation

end AmbientTypes
