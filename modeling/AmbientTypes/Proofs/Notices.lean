import AmbientTypes.Execution.Basic
import AmbientTypes.Proofs.Action

namespace AmbientTypes

variable {α β : Type} {w v u : World}

structure World.Agrees (w v : World) : Prop where
  files : w.files = v.files
  environment : w.environment = v.environment
  toolRuns : w.toolRuns = v.toolRuns

namespace World.Agrees

theorem refl (w : World) : w.Agrees w := ⟨rfl, rfl, rfl⟩

theorem symm (h : w.Agrees v) : v.Agrees w :=
  ⟨h.files.symm, h.environment.symm, h.toolRuns.symm⟩

theorem trans (h : w.Agrees v) (h' : v.Agrees u) : w.Agrees u :=
  ⟨h.files.trans h'.files, h.environment.trans h'.environment, h.toolRuns.trans h'.toolRuns⟩

theorem withNotices (w : World) (ns : List Notice) : { w with notices := ns }.Agrees w :=
  ⟨rfl, rfl, rfl⟩

theorem eq_withNotices (h : w.Agrees v) : w = { v with notices := w.notices } := by
  obtain ⟨hfiles, henvironment, htoolRuns⟩ := h
  cases w
  cases v
  subst hfiles henvironment htoolRuns
  rfl

theorem cwd (h : w.Agrees v) : w.cwd = v.cwd := by
  rw [World.cwd, World.cwd, h.files]

end World.Agrees

def Notice.IsLog : Notice → Prop
  | .log .. => True
  | _ => False

/-- What was told before makes no difference, and stays as it is. -/
def KeepsNotices {α : Type} (a : StateM World α) : Prop :=
  ∀ (w : World) (ns : List Notice),
    a.run { w with notices := ns } = ((a.run w).1, { (a.run w).2 with notices := ns })

def Launcher.KeepsNotices (launch : Launcher) : Prop :=
  ∀ c : CommandLine, AmbientTypes.KeepsNotices (launch c)

namespace KeepsNotices

theorem pure (x : α) : KeepsNotices (Pure.pure x : StateM World α) := fun _ _ ↦ rfl

theorem map (f : α → β) {a : StateM World α} (h : KeepsNotices a) : KeepsNotices (f <$> a) := by
  intro w ns
  exact congrArg (fun p : α × World ↦ (f p.1, p.2)) (h w ns)

theorem get_bind {f : World → StateM World α} (h : ∀ w, KeepsNotices (f w))
    (hsame : ∀ w ns, f { w with notices := ns } = f w) : KeepsNotices (get >>= f) := by
  intro w ns
  change (f { w with notices := ns }).run _ = _
  rw [hsame]
  exact h w w ns

end KeepsNotices

structure Telling where
  Relates : List Notice → List Notice → Prop
  nil : Relates [] []
  append {ns ms ns' ms' : List Notice} :
    Relates ns ms → Relates ns' ms' → Relates (ns ++ ns') (ms ++ ms')

namespace Telling

def any : Telling where
  Relates _ _ := True
  nil := trivial
  append _ _ := trivial

def logs : Telling where
  Relates ns ms := ns = ms ∧ ∀ n ∈ ns, n.IsLog
  nil := by simp
  append := by
    rintro ns _ ns' _ ⟨rfl, hall⟩ ⟨rfl, hall'⟩
    exact ⟨rfl, List.forall_mem_append.2 ⟨hall, hall'⟩⟩

end Telling

namespace Action

variable {T : Telling} {a b : Action α}

/-- Two runs with one result that leave worlds which agree. What they tell, after the notices that
were there before, is related. -/
structure SameEnd (T : Telling) (before before' : List Notice)
    (p q : Except Failure α × World) : Prop where
  result : p.1 = q.1
  world : p.2.Agrees q.2
  told : ∃ ns ms, p.2.notices = before ++ ns ∧ q.2.notices = before' ++ ms ∧ T.Relates ns ms

theorem SameEnd.after {before before' now now' ns ms : List Notice}
    {p q : Except Failure α × World} (h : SameEnd T now now' p q) (hnow : now = before ++ ns)
    (hnow' : now' = before' ++ ms) (htold : T.Relates ns ms) : SameEnd T before before' p q := by
  obtain ⟨hresult, hworld, ns', ms', hns, hms, hmore⟩ := h
  refine ⟨hresult, hworld, ns ++ ns', ms ++ ms', ?_, ?_, T.append htold hmore⟩
  · rw [hns, hnow, List.append_assoc]
  · rw [hms, hnow', List.append_assoc]

def Matches (T : Telling) (a b : Action α) : Prop :=
  ∀ ⦃w v : World⦄, w.Agrees v → SameEnd T w.notices v.notices (a.run w) (b.run v)

/-- An action that is the same whatever was told before, and tells nothing but log lines. -/
def OnlyLogs (a : Action α) : Prop := Matches .logs a a

def Alike (a b : Action α) : Prop := Matches .any a b

namespace Matches

theorem of_silent (h : ∀ ⦃w v : World⦄, w.Agrees v → (a.run w).1 = (b.run v).1 ∧
    (a.run w).2.Agrees (b.run v).2 ∧ (a.run w).2.notices = w.notices ∧
      (b.run v).2.notices = v.notices) : Matches T a b := by
  intro w v hwv
  obtain ⟨hresult, hworld, hnotices, hnotices'⟩ := h hwv
  refine ⟨hresult, hworld, [], [], ?_, ?_, T.nil⟩
  · rw [hnotices, List.append_nil]
  · rw [hnotices', List.append_nil]

theorem pure (x : α) : Matches T (Pure.pure x) (Pure.pure x : Action α) :=
  of_silent fun _ _ h ↦ ⟨rfl, h, rfl, rfl⟩

theorem throw (e : Failure) :
    Matches T (MonadExcept.throw e) (MonadExcept.throw e : Action α) :=
  of_silent fun _ _ h ↦ ⟨rfl, h, rfl, rfl⟩

theorem throw_bind (e : Failure) (f g : α → Action β) :
    Matches T (MonadExcept.throw e >>= f) (MonadExcept.throw e >>= g) :=
  of_silent fun _ _ h ↦ ⟨rfl, h, rfl, rfl⟩

theorem files : Matches T files files :=
  of_silent fun _ _ h ↦ ⟨congrArg Except.ok h.files, h, rfl, rfl⟩

theorem setFiles (f : Files) : Matches T (setFiles f) (setFiles f) :=
  of_silent fun _ _ h ↦ ⟨rfl, ⟨rfl, h.environment, h.toolRuns⟩, rfl, rfl⟩

theorem tell {n : Notice} (hn : T.Relates [n] []) : Matches T (tell n) (Pure.pure ()) := by
  intro w v h
  exact ⟨rfl, (World.Agrees.withNotices w _).trans h, [n], [], rfl, (List.append_nil _).symm, hn⟩

theorem tell_tell {n m : Notice} (hnm : T.Relates [n] [m]) :
    Matches T (Action.tell n) (Action.tell m) := by
  intro w v h
  have hv : (⟨v.files, v.environment, v.toolRuns, v.notices ++ [m]⟩ : World).Agrees v :=
    .withNotices v _
  exact ⟨rfl, ((World.Agrees.withNotices w _).trans h).trans hv.symm, [n], [m], rfl, rfl, hnm⟩

theorem mono {T' : Telling} (h : Matches T a b)
    (hT : ∀ ns ms, T.Relates ns ms → T'.Relates ns ms) : Matches T' a b := by
  intro w v hwv
  obtain ⟨hresult, hworld, ns, ms, hns, hms, htold⟩ := h hwv
  exact ⟨hresult, hworld, ns, ms, hns, hms, hT ns ms htold⟩

/-- What comes after both actions has to do the same for every result. -/
theorem bind {f g : α → Action β} (h : Matches T a b) (hf : ∀ x, Matches T (f x) (g x)) :
    Matches T (a >>= f) (b >>= g) := by
  intro w v hwv
  obtain ⟨hresult, hworld, ns, ms, hns, hms, htold⟩ := h hwv
  rw [run_bind, run_bind]
  generalize a.run w = p at *
  obtain ⟨r, w'⟩ := p
  generalize b.run v = q at *
  obtain ⟨r', v'⟩ := q
  obtain rfl : r = r' := hresult
  cases r with
  | error e => exact ⟨rfl, hworld, ns, ms, hns, hms, htold⟩
  | ok x => exact (hf x hworld).after hns hms htold

theorem inspect (why : SysError → Failure) (look : Files → Except SysError α) :
    Matches T (Action.inspect why look) (Action.inspect why look) := by
  rw [Action.inspect]
  refine files.bind fun f ↦ ?_
  cases look f with
  | ok x => exact pure x
  | error e => exact throw (why e)

theorem lift {a : StateM World α} (h : KeepsNotices a) :
    Matches T (liftM a) (liftM a : Action α) := by
  refine of_silent fun w v hwv ↦ ?_
  rw [hwv.symm.eq_withNotices, run_lift, run_lift, h w v.notices]
  have hkept := congrArg (fun p : α × World ↦ p.2.notices) (h w w.notices)
  exact ⟨rfl, (World.Agrees.withNotices _ _).symm, hkept, rfl⟩

theorem map (f : α → β) (h : Matches T a b) : Matches T (f <$> a) (f <$> b) := by
  rw [map_eq_pure_bind, map_eq_pure_bind]
  exact h.bind fun x ↦ pure (f x)

/-- An action that only tells may come first. -/
theorem unit_bind {a : Action Unit} {f : Unit → Action α} (ha : Matches T a (Pure.pure ()))
    (h : Matches T (f ()) b) : Matches T (a >>= f) b := by
  rw [← pure_bind () fun _ ↦ b]
  exact ha.bind fun _ ↦ h

theorem forM_pure {f : β → Action Unit} (hf : ∀ x, Matches T (f x) (Pure.pure ())) (xs : List β) :
    Matches T (xs.forM f) (Pure.pure ()) := by
  induction xs with
  | nil => exact pure ()
  | cons x xs ih => exact (hf x).unit_bind ih

theorem get_bind_left {f : World → Action α} (h : ∀ w, Matches T (f w) b) :
    Matches T (get >>= f) b := by
  intro w v hwv
  rw [run_bind, run_get]
  exact h w hwv

theorem get_bind {f g : World → Action β}
    (h : ∀ ⦃w v : World⦄, w.Agrees v → Matches T (f w) (g v)) :
    Matches T (get >>= f) (get >>= g) := by
  intro w v hwv
  rw [run_bind, run_bind, run_get, run_get]
  exact h hwv hwv

theorem discard (h : Matches T a b) :
    Matches T (Functor.discard a) (Functor.discard b) := by
  rw [Functor.discard, Functor.discard, map_const]
  exact h.map _

theorem tryCatch {f g : Failure → Action α} (h : Matches T a b) (hf : ∀ e, Matches T (f e) (g e)) :
    Matches T (MonadExcept.tryCatch a f) (MonadExcept.tryCatch b g) := by
  intro w v hwv
  obtain ⟨hresult, hworld, ns, ms, hns, hms, htold⟩ := h hwv
  rw [run_tryCatch, run_tryCatch]
  generalize a.run w = p at *
  generalize b.run v = q at *
  obtain ⟨r, w'⟩ := p
  obtain ⟨r', v'⟩ := q
  obtain rfl : r = r' := hresult
  cases r with
  | ok x => exact ⟨rfl, hworld, ns, ms, hns, hms, htold⟩
  | error e => exact (hf e hworld).after hns hms htold

end Matches

theorem OnlyLogs.alike (h : OnlyLogs a) : Alike a a := h.mono fun _ _ _ ↦ trivial

theorem OnlyLogs.log (level : LogLevel) (message : String) : OnlyLogs (log level message) :=
  Matches.tell_tell ⟨rfl, List.forall_mem_singleton.2 trivial⟩

theorem OnlyLogs.forM {f : β → Action Unit} (h : ∀ x, OnlyLogs (f x)) (xs : List β) :
    OnlyLogs (xs.forM f) := by
  induction xs with
  | nil => exact .pure ()
  | cons x xs ih => exact (h x).bind fun _ ↦ ih

/-- An action that only looks: besides log lines it leaves the world as it is. -/
structure Reads (a : Action α) : Prop where
  onlyLogs : OnlyLogs a
  agrees : ∀ w, (a.run w).2.Agrees w

namespace Reads

theorem pure (x : α) : Reads (Pure.pure x : Action α) := ⟨.pure x, .refl⟩

theorem throw (e : Failure) : Reads (MonadExcept.throw e : Action α) := ⟨.throw e, .refl⟩

theorem files : Reads files := ⟨.files, .refl⟩

theorem log (level : LogLevel) (message : String) : Reads (log level message) :=
  ⟨.log level message, fun w ↦ .withNotices w _⟩

theorem bind {f : α → Action β} (ha : Reads a) (hf : ∀ x, Reads (f x)) : Reads (a >>= f) := by
  refine ⟨ha.onlyLogs.bind fun x ↦ (hf x).onlyLogs, fun w ↦ ?_⟩
  have hw := ha.agrees w
  rw [run_bind]
  generalize a.run w = p at *
  obtain ⟨r, v⟩ := p
  cases r with
  | ok x => exact ((hf x).agrees v).trans hw
  | error e => exact hw

theorem get_bind {f : World → Action α} (hf : ∀ w, Reads (f w))
    (hsame : ∀ ⦃w v : World⦄, w.Agrees v → f w = f v) : Reads (get >>= f) := by
  refine ⟨Matches.get_bind fun w v h ↦ ?_, fun w ↦ ?_⟩
  · rw [hsame h]
    exact (hf v).onlyLogs
  · rw [run_bind, run_get]
    exact (hf w).agrees w

theorem tryCatch {f : Failure → Action α} (ha : Reads a) (hf : ∀ e, Reads (f e)) :
    Reads (MonadExcept.tryCatch a f) := by
  refine ⟨ha.onlyLogs.tryCatch fun e ↦ (hf e).onlyLogs, fun w ↦ ?_⟩
  have hw := ha.agrees w
  rw [run_tryCatch]
  generalize a.run w = p at *
  obtain ⟨r, v⟩ := p
  cases r with
  | ok x => exact hw
  | error e => exact ((hf e).agrees v).trans hw

theorem inspect (why : SysError → Failure) (look : Files → Except SysError α) :
    Reads (inspect why look) := by
  refine files.bind fun f ↦ ?_
  cases look f with
  | ok x => exact pure x
  | error e => exact throw (why e)

theorem fst_eq (ha : Reads a) (h : w.Agrees v) : (a.run w).1 = (a.run v).1 :=
  (ha.onlyLogs h).result

theorem run_eq (ha : Reads a) (w : World) :
    ∃ logs, (∀ n ∈ logs, Notice.IsLog n) ∧
      a.run w = ((a.run w).1, { w with notices := w.notices ++ logs }) := by
  obtain ⟨-, -, logs, -, hlogs, -, -, hall⟩ := ha.onlyLogs (.refl w)
  refine ⟨logs, hall, Prod.ext rfl ?_⟩
  rw [(ha.agrees w).eq_withNotices, hlogs]

/-- Results of actions that only look are put together as if each of them came first. -/
theorem fst_bind {f : α → Action β} (ha : Reads a) (hf : ∀ x, Reads (f x)) (w : World) :
    ((a >>= f).run w).1 = (a.run w).1 >>= fun x ↦ ((f x).run w).1 := by
  have hw := ha.agrees w
  rw [run_bind]
  generalize a.run w = p at *
  obtain ⟨r, v⟩ := p
  cases r with
  | ok x => exact (hf x).fst_eq hw
  | error e => rfl

/-- What only looks leaves log lines to what comes after it. -/
theorem run_bind_ok (ha : Reads a) {x : α} (hx : (a.run w).1 = .ok x) (f : α → Action β) :
    ∃ logs, (∀ n ∈ logs, Notice.IsLog n) ∧
      (a >>= f).run w = (f x).run { w with notices := w.notices ++ logs } := by
  obtain ⟨logs, hlogs, hrun⟩ := ha.run_eq w
  refine ⟨logs, hlogs, ?_⟩
  rw [run_bind, hrun, hx]

end Reads

theorem onlyLogs_launch {l : Launcher} (hl : l.KeepsNotices)
    (why : String → SysError → Failure) (c : CommandLine) : OnlyLogs (launch l why c) := by
  rw [launch]
  refine (OnlyLogs.log _ _).bind fun _ ↦ ?_
  refine (Matches.lift (hl c)).bind fun r ↦ ?_
  split
  · exact .pure _
  · exact .throw _

end Action

end AmbientTypes
