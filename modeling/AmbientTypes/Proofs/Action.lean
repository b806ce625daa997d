import AmbientTypes.World

namespace AmbientTypes.Action

variable {α β : Type} {w w' : World}

@[simp] theorem run_pure (a : α) (w : World) : (pure a : Action α).run w = (.ok a, w) := rfl

@[simp] theorem run_throw (e : Failure) (w : World) :
    (throw e : Action α).run w = (.error e, w) := rfl

theorem run_bind_state {σ : Type} (a : ExceptT Failure (StateM σ) α)
    (f : α → ExceptT Failure (StateM σ) β) (s : σ) :
    StateT.run (ExceptT.run (a >>= f)) s =
      match StateT.run (ExceptT.run a) s with
      | (.ok x, s') => StateT.run (ExceptT.run (f x)) s'
      | (.error e, s') => (.error e, s') := by
  rw [ExceptT.run_bind, StateT.run_bind]
  change (match (StateT.run (ExceptT.run a) s : Id _) with | (r, s') => _) = _
  cases StateT.run (ExceptT.run a) s with
  | mk r s' => cases r <;> rfl

theorem run_bind (a : Action α) (f : α → Action β) (w : World) :
    (a >>= f).run w =
      match a.run w with
      | (.ok x, w') => (f x).run w'
      | (.error e, w') => (.error e, w') := by
  rw [run, run_bind_state, run]
  cases StateT.run (ExceptT.run a) w with
  | mk r w' => cases r <;> rfl

@[simp] theorem run_files (w : World) : files.run w = (.ok w.files, w) := rfl

@[simp] theorem run_get (w : World) : (get : Action World).run w = (.ok w, w) := rfl

@[simp] theorem run_setFiles (f : Files) (w : World) :
    (setFiles f).run w = (.ok (), { w with files := f }) := rfl

@[simp] theorem run_log (level : LogLevel) (message : String) (w : World) :
    (log level message).run w =
      (.ok (), { w with notices := w.notices ++ [.log level message] }) := rfl

theorem run_log_bind (level : LogLevel) (message : String) (f : Unit → Action α) (w : World) :
    (log level message >>= f).run w =
      (f ()).run { w with notices := w.notices ++ [.log level message] } := by
  rw [run_bind, run_log]

theorem run_tryCatch (a : Action α) (f : Failure → Action α) (w : World) :
    (tryCatch a f).run w =
      match a.run w with
      | (.ok x, w') => (.ok x, w')
      | (.error e, w') => (f e).run w' := by
  rw [run, ExceptT.run_tryCatch, StateT.run_bind]
  cases h : a.run w with
  | mk r w' =>
    have hr : StateT.run (ExceptT.run a) w = (r, w') := h
    rw [hr]
    cases r <;> rfl

theorem run_map (f : α → β) (a : Action α) (w : World) :
    (f <$> a).run w = ((a.run w).1.map f, (a.run w).2) := by
  rw [map_eq_pure_bind, run_bind]
  cases a.run w with
  | mk r v => cases r <;> rfl

theorem run_discard (a : Action α) (w : World) :
    (discard a).run w = ((a.run w).1.map fun _ ↦ (), (a.run w).2) := by
  rw [Functor.discard, map_const]
  exact run_map _ a w

theorem run_forM_log (level : LogLevel) (line : α → String) (xs : List α) (w : World) :
    (xs.forM fun x ↦ log level (line x)).run w =
      (.ok (), { w with notices := w.notices ++ xs.map fun x ↦ .log level (line x) }) := by
  induction xs generalizing w with
  | nil => simp [List.forM]
  | cons x xs ih =>
    rw [List.forM, run_log_bind, ih]
    simp

theorem run_lift (a : StateM World α) (w : World) :
    (liftM a : Action α).run w = (.ok (a.run w).1, (a.run w).2) := rfl

theorem run_inspect (why : SysError → Failure) (look : Files → Except SysError α) (w : World) :
    (inspect why look).run w =
      match look w.files with
      | .ok a => (.ok a, w)
      | .error e => (.error (why e), w) := by
  rw [inspect, run_bind, run_files]
  cases h : look w.files <;> simp [h]

theorem run_bind_ok {a : Action α} {f : α → Action β} {b : β}
    (h : (a >>= f).run w = (.ok b, w')) :
    ∃ x v, a.run w = (.ok x, v) ∧ (f x).run v = (.ok b, w') := by
  rw [run_bind] at h
  cases ha : a.run w with
  | mk r v =>
    rw [ha] at h
    cases r with
    | ok x => exact ⟨x, v, rfl, h⟩
    | error e => cases h

theorem run_bind_error {a : Action α} {f : α → Action β} {e : Failure}
    (h : (a >>= f).run w = (.error e, w')) :
    a.run w = (.error e, w') ∨ ∃ x v, a.run w = (.ok x, v) ∧ (f x).run v = (.error e, w') := by
  rw [run_bind] at h
  cases ha : a.run w with
  | mk r v =>
    rw [ha] at h
    cases r with
    | ok x => exact .inr ⟨x, v, rfl, h⟩
    | error e' =>
      obtain ⟨rfl, rfl⟩ : e' = e ∧ v = w' := by simpa using h
      exact .inl rfl

theorem run_eq_of_fst {a : Action α} {r : Except Failure α} (h : (a.run w).1 = r) :
    a.run w = (r, (a.run w).2) :=
  Prod.ext h rfl

def KeepsFiles (a : Action α) : Prop :=
  ∀ w, (a.run w).2.files = w.files

namespace KeepsFiles

theorem pure (a : α) : KeepsFiles (Pure.pure a : Action α) := fun _ ↦ rfl

theorem throw (e : Failure) : KeepsFiles (MonadExcept.throw e : Action α) := fun _ ↦ rfl

theorem files : KeepsFiles files := fun _ ↦ rfl

theorem log (level : LogLevel) (message : String) : KeepsFiles (log level message) := fun _ ↦ rfl

theorem bind {a : Action α} {f : α → Action β} (ha : KeepsFiles a) (hf : ∀ x, KeepsFiles (f x)) :
    KeepsFiles (a >>= f) := by
  intro w
  have hw := ha w
  rw [run_bind]
  cases h : a.run w with
  | mk r v =>
    rw [h] at hw
    cases r with
    | ok x => exact (hf x v).trans hw
    | error e => exact hw

theorem forM_log (level : LogLevel) (line : α → String) (xs : List α) :
    KeepsFiles (xs.forM fun x ↦ Action.log level (line x)) := by
  intro w
  rw [run_forM_log]

theorem inspect (why : SysError → Failure) (look : Files → Except SysError α) :
    KeepsFiles (inspect why look) := by
  intro w
  rw [run_inspect]
  cases look w.files <;> rfl

end KeepsFiles

def FailsOnly (P : Failure → Prop) (a : Action α) : Prop :=
  ∀ w w' e, a.run w = (.error e, w') → P e

namespace FailsOnly

variable {P : Failure → Prop} {a : Action α} {b : α → Action β}

theorem pure (x : α) : FailsOnly P (Pure.pure x : Action α) := by
  intro w w' e h
  cases h

theorem bind (ha : FailsOnly P a) (hb : ∀ x, FailsOnly P (b x)) : FailsOnly P (a >>= b) := by
  intro w w' e h
  rcases run_bind_error h with h | ⟨x, v, -, h⟩
  · exact ha w w' e h
  · exact hb x v w' e h

theorem log (level : LogLevel) (message : String) : FailsOnly P (log level message) := by
  intro w w' e h
  cases h

theorem files : FailsOnly P files := by
  intro w w' e h
  cases h

theorem get : FailsOnly P (get : Action World) := by
  intro w w' e h
  cases h

theorem tryCatch {f : Failure → Action α} (hf : ∀ e, FailsOnly P (f e)) :
    FailsOnly P (MonadExcept.tryCatch a f) := by
  intro w w' e h
  rw [run_tryCatch] at h
  generalize a.run w = p at h
  obtain ⟨r, v⟩ := p
  cases r with
  | ok x => cases h
  | error e' => exact hf e' v w' e h

theorem eq_ok (h : FailsOnly (fun _ ↦ False) a) (w : World) : ∃ x, (a.run w).1 = .ok x := by
  cases hr : (a.run w).1 with
  | ok x => exact ⟨x, rfl⟩
  | error e => exact (h w _ e (run_eq_of_fst hr)).elim

theorem setFiles (f : Files) : FailsOnly P (setFiles f) := by
  intro w w' e h
  cases h

theorem throw {e : Failure} (he : P e) : FailsOnly P (MonadExcept.throw e : Action α) := by
  intro w w' e' h
  obtain ⟨rfl, -⟩ : e = e' ∧ w = w' := by simpa using h
  exact he

theorem inspect {why : SysError → Failure} (hwhy : ∀ e, P (why e))
    (look : Files → Except SysError α) : FailsOnly P (inspect why look) := by
  intro w w' e h
  rw [run_inspect] at h
  cases hl : look w.files with
  | ok x => simp [hl] at h
  | error e' =>
    obtain ⟨rfl, -⟩ : why e' = e ∧ w = w' := by simpa [hl] using h
    exact hwhy e'

end FailsOnly

end AmbientTypes.Action
