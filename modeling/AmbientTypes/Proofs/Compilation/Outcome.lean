import AmbientTypes.Proofs.Compilation.Program
import AmbientTypes.Proofs.Tree.Removal

namespace AmbientTypes

variable {w w' : World}

namespace Text

def IsBlank (s : String) : Prop :=
  ∀ c ∈ s.toList, isBlank c = true

theorem trim_eq_nil {s : String} : trim s.toList = [] ↔ IsBlank s := by
  have htwice : trimStart (trimStart s.toList) = trimStart s.toList :=
    List.dropWhile_idempotent isBlank s.toList
  rw [trim, trimEnd_eq_nil, ← trimStart_eq_nil, htwice]
  exact trimStart_eq_nil

end Text

/-- What a file is discarded from is cleared, whether there was one or not. -/
theorem Storage.clears_of_discardFile {path : String} {b : Bool}
    (h : (discardFile path).run w = (.ok b, w')) :
    w.files.Clears path w'.files ∧ w' = { w with files := w'.files } := by
  rw [run_discardFile] at h
  cases hr : w.files.removeFile path with
  | ok g =>
    simp only [hr] at h
    obtain ⟨-, rfl⟩ := Prod.mk.inj h
    exact ⟨Files.clears_of_removeFile hr, rfl⟩
  | error e =>
    cases e with
    | notFound =>
      simp only [hr] at h
      obtain ⟨-, rfl⟩ := Prod.mk.inj h
      exact ⟨⟨Files.vacant_of_removeFile_notFound hr, .inl rfl⟩, rfl⟩
    | _ =>
      simp only [hr] at h
      cases h

namespace CompilerProgram

variable {launch : Launcher} {p : CompilerProgram} {j : CompileJob} {r : CompileResult}
  {path : String}

theorem clears_of_removeStale (h : (removeStale path).run w = (.ok (), w')) :
    ∃ f notices, w.files.Clears path f ∧ w' = { w with files := f, notices := notices } := by
  obtain ⟨b, v, hv, h⟩ := Action.run_bind_ok h
  obtain ⟨hclears, hw⟩ := Storage.clears_of_discardFile hv
  refine ⟨v.files, w'.notices, hclears, ?_⟩
  cases b <;>
  · obtain ⟨-, rfl⟩ := Prod.mk.inj h
    rw [hw]

theorem bundle_of_readBundle {bundle : Option String}
    (h : (readBundle path).run w = (.ok bundle, w')) :
    w' = w ∧ ∀ text, bundle = some text ↔ w.files.readText path = .ok text := by
  rw [run_readBundle] at h
  obtain ⟨hr, rfl⟩ := Prod.mk.inj h
  refine ⟨rfl, fun text ↦ ?_⟩
  by_cases hfile : w.files.isFile path = true
  · rw [if_pos hfile] at hr
    cases htext : w.files.readText path with
    | error e => simp [htext] at hr
    | ok text' =>
      obtain rfl : some text' = bundle := by simpa [htext] using hr
      simp
  · rw [if_neg hfile] at hr
    obtain rfl := Except.ok.inj hr
    simpa using fun htext ↦ hfile (Files.isFile_of_readText htext)

/-- The steps of a compilation that does not fail: the output file is cleared, the program runs, and
what it has printed and what it has left make the result. -/
theorem compile_ok (h : (p.compile launch j).run w = (.ok r, w')) :
    ∃ f notices o after, w.files.Clears j.outFile f ∧
      (launch (p.commandLine j)).run { w with files := f, notices := notices } = (.ok o, after) ∧
        w'.files = after.files ∧ r.succeeded = r.bundle.isSome ∧
          r.messages = messages j.directory o ∧
          ∀ text, r.bundle = some text ↔ after.files.readText j.outFile = .ok text := by
  rw [compile] at h
  obtain ⟨_, v, hstale, h⟩ := Action.run_bind_ok h
  obtain ⟨f, notices, hclears, rfl⟩ := clears_of_removeStale hstale
  obtain ⟨o, after, hlaunch, h⟩ := Action.run_bind_ok h
  rw [Action.run_log_bind] at h
  obtain ⟨bundle, v, hbundle, h⟩ := Action.run_bind_ok h
  obtain ⟨rfl, htext⟩ := bundle_of_readBundle hbundle
  rw [Action.run_pure] at h
  obtain ⟨hr, rfl⟩ := Prod.mk.inj h
  obtain rfl := Except.ok.inj hr
  rw [Action.run_launch] at hlaunch
  split at hlaunch
  · next o' v hv =>
    obtain ⟨ho, rfl⟩ := Prod.mk.inj hlaunch
    obtain rfl := Except.ok.inj ho
    exact ⟨f, _, o', v, hclears, hv, rfl, rfl, rfl, htext⟩
  · cases hlaunch

/-- What tells of a run: the messages that it printed or, where there are none, it failed and it
printed anything at all, one error with its output. -/
inductive TellsOf (o : ProcessOutput) (printed : List CompilerMessage) :
    List CompilerMessage → Prop
  | printed (h : printed ≠ [] ∨ o.succeeded = true ∨
      Text.IsBlank (Text.lenient o.stdout) ∧ Text.IsBlank (Text.lenient o.stderr)) :
      TellsOf o printed printed
  | stderr (hnone : printed = []) (hfailed : o.succeeded = false)
      (h : ¬ Text.IsBlank (Text.lenient o.stderr)) :
      TellsOf o printed [⟨none, none, none, 0, .error,
        String.ofList (Text.trim (Text.lenient o.stderr).toList)⟩]
  | stdout (hnone : printed = []) (hfailed : o.succeeded = false)
      (herr : Text.IsBlank (Text.lenient o.stderr)) (h : ¬ Text.IsBlank (Text.lenient o.stdout)) :
      TellsOf o printed [⟨none, none, none, 0, .error,
        String.ofList (Text.trim (Text.lenient o.stdout).toList)⟩]

theorem tellsOf_messages (directory : String) (o : ProcessOutput) :
    TellsOf o (readMessages directory o) (messages directory o) := by
  rw [messages]
  cases hprinted : readMessages directory o with
  | cons t ts => exact .printed (.inl (by simp))
  | nil =>
    by_cases hok : o.succeeded = true
    · simp only [crash?, hok, true_or, if_true]
      exact .printed (.inr (.inl hok))
    have hfailed : o.succeeded = false := Bool.eq_false_iff.2 hok
    by_cases herr : Text.IsBlank (Text.lenient o.stderr)
    · by_cases hout : Text.IsBlank (Text.lenient o.stdout)
      · simp only [crash?, Text.trim_eq_nil.2 herr, Text.trim_eq_nil.2 hout, or_true, if_true]
        exact .printed (.inr (.inr ⟨hout, herr⟩))
      · have hmessage : Text.trim (Text.lenient o.stdout).toList ≠ [] := Text.trim_eq_nil.not.2 hout
        simp only [crash?, Text.trim_eq_nil.2 herr, hok, hmessage, or_false, if_true]
        exact .stdout rfl hfailed herr hout
    · have hmessage : Text.trim (Text.lenient o.stderr).toList ≠ [] := Text.trim_eq_nil.not.2 herr
      simp only [crash?, hok, hmessage, or_false, if_false]
      exact .stderr rfl hfailed herr

theorem TellsOf.ne_nil {o : ProcessOutput} {printed messages : List CompilerMessage}
    (h : TellsOf o printed messages) (hfailed : o.succeeded = false)
    (hprinted : ¬ Text.IsBlank (Text.lenient o.stdout) ∨ ¬ Text.IsBlank (Text.lenient o.stderr)) :
    messages ≠ [] := by
  cases h with
  | printed hcase =>
    rcases hcase with hne | hok | ⟨hout, herr⟩
    · exact hne
    · rw [hfailed] at hok
      cases hok
    · rcases hprinted with hnot | hnot
      · exact absurd hout hnot
      · exact absurd herr hnot
  | stderr | stdout => simp

/-- A file that was not there before a run, with a text that is there after it. -/
structure Wrote (f : Files) (path text : String) (g : Files) : Prop where
  vacant : f.Vacant path
  text : g.readText path = .ok text

section Example

def crashing : Launcher := fun _ w ↦ (.ok ⟨some 1, .empty, " out of memory\n".toUTF8⟩, w)

def staleJob : CompileJob := ⟨[], ".", "shop.d.ts", {}⟩

def staleWorld : World where
  files :=
    { tree := .folder [("shop.d.ts", .file ⟨"declare module \"old\" \x7b\x7d".toUTF8, none⟩)] }

end Example

end CompilerProgram

end AmbientTypes
