import AmbientTypes.Execution.Start
import AmbientTypes.Proofs.Notices

namespace AmbientTypes

namespace Script

/-- The same shell in a world with other notices. -/
def State.telling (s : State) (ns : List Notice) : State := { s with world.notices := ns }

def Outcome.telling (ns : List Notice) : Outcome → Outcome
  | .goesOn s => .goesOn (s.telling ns)
  | .ends s => .ends (s.telling ns)
  | .killed s => .killed (s.telling ns)

namespace State

variable (s : State) (ns : List Notice)

theorem emit_telling (sink : Sink) (bytes : ByteArray) :
    (s.telling ns).emit sink bytes = (s.emit sink bytes).telling ns := by
  cases sink <;> rfl

theorem finished_telling (streams : Streams) (status : Nat) (out : ByteArray) :
    (s.telling ns).finished streams status out = (s.finished streams status out).telling ns := by
  rw [finished, emit_telling]
  rfl

theorem complain_telling (streams : Streams) (line : Nat) (message : String) (status : Nat) :
    (s.telling ns).complain streams line message status =
      (s.complain streams line message status).telling ns := by
  rw [complain, emit_telling]
  rfl

theorem expandWord_telling : (s.telling ns).expandWord = s.expandWord := by
  have hpiece : (s.telling ns).expandPiece = s.expandPiece := by
    funext acc piece
    cases piece with
    | text t => rfl
    | parameter quoted name => cases quoted <;> rfl
  funext w
  rw [expandWord, hpiece]
  rfl

def tellingAll : Except State (State × Streams) → Except State (State × Streams)
  | .ok (s, streams) => .ok (s.telling ns, streams)
  | .error s => .error (s.telling ns)

theorem redirect_telling (line : Nat) (acc : Except State (State × Streams)) (r : Redirection) :
    redirect line (tellingAll ns acc) r = tellingAll ns (redirect line acc r) := by
  cases acc with
  | error s => rfl
  | ok p =>
    obtain ⟨s, streams⟩ := p
    cases r with
    | copy n m => rfl
    | file n append w =>
      have hfiles : (s.telling ns).world.files = s.world.files := rfl
      simp only [redirect, tellingAll, bind, Except.bind, expandWord_telling, hfiles]
      split
      · rfl
      · split
        · rw [complain_telling]
        · rfl

theorem foldl_redirect_telling (line : Nat) (rs : List Redirection)
    (acc : Except State (State × Streams)) :
    rs.foldl (redirect line) (tellingAll ns acc) =
      tellingAll ns (rs.foldl (redirect line) acc) := by
  induction rs generalizing acc with
  | nil => rfl
  | cons r rs ih => rw [List.foldl_cons, List.foldl_cons, redirect_telling, ih]

variable {launch : Launcher} (hl : launch.KeepsNotices)

include hl in
theorem external_telling (streams : Streams) (line : Nat) (name : String) (args : List String) :
    (s.telling ns).external launch streams line name args =
      (s.external launch streams line name args).telling ns := by
  have hrun := hl ⟨name, args, none⟩ s.world ns
  change (launch ⟨name, args, none⟩).run (s.telling ns).world = _ at hrun
  rw [external, external, hrun]
  generalize (launch ⟨name, args, none⟩).run s.world = p
  obtain ⟨r, w⟩ := p
  let t : State := { s with world := w }
  cases r with
  | ok o =>
    have hemit : ((t.telling ns).emit streams.one o.stdout).emit streams.two o.stderr =
        ((t.emit streams.one o.stdout).emit streams.two o.stderr).telling ns := by
      rw [emit_telling, emit_telling]
    exact congrArg (fun u : State ↦ { u with status := o.status.getD 137 }) hemit
  | error e => cases e <;> exact complain_telling t ns streams line _ _

theorem exitWith_telling (streams : Streams) (line : Nat) (text : String) :
    (s.telling ns).exitWith streams line text = .telling ns (s.exitWith streams line text) := by
  rw [exitWith, exitWith]
  split
  · rfl
  · rw [complain_telling]
    rfl

theorem changeDirectory_telling (streams : Streams) (line : Nat) (path : String) :
    (s.telling ns).changeDirectory streams line path =
      (s.changeDirectory streams line path).telling ns := by
  have hfiles : (s.telling ns).world.files = s.world.files := rfl
  rw [changeDirectory, changeDirectory, hfiles]
  split
  · rfl
  · rw [complain_telling]

include hl in
theorem runWords_telling (streams : Streams) (line : Nat) (words : List String) :
    (s.telling ns).runWords launch streams line words =
      .telling ns (s.runWords launch streams line words) := by
  unfold runWords
  split
  case h_3 => exact exitWith_telling s ns streams line _
  case h_4 =>
    rw [complain_telling]
    split <;> rfl
  case h_5 | h_6 | h_7 => exact congrArg Outcome.goesOn (finished_telling s ns streams 0 _)
  case h_8 => exact congrArg Outcome.goesOn (changeDirectory_telling s ns streams line _)
  case h_12 => exact congrArg Outcome.goesOn (external_telling s ns hl streams line _ _)
  all_goals rfl

include hl in
theorem runCommand_telling (c : Command) :
    (s.telling ns).runCommand launch c = .telling ns (s.runCommand launch c) := by
  have hsame := foldl_redirect_telling ns c.line c.redirections (.ok (s, {}))
  have hstart : tellingAll ns (.ok (s, {})) = .ok (s.telling ns, {}) := rfl
  rw [hstart] at hsame
  rw [runCommand, runCommand, hsame]
  cases c.redirections.foldl (redirect c.line) (.ok (s, {})) with
  | error t => rfl
  | ok p =>
    have hwords : (p.1.telling ns).expand c.words = p.1.expand c.words := by
      rw [expand, expand, expandWord_telling]
    simp only [tellingAll, hwords]
    exact runWords_telling p.1 ns hl p.2 c.line _

include hl in
theorem runAll_telling (cs : List Command) :
    runAll launch cs (s.telling ns) =
      ((runAll launch cs s).1, { (runAll launch cs s).2 with notices := ns }) := by
  induction cs generalizing s with
  | nil => rfl
  | cons c cs ih =>
    have hwants : (s.telling ns).wants c.condition = s.wants c.condition := by
      cases c.condition <;> rfl
    rw [runAll, runAll, hwants, runCommand_telling s ns hl]
    split
    · exact ih s
    · cases s.runCommand launch c with
      | goesOn t => exact ih t
      | ends t => rfl
      | killed t => rfl

end State

variable {launch : Launcher}

theorem keepsNotices_run (hl : launch.KeepsNotices) (name : String) (args : List String)
    (script : String) : KeepsNotices (run launch name args script) := by
  intro w ns
  let s : State := { world := w, name := name, arguments := args }
  unfold run
  cases commands? script with
  | none =>
    have h := s.complain_telling ns {} 1 "Syntax error: Unterminated quoted string" 2
    exact congrArg (fun t : State ↦ (t.output (some 2), t.world)) h
  | some cs => exact s.runAll_telling ns hl cs

end Script

namespace Execution

variable {launch : Launcher} (hl : launch.KeepsNotices)

theorem keepsNotices_runTool (l : Location) (emit : Option ByteArray) (o : ProcessOutput)
    (args : List String) : KeepsNotices (runTool l emit o args) := by
  intro w ns
  simp only [runTool, StateT.run]

include hl in
theorem keepsNotices_runShell (args : List String) : KeepsNotices (runShell launch args) := by
  unfold runShell
  split
  · exact .pure _
  · exact .pure _
  · exact Script.keepsNotices_run hl _ _ _
  · split
    · exact .pure _
    · refine .get_bind (fun w ↦ ?_) fun _ _ ↦ rfl
      split
      · split
        · exact keepsNotices_runTool _ _ _ _
        · exact Script.keepsNotices_run hl _ _ _
      · exact .pure _

include hl in
theorem keepsNotices_runProgram (l : Location) (args : List String) (p : Program) :
    KeepsNotices (runProgram launch l args p) := by
  cases p with
  | tool emit out err exit => exact keepsNotices_runTool l emit _ args
  | shell => exact keepsNotices_runShell hl args
  | cat => exact .get_bind (fun w ↦ .pure _) fun _ _ ↦ rfl
  | succeed => exact .pure _
  | fail => exact .pure _

theorem keepsNotices_runIn (here : Location) {run : StateM World ProcessOutput}
    (h : KeepsNotices run) : KeepsNotices (runIn here run) := by
  intro w ns
  have hrun := h { w with files.cwd := here } ns
  exact congrArg (fun p : ProcessOutput × World ↦ (p.1, { p.2 with files.cwd := w.files.cwd })) hrun

theorem keepsNotices_startWithin (depth : Nat) : (startWithin depth).KeepsNotices := by
  induction depth with
  | zero => exact fun _ ↦ .pure _
  | succ depth ih =>
    intro c
    refine .get_bind (fun w ↦ ?_) fun _ _ ↦ rfl
    split
    · exact .pure _
    · split
      · exact .pure _
      · split
        · exact .pure _
        · next l _ p _ =>
          exact (keepsNotices_runIn _ (keepsNotices_runProgram ih l c.arguments p)).map _

theorem keepsNotices_start : start.KeepsNotices := keepsNotices_startWithin deepest

end Execution

end AmbientTypes
