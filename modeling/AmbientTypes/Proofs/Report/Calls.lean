import AmbientTypes.Proofs.Json.RoundTrip
import AmbientTypes.Proofs.Text.Split
import AmbientTypes.Report.Call
import Mathlib.Logic.Basic

namespace AmbientTypes

namespace Printed

theorem append_assoc (p q r : Printed) : p ++ q ++ r = p ++ (q ++ r) :=
  congrArg₂ Printed.mk String.append_assoc String.append_assoc

theorem nothing_append (p : Printed) : ({} : Printed) ++ p = p :=
  congrArg₂ Printed.mk String.empty_append String.empty_append

theorem append_nothing (p : Printed) : p ++ ({} : Printed) = p :=
  congrArg₂ Printed.mk String.append_empty String.append_empty

end Printed

namespace Reporter

open Json

def Call.event? : Call → Option Json
  | .event value => some value
  | .error message => some (errorEvent message)
  | _ => none

/-- What a quiet reporter shows of a call. -/
def shownQuietly? (r : Reporter) : Call → Option String
  | .status .error message | .spinner .error message _ | .error message =>
    some (r.shownLine .error message)
  | .block text => some text
  | _ => none

variable {r : Reporter} {terminal : Bool} {c : Call} {calls : List Call}

theorem stdout_printCalls_cons : (r.printCalls terminal (c :: calls)).stdout =
    (r.printCall terminal c).stdout ++ (r.printCalls terminal calls).stdout := rfl

theorem stderr_printCalls_cons : (r.printCalls terminal (c :: calls)).stderr =
    (r.printCall terminal c).stderr ++ (r.printCalls terminal calls).stderr := rfl

theorem printCall_spinner {l : Label} {message drawn : String} (h : r.animates terminal = false) :
    r.printCall terminal (.spinner l message drawn) = r.printLine l message := by
  rw [printCall, h]
  exact Printed.append_nothing _

theorem printCall_forMachines (h : r.forMachines = true) : r.printCall terminal c =
    match c.event? with
    | some value => { stdout := value.print ++ "\n" }
    | none => {} := by
  have ha : r.audience = .machines := of_decide_eq_true h
  have hstill : r.animates terminal = false := by rw [animates, ha]
  cases c with
  | spinner => simp [printCall_spinner hstill, printLine, Call.event?, h]
  | _ => simp [printCall, Call.report, Call.event?, print, printLine, printEvent, h]

theorem stderr_forMachines (h : r.forMachines = true) (calls : List Call) :
    (r.printCalls terminal calls).stderr = "" := by
  induction calls with
  | nil => rfl
  | cons c calls ih =>
    rw [stderr_printCalls_cons, ih, printCall_forMachines h]
    cases c.event? <;> rfl

theorem stdout_forMachines (h : r.forMachines = true) (calls : List Call) :
    (r.printCalls terminal calls).stdout.toList =
      ((calls.filterMap Call.event?).map (·.print.toList)).flatMap (· ++ ['\n']) := by
  induction calls with
  | nil => rfl
  | cons c calls ih =>
    rw [stdout_printCalls_cons, String.toList_append, ih, printCall_forMachines h,
      List.filterMap_cons]
    cases c.event? <;> simp

theorem isPlain_errorEvent (message : String) : IsPlain (errorEvent message) := by
  refine .object (by simp [Keyed]) (List.forall_mem_cons.2 ⟨.string _, ?_⟩)
  exact List.forall_mem_singleton.2 (.string message)

theorem isPlain_of_event? {value : Json}
    (hplain : ∀ value, Call.event value ∈ calls → IsPlain value)
    (h : value ∈ calls.filterMap Call.event?) : IsPlain value := by
  obtain ⟨c, hc, hvalue⟩ := List.mem_filterMap.1 h
  cases c with
  | event value' => exact Option.some.inj hvalue ▸ hplain value' hc
  | error message => exact Option.some.inj hvalue ▸ isPlain_errorEvent message
  | _ => cases hvalue

theorem stdout_printCall_forPeople (h : r.forMachines = false) :
    (r.printCall terminal c).stdout = "" := by
  have hline (l : Label) (message : String) : (r.printLine l message).stdout = "" := by
    rw [printLine]
    repeat' split
    all_goals rfl
  cases c with
  | status | warn => exact hline _ _
  | block | error | event => simp [printCall, Call.report, print, printEvent, h, hline]
  | spinner l message drawn =>
    cases hmoves : r.animates terminal with
    | false =>
      rw [printCall_spinner hmoves]
      exact hline l message
    | true =>
      rw [printCall, hmoves]
      exact (String.append_empty).trans (hline l message)

theorem stdout_forPeople (h : r.forMachines = false) (calls : List Call) :
    (r.printCalls terminal calls).stdout = "" := by
  induction calls with
  | nil => rfl
  | cons c calls ih => rw [stdout_printCalls_cons, ih, stdout_printCall_forPeople h]; rfl

theorem audience_of_isQuiet (h : r.isQuiet = true) :
    ∃ color, r.audience = .people .quiet color := by
  unfold isQuiet at h
  split at h
  · next color ha => exact ⟨color, ha⟩
  · cases h

theorem stderr_printCall_quietly (h : r.isQuiet = true) :
    (r.printCall terminal c).stderr = (r.shownQuietly? c).getD "" := by
  obtain ⟨color, ha⟩ := audience_of_isQuiet h
  have hpeople : r.forMachines = false := by simp [forMachines, ha]
  have hstill : r.animates terminal = false := by rw [animates, ha]
  have hline (l : Label) (message : String) : (r.printLine l message).stderr =
      if l = .error then r.shownLine .error message else "" := by
    by_cases hl : l = .error
    · simp [printLine, hpeople, hl]
    · simp [printLine, hpeople, h, hl]
  cases c with
  | status l message =>
    exact (hline l message).trans (by cases l <;> rfl)
  | spinner l message drawn =>
    rw [printCall_spinner hstill]
    exact (hline l message).trans (by cases l <;> rfl)
  | warn | block | error | event =>
    simp [printCall, Call.report, print, printEvent, shownQuietly?, hpeople, hline]

theorem stderr_quietly (h : r.isQuiet = true) (calls : List Call) :
    (r.printCalls terminal calls).stderr = String.join (calls.filterMap r.shownQuietly?) := by
  induction calls with
  | nil => rfl
  | cons c calls ih =>
    rw [stderr_printCalls_cons, ih, stderr_printCall_quietly h, List.filterMap_cons]
    cases r.shownQuietly? c with
    | none => exact String.empty_append
    | some text => exact String.join_cons.symm

/-- For machines, standard output has one line for each event or error, in the order of the calls,
which reads back as it, and standard error has nothing. A reader has to go as deep as the event is
nested; that of the program, `parse`, reads back what is nested at most 127 deep. For people,
standard output has nothing, and where they want quiet standard error has the errors and the
blocks, in order. -/
theorem printCalls_streams (hplain : ∀ value, Call.event value ∈ calls → IsPlain value) :
    (r.forMachines = true →
      (r.printCalls terminal calls).stderr = "" ∧
      Text.splitAt '\n' (r.printCalls terminal calls).stdout.toList =
        (calls.filterMap Call.event?).map (·.print.toList) ++ [[]] ∧
      ∀ value ∈ calls.filterMap Call.event?, ∀ depth, nesting value ≤ depth →
        parseWithin depth value.print = .ok value) ∧
    (r.forMachines = false → (r.printCalls terminal calls).stdout = "") ∧
    (r.isQuiet = true → (r.printCalls terminal calls).stderr =
      String.join (calls.filterMap r.shownQuietly?)) := by
  refine ⟨fun h ↦ ⟨stderr_forMachines h calls, ?_, fun value hvalue depth hdepth ↦ ?_⟩,
    fun h ↦ stdout_forPeople h calls, fun h ↦ stderr_quietly h calls⟩
  · rw [stdout_forMachines h]
    refine Text.splitAt_flatMap fun p hp ↦ ?_
    obtain ⟨value, hvalue, rfl⟩ := List.mem_map.1 hp
    rw [Json.print, String.toList_ofList]
    exact newline_not_mem_chars (isPlain_of_event? hplain hvalue)
  · exact parseWithin_print (isPlain_of_event? hplain hvalue) hdepth

section Example

/-- An event with a value of every kind. -/
def countEvent : Json :=
  .object [("reason", "count"), ("left", .number (.integer (-1))),
    ("seen", .array [.null, .bool true, .string "\x01"])]

theorem isPlain_countEvent : IsPlain countEvent := by
  have hseen : IsPlain (.array [.null, .bool true, .string "\x01"]) := by
    refine .array (List.forall_mem_cons.2 ⟨.null, ?_⟩)
    exact List.forall_mem_cons.2 ⟨.bool true, List.forall_mem_singleton.2 (.string _)⟩
  refine .object (by simp [Keyed]) (List.forall_mem_cons.2 ⟨.string _, ?_⟩)
  exact List.forall_mem_cons.2
    ⟨.integer (by decide) (by decide), List.forall_mem_singleton.2 hseen⟩

def countCalls : List Call :=
  [.status .found "1", .error "\"a\"\nb", .warn "2", .event countEvent, .block "3\n",
    .spinner .compiling "4" "..."]

/-- A message over two lines is one line for machines. -/
theorem printCalls_streams_count :
    Text.splitAt '\n' (printCalls ⟨.machines, false⟩ true countCalls).stdout.toList =
        ["\x7b\"reason\":\"error\",\"message\":\"\\\"a\\\"\\nb\"\x7d".toList,
          countEvent.print.toList, []] ∧
      parse countEvent.print = .ok countEvent := by
  have hplain : ∀ value, Call.event value ∈ countCalls → IsPlain value := by
    intro value hvalue
    obtain rfl : value = countEvent := by simpa [countCalls] using hvalue
    exact isPlain_countEvent
  obtain ⟨-, hlines, hread⟩ :=
    (@printCalls_streams ⟨.machines, false⟩ true countCalls hplain).1 rfl
  refine ⟨hlines.trans ?_, ?_⟩
  · have hprinted : (errorEvent "\"a\"\nb").print =
        "\x7b\"reason\":\"error\",\"message\":\"\\\"a\\\"\\nb\"\x7d" := by
      decide +kernel
    rw [← hprinted]
    rfl
  · rw [← parseWithin_deepest]
    exact hread countEvent (by simp [countCalls, Call.event?]) deepest (by decide)

end Example

end Reporter

end AmbientTypes
