import AmbientTypes.Report.Reporter

namespace AmbientTypes.Reporter

inductive Call
  | status (l : Label) (message : String)
  | warn (message : String)
  | block (text : String)
  | error (message : String)
  | event (value : Json)
  | spinner (l : Label) (message drawn : String)

def Call.report : Call → Report
  | status l message | spinner l message _ => .line l message
  | warn message => .line .warning message
  | block text => .block text
  | error message => .error message
  | event value => .event value

variable (r : Reporter) (terminal : Bool)

/-- Animations are for people at a terminal who want neither less nor more than usual. -/
def animates : Bool :=
  match r.audience with
  | .people .normal _ => terminal
  | _ => false

def printCall (c : Call) : Printed :=
  match c with
  | .spinner _ _ drawn =>
    r.print c.report ++ if r.animates terminal then { stderr := drawn } else {}
  | _ => r.print c.report

def printCalls : List Call → Printed
  | [] => {}
  | c :: calls => r.printCall terminal c ++ printCalls calls

end AmbientTypes.Reporter
