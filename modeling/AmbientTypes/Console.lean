import AmbientTypes.Report.Call
import AmbientTypes.World

namespace AmbientTypes

/-- A run as it goes. -/
structure Console where
  world : World
  printed : Printed := {}

abbrev ConsoleAction := ExceptT Failure (StateM Console)

namespace ConsoleAction

def run {α : Type} (a : ConsoleAction α) (c : Console) : Except Failure α × Console :=
  StateT.run (ExceptT.run a) c

def cwd : ConsoleAction String :=
  return (← get).world.cwd

def print (q : Printed) : ConsoleAction Unit :=
  modify fun c ↦ { c with printed := c.printed ++ q }

end ConsoleAction

namespace Presentation

variable (p : Presentation)

def call (c : Reporter.Call) : ConsoleAction Unit :=
  .print (p.reporter.printCall p.terminal c)

def logging {α : Type} (a : Action α) : ConsoleAction α := fun c ↦
  let (r, w) := a.run { c.world with notices := [] }
  (r, { world := { w with notices := c.world.notices },
        printed := c.printed ++ p.printAll w.notices })

end Presentation

end AmbientTypes
