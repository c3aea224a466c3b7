import Stepwise.Program.Source
import Stepwise.Run.Execute

/-!
# Tracing

A trace runs a program to its end or to its first fault.  What was recorded up to then is kept, next
to the fault.
-/

set_option autoImplicit false

namespace Stepwise

inductive Outcome where
  | complete
  | faulted (f : Fault)
  /-- The program that was to run the other broke down itself. -/
  | crashed (c : Crash)
  /-- The run was not followed to its end. -/
  | unfinished
deriving DecidableEq, Repr

def Stop.outcome : Stop → Outcome
  | fault f => .faulted f
  | crash c => .crashed c
  | unfinished => .unfinished

/-- What a run recorded, and how it ended.  After a crash nobody gets to see what was recorded. -/
structure Execution where
  log : Log
  outcome : Outcome

namespace Execution

def fault? (e : Execution) : Option Fault :=
  match e.outcome with
  | .faulted f => some f
  | _ => none

/-- Whether the run came to its end. -/
def isComplete (e : Execution) : Bool :=
  e.outcome = .complete

end Execution

/-- The state in which a run starts. -/
def State.initial (settings : Settings) : State :=
  { recorder := { suppress := settings.suppressEmptyRemovals } }

/-- The horizon of a program that may evaluate loop conditions only so many times: one more turn
than that, for the evaluation that is refused. -/
def Settings.horizon (settings : Settings) : Horizon :=
  settings.within (settings.iterations.toNat + 1)

namespace Program

/-- Run a program, following it as far as the horizon. -/
def executeWithin (p : Program) (x : Horizon) : Execution :=
  match p.exec x (State.initial x) with
  | .ok _ s => { log := s.recorder.log, outcome := .complete }
  | .error e s => { log := s.recorder.log, outcome := e.outcome }

/-- Run a program whose loops are guarded: no loop of it takes more turns than the program may
evaluate loop conditions. -/
def execute (p : Program) (settings : Settings := {}) : Execution :=
  p.executeWithin settings.horizon

end Program

/-- Run the program of a source text. -/
def trace (source : String) (settings : Settings := {}) : Execution :=
  (Program.ofSource source).execute settings

end Stepwise
