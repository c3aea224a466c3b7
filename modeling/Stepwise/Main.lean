import Stepwise.Demo
import Stepwise.Options
import Stepwise.Program.Listing
import Stepwise.Trace
import Stepwise.Viewer.Terminal
import Stepwise.Wire.Reader
import Stepwise.Wire.Writer

/-!
# The program

Reads the command line, traces a source file or opens a saved log, and prints or shows the outcome.
-/

set_option autoImplicit false

namespace Stepwise.Main

def usage : String :=
  "Usage: stepwise [FILE] [--dump | --lowered] [--replay LOG.json] [--ceiling N] "
    ++ "[--suppress-empty-removals] [--speed-ms MS]"

/-- Why a saved log could not be opened. -/
def wireMessage : Wire.WireError → String
  | .malformed => "the log is not well-formed JSON"
  | .mistyped => "the text is not a command log"
  | .truncated => "the log ends too early"

/-- Read a file, or say why it cannot be read. -/
def readText (path : String) : IO String := do
  try
    IO.FS.readFile path
  catch e =>
    throw (IO.userError ("cannot read '" ++ path ++ "': " ++ toString e))

/-- Show the viewer, reading a line of keys after each screen, until it is left. -/
partial def view (v : Viewer) : IO Unit := do
  let (screen, drawn) := v.draw 100 30
  let output ← IO.getStdout
  output.putStr (Terminal.screenText screen)
  output.flush
  if drawn.shouldQuit then
    return ()
  let line ← (← IO.getStdin).getLine
  if line.isEmpty then
    return ()
  let now ← IO.monoMsNow
  view ((Terminal.keys line).foldl (fun v key => v.turn (some key) now) drawn)

def viewLog (o : Options) (log : Log) (source : String) (fault : Option Fault) : IO Unit :=
  let timeline := Timeline.ofLog log
  let timed := match o.interval with
    | some interval => timeline.withInterval interval.toNat
    | none => timeline
  view (Viewer.ofTimeline timed source fault)

/-- Run a program, unless that breaks the run down. -/
def execute (o : Options) (program : Program) : IO Execution := do
  let execution := program.execute o.settings
  match execution.outcome with
  | .crashed .capacity => throw (IO.userError "capacity overflow")
  | .crashed .counter => throw (IO.userError "attempt to add with overflow")
  | _ => return execution

/-- Trace a source text and print or show the outcome. -/
def runSource (o : Options) (source : String) : IO Unit := do
  let program := Program.ofSource source
  match o.task with
  | .list => IO.print program.listing
  | .dump =>
    let execution ← execute o program
    IO.println (Wire.write execution.log)
    match execution.fault? with
    | some fault => IO.eprintln ("Execution stopped early: " ++ fault.message)
    | none => return ()
  | .view =>
    let execution ← execute o program
    viewLog o execution.log source execution.fault?

/-- Do what the command line asks for. -/
def run (o : Options) : IO Unit := do
  match o.origin with
  | .demo => runSource o demo
  | .source path => runSource o (← readText path)
  | .saved path =>
    match Wire.read (← readText path) with
    | .ok log => viewLog o log "" none
    | .error e => throw (IO.userError (wireMessage e))

end Stepwise.Main

def main (args : List String) : IO UInt32 := do
  match Stepwise.Options.read args with
  | .error message =>
    IO.eprintln ("error: " ++ message)
    IO.eprintln Stepwise.Main.usage
    return 2
  | .ok options =>
    try
      Stepwise.Main.run options
      return 0
    catch e =>
      IO.eprintln ("Error: " ++ toString e)
      return 1
