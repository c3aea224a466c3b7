import Stepwise.CallStack
import Stepwise.Recorder

/-!
# The state of a run

A run reads and writes names, containers and commands, and counts the evaluations of loop
conditions.  The flow of control is part of its state as well: a `break`, `continue` or `return`
sets it, what is executed after that looks at it, and a loop or the end of a call sets it back.
-/

set_option autoImplicit false

namespace Stepwise

/-- Limits and options of a run. -/
structure Settings where
  /-- How many evaluations of loop conditions a run may make. -/
  iterations : UInt64 := 5000
  /-- How many calls may be under way at once. -/
  callDepth : UInt64 := 64
  /-- Whether removals from empty containers go unrecorded. -/
  suppressEmptyRemovals : Bool := false
deriving DecidableEq, Repr

/-- Where control goes after a statement. -/
inductive Flow where
  /-- To the statement after it. -/
  | normal
  /-- To the loop around it. -/
  | jump (j : Jump)
  /-- To the end of the call, or of the program. -/
  | ret (value : Value)

def Flow.isNormal : Flow → Bool
  | normal => true
  | _ => false

structure State where
  recorder : Recorder := {}
  stack : CallStack := {}
  flow : Flow := .normal
  /-- How many evaluations of loop conditions the run has made. -/
  guards : UInt64 := 0

/-- A step of a run. -/
abbrev Run := EStateM Stop State

namespace Run

variable {α : Type}

/-- Stop with a fault on the line that is being run. -/
def fail (cause : Cause) : Run α := do
  throw (.fault ((← get).recorder.fault cause))

/-- Go on with a result, or stop for what it says. -/
def ofStop : Except Stop α → Run α
  | .ok a => return a
  | .error e => throw e

/-- Go on with a result, or stop with its fault. -/
def ofFault (x : Except Fault α) : Run α :=
  ofStop (x.mapError Stop.fault)

/-- Go on with a result, or stop with its cause. -/
def ofCause : Except Cause α → Run α
  | .ok a => return a
  | .error c => fail c

def modifyRecorder (f : Recorder → Recorder) : Run Unit :=
  modify fun s => { s with recorder := f s.recorder }

def modifyStack (f : CallStack → CallStack) : Run Unit :=
  modify fun s => { s with stack := f s.stack }

/-- Mark the line that is being run. -/
def setLine (line : SourceLine) : Run Unit :=
  modifyRecorder fun r => r.setLine line

def currentLine : Run SourceLine :=
  return (← get).recorder.line

/-- Count an evaluation of a loop condition, and stop if it is one too many. -/
def countGuard (settings : Settings) : Run Unit := do
  let guards := (← get).guards + 1
  if guards = 0 then
    throw (.crash .counter)
  else
    modify fun s => { s with guards }
    if settings.iterations < guards then
      fail (.iterations settings.iterations)

/-! ## The flow of control -/

/-- Where control is to go. -/
def flow : Run Flow :=
  return (← get).flow

def setFlow (f : Flow) : Run Unit :=
  modify fun s => { s with flow := f }

/-! ## Names -/

/-- Declare a name. -/
def declare (name : String) (b : Binding) : Run Unit :=
  modifyStack fun s => s.declare name b

/-- The value of a name. -/
def read (name : String) : Run Value := do
  match (← get).stack.lookup name with
  | some b => return b.value
  | none => fail (.undefinedVariable name)

/-- Assign to a name. -/
def write (name : String) (value : Value) : Run Unit := do
  let s ← get
  match s.stack.lookup name with
  | none => fail (.undefinedVariable name)
  | some b =>
    if b.constant then
      fail (.constantAssignment name)
    else
      modifyStack fun stack => (stack.assign? name value).getD stack

/-- Run `m` in a scope of its own, which is left however `m` ends. -/
def inScope (m : Run α) : Run α := fun s =>
  match m { s with stack := s.stack.pushScope } with
  | .ok a s' => .ok a { s' with stack := s'.stack.popScope }
  | .error e s' => .error e { s' with stack := s'.stack.popScope }

/-- Run `m` in a frame for a call of `function`.  However `m` ends, the frame is left, and control
goes on normally; where it was to go is the result. -/
def inCall (function : String) (m : Run Unit) : Run Flow := fun s =>
  match m { s with stack := s.stack.pushFrame function } with
  | .ok _ s' => .ok s'.flow { s' with stack := s'.stack.popFrame, flow := .normal }
  | .error e s' => .error e { s' with stack := s'.stack.popFrame, flow := .normal }

/-! ## Containers -/

/-- Carry out an operation of the recorder. -/
def operate (f : Recorder → Except Stop α × Recorder) : Run α := do
  let result ← modifyGet fun s =>
    let (result, recorder) := f s.recorder
    (result, { s with recorder })
  ofStop result

def createSequence (kind : SequenceKind) (name : String) : Run Nat :=
  operate fun r =>
    let (id, r') := r.createSequence kind name
    (.ok id, r')

def createArray (name : String) (size : UInt64) (init : List Value) : Run Nat :=
  operate fun r => r.createArray name size init

def callContainer (id : Nat) (method : String) (args : List Value) : Run Value :=
  operate fun r =>
    let (result, r') := r.call id method args
    (result.mapError .fault, r')

def getElement (id : Nat) (index : Value) : Run Value := do
  ofFault ((← get).recorder.getElement id index)

def setElement (id : Nat) (index value : Value) : Run Unit :=
  operate fun r =>
    let (result, r') := r.setElement id index value
    (result.mapError .fault, r')

def arrayLength (id : Nat) : Run (Option Nat) :=
  return (← get).recorder.arrayLength? id

end Run

end Stepwise
