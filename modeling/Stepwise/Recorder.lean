import Stepwise.Container
import Stepwise.Location

/-!
# Recording

A `Recorder` owns the containers of a run and the commands recorded so far.  Containers are known by
handles, the numbers in which they were created.  An operation that changes a container appends one
command, which cites the line marked last.  Every operation says which recorder it leaves, also when
it fails: that is the one before it, except that the declaration of an array keeps what it has
already recorded when an initial element cannot be stored or when the array is too large.
-/

set_option autoImplicit false

namespace Stepwise

/-- The containers of a run, and what has been recorded of them. -/
structure Recorder where
  commands : Array Command := #[]
  /-- The line that is being run. -/
  line : SourceLine := {}
  /-- Whether removals from empty containers go unrecorded. -/
  suppress : Bool := false
  containers : Array Container := #[]

namespace Recorder

/-- A fault on the line that is being run. -/
def fault (r : Recorder) (cause : Cause) : Fault :=
  ⟨cause, r.line.number⟩

/-- Mark the line that is being run. -/
def setLine (r : Recorder) (line : SourceLine) : Recorder :=
  { r with line }

def append (r : Recorder) (c : Command) : Recorder :=
  { r with commands := r.commands.push c }

/-- Record a change of the container called `name`, if it is one that is recorded. -/
def record (r : Recorder) (target : Target) (name : String) : Option Change → Recorder
  | none => r
  | some change =>
    if change.idle && r.suppress then r
    else
      r.append
        { action := change.action, target, name, value := change.value, index := change.index,
          cited := r.line.text }

/-- Take in a new container; its handle is the number of those before it. -/
def allocate (r : Recorder) (c : Container) : Nat × Recorder :=
  (r.containers.size, { r with containers := r.containers.push c })

def createSequence (r : Recorder) (kind : SequenceKind) (name : String) : Nat × Recorder :=
  r.allocate { name, contents := .sequence kind [] }

/-- Write the initial elements of an array, from the given index on, recording each.  Stops at the
first that cannot be stored. -/
def fill (r : Recorder) (name : String) (a : Slots) (index : Nat) :
    List Value → Except Fault Slots × Recorder
  | [] => (.ok a, r)
  | v :: vs =>
    match a.set name (.int (Int64.ofNat index)) v with
    | .error cause => (.error (r.fault cause), r)
    | .ok (a', change) => (r.record .array name change).fill name a' (index + 1) vs

/-- Create an array: its declaration is recorded first, then the initial elements that fit. -/
def createArray (r : Recorder) (name : String) (size : UInt64) (init : List Value) :
    Except Stop Nat × Recorder :=
  let declared := r.append
    { action := .arrayDeclare, target := .array, name, size := some size, cited := r.line.text }
  match Slots.ofSize? size with
  | none => (.error (.crash .capacity), declared)
  | some empty =>
    match declared.fill name empty 0 (init.take size.toNat) with
    | (.error f, r') => (.error (.fault f), r')
    | (.ok a, r') =>
      let (id, r'') := r'.allocate { name, contents := .array a }
      (.ok id, r'')

/-- The container behind a handle. -/
def container? (r : Recorder) (id : Nat) : Option Container :=
  r.containers[id]?

/-- Put `c` behind the handle `id`. -/
def replace (r : Recorder) (id : Nat) (c : Container) : Recorder :=
  { r with containers := r.containers.set! id c }

/-- Call a method of a container. -/
def call (r : Recorder) (id : Nat) (method : String) (args : List Value) :
    Except Fault Value × Recorder :=
  match r.container? id with
  | none => (.error (r.fault (.mismatch .dangling)), r)
  | some c =>
    match c.call method args with
    | .error cause => (.error (r.fault cause), r)
    | .ok (value, c', change) => (.ok value, (r.replace id c').record c.target c.name change)

/-- The array behind a handle, with its name. -/
def array (r : Recorder) (id : Nat) : Except Fault (String × Slots) :=
  match r.container? id with
  | none => .error (r.fault (.mismatch .dangling))
  | some c =>
    match c.contents with
    | .array a => .ok (c.name, a)
    | .sequence kind _ => .error (r.fault (.mismatch (.notIndexable kind.target c.name)))

def getElement (r : Recorder) (id : Nat) (index : Value) : Except Fault Value := do
  let (_, a) ← r.array id
  return a.get index

def setElement (r : Recorder) (id : Nat) (index value : Value) : Except Fault Unit × Recorder :=
  match r.array id with
  | .error f => (.error f, r)
  | .ok (name, a) =>
    match a.set name index value with
    | .error cause => (.error (r.fault cause), r)
    | .ok (a', change) => (.ok (), (r.replace id ⟨name, .array a'⟩).record .array name change)

def arrayLength? (r : Recorder) (id : Nat) : Option Nat :=
  match r.array id with
  | .ok (_, a) => some a.slots.size
  | .error _ => none

/-- The commands recorded so far, in order. -/
def log (r : Recorder) : Log :=
  r.commands.toList

end Recorder

end Stepwise
