import Stepwise.Command
import Stepwise.Operator

/-!
# Faults

A `Fault` is the reason why a run stopped early, with the source line it is attributed to.  `Cause`
lists the reasons; `Fault.message` is the only place where they are put into words, and
`Fault.kind` sorts them into the three classes that a caller distinguishes.  `Stop` lists everything
by which an operation or a run can end early, crashes included.
-/

set_option autoImplicit false

namespace Stepwise

inductive FaultKind where
  /-- A statement that could not be understood was reached. -/
  | malformed
  /-- Well-formed code went wrong. -/
  | runtime
  /-- A limit of the run was exceeded. -/
  | bounded
deriving DecidableEq, Repr

def FaultKind.label : FaultKind → String
  | malformed => "malformed"
  | runtime => "runtime"
  | bounded => "bounded-execution"

/-- A value of the wrong kind; the kinds of the offending values are given by name. -/
inductive Mismatch where
  /-- A handle to no container. -/
  | dangling
  /-- An element of a container that is not an array. -/
  | notIndexable (target : Target) (name : String)
  /-- A value that an array cannot hold. -/
  | notStorable (kind array : String)
  /-- An argument that a container cannot hold. -/
  | badArgument (method kind : String)
  /-- A method of a value that is not a container. -/
  | noMethod (kind method : String)
  /-- A member that cannot be read. -/
  | noMember (kind member : String)
  /-- A step of a value that is not a number. -/
  | notSteppable (kind : String)
  /-- An assignment into an element of a value that is not a container. -/
  | notAssignable (kind : String)
  /-- An element of a value that has none. -/
  | noElements (kind : String)
  /-- Operands that a binary operator does not accept. -/
  | operands (op : BinaryOp) (left right : String)
  /-- An operand that a unary operator does not accept. -/
  | operand (kind : String)
deriving DecidableEq, Repr

def Mismatch.message : Mismatch → String
  | dangling => "reference to a container that does not exist"
  | notIndexable target name => target.label ++ " '" ++ name ++ "' cannot be indexed"
  | notStorable kind array => "cannot store " ++ kind ++ " in array '" ++ array ++ "'"
  | badArgument method kind =>
    method ++ "() expects a number, string or boolean, got " ++ kind
  | noMethod kind method => kind ++ " has no method '" ++ method ++ "'"
  | noMember kind member => kind ++ " has no member '" ++ member ++ "'"
  | notSteppable kind => "cannot increment or decrement " ++ kind
  | notAssignable kind => "cannot assign into an element of " ++ kind
  | noElements kind => "cannot index " ++ kind
  | operands op left right =>
    "unsupported operands for '" ++ op.symbol ++ "': " ++ left ++ " and " ++ right
  | operand kind => "cannot apply unary operator to " ++ kind

/-- A jump that needs a loop around it. -/
inductive Jump where
  | «break»
  | «continue»
deriving DecidableEq, Repr

def Jump.keyword : Jump → String
  | .break => "break"
  | .continue => "continue"

/-- Why a run stopped early. -/
inductive Cause where
  /-- A statement that could not be understood, with the column where reading it failed. -/
  | malformed (message : String) (column : Nat)
  | undefinedVariable (name : String)
  | undefinedFunction (name : String)
  | mismatch (what : Mismatch)
  | unsupportedMethod (target : Target) (method : String)
  | argumentCount (function : String) (expected got : Nat)
  /-- An assignment to a name that denotes a container. -/
  | constantAssignment (name : String)
  /-- An assignment to something that is neither a variable nor an element. -/
  | invalidTarget
  /-- A whole-number division by zero, or its remainder. -/
  | divisionByZero (modulo : Bool)
  /-- An array size that is no index. -/
  | invalidSize (text : String)
  /-- A jump with no loop around it. -/
  | strayJump (jump : Jump)
  | callDepth (limit : UInt64)
  | iterations (limit : UInt64)
deriving DecidableEq, Repr

/-- The reason why a run stopped early, and the source line it is attributed to. -/
structure Fault where
  cause : Cause
  line : Nat
deriving DecidableEq, Repr

namespace Fault

/-- The class of a fault. -/
def kind (f : Fault) : FaultKind :=
  match f.cause with
  | .malformed .. => .malformed
  | .callDepth _ | .iterations _ => .bounded
  | _ => .runtime

def message (f : Fault) : String :=
  let atLine := " at line " ++ toString f.line
  match f.cause with
  | .malformed message column =>
    "Malformed source" ++ atLine ++ ", column " ++ toString column ++ ": " ++ message
  | .undefinedVariable name => "Undefined variable '" ++ name ++ "'" ++ atLine
  | .undefinedFunction name => "Undefined function '" ++ name ++ "'" ++ atLine
  | .mismatch what => "Type error" ++ atLine ++ ": " ++ what.message
  | .unsupportedMethod target method =>
    "A " ++ target.label ++ " has no method '" ++ method ++ "'" ++ atLine
  | .argumentCount function expected got =>
    "Function '" ++ function ++ "' expects " ++ toString expected
      ++ (if expected = 1 then " argument" else " arguments")
      ++ ", got " ++ toString got ++ atLine
  | .constantAssignment name => "Assignment to constant '" ++ name ++ "'" ++ atLine
  | .invalidTarget => "Invalid assignment target" ++ atLine
  | .divisionByZero modulo => (if modulo then "Modulo" else "Division") ++ " by zero" ++ atLine
  | .invalidSize text => "Invalid array size " ++ text ++ atLine
  | .strayJump jump => "'" ++ jump.keyword ++ "' outside of a loop" ++ atLine
  | .callDepth limit => "Call depth exceeded " ++ toString limit ++ atLine
  | .iterations limit =>
    "Loop iteration limit of " ++ toString limit ++ " exceeded" ++ atLine

end Fault

/-! ## Stops without a fault

A fault is part of an answer.  A crash is not: nothing is handed to the caller then. -/

/-- What the program itself breaks down on. -/
inductive Crash where
  /-- An array with more slots than an allocation can have. -/
  | capacity
  /-- One evaluation of a loop condition more than the counter of evaluations can hold.  Without
  overflow checks the counter starts from zero there instead, and the run goes on. -/
  | counter
deriving DecidableEq, Repr

/-- Why an operation or a run did not come to its end. -/
inductive Stop where
  | fault (f : Fault)
  | crash (c : Crash)
  /-- The run is not followed any further: a loop has had all the turns that were asked for. -/
  | unfinished
deriving DecidableEq, Repr

end Stepwise
