import Stepwise.Location
import Stepwise.Fault
import Stepwise.Sequence
import Stepwise.Value

/-!
# Programs

The untyped form of a source text that is run and listed.  Types have gone, every statement is
preceded by a marker for the line it starts on, and every loop condition is wrapped in a `guard`,
the place where a run counts its iterations.  A statement that could not be understood is kept as
`malformed`; it does harm only if the run reaches it.
-/

set_option autoImplicit false

namespace Stepwise

/-- Why a piece of source could not be understood, and where. -/
structure ParseError where
  message : String
  location : Location
deriving DecidableEq, Repr

def ParseError.text (e : ParseError) : String :=
  "Parse error at line " ++ toString e.location.line ++ ", column " ++ toString e.location.column
    ++ ": " ++ e.message

/-- Literals. -/
inductive Literal where
  | int (n : Int64)
  | float (x : Float)
  | str (s : String)
  | bool (b : Bool)
  | null
deriving BEq, Repr

def Literal.value : Literal → Value
  | int n => .int n
  | float x => .float x
  | str s => .str s
  | bool b => .bool b
  | null => .null

/-- Expressions. -/
inductive Expr where
  | literal (value : Literal)
  | var (name : String)
  | assign (target value : Expr)
  /-- An assignment that combines the old value with a new one. -/
  | update (op : BinaryOp) (target value : Expr)
  | step (op : StepOp) (target : Expr)
  | binary (op : BinaryOp) (left right : Expr)
  | unary (op : UnaryOp) (operand : Expr)
  | ternary (condition thenValue elseValue : Expr)
  | call (name : String) (args : List Expr)
  | method (object : Expr) (name : String) (args : List Expr)
  | member (object : Expr) (name : String)
  | index (object index : Expr)
  /-- A loop condition: its evaluations are counted. -/
  | guard (condition : Expr)
deriving Repr, Inhabited

/-- A loop condition; a missing one always holds. -/
def Expr.guarded (condition : Option Expr) : Expr :=
  .guard (condition.getD (.literal (.bool true)))

/-- Statements. -/
inductive Stmt where
  /-- Commands recorded from here on cite this line. -/
  | line (line : SourceLine)
  | declare (name : String) (init : Option Expr)
  | construct (name : String) (kind : SequenceKind)
  /-- An array of the given size, or as long as its initial elements. -/
  | array (name : String) (size : Option Expr) (init : List Expr)
  | expr (e : Expr)
  | branch (condition : Expr) (thenBody : List Stmt)
  | branchElse (condition : Expr) (thenBody elseBody : List Stmt)
  | whileLoop (condition : Expr) (body : List Stmt)
  | doWhile (body : List Stmt) (condition : Expr)
  | forLoop (init : List Stmt) (condition : Expr) (increment : List Expr) (body : List Stmt)
  | block (body : List Stmt)
  | ret (value : Option Expr)
  | jump (jump : Jump)
  /-- A statement that could not be understood. -/
  | malformed (error : ParseError)
deriving Repr, Inhabited

/-- A function: its parameters have names only. -/
structure Function where
  name : String
  params : List String
  body : List Stmt
  location : Location
deriving Repr

/-- A program: its functions, of distinct names, and its top-level statements. -/
structure Program where
  functions : List Function := []
  body : List Stmt := []
  /-- The function whose call ends the body, if there is one. -/
  entry : Option String := none
deriving Repr

namespace Program

def function? (p : Program) (name : String) : Option Function :=
  p.functions.find? fun f => f.name == name

/-- Add a function, in place of an earlier one of the same name. -/
def define (p : Program) (f : Function) : Program :=
  { p with functions := (p.functions.filter fun g => g.name != f.name) ++ [f] }

end Program

end Stepwise
