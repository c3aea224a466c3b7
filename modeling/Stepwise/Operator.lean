/-!
# Operators

The binary operators with the symbols by which a listing and a fault name them and their binding
strengths, and the unary and stepping operators.
-/

set_option autoImplicit false

namespace Stepwise

inductive BinaryOp where
  | add
  | sub
  | mul
  | div
  | mod
  | eq
  | ne
  | lt
  | le
  | gt
  | ge
  | and
  | or
  | bitAnd
  | bitOr
  | bitXor
  | shl
  | shr
deriving DecidableEq, Repr

namespace BinaryOp

def symbol : BinaryOp → String
  | add => "+"
  | sub => "-"
  | mul => "*"
  | div => "/"
  | mod => "%"
  | eq => "==="
  | ne => "!=="
  | lt => "<"
  | le => "<="
  | gt => ">"
  | ge => ">="
  | and => "&&"
  | or => "||"
  | bitAnd => "&"
  | bitOr => "|"
  | bitXor => "^"
  | shl => "<<"
  | shr => ">>"

/-- How tightly an operator binds; the higher, the tighter. -/
def precedence : BinaryOp → Nat
  | or => 1
  | and => 2
  | bitOr => 3
  | bitXor => 4
  | bitAnd => 5
  | eq | ne => 6
  | lt | le | gt | ge => 7
  | shl | shr => 8
  | add | sub => 9
  | mul | div | mod => 10

end BinaryOp

inductive UnaryOp where
  | neg
  | not
  | bitNot
deriving DecidableEq, Repr

def UnaryOp.symbol : UnaryOp → String
  | neg => "-"
  | not => "!"
  | bitNot => "~"

/-- Increment and decrement, before or after their operand. -/
inductive StepOp where
  | preInc
  | preDec
  | postInc
  | postDec
deriving DecidableEq, Repr

namespace StepOp

/-- The operator that a step applies to its operand and one. -/
def delta : StepOp → BinaryOp
  | preInc | postInc => .add
  | preDec | postDec => .sub

def isPost : StepOp → Bool
  | preInc | preDec => false
  | postInc | postDec => true

end StepOp

end Stepwise
