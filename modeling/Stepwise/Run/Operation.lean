import Stepwise.Fault
import Stepwise.Value

/-!
# Operations on values

Integers stay integers and wrap at 64 bits; a double on either side makes an operation one on
doubles.  `+` joins texts if either side is one.  Comparisons of values without an order are false.
-/

set_option autoImplicit false

namespace Stepwise

/-- The fault of operands that an operator does not accept. -/
def BinaryOp.refuse (op : BinaryOp) (a b : Value) : Cause :=
  .mismatch (.operands op a.kind b.kind)

/-- The whole number that an integer or a truth value is. -/
def Value.whole? : Value → Option Int64
  | int n => some n
  | bool b => some (if b then 1 else 0)
  | _ => none

def BinaryOp.wholeArithmetic (op : BinaryOp) (a b : Int64) : Except Cause Int64 :=
  match op with
  | add => .ok (a + b)
  | sub => .ok (a - b)
  | mul => .ok (a * b)
  | div => if b = 0 then .error (.divisionByZero false) else .ok (a / b)
  | _ => if b = 0 then .error (.divisionByZero true) else .ok (a % b)

def BinaryOp.floatArithmetic (op : BinaryOp) (a b : Float) : Float :=
  match op with
  | add => a + b
  | sub => a - b
  | mul => a * b
  | div => a / b
  | _ => Binary64.remainder a b

/-- Arithmetic: on whole numbers if both sides are such, and else on doubles. -/
def BinaryOp.arithmetic (op : BinaryOp) (a b : Value) : Except Cause Value :=
  match a.whole?, b.whole? with
  | some m, some n => (op.wholeArithmetic m n).map Value.int
  | _, _ =>
    match a.number?, b.number? with
    | some x, some y => .ok (.float (op.floatArithmetic x y))
    | _, _ => .error (op.refuse a b)

/-- Operations on the bits of integers.  A shift counts modulo 64. -/
def BinaryOp.bitwise (op : BinaryOp) (a b : Value) : Except Cause Value :=
  match a.int?, b.int? with
  | some m, some n =>
    .ok (.int (match op with
      | bitAnd => m &&& n
      | bitOr => m ||| n
      | bitXor => m ^^^ n
      | shl => m <<< (n &&& 63)
      | _ => m >>> (n &&& 63)))
  | _, _ => .error (op.refuse a b)

def BinaryOp.apply (op : BinaryOp) (a b : Value) : Except Cause Value :=
  match op with
  | add =>
    match a, b with
    | .str s, _ => .ok (.str (s ++ b.text))
    | _, .str t => .ok (.str (a.text ++ t))
    | _, _ => arithmetic add a b
  | sub | mul | div | mod => op.arithmetic a b
  | eq => .ok (.bool (a.equals b))
  | ne => .ok (.bool !(a.equals b))
  | lt => .ok (.bool (a.compare? b == some .lt))
  | le => .ok (.bool (a.compare? b == some .lt || a.compare? b == some .eq))
  | gt => .ok (.bool (a.compare? b == some .gt))
  | ge => .ok (.bool (a.compare? b == some .gt || a.compare? b == some .eq))
  | and => .ok (.bool (a.isTruthy && b.isTruthy))
  | or => .ok (.bool (a.isTruthy || b.isTruthy))
  | bitAnd | bitOr | bitXor | shl | shr => op.bitwise a b

def UnaryOp.apply (op : UnaryOp) (v : Value) : Except Cause Value :=
  match op, v with
  | not, v => .ok (.bool !v.isTruthy)
  | neg, .float x => .ok (.float (-x))
  | neg, v =>
    match v.whole? with
    | some n => .ok (.int (-n))
    | none => .error (.mismatch (.operand v.kind))
  | bitNot, v =>
    if v.isNumeric then .ok (.int (~~~(v.int?.getD 0)))
    else .error (.mismatch (.operand v.kind))

end Stepwise
