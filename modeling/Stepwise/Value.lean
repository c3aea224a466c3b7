import Stepwise.Scalar

/-!
# Values of a running program

Besides the scalars, a running program computes with `null`, with `undefined`, which is what an
uninitialised variable or a missing element yields, and with handles to its containers.

The numeric views differ in what they admit.  `number?` is for arithmetic and comparison and counts
truth values as zero and one; `int?` is for bitwise operators and truncates doubles toward zero;
`index?` is for array elements and admits only whole numbers that are not negative.
-/

set_option autoImplicit false

namespace Stepwise

/-- A value of a running program. -/
inductive Value where
  | int (n : Int64)
  | float (x : Float)
  | str (s : String)
  | bool (b : Bool)
  | null
  | undefined
  /-- A handle to the container created after `id` others. -/
  | container (id : Nat)
deriving BEq, Repr, Inhabited

namespace Value

/-- The value of a scalar. -/
def ofScalar : Scalar → Value
  | .int n => int n
  | .float x => float x
  | .str s => str s
  | .bool b => bool b

/-- The value that stands for an item that may be missing. -/
def ofItem? : Option Scalar → Value
  | some s => ofScalar s
  | none => undefined

/-- Whether a condition with this value holds. -/
def isTruthy : Value → Bool
  | int n => n != 0
  | float x => x != 0 && !x.isNaN
  | str s => !s.isEmpty
  | bool b => b
  | null | undefined => false
  | container _ => true

/-- The scalar that a container would hold.  Infinite doubles and NaN are refused, because the wire
format has no way to write them. -/
def toScalar? : Value → Option Scalar
  | int n => some (.int n)
  | float x => if x.isFinite then some (.float x) else none
  | str s => some (.str s)
  | bool b => some (.bool b)
  | null | undefined | container _ => none

/-- The value as a double; truth values count as zero and one. -/
def number? : Value → Option Float
  | int n => some (Binary64.ofInt n)
  | float x => some x
  | bool b => some (if b then 1 else 0)
  | _ => none

/-- The value as an integer: doubles are cut toward zero and clamped to 64 bits. -/
def int? : Value → Option Int64
  | int n => some n
  | float x => if x.isFinite then some x.toInt64 else none
  | bool b => some (if b then 1 else 0)
  | _ => none

/-- The index that the value denotes, if it is a whole number that is not negative. -/
def index? : Value → Option UInt64
  | int n => if 0 ≤ n then some n.toUInt64 else none
  | float x =>
    if x.isFinite && 0 ≤ x && x.floor == x then some x.toUInt64 else none
  | _ => none

def isNumeric : Value → Bool
  | int _ | float _ | bool _ => true
  | _ => false

/-- The name of the value's kind in messages. -/
def kind : Value → String
  | int _ => "int"
  | float _ => "float"
  | str _ => "string"
  | bool _ => "bool"
  | null => "null"
  | undefined => "undefined"
  | container _ => "container"

/-- The name of the value's kind where it cannot be stored: a double that is not finite is named
with its text. -/
def elementKind : Value → String
  | float x => if x.isFinite then "float" else "non-finite float " ++ Decimal.shown.write x
  | v => v.kind

/-- Equality of a program: integers and doubles are compared as doubles, and otherwise only values
of one kind are equal. -/
def equals : Value → Value → Bool
  | int a, int b => Binary64.ofInt a == Binary64.ofInt b
  | int a, float b => Binary64.ofInt a == b
  | float a, int b => a == Binary64.ofInt b
  | float a, float b => a == b
  | str a, str b => a == b
  | bool a, bool b => a == b
  | null, null => true
  | undefined, undefined => true
  | container a, container b => a == b
  | _, _ => false

/-- The order of two doubles, if neither is NaN. -/
def compareFloats (a b : Float) : Option Ordering :=
  if a < b then some .lt
  else if b < a then some .gt
  else if a == b then some .eq
  else none

/-- The order of two values: texts by their characters, numbers by their size as doubles. -/
def compare? : Value → Value → Option Ordering
  | str a, str b => some (compare a b)
  | v, w =>
    match v.number?, w.number? with
    | some a, some b => compareFloats a b
    | _, _ => none

/-- The text of a value, a text being shown without quotation marks. -/
def text : Value → String
  | int n => toString n.toInt
  | float x => Decimal.shown.write x
  | str s => s
  | bool b => if b then "true" else "false"
  | null => "null"
  | undefined => "undefined"
  | container id => "<container #" ++ toString id ++ ">"

end Value

end Stepwise
