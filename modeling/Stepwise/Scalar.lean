import Stepwise.Decimal.Format
import Stepwise.Text.Quoted

/-!
# Scalars

What a container can hold: an integer of 64 bits, a double, a text or a truth value.
-/

set_option autoImplicit false

namespace Stepwise

inductive Scalar where
  | int (n : Int64)
  | float (x : Float)
  | str (s : String)
  | bool (b : Bool)
deriving BEq, Repr

namespace Scalar

/-- Equality as used when a value is removed from a list: an integer agrees with the double of the
same value, and otherwise only scalars of one kind agree. -/
def agrees : Scalar → Scalar → Bool
  | int a, int b => a == b
  | int a, float b => Binary64.ofInt a == b
  | float a, int b => Binary64.ofInt b == a
  | float a, float b => a == b
  | str a, str b => a == b
  | bool a, bool b => a == b
  | _, _ => false

/-- The text of a scalar, a text being quoted. -/
def text : Scalar → String
  | int n => toString n.toInt
  | float x => Decimal.shown.write x
  | str s => Text.quoted s
  | bool b => if b then "true" else "false"

end Scalar

end Stepwise
