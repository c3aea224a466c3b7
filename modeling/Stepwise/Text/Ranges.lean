/-!
# Sets of characters given by their boundaries

A property of characters that a standard lists in a table is stored here as the increasing list of
code points at which it changes value.  It holds of a character when an odd number of those
boundaries lie at or below it, so `[0x30, 0x3a]` is the set of the ten digits.  The tables are those
of Unicode 17.
-/

set_option autoImplicit false

namespace Stepwise.Text

/-- Whether `c` lies in the set whose boundaries are `bounds`. -/
def inRanges (bounds : List Nat) (c : Char) : Bool :=
  bounds.countP (fun b => b ≤ c.toNat) % 2 == 1

end Stepwise.Text
