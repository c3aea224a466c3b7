import Stepwise.Binary64

/-!
# Reading decimals

A decimal is a run of digits, a fraction if there is a point, and a power of ten if there is an `e`.
The double it stands for is the nearest one, a tie going to the even one.
-/

set_option autoImplicit false

namespace Stepwise.Decimal

/-- The number that a run of decimal digits spells. -/
def ofDigits (digits : List Char) : Nat :=
  digits.foldl (fun n c => 10 * n + (c.toNat - '0'.toNat)) 0

/-- A power of ten beyond all doubles. -/
def beyond : Nat := Nat.pow 10 400

/-- The double nearest to `digits · 10 ^ exponent`.  A power of ten far outside the range of doubles
is recognised by the length of the digits, without computing it. -/
def nearest (negative : Bool) (digits : Nat) (exponent : Int) : Float :=
  let point := exponent + (Nat.toDigits 10 digits).length
  if digits = 0 || point < -400 then Binary64.nearest negative 0 1
  else if 400 < point then Binary64.nearest negative beyond 1
  else Binary64.nearest negative (digits * Nat.pow 10 exponent.toNat) (Nat.pow 10 (-exponent).toNat)

/-- The power of ten after `e`: a sign if there is one, and at least one digit. -/
def exponent? (cs : List Char) : Option Int :=
  let (negative, digits) :=
    match cs with
    | '-' :: rest => (true, rest)
    | '+' :: rest => (false, rest)
    | rest => (false, rest)
  if digits.isEmpty || !digits.all Char.isDigit then none
  else some (if negative then -(ofDigits digits : Int) else ofDigits digits)

/-- A decimal without a sign: digits, perhaps a point and digits, perhaps `e` and a power of ten. -/
def magnitude? (negative : Bool) (cs : List Char) : Option Float :=
  let whole := cs.takeWhile Char.isDigit
  let afterWhole := cs.dropWhile Char.isDigit
  let (fraction, rest) :=
    match afterWhole with
    | '.' :: tail => (tail.takeWhile Char.isDigit, tail.dropWhile Char.isDigit)
    | tail => ([], tail)
  let digits := whole ++ fraction
  if digits.isEmpty then none
  else
    let scaled (power : Int) := nearest negative (ofDigits digits) (power - fraction.length)
    match rest with
    | [] => some (scaled 0)
    | c :: tail => if c = 'e' || c = 'E' then (exponent? tail).map scaled else none

/-- Read the text of a double, special values included. -/
def read? (s : String) : Option Float :=
  if s = "NaN" then some (0.0 / 0.0)
  else
    let (negative, cs) :=
      match s.toList with
      | '-' :: rest => (true, rest)
      | rest => (false, rest)
    if cs = ['i', 'n', 'f'] then some (Binary64.nearest negative beyond 1)
    else magnitude? negative cs

end Stepwise.Decimal
