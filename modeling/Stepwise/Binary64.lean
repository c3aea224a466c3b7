/-!
# Double-precision numbers as exact fractions

A finite double is `±m · 2^q` for natural `m` and integer `q`.  This file goes both ways between
that form and the 64 bits, and computes the remainder of a division, which is exact.

* `Binary64.decode` takes a double apart.
* `Binary64.nearest` is the double nearest to a fraction, a tie going to the even one, and
  `Binary64.ofInt` the one nearest to an integer of 64 bits.
* `Binary64.remainder` is what is left of a dividend after a whole number of divisors, with the
  dividend's sign.
-/

set_option autoImplicit false

namespace Stepwise.Binary64

/-- The parts of a finite double: its sign, and its magnitude `mantissa · 2 ^ exponent`. -/
structure Parts where
  negative : Bool
  mantissa : Nat
  exponent : Int
deriving DecidableEq, Repr

def leastNormal : Nat := Nat.pow 2 52

def signBit : Nat := Nat.pow 2 63

/-- Take a finite double apart.  Subnormal numbers have the least exponent, normal ones a mantissa
of 53 bits. -/
def decode (x : Float) : Parts :=
  let bits : Nat := x.toBits.toNat
  let biased : Nat := bits / leastNormal % 2048
  let fraction : Nat := bits % leastNormal
  { negative := bits / signBit == 1
    mantissa := if biased = 0 then fraction else fraction + leastNormal
    exponent := if biased = 0 then -1074 else (biased : Int) - 1075 }

/-- `2 ^ e` for a positive `e`, and one otherwise: the numerator of `2 ^ e` as a fraction. -/
def twoPow (e : Int) : Nat := Nat.pow 2 e.toNat

/-- The quotient of two natural numbers rounded to the nearest, a tie to the even one. -/
def divNearest (num den : Nat) : Nat :=
  let quotient := num / den
  let twice := 2 * (num % den)
  if twice < den then quotient
  else if den < twice then quotient + 1
  else quotient + quotient % 2

/-- The exponent `e` with `2 ^ e ≤ num / den < 2 ^ (e + 1)`, for positive `num` and `den`. -/
def log2Ratio (num den : Nat) : Int :=
  let e : Int := (num.log2 : Int) - (den.log2 : Int)
  if den * twoPow e ≤ num * twoPow (-e) then e else e - 1

/-- The bits of the nonnegative double nearest to `num / den`. -/
def nearestBits (num den : Nat) : Nat :=
  if num = 0 then 0
  else
    let exponent := max (log2Ratio num den - 52) (-1074)
    let mantissa := divNearest (num * twoPow (-exponent)) (den * twoPow exponent)
    let bits :=
      if mantissa < leastNormal then mantissa
      else (exponent + 1074).toNat * leastNormal + mantissa
    min bits (2047 * leastNormal)

/-- The double nearest to `num / den`, with the given sign.  Beyond the largest double it is
infinite. -/
def nearest (negative : Bool) (num den : Nat) : Float :=
  Float.ofBits (UInt64.ofNat ((if negative then signBit else 0) + nearestBits num den))

/-- The double nearest to an integer, a tie going to the even one.  The magnitude of every integer
fits the unsigned type, that of the least one included. -/
def ofInt (n : Int64) : Float :=
  if n < 0 then -(-n).toUInt64.toFloat else n.toUInt64.toFloat

/-- What is left of `x` after taking `y` away a whole number of times, with the sign of `x`. -/
def remainder (x y : Float) : Float :=
  if !x.isFinite || y.isNaN || y == 0 then 0.0 / 0.0
  else if !y.isFinite then x
  else
    let a := decode x
    let b := decode y
    let least := min a.exponent b.exponent
    let left :=
      a.mantissa * twoPow (a.exponent - least) % (b.mantissa * twoPow (b.exponent - least))
    nearest a.negative (left * twoPow least) (twoPow (-least))

end Stepwise.Binary64
