import Stepwise.Decimal.Shortest

/-!
# Texts of doubles

A double is written with its shortest digits, either in positional notation or with an exponent.
What differs from one place to another is collected in a `Format`: where positional notation ends,
whether a whole number keeps a fraction, how a positive exponent is marked, and which of two equally
near decimals is taken.
-/

set_option autoImplicit false

namespace Stepwise.Decimal

structure Format where
  /-- Which of two equally near decimals is taken. -/
  tie : Tie
  /-- Whether a number with its decimal point at this position is written positionally. -/
  positional : Int → Bool
  /-- What follows a whole number in positional notation. -/
  wholeSuffix : String
  /-- What precedes a positive exponent. -/
  exponentMark : String

/-- Digits with the point at `point`, counted from their left end. -/
def placePoint (wholeSuffix : String) (digits : List Char) (point : Int) : String :=
  let count : Int := digits.length
  if point ≤ 0 then
    "0." ++ String.ofList (List.replicate (-point).toNat '0' ++ digits)
  else if count ≤ point then
    String.ofList (digits ++ List.replicate (point - count).toNat '0') ++ wholeSuffix
  else
    String.ofList (digits.take point.toNat) ++ "." ++ String.ofList (digits.drop point.toNat)

/-- One digit before the point, then the power of ten. -/
def withExponent (mark : String) (digits : List Char) (point : Int) : String :=
  let power := point - 1
  let fraction := digits.drop 1
  String.ofList (digits.take 1)
    ++ (if fraction.isEmpty then "" else "." ++ String.ofList fraction)
    ++ "e" ++ (if power < 0 then "-" else mark) ++ toString power.natAbs

/-- The text of a finite magnitude. -/
def Format.magnitude (format : Format) (d : Numeral) : String :=
  if d.digits = 0 then "0" ++ format.wholeSuffix
  else
    let digits := Nat.toDigits 10 d.digits
    let point := d.exponent + digits.length
    if format.positional point then placePoint format.wholeSuffix digits point
    else withExponent format.exponentMark digits point

def Format.write (format : Format) (x : Float) : String :=
  if x.isNaN then "NaN"
  else
    let parts := Binary64.decode x
    let magnitude :=
      if x.isFinite then format.magnitude (shortest format.tie parts.mantissa parts.exponent)
      else "inf"
    if parts.negative then "-" ++ magnitude else magnitude

/-- Numbers shown to the reader: always positional, and a whole number has no fraction. -/
def shown : Format where
  tie := .up
  positional := fun _ => true
  wholeSuffix := ""
  exponentMark := ""

/-- Numbers in a program listing: a fraction always, and an exponent for those below a
ten-thousandth or from ten million milliards on. -/
def listed : Format where
  tie := .up
  positional := fun point => -3 ≤ point && point ≤ 16
  wholeSuffix := ".0"
  exponentMark := ""

/-- Numbers on the wire: like a listing, with a sign before every exponent, and positional down to a
hundred-thousandth. -/
def wired : Format where
  tie := .even
  positional := fun point => -4 ≤ point && point ≤ 16
  wholeSuffix := ".0"
  exponentMark := "+"

end Stepwise.Decimal
