import Stepwise.Binary64
import Stepwise.Wire.Source

/-!
# Reading numbers

A JSON number is read into a significand of at most 64 bits and a power of ten.  Digits that no
longer fit are dropped, those before the point with a correction of the power.  A number without
fraction and exponent that fits is an integer.  Any other is the double that comes from multiplying
the significand by the power of ten, or from dividing by it, in double precision; it is refused if
it overflows.
-/

set_option autoImplicit false

namespace Stepwise.Wire.Reader

inductive Number where
  | natural (n : UInt64)
  | negative (n : Int64)
  | float (x : Float)

/-- Whether the next character is a digit. -/
def startsWithDigit (cs : List Char) : Bool :=
  cs.head?.any Char.isDigit

def digitValue (c : Char) : Nat := c.toNat - '0'.toNat

/-- Take digits into a number as long as it stays below `bound`; what is left starts with a digit if
that one did not fit. -/
def accumulate (bound n : Nat) : List Char → Nat × List Char
  | [] => (n, [])
  | c :: cs =>
    if c.isDigit && 10 * n + digitValue c < bound then accumulate bound (10 * n + digitValue c) cs
    else (n, c :: cs)

/-- The bound for significands. -/
def significandBound : Nat := Nat.pow 2 64

/-- The bound for exponents. -/
def exponentBound : Nat := Nat.pow 2 31

/-- Scale by a power of ten, in at most `fuel` steps of the greatest power that is a double. -/
def scale (x : Float) (power : Int) : Nat → Except WireError Float
  | 0 => .ok x
  | fuel + 1 =>
    if power.natAbs ≤ 308 then
      let factor := Binary64.nearest false (Nat.pow 10 power.natAbs) 1
      if 0 ≤ power then
        if (x * factor).isInf then .error .malformed else .ok (x * factor)
      else .ok (x / factor)
    else if x == 0 then .ok x
    else if 0 ≤ power then .error .malformed
    else scale (x / Binary64.nearest false (Nat.pow 10 308) 1) (power + 308) fuel

/-- The double with the given sign, significand and power of ten.  Four steps suffice, since fewer
reach zero. -/
def ofParts (negative : Bool) (significand : Nat) (power : Int) : Except WireError Float := do
  let x ← scale (Binary64.nearest false significand 1) power 4
  return if negative then -x else x

/-- The rest of a number after its `e`. -/
def exponentPart (negative : Bool) (significand : Nat) (power : Int) (cs : List Char) :
    Except WireError (Float × List Char) := do
  let (down, digits) :=
    match cs with
    | '+' :: rest => (false, rest)
    | '-' :: rest => (true, rest)
    | rest => (false, rest)
  match digits with
  | [] => .error .truncated
  | c :: _ =>
    if !c.isDigit then .error .malformed
    else
      let (n, rest) := accumulate exponentBound 0 digits
      if startsWithDigit rest then
        if significand ≠ 0 && !down then .error .malformed
        else return (if negative then -0.0 else 0.0, rest.dropWhile Char.isDigit)
      else
        let x ← ofParts negative significand (if down then power - n else power + n)
        return (x, rest)

/-- The rest of a number after its fraction. -/
def afterFraction (negative : Bool) (significand : Nat) (power : Int) (cs : List Char) :
    Except WireError (Float × List Char) :=
  match cs with
  | c :: rest =>
    if c = 'e' || c = 'E' then exponentPart negative significand power rest
    else do
      let x ← ofParts negative significand power
      return (x, cs)
  | [] => do
    let x ← ofParts negative significand power
    return (x, [])

/-- The rest of a number after its point. -/
def fractionPart (negative : Bool) (significand : Nat) (power : Int) (cs : List Char) :
    Except WireError (Float × List Char) :=
  let (n, rest) := accumulate significandBound significand cs
  let taken : Int := cs.length - rest.length
  if startsWithDigit rest then
    afterFraction negative n (power - taken) (rest.dropWhile Char.isDigit)
  else if taken = 0 then .error (if rest.isEmpty then .truncated else .malformed)
  else afterFraction negative n (power - taken) rest

/-- The rest of a number after the digits before the point, when some of them were dropped. -/
def afterLongInteger (negative : Bool) (significand : Nat) (power : Int) (cs : List Char) :
    Except WireError (Float × List Char) :=
  match cs with
  | '.' :: rest => fractionPart negative significand power rest
  | _ => afterFraction negative significand power cs

/-- The rest of a number after the digits before the point, when all of them fit. -/
def afterInteger (negative : Bool) (significand : Nat) (cs : List Char) :
    Except WireError (Number × List Char) :=
  let toFloat (r : Except WireError (Float × List Char)) := r.map fun (x, rest) => (.float x, rest)
  match cs.head? with
  | some '.' => toFloat (fractionPart negative significand 0 cs.tail)
  | some 'e' => toFloat (exponentPart negative significand 0 cs.tail)
  | some 'E' => toFloat (exponentPart negative significand 0 cs.tail)
  | _ =>
    if !negative then .ok (.natural (UInt64.ofNat significand), cs)
    else if 0 < significand && significand ≤ Nat.pow 2 63 then
      .ok (.negative (Int64.ofInt (-significand)), cs)
    else .ok (.float (Binary64.nearest true significand 1), cs)

/-- Read a number after its sign.  A zero at its beginning stands alone before the point. -/
def numberRest (negative : Bool) : Reader Number := ofFunction fun cs =>
  match cs with
  | [] => .error .truncated
  | c :: rest =>
    if c = '0' then
      if startsWithDigit rest then .error .malformed else afterInteger negative 0 rest
    else if !c.isDigit then .error .malformed
    else
      let (n, left) := accumulate significandBound 0 cs
      if startsWithDigit left then do
        let dropped := left.takeWhile Char.isDigit
        let (x, after) ←
          afterLongInteger negative n dropped.length (left.dropWhile Char.isDigit)
        return (.float x, after)
      else afterInteger negative n left

/-! ## Skipping -/

/-- What follows the exponent of a number that is only skipped, after its `e`. -/
def skipExponent (cs : List Char) : Except WireError (List Char) :=
  let digits :=
    match cs with
    | '+' :: rest => rest
    | '-' :: rest => rest
    | rest => rest
  if startsWithDigit digits then .ok (digits.dropWhile Char.isDigit) else .error .malformed

/-- What follows a number that is only skipped, after its fraction. -/
def skipAfterFraction (cs : List Char) : Except WireError (List Char) :=
  match cs with
  | c :: rest => if c = 'e' || c = 'E' then skipExponent rest else .ok cs
  | [] => .ok []

/-- What follows a number that is only skipped, after the digits before the point. -/
def skipAfterInteger (cs : List Char) : Except WireError (List Char) :=
  match cs with
  | '.' :: rest =>
    if startsWithDigit rest then skipAfterFraction (rest.dropWhile Char.isDigit)
    else .error .malformed
  | _ => skipAfterFraction cs

/-- Skip a number after its sign. -/
def skipNumber : Reader Unit := ofFunction fun cs => do
  let rest ←
    match cs with
    | '0' :: rest =>
      if startsWithDigit rest then .error .malformed else skipAfterInteger rest
    | _ =>
      if startsWithDigit cs then skipAfterInteger (cs.dropWhile Char.isDigit)
      else .error .malformed
  return ((), rest)

end Stepwise.Wire.Reader
