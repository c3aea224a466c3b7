import Stepwise.Binary64

/-!
# The shortest decimal of a double

Every finite double is shown by the fewest decimal digits that read back as the same number, and of
the decimals with that many digits by the nearest one.  The search is exact: a double
`m · 2 ^ q` stands for all reals that round to it, an interval whose ends belong to it when `m` is
even, and for one digit, two digits and so on the two neighbours of the number on that decimal grid
are tested against the interval.

Two such neighbours may be equally near.  Which of them is taken is a choice of the format, the
parameter `Tie`.
-/

set_option autoImplicit false

namespace Stepwise.Decimal

/-- Which of two equally near decimals is taken. -/
inductive Tie where
  | up
  | even
deriving DecidableEq, Repr

/-- The decimal number `digits · 10 ^ exponent`. -/
structure Numeral where
  digits : Nat
  exponent : Int
deriving DecidableEq, Repr

def tenPow (e : Int) : Nat := Nat.pow 10 e.toNat

/-- The number of decimal digits of `n`, none for zero. -/
def digitCount (n : Nat) : Nat :=
  if n = 0 then 0 else (Nat.toDigits 10 n).length

/-- The position of the decimal point: the `k` with `10 ^ (k - 1) ≤ num / den < 10 ^ k`. -/
def pointPosition (num den : Nat) : Int :=
  if den ≤ num then digitCount (num / den)
  else 1 - (digitCount ((den + num - 1) / num - 1) : Int)

/-- The reals that round to a double, as fractions of one denominator. -/
structure Interval where
  low : Nat
  value : Nat
  high : Nat
  den : Nat
  closed : Bool

/-- The interval of the reals nearest to `mantissa · 2 ^ exponent`.  Below a power of two the
doubles lie closer together, except for the least exponent. -/
def Interval.of (mantissa : Nat) (exponent : Int) : Interval :=
  let narrow := mantissa = Binary64.leastNormal && exponent > -1074
  let num := Binary64.twoPow (exponent - 2)
  { low := (4 * mantissa - if narrow then 1 else 2) * num
    value := 4 * mantissa * num
    high := (4 * mantissa + 2) * num
    den := Binary64.twoPow (2 - exponent)
    closed := mantissa % 2 = 0 }

/-- Whether the point `d · 10 ^ grid` lies in the interval. -/
def Interval.covers (i : Interval) (grid : Int) (d : Nat) : Bool :=
  let point := d * tenPow grid * i.den
  let low := i.low * tenPow (-grid)
  let high := i.high * tenPow (-grid)
  if i.closed then low ≤ point && point ≤ high else low < point && point < high

/-- The better of the two neighbours of the value on the grid `10 ^ grid`, if one of them lies in
the interval. -/
def Interval.neighbour? (tie : Tie) (i : Interval) (grid : Int) : Option Numeral :=
  let num := i.value * tenPow (-grid)
  let den := i.den * tenPow grid
  let below := num / den
  let twice := 2 * (num % den)
  let preferAbove :=
    if twice = den then tie = .up || below % 2 = 1 else den < twice
  let first := if preferAbove then below + 1 else below
  let second := if preferAbove then below else below + 1
  if i.covers grid first then some ⟨first, grid⟩
  else if i.covers grid second then some ⟨second, grid⟩
  else none

/-- Drop up to `fuel` trailing zeros. -/
def Numeral.stripZeros : Nat → Numeral → Numeral
  | 0, d => d
  | fuel + 1, d =>
    if d.digits ≠ 0 && d.digits % 10 = 0 then stripZeros fuel ⟨d.digits / 10, d.exponent + 1⟩
    else d

/-- The shortest decimal that reads back as `mantissa · 2 ^ exponent`.  Seventeen digits always
suffice. -/
def shortest (tie : Tie) (mantissa : Nat) (exponent : Int) : Numeral :=
  if mantissa = 0 then ⟨0, 0⟩
  else
    let i := Interval.of mantissa exponent
    let k := pointPosition i.value i.den
    match (List.range 17).findSome? fun n => i.neighbour? tie (k - (n + 1 : Nat)) with
    | some d => d.stripZeros 17
    | none => ⟨0, 0⟩

end Stepwise.Decimal
