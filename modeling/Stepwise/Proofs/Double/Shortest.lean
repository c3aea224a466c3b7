import Mathlib
import Stepwise.Decimal.Shortest

/-!
# The shortest decimal of a double stands for it alone

The reals that round to a double fill an interval, and the decimal by which the double is shown is
taken from that interval.  So two doubles that are shown alike would have a real in common.  They
have none: neighbouring intervals share at most an end, and such an end belongs to that of the two
doubles whose mantissa is even.

* `Decimal.Rounds m q v` says that the real `v` rounds to `m · 2 ^ q`, and
  `Decimal.covers_iff` that this is what the search tests.
* `Decimal.rounds_shortest`: there is such a decimal with seventeen digits or less, since a step of
  the last of them is smaller than the interval.
* `Decimal.eq_of_rounds`: no real rounds to two doubles.
-/

set_option autoImplicit false

namespace Stepwise.Decimal

open Binary64

/-! ## Powers as fractions -/

theorem tenPow_pos (e : Int) : 0 < tenPow e := Nat.pow_pos (by decide)

theorem twoPow_pos (e : Int) : 0 < twoPow e := Nat.pow_pos (by decide)

theorem tenPow_div (e : Int) : (tenPow e : ℚ) / tenPow (-e) = 10 ^ e := by
  rcases Int.le_total 0 e with h | h
  · obtain ⟨n, rfl⟩ := Int.eq_ofNat_of_zero_le h
    simp [tenPow]
  · obtain ⟨n, hn⟩ := Int.eq_ofNat_of_zero_le (Int.neg_nonneg_of_nonpos h)
    obtain rfl : e = -n := by omega
    simp [tenPow]

theorem twoPow_div (e : Int) : (twoPow e : ℚ) / twoPow (-e) = 2 ^ e := by
  rcases Int.le_total 0 e with h | h
  · obtain ⟨n, rfl⟩ := Int.eq_ofNat_of_zero_le h
    simp [twoPow]
  · obtain ⟨n, hn⟩ := Int.eq_ofNat_of_zero_le (Int.neg_nonneg_of_nonpos h)
    obtain rfl : e = -n := by omega
    simp [twoPow]

/-! ## The interval of a double -/

/-- The number that a numeral stands for. -/
def Numeral.value (d : Numeral) : ℚ := d.digits * 10 ^ d.exponent

/-- Whether the next double below is nearer than the next one above. -/
def isNarrow (m : Nat) (q : Int) : Bool := m = leastNormal && q > -1074

/-- The lower end of the interval of `m · 2 ^ q`. -/
def lowEnd (m : Nat) (q : Int) : ℚ := (4 * m - if isNarrow m q then 1 else 2 : Nat) * 2 ^ (q - 2)

/-- The upper end of the interval of `m · 2 ^ q`. -/
def highEnd (m : Nat) (q : Int) : ℚ := (4 * m + 2 : Nat) * 2 ^ (q - 2)

/-- The real `v` rounds to `m · 2 ^ q`: it lies in the interval, and at an end of it only if `m` is
even. -/
structure Rounds (m : Nat) (q : Int) (v : ℚ) : Prop where
  low : lowEnd m q ≤ v
  high : v ≤ highEnd m q
  inside : m % 2 = 1 → lowEnd m q < v ∧ v < highEnd m q

section

variable {m : Nat} {q : Int}

theorem low_of (m : Nat) (q : Int) :
    ((Interval.of m q).low : ℚ) / (Interval.of m q).den = lowEnd m q := by
  have hpow : (twoPow (q - 2) : ℚ) / twoPow (2 - q) = 2 ^ (q - 2) := by
    rw [← Int.neg_sub q 2, twoPow_div]
  rw [lowEnd, ← hpow, ← mul_div_assoc, ← Nat.cast_mul]
  rfl

theorem high_of (m : Nat) (q : Int) :
    ((Interval.of m q).high : ℚ) / (Interval.of m q).den = highEnd m q := by
  have hpow : (twoPow (q - 2) : ℚ) / twoPow (2 - q) = 2 ^ (q - 2) := by
    rw [← Int.neg_sub q 2, twoPow_div]
  rw [highEnd, ← hpow, ← mul_div_assoc, ← Nat.cast_mul]
  rfl

theorem value_of (m : Nat) (q : Int) :
    ((Interval.of m q).value : ℚ) / (Interval.of m q).den = m * 2 ^ q := by
  have hpow : (twoPow (q - 2) : ℚ) / twoPow (2 - q) = 2 ^ (q - 2) := by
    rw [← Int.neg_sub q 2, twoPow_div]
  have hquarter : (4 * m * 2 ^ (q - 2) : ℚ) = m * 2 ^ q := by
    rw [zpow_sub₀ two_ne_zero]
    norm_num
    ring
  rw [← hquarter, ← hpow, ← mul_div_assoc]
  norm_cast

theorem den_pos (m : Nat) (q : Int) : 0 < (Interval.of m q).den := twoPow_pos _

/-- Fractions are compared by multiplying crosswise. -/
theorem fraction_le_iff {a b d t u : Nat} (hb : 0 < b) (hu : 0 < u) :
    (a : ℚ) / b ≤ d * (t / u) ↔ a * u ≤ d * t * b := by
  rw [← mul_div_assoc, div_le_div_iff₀ (by positivity) (by positivity)]
  norm_cast

theorem le_fraction_iff {a b d t u : Nat} (hb : 0 < b) (hu : 0 < u) :
    (d : ℚ) * (t / u) ≤ a / b ↔ d * t * b ≤ a * u := by
  rw [← mul_div_assoc, div_le_div_iff₀ (by positivity) (by positivity)]
  norm_cast

theorem fraction_lt_iff {a b d t u : Nat} (hb : 0 < b) (hu : 0 < u) :
    (a : ℚ) / b < d * (t / u) ↔ a * u < d * t * b := by
  rw [← not_le, ← not_le, le_fraction_iff hb hu]

theorem lt_fraction_iff {a b d t u : Nat} (hb : 0 < b) (hu : 0 < u) :
    (d : ℚ) * (t / u) < a / b ↔ d * t * b < a * u := by
  rw [← not_le, ← not_le, fraction_le_iff hb hu]

/-- What the search tests. -/
theorem covers_iff {grid : Int} {d : Nat} :
    (Interval.of m q).covers grid d = true ↔ Rounds m q (d * 10 ^ grid) := by
  have hden := den_pos m q
  have hten := tenPow_pos (-grid)
  have hlow := @fraction_le_iff (Interval.of m q).low _ d (tenPow grid) _ hden hten
  have hhigh := @le_fraction_iff (Interval.of m q).high _ d (tenPow grid) _ hden hten
  have hlow' := @fraction_lt_iff (Interval.of m q).low _ d (tenPow grid) _ hden hten
  have hhigh' := @lt_fraction_iff (Interval.of m q).high _ d (tenPow grid) _ hden hten
  rw [low_of, tenPow_div] at hlow hlow'
  rw [high_of, tenPow_div] at hhigh hhigh'
  have hclosed : (Interval.of m q).closed = decide (m % 2 = 0) := rfl
  rw [Interval.covers, hclosed]
  rcases Nat.mod_two_eq_zero_or_one m with hm | hm
  · simp only [hm, decide_true, if_true, Bool.and_eq_true, decide_eq_true_eq, ← hlow, ← hhigh]
    exact ⟨fun h => ⟨h.1, h.2, fun hodd => by omega⟩, fun h => ⟨h.low, h.high⟩⟩
  · simp only [hm, one_ne_zero, decide_false, Bool.false_eq_true, if_false, Bool.and_eq_true,
      decide_eq_true_eq, ← hlow', ← hhigh']
    exact ⟨fun h => ⟨h.1.le, h.2.le, fun _ => h⟩, fun h => h.inside hm⟩

end

/-! ## Seventeen digits suffice -/

section

variable {m : Nat} {q : Int} {u v w : ℚ}

/-- Between two reals that round to a double all others do. -/
theorem Rounds.between (hu : Rounds m q u) (hw : Rounds m q w) (huv : u ≤ v) (hvw : v ≤ w) :
    Rounds m q v where
  low := hu.low.trans huv
  high := hvw.trans hw.high
  inside hm := ⟨(hu.inside hm).1.trans_le huv, hvw.trans_lt (hw.inside hm).2⟩

theorem Rounds.of_inside (hlow : lowEnd m q < v) (hhigh : v < highEnd m q) : Rounds m q v :=
  ⟨hlow.le, hhigh.le, fun _ => ⟨hlow, hhigh⟩⟩

/-- A value in units of a quarter of its last bit. -/
theorem value_eq (m : Nat) (q : Int) : (m * 2 ^ q : ℚ) = (4 * m : Nat) * 2 ^ (q - 2) := by
  rw [zpow_sub₀ two_ne_zero]
  push_cast
  ring

/-- A double rounds to itself. -/
theorem rounds_self (hm : 0 < m) : Rounds m q (m * 2 ^ q) := by
  have hpow : (0 : ℚ) < 2 ^ (q - 2) := zpow_pos two_pos _
  rw [value_eq]
  refine .of_inside (mul_lt_mul_of_pos_right ?_ hpow) (mul_lt_mul_of_pos_right ?_ hpow) <;>
    rw [Nat.cast_lt] <;> (try split) <;> omega

theorem digitCount_pos {n : Nat} (hn : 0 < n) : 0 < digitCount n := by
  rw [digitCount, if_neg hn.ne']
  exact Nat.length_toDigits_pos

theorem lt_pow_digitCount (n : Nat) : n < 10 ^ digitCount n := by
  rw [digitCount]
  split
  · next hn => simp [hn]
  · exact (Nat.length_toDigits_le_iff (by decide) Nat.length_toDigits_pos).1 le_rfl

theorem pow_le_of_digitCount {n k : Nat} (hn : 0 < n) (h : digitCount n = k + 1) : 10 ^ k ≤ n := by
  rcases Nat.eq_zero_or_pos k with rfl | hk
  · exact hn
  · rw [digitCount, if_neg hn.ne'] at h
    exact Nat.not_lt.1 fun hlt =>
      absurd ((Nat.length_toDigits_le_iff (by decide) hk).2 hlt) (by omega)

/-- The decimal point stands after the first digit or further to the right. -/
theorem pow_pointPosition_le {num den : Nat} (hnum : 0 < num) (hden : 0 < den) :
    (10 : ℚ) ^ (pointPosition num den - 1) ≤ num / den := by
  have hden' : (0 : ℚ) < den := Nat.cast_pos.2 hden
  rw [pointPosition]
  split
  · next hle =>
    have hquotient : 0 < num / den := Nat.div_pos hle hden
    obtain ⟨k, hk⟩ := Nat.exists_eq_add_of_lt (digitCount_pos hquotient)
    rw [Nat.zero_add] at hk
    have hpow := pow_le_of_digitCount hquotient hk
    have hexponent : ((digitCount (num / den) : Nat) : Int) - 1 = k := by omega
    rw [hexponent, zpow_natCast, le_div_iff₀ hden']
    exact_mod_cast (Nat.mul_le_mul_right den hpow).trans (Nat.div_mul_le_self num den)
  · generalize hc : (den + num - 1) / num - 1 = c
    have hceil : den ≤ num * (c + 1) := by
      have hdiv := Nat.div_add_mod (den + num - 1) num
      have hmod := Nat.mod_lt (den + num - 1) hnum
      have hone : 1 ≤ (den + num - 1) / num := (Nat.one_le_div_iff hnum).2 (by omega)
      have hsucc : (den + num - 1) / num = c + 1 := by omega
      rw [hsucc] at hdiv
      omega
    have hpow : den ≤ num * 10 ^ digitCount c :=
      hceil.trans (Nat.mul_le_mul_left num (lt_pow_digitCount c))
    have hexponent : (1 - (digitCount c : Int)) - 1 = -(digitCount c : Int) := by omega
    rw [hexponent, zpow_neg, zpow_natCast, le_div_iff₀ hden', inv_mul_le_iff₀ (by positivity),
      mul_comm]
    exact_mod_cast hpow

/-- The number of whole steps of a grid in the value of a double. -/
def steps (m : Nat) (q grid : Int) : Nat :=
  (Interval.of m q).value * tenPow (-grid) / ((Interval.of m q).den * tenPow grid)

/-- The search tries both neighbours of the value, in one order or the other. -/
theorem neighbour?_cases (m : Nat) (q : Int) (tie : Tie) (grid : Int) :
    ∃ first second, (first = steps m q grid ∧ second = steps m q grid + 1 ∨
        first = steps m q grid + 1 ∧ second = steps m q grid) ∧
      (Interval.of m q).neighbour? tie grid
        = if (Interval.of m q).covers grid first then some ⟨first, grid⟩
          else if (Interval.of m q).covers grid second then some ⟨second, grid⟩
          else none := by
  have hprefer : ∃ above : Bool, (Interval.of m q).neighbour? tie grid
      = if (Interval.of m q).covers grid (if above then steps m q grid + 1 else steps m q grid) then
          some ⟨if above then steps m q grid + 1 else steps m q grid, grid⟩
        else if (Interval.of m q).covers grid (if above then steps m q grid else steps m q grid + 1)
          then some ⟨if above then steps m q grid else steps m q grid + 1, grid⟩
        else none := ⟨_, rfl⟩
  obtain ⟨above, heq⟩ := hprefer
  refine ⟨_, _, ?_, heq⟩
  cases above with
  | true => exact .inr ⟨rfl, rfl⟩
  | false => exact .inl ⟨rfl, rfl⟩

/-- The neighbour that the search finds lies in the interval. -/
theorem rounds_neighbour? {tie : Tie} {grid : Int} {d : Numeral}
    (h : (Interval.of m q).neighbour? tie grid = some d) : Rounds m q d.value := by
  obtain ⟨first, second, -, heq⟩ := neighbour?_cases m q tie grid
  rw [heq] at h
  split at h
  · next hcovers =>
    obtain rfl := Option.some.inj h
    exact covers_iff.1 hcovers
  · split at h
    · next hcovers =>
      obtain rfl := Option.some.inj h
      exact covers_iff.1 hcovers
    · cases h

/-- Where the interval meets a grid, one of the two neighbours of the value is in the interval. -/
theorem isSome_neighbour? (tie : Tie) {grid : Int} {j : Nat} (hm : 0 < m)
    (hj : Rounds m q (j * 10 ^ grid)) : ((Interval.of m q).neighbour? tie grid).isSome = true := by
  have hstep : (0 : ℚ) < 10 ^ grid := zpow_pos (by norm_num) _
  have hself := rounds_self (q := q) hm
  have hfloor : ⌊(m * 2 ^ q : ℚ) / 10 ^ grid⌋₊ = steps m q grid := by
    rw [steps, ← Nat.floor_div_eq_div (K := ℚ), ← value_of, ← tenPow_div, Nat.cast_mul,
      Nat.cast_mul, div_div_div_eq]
  have hle : (steps m q grid * 10 ^ grid : ℚ) ≤ m * 2 ^ q := by
    rw [← le_div_iff₀ hstep, ← hfloor]
    exact Nat.floor_le (by positivity)
  have hlt : (m * 2 ^ q : ℚ) < (steps m q grid + 1 : Nat) * 10 ^ grid := by
    rw [← div_lt_iff₀ hstep, ← hfloor, Nat.cast_add, Nat.cast_one]
    exact Nat.lt_floor_add_one _
  have heither : (Interval.of m q).covers grid (steps m q grid) = true ∨
      (Interval.of m q).covers grid (steps m q grid + 1) = true := by
    rcases Nat.lt_or_ge (steps m q grid) j with hlarge | hsmall
    · refine .inr (covers_iff.2 (hself.between hj hlt.le ?_))
      exact mul_le_mul_of_nonneg_right (Nat.cast_le.2 hlarge) hstep.le
    · refine .inl (covers_iff.2 (hj.between hself ?_ hle))
      exact mul_le_mul_of_nonneg_right (Nat.cast_le.2 hsmall) hstep.le
  obtain ⟨first, second, horder, heq⟩ := neighbour?_cases m q tie grid
  rw [heq]
  split
  · rfl
  · next hfirst =>
    have hsecond : (Interval.of m q).covers grid second = true := by
      rcases horder with ⟨rfl, rfl⟩ | ⟨rfl, rfl⟩
      · exact heither.resolve_left hfirst
      · exact heither.resolve_right hfirst
    rw [if_pos hsecond]
    rfl

/-- A step of the seventeenth digit is smaller than the interval. -/
theorem step_lt (hm : 0 < m) (hlt : m < 2 ^ 53) :
    (10 : ℚ) ^ (pointPosition (Interval.of m q).value (Interval.of m q).den - 17)
      < highEnd m q - lowEnd m q := by
  have hunit : (0 : ℚ) < 2 ^ (q - 2) := zpow_pos two_pos _
  have hvalue : 0 < (Interval.of m q).value := Nat.mul_pos (by omega) (twoPow_pos _)
  have hpoint := pow_pointPosition_le hvalue (den_pos m q)
  generalize pointPosition (Interval.of m q).value (Interval.of m q).den = k at hpoint ⊢
  rw [value_of, value_eq] at hpoint
  have hshift : (10 : ℚ) ^ (k - 1) = 10 ^ (k - 17) * 10 ^ 16 := by
    rw [← zpow_natCast, ← zpow_add₀ (by norm_num)]
    congr 1
    push_cast
    ring
  rw [hshift] at hpoint
  -- the width in units of a quarter of the last bit, against the value in them
  have hwide :
      (4 * m : Nat) < ((4 * m + 2) - (4 * m - if isNarrow m q then 1 else 2)) * 10 ^ 16 := by
    split
    · next hnarrow =>
      rw [isNarrow, Bool.and_eq_true, decide_eq_true_eq] at hnarrow
      have hleast : m = 2 ^ 52 := hnarrow.1
      omega
    · omega
  have hsub : highEnd m q - lowEnd m q
      = ((4 * m + 2) - (4 * m - if isNarrow m q then 1 else 2) : Nat) * 2 ^ (q - 2) := by
    rw [highEnd, lowEnd, ← sub_mul, ← Nat.cast_sub (by omega)]
  rw [hsub]
  have hscaled : ((4 * m : Nat) : ℚ) * 2 ^ (q - 2)
      < ((4 * m + 2) - (4 * m - if isNarrow m q then 1 else 2) : Nat) * 2 ^ (q - 2) * 10 ^ 16 := by
    rw [mul_right_comm]
    exact mul_lt_mul_of_pos_right (by exact_mod_cast hwide) hunit
  exact lt_of_mul_lt_mul_right (hpoint.trans_lt hscaled) (by norm_num)

theorem exists_rounds (hm : 0 < m) (hlt : m < 2 ^ 53) :
    ∃ j : Nat, Rounds m q
      (j * 10 ^ (pointPosition (Interval.of m q).value (Interval.of m q).den - 17)) := by
  have hwidth := step_lt (q := q) hm hlt
  generalize pointPosition (Interval.of m q).value (Interval.of m q).den - 17 = grid at hwidth ⊢
  have hstep : (0 : ℚ) < 10 ^ grid := zpow_pos (by norm_num) _
  have hlow : 0 ≤ lowEnd m q := mul_nonneg (Nat.cast_nonneg _) (zpow_pos two_pos _).le
  have hfloor := Nat.floor_le (div_nonneg hlow hstep.le)
  have hnext := Nat.lt_floor_add_one (lowEnd m q / 10 ^ grid)
  rw [le_div_iff₀ hstep] at hfloor
  rw [div_lt_iff₀ hstep] at hnext
  refine ⟨⌊lowEnd m q / 10 ^ grid⌋₊ + 1, .of_inside ?_ ?_⟩
  · rwa [Nat.cast_add, Nat.cast_one]
  · rw [Nat.cast_add, Nat.cast_one, add_mul, one_mul]
    linarith

/-- Dropped zeros do not change the value. -/
theorem value_stripZeros (fuel : Nat) (d : Numeral) : (d.stripZeros fuel).value = d.value := by
  induction fuel generalizing d with
  | zero => rfl
  | succ fuel ih =>
    rw [Numeral.stripZeros]
    split
    · next hzero =>
      rw [Bool.and_eq_true, decide_eq_true_eq, decide_eq_true_eq] at hzero
      have hdigits : (d.digits : ℚ) = (d.digits / 10 : Nat) * 10 := by
        exact_mod_cast (Nat.div_mul_cancel (Nat.dvd_of_mod_eq_zero hzero.2)).symm
      rw [ih, Numeral.value, Numeral.value, hdigits, zpow_add_one₀ (by norm_num)]
      ring
    · rfl

/-- **The decimal of a double rounds to it.** -/
theorem rounds_shortest (tie : Tie) (hm : 0 < m) (hlt : m < 2 ^ 53) :
    Rounds m q (shortest tie m q).value := by
  obtain ⟨j, hj⟩ := exists_rounds (q := q) hm hlt
  rw [shortest, if_neg hm.ne']
  simp only
  generalize pointPosition (Interval.of m q).value (Interval.of m q).den = k at hj ⊢
  have hfound : ((List.range 17).findSome? fun n =>
      (Interval.of m q).neighbour? tie (k - (n + 1 : Nat))).isSome = true :=
    List.findSome?_isSome_iff.2 ⟨16, List.mem_range.2 (by decide), isSome_neighbour? tie hm hj⟩
  split
  · next d hd =>
    obtain ⟨n, -, hn⟩ := List.exists_of_findSome?_eq_some hd
    rw [value_stripZeros]
    exact rounds_neighbour? hn
  · next hnone =>
    rw [hnone] at hfound
    cases hfound

end

/-! ## One double for each real -/

/-- The form of a finite double: subnormal numbers have the least exponent, others a mantissa of 53
bits. -/
structure IsDouble (m : Nat) (q : Int) : Prop where
  least : -1074 ≤ q
  lt : m < 2 ^ 53
  normal : -1074 < q → 2 ^ 52 ≤ m

section

variable {m n : Nat} {q r : Int} {v : ℚ}

/-- The interval of a double ends before that of a greater one begins, and if there is nothing
between the two, one of the mantissas is odd. -/
theorem highEnd_le (hm : IsDouble m q) (hn : IsDouble n r) (h : q < r ∨ q = r ∧ m < n) :
    highEnd m q ≤ lowEnd n r ∧ (highEnd m q = lowEnd n r → m % 2 = 1 ∨ n % 2 = 1) := by
  have hunit : (0 : ℚ) < 2 ^ (q - 2) := zpow_pos two_pos _
  have hmlt := hm.lt
  rcases h with h | ⟨rfl, h⟩
  · obtain ⟨k, hk⟩ : ∃ k : Nat, r = q + (k + 1) := ⟨(r - q - 1).toNat, by omega⟩
    have hn52 := hn.normal (by have := hm.least; omega)
    have hscale : lowEnd n r
        = ((4 * n - if isNarrow n r then 1 else 2) * 2 ^ (k + 1) : Nat) * 2 ^ (q - 2) := by
      have hpow : (2 : ℚ) ^ (r - 2) = 2 ^ (k + 1) * 2 ^ (q - 2) := by
        rw [← zpow_natCast, ← zpow_add₀ two_ne_zero]
        congr 1
        push_cast
        omega
      rw [lowEnd, hpow, ← mul_assoc]
      push_cast
      rfl
    have hlow : 2 ^ 54 - 1 ≤ 4 * n - if isNarrow n r then 1 else 2 := by
      split
      · omega
      · next hwide =>
        rw [isNarrow, Bool.and_eq_true, decide_eq_true_eq, decide_eq_true_eq] at hwide
        have hne : n ≠ 2 ^ 52 := fun heq => hwide ⟨heq, by have := hm.least; omega⟩
        omega
    have hdouble : (2 ^ 54 - 1) * 2 ≤ (4 * n - if isNarrow n r then 1 else 2) * 2 ^ (k + 1) :=
      Nat.mul_le_mul hlow (Nat.le_self_pow (Nat.succ_ne_zero k) 2)
    rw [hscale, highEnd]
    generalize (4 * n - if isNarrow n r then 1 else 2) * 2 ^ (k + 1) = low at hdouble
    refine ⟨mul_le_mul_of_nonneg_right (Nat.cast_le.2 (by omega)) hunit.le, fun heq => ?_⟩
    have hends : 4 * m + 2 = low := by exact_mod_cast mul_right_cancel₀ hunit.ne' heq
    omega
  · have hwide : isNarrow n q = false := by
      rw [isNarrow, Bool.and_eq_false_iff, decide_eq_false_iff_not, decide_eq_false_iff_not]
      by_contra hnarrow
      rw [not_or, not_not, not_not] at hnarrow
      have hm52 := hm.normal hnarrow.2
      have hleast : n = 2 ^ 52 := hnarrow.1
      omega
    rw [highEnd, lowEnd, hwide]
    refine ⟨mul_le_mul_of_nonneg_right (Nat.cast_le.2 ?_) hunit.le, fun heq => ?_⟩
    · rw [if_neg Bool.false_ne_true]
      omega
    · have hends : 4 * m + 2 = 4 * n - 2 := by exact_mod_cast mul_right_cancel₀ hunit.ne' heq
      omega

/-- **No real rounds to two doubles.** -/
theorem eq_of_rounds (hm : IsDouble m q) (hn : IsDouble n r) (hv : Rounds m q v)
    (hv' : Rounds n r v) : m = n ∧ q = r := by
  have hless : ∀ {m n : Nat} {q r : Int}, IsDouble m q → IsDouble n r → Rounds m q v →
      Rounds n r v → ¬(q < r ∨ q = r ∧ m < n) := by
    intro m n q r hm hn hv hv' h
    obtain ⟨hle, hodd⟩ := highEnd_le hm hn h
    have heq := le_antisymm hle (hv'.low.trans hv.high)
    rcases hodd heq with hodd | hodd
    · exact absurd (hv.inside hodd).2 (not_lt.2 (heq.trans_le hv'.low))
    · exact absurd (hv'.inside hodd).1 (not_lt.2 (hv.high.trans_eq heq))
  have hbelow := hless hm hn hv hv'
  have habove := hless hn hm hv' hv
  omega

end

end Stepwise.Decimal
