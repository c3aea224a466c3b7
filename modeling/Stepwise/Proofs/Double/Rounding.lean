import Mathlib.Algebra.Order.Ring.Int
import Mathlib.Order.Compare
import Stepwise.Binary64

/-!
# Integers rounded to the bits of a double

A double has 53 bits for its mantissa.  An integer with more bits loses the lowest ones, so two
different integers can have one nearest double.  `Binary64.Confuses` names such a pair, and
everything that depends on the conversion is stated with it.

* `Binary64.nearestInt` is the integer that the nearest double is.  Rounding keeps the order, up to
  the pairs that it confuses: `Binary64.compare_nearestInt`.
* `Binary64.Confuses.far` and `Binary64.Confuses.close` say where such pairs are: at `2 ^ 53` and
  beyond, and among the integers of 64 bits no further than 1024 apart.
-/

set_option autoImplicit false

namespace Stepwise.Binary64

variable {m n : Nat}

/-! ## Quotients -/

theorem div_le_divNearest (num den : Nat) : num / den ≤ divNearest num den := by
  unfold divNearest
  dsimp only
  split
  · exact le_rfl
  · split <;> omega

theorem divNearest_le_div_succ (num den : Nat) : divNearest num den ≤ num / den + 1 := by
  unfold divNearest
  dsimp only
  split
  · omega
  · split <;> omega

theorem divNearest_mono (den : Nat) (h : m ≤ n) : divNearest m den ≤ divNearest n den := by
  rcases (Nat.div_le_div_right h : m / den ≤ n / den).lt_or_eq with hlt | heq
  · calc divNearest m den ≤ m / den + 1 := divNearest_le_div_succ m den
      _ ≤ n / den := hlt
      _ ≤ divNearest n den := div_le_divNearest n den
  · have hrem : m % den ≤ n % den := by
      have hm := Nat.div_add_mod m den
      have hn := Nat.div_add_mod n den
      rw [heq] at hm
      omega
    unfold divNearest
    dsimp only
    rw [heq]
    split <;> split <;> (try split) <;> (try split) <;> omega

theorem divNearest_one (n : Nat) : divNearest n 1 = n := by
  simp [divNearest, Nat.mod_one]

/-- A rounded quotient is off by at most one half. -/
theorem divNearest_error (num : Nat) {den : Nat} (hden : 0 < den) :
    2 * num ≤ 2 * (divNearest num den * den) + den ∧
      2 * (divNearest num den * den) ≤ 2 * num + den := by
  have hsplit := Nat.div_add_mod' num den
  have hrem := Nat.mod_lt num hden
  have hsucc : (num / den + 1) * den = num / den * den + den := Nat.succ_mul _ _
  unfold divNearest
  dsimp only
  split
  · omega
  · split
    · omega
    · rcases Nat.mod_two_eq_zero_or_one (num / den) with h | h <;> rw [h]
      · rw [add_zero]
        omega
      · omega

/-! ## Magnitudes -/

/-- How many bits a magnitude has too many for the mantissa of a double. -/
def excess (n : Nat) : Nat := n.log2 - 52

/-- The magnitude of the double nearest to a natural number. -/
def nearestNat (n : Nat) : Nat := divNearest n (2 ^ excess n) * 2 ^ excess n

theorem excess_of_lt (h : n < 2 ^ 53) : excess n = 0 := by
  rcases eq_or_ne n 0 with rfl | hn
  · rfl
  · have := (Nat.log2_lt hn).mpr h
    unfold excess
    omega

/-- Whatever fits into the mantissa is not rounded. -/
theorem nearestNat_of_le (h : n ≤ 2 ^ 53) : nearestNat n = n := by
  rcases h.lt_or_eq with hlt | rfl
  · rw [nearestNat, excess_of_lt hlt, pow_zero, divNearest_one, mul_one]
  · decide +kernel

theorem two_pow_log2 (h : 52 ≤ n.log2) : 2 ^ n.log2 = 2 ^ 52 * 2 ^ excess n := by
  rw [← pow_add, excess, Nat.add_sub_cancel' h]

/-- A magnitude that fills the mantissa is rounded to one that fills it, or to the next power of
two. -/
theorem mantissa_bounds (h : 52 ≤ n.log2) :
    2 ^ 52 ≤ divNearest n (2 ^ excess n) ∧ divNearest n (2 ^ excess n) ≤ 2 ^ 53 := by
  have hn : n ≠ 0 := by
    rintro rfl
    simp at h
  have hlower : 2 ^ 52 ≤ n / 2 ^ excess n := by
    rw [Nat.le_div_iff_mul_le (Nat.two_pow_pos _), ← two_pow_log2 h]
    exact Nat.log2_self_le hn
  have hupper : n / 2 ^ excess n < 2 ^ 53 := by
    rw [Nat.div_lt_iff_lt_mul (Nat.two_pow_pos _)]
    calc n < 2 ^ (n.log2 + 1) := Nat.lt_log2_self
      _ = 2 ^ 53 * 2 ^ excess n := by rw [pow_succ, two_pow_log2 h, mul_right_comm, ← pow_succ]
  exact ⟨hlower.trans (div_le_divNearest _ _), (divNearest_le_div_succ _ _).trans hupper⟩

/-- Rounding does not leave the powers of two around a magnitude. -/
theorem nearestNat_bounds (hn : n ≠ 0) :
    2 ^ n.log2 ≤ nearestNat n ∧ nearestNat n ≤ 2 ^ (n.log2 + 1) := by
  by_cases h : 52 ≤ n.log2
  · obtain ⟨hlower, hupper⟩ := mantissa_bounds h
    constructor
    · rw [two_pow_log2 h]
      exact Nat.mul_le_mul_right _ hlower
    · rw [pow_succ, two_pow_log2 h, mul_right_comm]
      exact Nat.mul_le_mul_right _ hupper
  · have hlt : n < 2 ^ 52 := (Nat.log2_lt hn).mp (by omega)
    rw [nearestNat_of_le (by omega)]
    exact ⟨Nat.log2_self_le hn, Nat.lt_log2_self.le⟩

theorem nearestNat_mono (h : m ≤ n) : nearestNat m ≤ nearestNat n := by
  rcases eq_or_ne m 0 with rfl | hm
  · rw [nearestNat_of_le (Nat.zero_le _)]
    exact Nat.zero_le _
  have hn : n ≠ 0 := by omega
  have hlog : m.log2 ≤ n.log2 := (Nat.le_log2 hn).mpr ((Nat.log2_self_le hm).trans h)
  rcases hlog.lt_or_eq with hlt | heq
  · -- With a power of two between them, the two may lose different numbers of bits.
    calc nearestNat m ≤ 2 ^ (m.log2 + 1) := (nearestNat_bounds hm).2
      _ ≤ 2 ^ n.log2 := Nat.pow_le_pow_right (by omega) hlt
      _ ≤ nearestNat n := (nearestNat_bounds hn).1
  · have hexcess : excess m = excess n := by rw [excess, excess, heq]
    rw [nearestNat, nearestNat, hexcess]
    exact Nat.mul_le_mul_right _ (divNearest_mono _ h)

/-- The rounding of a magnitude of 64 bits, the sign being one of them, is off by at most 512. -/
theorem nearestNat_error (h : n ≤ 2 ^ 63) : n ≤ nearestNat n + 512 ∧ nearestNat n ≤ n + 512 := by
  rcases h.lt_or_eq with hlt | rfl
  · have hexcess : excess n ≤ 10 := by
      rcases eq_or_ne n 0 with rfl | hn
      · simp [excess]
      · have := (Nat.log2_lt hn).mpr hlt
        unfold excess
        omega
    have hpow : 2 ^ excess n ≤ 2 ^ 10 := Nat.pow_le_pow_right (by omega) hexcess
    have herror := divNearest_error n (Nat.two_pow_pos (excess n))
    rw [← nearestNat] at herror
    omega
  · decide +kernel

/-! ## Integers -/

/-- The integer that the double nearest to an integer is. -/
def nearestInt (n : Int) : Int := n.sign * nearestNat n.natAbs

theorem nearestInt_natCast (n : Nat) : nearestInt n = nearestNat n := by
  rcases Nat.eq_zero_or_pos n with rfl | hn
  · decide
  · rw [nearestInt, Int.sign_natCast_of_ne_zero hn.ne', one_mul, Int.natAbs_natCast]

theorem nearestInt_neg (n : Int) : nearestInt (-n) = -nearestInt n := by
  rw [nearestInt, nearestInt, Int.sign_neg, Int.natAbs_neg, neg_mul]

theorem natAbs_nearestInt (n : Int) : (nearestInt n).natAbs = nearestNat n.natAbs := by
  rcases n.eq_nat_or_neg with ⟨k, rfl | rfl⟩
  · rw [nearestInt_natCast, Int.natAbs_natCast, Int.natAbs_natCast]
  · rw [nearestInt_neg, nearestInt_natCast, Int.natAbs_neg, Int.natAbs_neg, Int.natAbs_natCast,
      Int.natAbs_natCast]

theorem nearestInt_of_le {n : Int} (h : n.natAbs ≤ 2 ^ 53) : nearestInt n = n := by
  rw [nearestInt, nearestNat_of_le h, Int.sign_mul_natAbs]

theorem nearestInt_mono {a b : Int} (h : a ≤ b) : nearestInt a ≤ nearestInt b := by
  rcases a.eq_nat_or_neg with ⟨m, rfl | rfl⟩ <;> rcases b.eq_nat_or_neg with ⟨n, rfl | rfl⟩ <;>
    simp only [nearestInt_neg, nearestInt_natCast]
  · exact Int.ofNat_le.mpr (nearestNat_mono (by omega))
  · obtain ⟨rfl, rfl⟩ : m = 0 ∧ n = 0 := by omega
    decide
  · omega
  · exact neg_le_neg (Int.ofNat_le.mpr (nearestNat_mono (by omega)))

theorem nearestInt_error {n : Int} (h : n.natAbs ≤ 2 ^ 63) :
    n ≤ nearestInt n + 512 ∧ nearestInt n ≤ n + 512 := by
  have herror := nearestNat_error h
  rcases n.eq_nat_or_neg with ⟨k, rfl | rfl⟩ <;>
    simp only [nearestInt_neg, nearestInt_natCast, Int.natAbs_neg, Int.natAbs_natCast] at * <;>
    omega

/-! ## Integers with one nearest double -/

/-- Two different integers with one nearest double. -/
def Confuses (a b : Int) : Prop := a ≠ b ∧ nearestInt a = nearestInt b

instance (a b : Int) : Decidable (Confuses a b) := inferInstanceAs (Decidable (_ ∧ _))

/-- **Rounding keeps the order of two integers**, unless it confuses them. -/
theorem compare_nearestInt (a b : Int) :
    compare (nearestInt a) (nearestInt b) = if Confuses a b then .eq else compare a b := by
  split
  next h => exact compare_eq_iff_eq.mpr h.2
  next h =>
    rcases lt_trichotomy a b with hlt | rfl | hlt
    · have hne : nearestInt a ≠ nearestInt b := fun heq => h ⟨hlt.ne, heq⟩
      rw [compare_lt_iff_lt.mpr hlt,
        compare_lt_iff_lt.mpr (lt_of_le_of_ne (nearestInt_mono hlt.le) hne)]
    · rw [compare_eq_iff_eq.mpr rfl, compare_eq_iff_eq.mpr rfl]
    · have hne : nearestInt b ≠ nearestInt a := fun heq => h ⟨hlt.ne', heq.symm⟩
      rw [compare_gt_iff_gt.mpr hlt,
        compare_gt_iff_gt.mpr (lt_of_le_of_ne (nearestInt_mono hlt.le) hne)]

namespace Confuses

variable {a b : Int}

theorem symm (h : Confuses a b) : Confuses b a := ⟨h.1.symm, h.2.symm⟩

/-- Integers whose magnitude is below `2 ^ 53` are not confused with any other. -/
theorem far (h : Confuses a b) : 2 ^ 53 ≤ a.natAbs := by
  by_contra hnear
  have ha : nearestInt a = a := nearestInt_of_le (by omega)
  have hb : 2 ^ 53 < b.natAbs := by
    by_contra hle
    exact h.1 (by rw [← ha, h.2, nearestInt_of_le (by omega)])
  have habs : a.natAbs = nearestNat b.natAbs := by rw [← natAbs_nearestInt, ← h.2, ha]
  have hmono : 2 ^ 53 ≤ nearestNat b.natAbs := by
    simpa only [nearestNat_of_le le_rfl] using nearestNat_mono hb.le
  omega

/-- Integers of 64 bits that are confused are close to each other. -/
theorem close (h : Confuses a b) (ha : a.natAbs ≤ 2 ^ 63) (hb : b.natAbs ≤ 2 ^ 63) :
    (a - b).natAbs ≤ 1024 := by
  have hea := nearestInt_error ha
  have heb := nearestInt_error hb
  rw [h.2] at hea
  omega

end Confuses

end Stepwise.Binary64
