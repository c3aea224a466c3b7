import Mathlib
import Stepwise.Proofs.Double.Rounding

/-!
# Integers as doubles

The conversion of an integer to a double shifts its mantissa right one bit at a time and keeps of
the bits that fall out only two, from which it decides about the last bit that stays.  Here the
result is shown to be `Binary64.nearestInt`.

* `Binary64.Shifted` says what the two bits tell after any number of shifts.
* `Binary64.Represents` relates a double to the integer that it holds.  Only the form with a
  mantissa of 53 bits is admitted, so the order of doubles, which looks at exponents first, is the
  order of the integers: `Binary64.Represents.compare_eq`.
* `Binary64.compare_ofInt` is the order of the doubles that two integers are converted to.
-/

set_option autoImplicit false

namespace Stepwise.Binary64

open Float.Model Float.Model.UnpackedFloat

/-! ## Shifts of a mantissa -/

/-- What is left of `n` after `k` bits have fallen out.  The round bit says that they are half of
the last bit that stays or more, the sticky bit that they are neither nothing nor exactly that
half. -/
structure Shifted (n k : Nat) (em : ExtendedMantissa) : Prop where
  mantissa : em.mantissa = n / 2 ^ k
  roundBit : em.roundBit = true ↔ 2 ^ k ≤ 2 * (n % 2 ^ k)
  stickyBit : em.stickyBit = true ↔ n % 2 ^ k ≠ 0 ∧ 2 * (n % 2 ^ k) ≠ 2 ^ k

namespace Shifted

variable {n k : Nat} {em : ExtendedMantissa}

theorem zero (n : Nat) : Shifted n 0 ⟨n, false, false⟩ := by
  constructor <;> simp [Nat.mod_one]

theorem shiftRightOne (h : Shifted n k em) : Shifted n (k + 1) em.shiftRightOne := by
  have hpos : 0 < 2 ^ k := Nat.two_pow_pos k
  have hrem : n % 2 ^ k < 2 ^ k := Nat.mod_lt n hpos
  have hsplit : n % 2 ^ (k + 1) = n % 2 ^ k + 2 ^ k * (n / 2 ^ k % 2) := by
    rw [pow_succ, Nat.mod_mul]
  have hround := h.roundBit
  have hsticky := h.stickyBit
  constructor
  · rw [ExtendedMantissa.shiftRightOne, h.mantissa, Nat.div_div_eq_div_mul, ← pow_succ]
  · simp only [ExtendedMantissa.shiftRightOne, h.mantissa, bne_iff_ne, hsplit]
    rcases Nat.mod_two_eq_zero_or_one (n / 2 ^ k) with hbit | hbit <;> rw [hbit] <;> omega
  · simp only [ExtendedMantissa.shiftRightOne, Bool.or_eq_true, hround, hsticky, hsplit]
    rcases Nat.mod_two_eq_zero_or_one (n / 2 ^ k) with hbit | hbit <;> rw [hbit] <;> omega

theorem shiftRight (n k : Nat) :
    Shifted n k ((⟨n, false, false⟩ : ExtendedMantissa) >>> k) := by
  change Shifted n k (k.repeat ExtendedMantissa.shiftRightOne ⟨n, false, false⟩)
  induction k with
  | zero => exact zero n
  | succ k ih => exact ih.shiftRightOne

/-- The two bits are all that rounding to the nearest needs. -/
theorem roundedMantissa (h : Shifted n k em) : em.roundedMantissa = divNearest n (2 ^ k) := by
  obtain ⟨hmantissa, hround, hsticky⟩ := h
  have hpos : 0 < 2 ^ k := Nat.two_pow_pos k
  rcases em with ⟨m, _ | _, _ | _⟩ <;>
    simp only [ExtendedMantissa.roundedMantissa, ExtendedMantissa.accuracy,
      Accuracy.roundToNearestEven, divNearest, Bool.false_eq_true, true_iff, false_iff] at * <;>
    rw [hmantissa] <;> split <;> (try split) <;> omega

end Shifted

/-! ## Rounding -/

section

variable {n : Nat} {e : Int}

theorem targetExponent_eq (he : -1022 ≤ n.log2 + e) :
    Format.binary64.targetExponent (totalExponent n e) = n.log2 + e - 52 := by
  have hbits : (Format.binary64.mantissaBits : Int) = 53 := rfl
  have hmin : Format.binary64.minExponent = -1074 := rfl
  rw [Format.targetExponent, totalExponent, hbits, hmin]
  omega

theorem shiftToTargetExponent_exact (hn : 52 ≤ n.log2) (he : -1022 ≤ e) :
    shiftToTargetExponent .binary64 n e .exact =
      ((⟨n, false, false⟩ : ExtendedMantissa) >>> excess n, e + excess n) := by
  have hamount : (Format.binary64.targetExponent (totalExponent n e) - e).toNat = excess n := by
    rw [targetExponent_eq (by omega), excess]
    omega
  simp only [shiftToTargetExponent, shiftToExponent, hamount]
  rfl

/-- A mantissa that is rounded up to the next power of two loses one more bit, a zero. -/
theorem mantissa_carry (hlower : 2 ^ 52 ≤ n) (hupper : n ≤ 2 ^ 53) :
    2 ^ 52 ≤ n / 2 ^ excess n ∧ n / 2 ^ excess n < 2 ^ 53 ∧ excess n ≤ 1 ∧
      n / 2 ^ excess n * 2 ^ excess n = n := by
  rcases hupper.lt_or_eq with hlt | rfl
  · rw [excess_of_lt hlt, pow_zero, Nat.div_one, mul_one]
    exact ⟨hlower, hlt, Nat.zero_le 1, rfl⟩
  · decide +kernel

theorem roundWithAccuracy_exact (s : Sign) (hn : 52 ≤ n.log2) (he : -1022 ≤ e) :
    ∃ (m k : Nat) (hm : 0 < m),
      roundWithAccuracy .binary64 s n e .exact = .finite s m (e + k) hm ∧
        2 ^ 52 ≤ m ∧ m < 2 ^ 53 ∧ k ≤ excess n + 1 ∧ m * 2 ^ k = nearestNat n := by
  -- The first shift is the one that rounds; the second makes up for a carry and is exact.
  obtain ⟨hlower, hupper⟩ := mantissa_bounds hn
  have hrounded := (Shifted.shiftRight n (excess n)).roundedMantissa
  have hfirst := shiftToTargetExponent_exact hn he
  rw [nearestNat]
  generalize divNearest n (2 ^ excess n) = r at *
  obtain ⟨hlower', hupper', hcarry, hback⟩ := mantissa_carry hlower hupper
  have hmantissa := (Shifted.shiftRight r (excess r)).mantissa
  have hsecond : shiftToTargetExponent .binary64 r (e + excess n) .exact = _ :=
    shiftToTargetExponent_exact ((Nat.le_log2 (by omega)).mpr hlower) (by omega)
  refine ⟨r / 2 ^ excess r, excess n + excess r, by omega, ?_, hlower', hupper', by omega, ?_⟩
  · simp only [roundWithAccuracy, hfirst, hrounded, hsecond, hmantissa]
    rw [dif_neg (by omega)]
    simp only [Nat.cast_add, add_assoc]
  · rw [Nat.add_comm, pow_add, ← mul_assoc, hback]

end

/-! ## Integers as doubles -/

/-- The form in which a double holds the integer `k`: a zero, or a number with a mantissa of 53 bits
of which the last one is worth `2 ^ -52` or more.  The value is counted in units of `2 ^ -52`, which
no exponent in these bounds falls below. -/
def Represents : UnpackedFloat → Int → Prop
  | .zero _, k => k = 0
  | .finite s m e _, k =>
    2 ^ 52 ≤ m ∧ m < 2 ^ 53 ∧ -52 ≤ e ∧ e ≤ 12 ∧
      s.apply ((m * 2 ^ (e + 52).toNat : Nat) : Int) = k * 2 ^ 52
  | _, _ => False

theorem apply_mul (s : Sign) (a b : Int) : s.apply (a * b) = s.apply a * b := by
  cases s
  · exact (neg_mul a b).symm
  · rfl

/-- A magnitude with zeros added below, so many that it fills a mantissa. -/
def filled (n : Nat) : Nat := n * 2 ^ (52 - n.log2)

section

variable {n : Nat}

theorem filled_of_le (h : 52 ≤ n.log2) : filled n = n := by
  rw [filled, Nat.sub_eq_zero_of_le h, pow_zero, mul_one]

theorem filled_lt (h : n.log2 < 52) : filled n < 2 ^ 53 := by
  calc n * 2 ^ (52 - n.log2) < 2 ^ (n.log2 + 1) * 2 ^ (52 - n.log2) :=
        Nat.mul_lt_mul_of_pos_right Nat.lt_log2_self (Nat.two_pow_pos _)
    _ = 2 ^ 53 := by rw [← pow_add, show n.log2 + 1 + (52 - n.log2) = 53 by omega]

theorem le_log2_filled (hn : n ≠ 0) : 52 ≤ (filled n).log2 := by
  refine (Nat.le_log2 (Nat.mul_ne_zero hn (Nat.two_pow_pos _).ne')).mpr ?_
  calc 2 ^ 52 ≤ 2 ^ n.log2 * 2 ^ (52 - n.log2) := by
        rw [← pow_add]
        exact Nat.pow_le_pow_right (by omega) (by omega)
    _ ≤ n * 2 ^ (52 - n.log2) := Nat.mul_le_mul_right _ (Nat.log2_self_le hn)

theorem excess_filled_le (hlt : n < 2 ^ 64) : excess (filled n) ≤ 11 := by
  by_cases h : 52 ≤ n.log2
  · have hlog : n.log2 < 64 := (Nat.log2_lt (by rintro rfl; simp at h)).mpr hlt
    rw [filled_of_le h, excess]
    omega
  · rw [excess_of_lt (filled_lt (by omega))]
    omega

/-- Zeros that are added below do not change what a number is rounded to. -/
theorem nearestNat_filled (n : Nat) :
    nearestNat (filled n) = nearestNat n * 2 ^ (52 - n.log2) := by
  by_cases h : 52 ≤ n.log2
  · rw [filled_of_le h, Nat.sub_eq_zero_of_le h, pow_zero, mul_one]
  · have hlt : filled n < 2 ^ 53 := filled_lt (by omega)
    have hle : n ≤ filled n := Nat.le_mul_of_pos_right n (Nat.two_pow_pos _)
    rw [nearestNat_of_le hlt.le, nearestNat_of_le (by omega), filled]

theorem represents_round (s : Sign) (hn : n ≠ 0) (hlt : n < 2 ^ 64) :
    Represents (UnpackedFloat.round .binary64 s n 0) (s.apply (nearestNat n)) := by
  -- A short magnitude is shifted left first, so that rounding always meets a full mantissa.
  have hdecrease : decreaseExponent n 0 (Format.binary64.targetExponent (totalExponent n 0)) =
      (filled n, -((52 - n.log2 : Nat) : Int)) := by
    have hamount : (0 - ((n.log2 : Int) + 0 - 52)).toNat = 52 - n.log2 := by omega
    rw [targetExponent_eq (by omega), decreaseExponent, hamount, Nat.shiftLeft_eq, zero_sub, filled]
  have hexcess := excess_filled_le hlt
  obtain ⟨m, k, hm, hround, hlower, hupper, hk, hvalue⟩ :=
    roundWithAccuracy_exact (e := -((52 - n.log2 : Nat) : Int)) s (le_log2_filled hn) (by omega)
  simp only [UnpackedFloat.round, hdecrease, hround]
  refine ⟨hlower, hupper, by omega, by omega, ?_⟩
  have hexponent : (-((52 - n.log2 : Nat) : Int) + k + 52).toNat = k + (52 - (52 - n.log2)) := by
    omega
  have hunits : m * 2 ^ (k + (52 - (52 - n.log2))) = nearestNat n * 2 ^ 52 := by
    rw [pow_add, ← mul_assoc, hvalue, nearestNat_filled, mul_assoc, ← pow_add,
      Nat.add_sub_cancel' (by omega)]
  rw [hexponent, hunits, ← apply_mul]
  rfl

end

theorem represents_ofNat {n : Nat} (hlt : n < 2 ^ 64) :
    Represents (UnpackedFloat.ofNat .binary64 n) (nearestNat n) := by
  rcases Nat.eq_zero_or_pos n with rfl | hn
  · exact (by decide : ((nearestNat 0 : Nat) : Int) = 0)
  · have hcompare : compare (n : Int) 0 = .gt := compare_gt_iff_gt.mpr (by omega)
    simp only [UnpackedFloat.ofNat, UnpackedFloat.ofInt, UnpackedFloat.normalize, hcompare,
      Int.toNat_natCast]
    exact represents_round .positive hn.ne' hlt

/-! ## Packing -/

/-- The leading bit of a mantissa is left out when it is packed. -/
theorem append_ofNat {m : Nat} (hlower : 2 ^ 52 ≤ m) (hupper : m < 2 ^ 53) :
    (1#1 ++ BitVec.ofNat 52 m).toNat = m := by
  rw [BitVec.toNat_append, ← Nat.shiftLeft_add_eq_or_of_lt (BitVec.ofNat 52 m).isLt,
    BitVec.toNat_ofNat, Nat.shiftLeft_eq, BitVec.toNat_ofNat]
  omega

theorem ofNat_ne {k : Nat} {b : BitVec 11} (hk : k < 2 ^ 11) (h : k ≠ b.toNat) :
    BitVec.ofNat 11 k ≠ b := by
  rintro rfl
  rw [BitVec.toNat_ofNat, Nat.mod_eq_of_lt hk] at h
  exact h rfl

namespace Represents

variable {u v : UnpackedFloat} {j k : Int}

theorem unpack_pack (h : Represents u k) :
    unpack .binary64 (UnpackedFloat.pack .binary64 u) = u := by
  cases u with
  | infinity s => exact h.elim
  | notANumber => exact h.elim
  | zero s => exact unpack_packedZero
  | finite s m e hm =>
    obtain ⟨hlower, hupper, helower, heupper, -⟩ := h
    have hlog : m.log2 = 52 := (Nat.log2_eq_iff hm.ne').mpr ⟨hlower, hupper⟩
    have hbias : (Format.binary64.exponentBias : Int) = 1023 := rfl
    have hbits : Format.binary64.mantissaBits = 53 := rfl
    have hwidth : (Format.binary64.mantissaBitsWithoutImplicit : Int) = 52 := rfl
    have hbiased : (e + Format.binary64.exponentBias +
        Format.binary64.mantissaBitsWithoutImplicit).toNat = (e + 1075).toNat := by
      rw [hbias, hwidth]
      omega
    have hexponent : (BitVec.ofNat 11 (e + 1075).toNat).toNat = (e + 1075).toNat := by
      rw [BitVec.toNat_ofNat, Nat.mod_eq_of_lt (by omega)]
    have hones : BitVec.ofNat 11 (e + 1075).toNat ≠ -1#11 :=
      ofNat_ne (by omega) (by change _ ≠ 2047; omega)
    have hzero : BitVec.ofNat 11 (e + 1075).toNat ≠ 0#11 :=
      ofNat_ne (by omega) (by change _ ≠ 0; omega)
    simp only [UnpackedFloat.pack, hlog, hbits, hbiased]
    rw [if_neg (by omega), if_pos trivial]
    simp only [UnpackedFloat.unpack, unpackMantissa_packComponents, unpackExponent_packComponents,
      unpackSign_packComponents, Sign.ofBitVec_toBitVec, hexponent, hbias,
      append_ofNat hlower hupper]
    rw [if_neg hones, if_neg hzero]
    congr 1
    omega

theorem neg (h : Represents u k) : Represents u.neg (-k) := by
  cases u with
  | infinity s => exact h.elim
  | notANumber => exact h.elim
  | zero s =>
    obtain rfl : k = 0 := h
    exact neg_zero
  | finite s m e hm =>
    obtain ⟨hlower, hupper, helower, heupper, hvalue⟩ := h
    refine ⟨hlower, hupper, helower, heupper, ?_⟩
    rw [neg_mul, ← hvalue]
    cases s
    · exact (neg_neg _).symm
    · rfl

theorem magnitude_lt {m n : Nat} {e f : Int} (hm : m < 2 ^ 53) (hn : 2 ^ 52 ≤ n) (he : -52 ≤ e)
    (h : e < f) : m * 2 ^ (e + 52).toNat < n * 2 ^ (f + 52).toNat := by
  calc m * 2 ^ (e + 52).toNat < 2 ^ 53 * 2 ^ (e + 52).toNat :=
        Nat.mul_lt_mul_of_pos_right hm (Nat.two_pow_pos _)
    _ = 2 ^ 52 * 2 ^ ((e + 52).toNat + 1) := by rw [← pow_add, ← pow_add]; congr 1; omega
    _ ≤ 2 ^ 52 * 2 ^ (f + 52).toNat :=
        Nat.mul_le_mul_left _ (Nat.pow_le_pow_right (by omega) (by omega))
    _ ≤ n * 2 ^ (f + 52).toNat := Nat.mul_le_mul_right _ hn

/-- Of two numbers with mantissas of 53 bits the one with the greater exponent is greater. -/
theorem compare_magnitudes {m n : Nat} {e f : Int} (hm : 2 ^ 52 ≤ m) (hm' : m < 2 ^ 53)
    (hn : 2 ^ 52 ≤ n) (hn' : n < 2 ^ 53) (he : -52 ≤ e) (hf : -52 ≤ f) :
    (compare e f).then (compare m n) =
      compare (m * 2 ^ (e + 52).toNat) (n * 2 ^ (f + 52).toNat) := by
  rcases lt_trichotomy e f with h | rfl | h
  · rw [compare_lt_iff_lt.mpr h, compare_lt_iff_lt.mpr (magnitude_lt hm' hn he h)]
    rfl
  · have hscale : StrictMono fun k : Nat => k * 2 ^ (e + 52).toNat :=
      fun _ _ h => Nat.mul_lt_mul_of_pos_right h (Nat.two_pow_pos _)
    rw [compare_eq_iff_eq.mpr rfl, ← cmp_eq_compare, ← cmp_eq_compare]
    exact (hscale.cmp_map_eq m n).symm
  · rw [compare_gt_iff_gt.mpr h, compare_gt_iff_gt.mpr (magnitude_lt hn' hm hf h)]
    rfl

theorem compare_scaled {x y : Nat} (hx : (x : Int) = j * 2 ^ 52) (hy : (y : Int) = k * 2 ^ 52) :
    compare x y = compare j k := by
  rcases lt_trichotomy j k with h | rfl | h
  · rw [compare_lt_iff_lt.mpr h, compare_lt_iff_lt.mpr (by omega)]
  · rw [compare_eq_iff_eq.mpr rfl, compare_eq_iff_eq.mpr (by omega)]
  · rw [compare_gt_iff_gt.mpr h, compare_gt_iff_gt.mpr (by omega)]

theorem pos_of_positive {m : Nat} {e : Int} {hm : 0 < m}
    (h : Represents (.finite .positive m e hm) k) : 0 < k := by
  have hpos : 0 < m * 2 ^ (e + 52).toNat := Nat.mul_pos hm (Nat.two_pow_pos _)
  have hvalue : ((m * 2 ^ (e + 52).toNat : Nat) : Int) = k * 2 ^ 52 := h.2.2.2.2
  omega

theorem neg_of_negative {m : Nat} {e : Int} {hm : 0 < m}
    (h : Represents (.finite .negative m e hm) k) : k < 0 := by
  have hpos : 0 < -k := h.neg.pos_of_positive
  omega

theorem compare_positive {m n : Nat} {e f : Int} {hm : 0 < m} {hn : 0 < n}
    (hu : Represents (.finite .positive m e hm) j) (hv : Represents (.finite .positive n f hn) k) :
    (compare e f).then (compare m n) = compare j k := by
  obtain ⟨hm1, hm2, he, -, hj⟩ := hu
  obtain ⟨hn1, hn2, hf, -, hk⟩ := hv
  rw [compare_magnitudes hm1 hm2 hn1 hn2 he hf, compare_scaled hj hk]

/-- **Doubles that are integers are ordered as those.** -/
theorem compare_eq (hu : Represents u j) (hv : Represents v k) :
    u.compare v = some (compare j k) := by
  cases u with
  | infinity s => exact hu.elim
  | notANumber => exact hu.elim
  | zero s =>
    obtain rfl : j = 0 := hu
    cases v with
    | infinity t => exact hv.elim
    | notANumber => exact hv.elim
    | zero t =>
      obtain rfl : k = 0 := hv
      rfl
    | finite t n f hn =>
      cases t with
      | positive => exact congrArg some (compare_lt_iff_lt.mpr hv.pos_of_positive).symm
      | negative => exact congrArg some (compare_gt_iff_gt.mpr hv.neg_of_negative).symm
  | finite s m e hm =>
    cases v with
    | infinity t => exact hv.elim
    | notANumber => exact hv.elim
    | zero t =>
      obtain rfl : k = 0 := hv
      cases s with
      | positive => exact congrArg some (compare_gt_iff_gt.mpr hu.pos_of_positive).symm
      | negative => exact congrArg some (compare_lt_iff_lt.mpr hu.neg_of_negative).symm
    | finite t n f hn =>
      cases s with
      | positive =>
        cases t with
        | positive => exact congrArg some (compare_positive hu hv)
        | negative =>
          have hlt : k < j := hv.neg_of_negative.trans hu.pos_of_positive
          exact congrArg some (compare_gt_iff_gt.mpr hlt).symm
      | negative =>
        cases t with
        | positive =>
          have hlt : j < k := hu.neg_of_negative.trans hv.pos_of_positive
          exact congrArg some (compare_lt_iff_lt.mpr hlt).symm
        | negative =>
          have hswap : ((compare e f).then (compare m n)).swap = compare j k := by
            have hanti : StrictAnti fun i : Int => -i := fun _ _ h => Int.neg_lt_neg h
            rw [compare_positive hu.neg hv.neg, ← cmp_eq_compare, ← cmp_eq_compare, cmp_swap]
            exact hanti.cmp_map_eq k j
          exact congrArg some hswap

end Represents

/-! ## The double of an integer -/

theorem toNat_of_nonneg {n : Int64} (h : ¬n < 0) : (n.toUInt64.toNat : Int) = n.toInt := by
  have hnat : n.toUInt64.toNat = n.toBitVec.toNat := rfl
  have hint : n.toInt = n.toBitVec.toInt := rfl
  have hbound := n.toBitVec.isLt
  rw [Int64.lt_iff_toInt_lt, Int64.toInt_zero, hint, BitVec.toInt_eq_toNat_cond] at h
  rw [hnat, hint, BitVec.toInt_eq_toNat_cond]
  split <;> split at h <;> omega

/-- The magnitude of the least integer is one more than the greatest, which has no sign. -/
theorem toNat_neg_of_neg {n : Int64} (h : n < 0) : ((-n).toUInt64.toNat : Int) = -n.toInt := by
  have hnat : (-n).toUInt64.toNat = (-n.toBitVec).toNat := rfl
  have hint : n.toInt = n.toBitVec.toInt := rfl
  have hbound := n.toBitVec.isLt
  rw [Int64.lt_iff_toInt_lt, Int64.toInt_zero, hint, BitVec.toInt_eq_toNat_cond] at h
  rw [hnat, hint, BitVec.toInt_eq_toNat_cond, BitVec.toNat_neg]
  split <;> split at h <;> omega

theorem represents_toFloat (n : UInt64) :
    Represents n.toFloat.toModel.unpack (nearestNat n.toNat) := by
  have h := represents_ofNat n.toNat_lt
  have hunpack : n.toFloat.toModel.unpack = UnpackedFloat.ofNat .binary64 n.toNat := h.unpack_pack
  rw [hunpack]
  exact h

theorem represents_neg {x : Float} {k : Int} (h : Represents x.toModel.unpack k) :
    Represents (-x).toModel.unpack (-k) := by
  have hunpack : (-x).toModel.unpack = x.toModel.unpack.neg := h.neg.unpack_pack
  rw [hunpack]
  exact h.neg

/-- The double that is compared in the place of an integer. -/
theorem represents_ofInt (n : Int64) :
    Represents (ofInt n).toModel.unpack (nearestInt n.toInt) := by
  unfold ofInt
  split
  next hneg =>
    have hint : n.toInt = -((-n).toUInt64.toNat : Int) := by
      rw [toNat_neg_of_neg hneg, neg_neg]
    rw [hint, nearestInt_neg, nearestInt_natCast]
    exact represents_neg (represents_toFloat _)
  next hneg =>
    rw [← toNat_of_nonneg hneg, nearestInt_natCast]
    exact represents_toFloat _

theorem compare_ofInt (a b : Int64) :
    (ofInt a).toModel.unpack.compare (ofInt b).toModel.unpack =
      some (compare (nearestInt a.toInt) (nearestInt b.toInt)) :=
  (represents_ofInt a).compare_eq (represents_ofInt b)

/-! ## Comparison of doubles -/

section

variable (x y : Float)

theorem beq_iff_compare :
    (x == y) = true ↔ x.toModel.unpack.compare y.toModel.unpack = some .eq := by
  change (x.toModel.unpack.compare y.toModel.unpack == some .eq) = true ↔ _
  exact beq_iff_eq

theorem lt_iff_compare : x < y ↔ x.toModel.unpack.compare y.toModel.unpack = some .lt := by
  change decide (x.toModel.unpack.lt y.toModel.unpack = true) = true ↔ _
  rw [decide_eq_true_iff]
  exact beq_iff_eq

end

end Stepwise.Binary64
