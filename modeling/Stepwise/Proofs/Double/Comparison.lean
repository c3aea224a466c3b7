import Stepwise.Proofs.Double.Conversion
import Stepwise.Proofs.Recorder.Operation
import Stepwise.Run.Operation

/-!
# What counts as equal, and what as less

A program compares its numbers as doubles, two integers among them, while a removal from a list
compares integers as they are.  So there are two equalities.  They differ only on two integers with
one nearest double, and every comparison of a program takes such a pair for equal.

* `Value.apply_int` is what the six comparisons make of two integers, and `Value.agrees_eq` the
  equality of lists by that of programs.
* `Value.comparison_exact` puts them together and says where the exceptions are, and
  `Value.comparison_confused` is the first of them.
-/

set_option autoImplicit false

namespace Stepwise

/-- What a comparison makes of the order of its operands. -/
def BinaryOp.verdict? : BinaryOp → Option (Ordering → Bool)
  | eq => some Ordering.isEq
  | ne => some Ordering.isNe
  | lt => some Ordering.isLT
  | le => some Ordering.isLE
  | gt => some Ordering.isGT
  | ge => some Ordering.isGE
  | _ => none

namespace Value

open Binary64

/-- Whether the values are two different integers with one nearest double. -/
def confuses : Value → Value → Bool
  | int a, int b => decide (Confuses a.toInt b.toInt)
  | _, _ => false

/-! ## Integers -/

section

variable (a b : Int64)

theorem compare_toInt : compare a.toInt b.toInt = compare a b := by
  simp only [compare, compareOfLessAndEq, Int64.lt_iff_toInt_lt, ← Int64.toInt_inj]

theorem equals_int :
    (int a).equals (int b) = (compare (nearestInt a.toInt) (nearestInt b.toInt)).isEq := by
  rw [equals, Bool.eq_iff_iff, beq_iff_compare, compare_ofInt, Option.some_inj]
  exact Ordering.isEq_iff_eq_eq.symm

theorem compare?_int :
    (int a).compare? (int b) = some (compare (nearestInt a.toInt) (nearestInt b.toInt)) := by
  have hback := compare_ofInt b a
  rw [← Int.compare_swap] at hback
  simp only [compare?, number?, compareFloats, lt_iff_compare, beq_iff_compare, hback,
    compare_ofInt a b, Option.some_inj]
  cases compare (nearestInt a.toInt) (nearestInt b.toInt) <;> rfl

theorem compare_nearestInt_toInt :
    compare (nearestInt a.toInt) (nearestInt b.toInt) =
      if Confuses a.toInt b.toInt then .eq else compare a b := by
  rw [compare_nearestInt, compare_toInt]

end

theorem apply_int {op : BinaryOp} {verdict : Ordering → Bool} (hop : op.verdict? = some verdict)
    (a b : Int64) :
    op.apply (int a) (int b) =
      .ok (.bool (verdict (if Confuses a.toInt b.toInt then .eq else compare a b))) := by
  rw [← compare_nearestInt_toInt]
  cases op <;> cases hop <;>
    simp only [BinaryOp.apply, equals_int, compare?_int] <;>
    cases compare (nearestInt a.toInt) (nearestInt b.toInt) <;> rfl

/-! ## Equality -/

theorem eq_ofScalar {v : Value} {s : Scalar} (h : v.toScalar? = some s) : v = ofScalar s := by
  cases v with
  | float x =>
    simp only [toScalar?] at h
    split at h
    · cases h
      rfl
    · cases h
  | _ => cases h <;> rfl

theorem equals_ofScalar (s t : Scalar) :
    (ofScalar s).equals (ofScalar t) = (s.agrees t || (ofScalar s).confuses (ofScalar t)) := by
  cases s with
  | int a =>
    cases t with
    | int b =>
      rw [ofScalar, ofScalar, equals_int, compare_nearestInt_toInt, Scalar.agrees, confuses]
      by_cases h : Confuses a.toInt b.toInt
      · rw [if_pos h, decide_eq_true h, Bool.or_true]
        rfl
      · rw [if_neg h, decide_eq_false h, Bool.or_false, Bool.eq_iff_iff, Ordering.isEq_iff_eq_eq,
          ← compare_toInt, compare_eq_iff_eq, Int64.toInt_inj, beq_iff_eq]
    | _ => exact (Bool.or_false _).symm
  | float x =>
    cases t with
    | int b => exact (BEq.comm : (x == ofInt b) = _).trans (Bool.or_false _).symm
    | _ => exact (Bool.or_false _).symm
  | _ => cases t <;> exact (Bool.or_false _).symm

theorem not_agrees_of_confuses {s t : Scalar} (h : (ofScalar s).confuses (ofScalar t) = true) :
    s.agrees t = false := by
  cases s with
  | int a =>
    cases t with
    | int b =>
      exact beq_eq_false_iff_ne.mpr fun heq => (of_decide_eq_true h).1 (congrArg Int64.toInt heq)
    | _ => cases h
  | _ => cases h

/-- Lists take for equal what is equal for a program and not confused by it. -/
theorem agrees_eq (s t : Scalar) :
    s.agrees t = ((ofScalar s).equals (ofScalar t) && !(ofScalar s).confuses (ofScalar t)) := by
  rw [equals_ofScalar]
  cases h : (ofScalar s).confuses (ofScalar t) with
  | true => rw [not_agrees_of_confuses h]; rfl
  | false => rw [Bool.or_false, Bool.not_false, Bool.and_true]

theorem natAbs_toInt_le (n : Int64) : n.toInt.natAbs ≤ 2 ^ 63 := by
  have hlower := n.le_toInt
  have hupper := n.toInt_lt
  omega

/-- **Comparisons are exact on integers and there is one equality**, but for two different integers
with one nearest double: those are equal for a program, and not for a removal from a list. -/
theorem comparison_exact {op : BinaryOp} {verdict : Ordering → Bool}
    (hop : op.verdict? = some verdict) (a b : Int64) {v w : Value} {s t : Scalar}
    (hv : v.toScalar? = some s) (hw : w.toScalar? = some t) (items : List Scalar) :
    op.apply (int a) (int b) =
        .ok (.bool (verdict (if Confuses a.toInt b.toInt then .eq else compare a b))) ∧
      (v.equals w = true ↔ s.agrees t = true ∨ v.confuses w = true) ∧
      (v.confuses w = true → s.agrees t = false) ∧
      Method.remove.apply .list "remove" [v] items =
        .ok (.changed
          (items.eraseP fun item => (ofScalar item).equals v && !(ofScalar item).confuses v)
          { action := .listRemove, value := some s, idle := items.isEmpty }) ∧
      (Confuses a.toInt b.toInt →
        2 ^ 53 ≤ a.toInt.natAbs ∧ 2 ^ 53 ≤ b.toInt.natAbs ∧
          (a.toInt - b.toInt).natAbs ≤ 1024) := by
  obtain rfl := eq_ofScalar hv
  obtain rfl := eq_ofScalar hw
  refine ⟨apply_int hop a b, ?equality, not_agrees_of_confuses, ?removal, ?far⟩
  case equality => rw [equals_ofScalar, Bool.or_eq_true]
  case removal =>
    simp only [← agrees_eq]
    exact Method.removingValue_eq_ok.mpr (.inr ⟨_, s, rfl, hv, rfl⟩)
  case far =>
    intro h
    exact ⟨h.far, h.symm.far, h.close (natAbs_toInt_le a) (natAbs_toInt_le b)⟩

theorem comparison_exact_beyond_mantissa :
    BinaryOp.lt.apply (int 9007199254740993) (int 9007199254740995) = .ok (.bool true) ∧
      (int 9007199254740993).equals (float 1) = Scalar.agrees (.int 9007199254740993) (.float 1) ∧
      Method.remove.apply .list "remove" [int 9007199254740993]
          [.int 9007199254740992, .int 9007199254740993] =
        .ok (.changed [.int 9007199254740992]
          { action := .listRemove, value := some (.int 9007199254740993), idle := false }) := by
  have hapart : ¬ Confuses (9007199254740993 : Int64).toInt (9007199254740995 : Int64).toInt := by
    decide +kernel
  have hfinite : (1 : Float).isFinite = true := by decide +kernel
  have hone : (float 1).toScalar? = some (.float 1) := by rw [toScalar?, if_pos hfinite]
  have hlt : BinaryOp.lt.verdict? = some Ordering.isLT := rfl
  obtain ⟨hless, hequal, -, hremoval, -⟩ :=
    comparison_exact hlt 9007199254740993 9007199254740995 (v := int 9007199254740993) rfl hone
      [.int 9007199254740992, .int 9007199254740993]
  refine ⟨?_, ?_, ?_⟩
  · rw [hless, if_neg hapart]
    rfl
  · rw [Bool.eq_iff_iff, hequal]
    exact or_iff_left nofun
  · rw [hremoval, List.eraseP_cons_of_neg (by decide +kernel),
      List.eraseP_cons_of_pos (by decide +kernel)]
    rfl

/-- The least integer that no double is, and its neighbour, to which it is rounded. -/
theorem comparison_confused :
    BinaryOp.eq.apply (int 9007199254740992) (int 9007199254740993) = .ok (.bool true) ∧
      BinaryOp.lt.apply (int 9007199254740992) (int 9007199254740993) = .ok (.bool false) ∧
      Scalar.agrees (.int 9007199254740992) (.int 9007199254740993) = false ∧
      (9007199254740992 : Int64) < 9007199254740993 := by
  have hequal : (int 9007199254740992).equals (int 9007199254740993) = true := by decide +kernel
  have hless : ((int 9007199254740992).compare? (int 9007199254740993) == some .lt) = false := by
    decide +kernel
  simp only [BinaryOp.apply, hequal, hless]
  decide

end Value

end Stepwise
