import Stepwise.Proofs.Listing.Reading

/-!
# Expressions that are grouped as they are listed

A reader finds an expression as it is unless something in it would have needed parentheses: an
assignment under an operator or in front of another assignment, a sign or a step in front of a
member, an index or another step, or a minus sign in front of one.  Besides, a variable must not be
named like a value, and an overflowing number is listed like a name.

* `Expr.isWellGrouped` decides this.
* `Expr.regroup_eq_self_iff`: these are the expressions that a reader does not group anew.
-/

set_option autoImplicit false

namespace Stepwise

open Listing

/-! ## The shape -/

namespace Expr

/-- Whether it is an assignment. -/
def isAssignment : Expr → Bool
  | assign _ _ => true
  | update _ _ _ => true
  | _ => false

/-- Whether it begins with a minus sign of its own. -/
def startsMinus : Expr → Bool
  | unary .neg _ => true
  | step .preDec _ => true
  | _ => false

/-- Whether it takes what follows it: it neither is an assignment nor begins with an operator. -/
def isOperand : Expr → Bool
  | assign _ _ => false
  | update _ _ _ => false
  | step op _ => op.isPost
  | unary _ _ => false
  | _ => true

theorem isAssignment_of_isOperand {e : Expr} (h : e.isOperand = true) : e.isAssignment = false := by
  cases e <;> first | rfl | cases h

end Expr

/-- Whether the expression is grouped with what stands in front of it. -/
def Listing.Front.admits (e : Expr) : Front → Bool
  | unary .neg => !e.isAssignment && !e.startsMinus
  | unary _ => !e.isAssignment
  | increment => !e.isAssignment
  | decrement => !e.isAssignment
  | assign _ => true
  | update _ _ => true

/-- Whether a literal is not listed like a name. -/
def Literal.isWellGrouped : Literal → Bool
  | float x => x.isFinite
  | _ => true

mutual

/-- Whether an expression is grouped as it is listed. -/
def Expr.isWellGrouped : Expr → Bool
  | .literal l => l.isWellGrouped
  | .var name => name != "true" && name != "false" && name != "null"
  | .assign target value => !target.isAssignment && target.isWellGrouped && value.isWellGrouped
  | .update _ target value => !target.isAssignment && target.isWellGrouped && value.isWellGrouped
  | .step .preInc target => !target.isAssignment && target.isWellGrouped
  | .step .preDec target => !target.isAssignment && target.isWellGrouped
  | .step _ target => target.isOperand && target.isWellGrouped
  | .binary _ left right => left.isWellGrouped && right.isWellGrouped
  | .unary op operand => (Front.unary op).admits operand && operand.isWellGrouped
  | .ternary condition thenValue elseValue =>
    condition.isWellGrouped && thenValue.isWellGrouped && elseValue.isWellGrouped
  | .call _ args => Expr.allWellGrouped args
  | .method object _ args => object.isOperand && object.isWellGrouped && Expr.allWellGrouped args
  | .member object _ => object.isOperand && object.isWellGrouped
  | .index object key => object.isOperand && object.isWellGrouped && key.isWellGrouped
  | .guard _ => true

/-- Whether all expressions of a list are grouped as they are listed. -/
def Expr.allWellGrouped : List Expr → Bool
  | [] => true
  | e :: es => e.isWellGrouped && Expr.allWellGrouped es

end

namespace Listing

theorem Literal.regroup_eq {l : Literal} (h : l.isWellGrouped = true) : l.regroup = .literal l := by
  cases l with
  | float x => exact if_pos h
  | _ => rfl

theorem named_eq {name : String} (h : (Expr.var name).isWellGrouped = true) :
    named name = .var name := by
  simp only [Expr.isWellGrouped, Bool.and_eq_true, bne_iff_ne] at h
  rw [named, if_neg h.1.1, if_neg h.1.2, if_neg h.2]

/-! ## What stands in front -/

namespace Front

variable {e : Expr} {f : Front}

theorem admits_operand (h : e.isOperand = true) (f : Front) : f.admits e = true := by
  have hassign := Expr.isAssignment_of_isOperand h
  have hminus : e.startsMinus = false := by
    cases e with
    | step op => cases op <;> first | rfl | cases h
    | unary => cases h
    | _ => rfl
  cases f with
  | unary op => cases op <;> simp [admits, hassign, hminus]
  | _ => simp [admits, hassign]

theorem admits_of_isAssignment (h : f.isAssignment = true) (e : Expr) : f.admits e = true := by
  cases f with
  | assign | update => rfl
  | _ => cases h

theorem isAssignment_of_admits (h : f.admits e = true) (he : e.isAssignment = true) :
    f.isAssignment = true := by
  cases f with
  | assign | update => rfl
  | unary op => cases op <;> simp [admits, he] at h
  | _ => simp [admits, he] at h

end Front

namespace Fronts

variable {e : Expr} {f : Front} {fs : Fronts}

/-- The expression is grouped with what stands directly in front of it, if anything does. -/
def Admits (fs : Fronts) (e : Expr) : Prop :=
  ∀ f ∈ fs.head?, f.admits e = true

theorem admits_cons (h : f.admits e = true) (fs : Fronts) : Admits (f :: fs) e := by
  intro g hg
  rwa [← Option.some.inj hg]

theorem admits_operand (h : e.isOperand = true) (fs : Fronts) : fs.Admits e :=
  fun f _ => f.admits_operand h

/-- An assignment has nothing but an assignment in front of it. -/
theorem target_eq (h : ∀ f ∈ fs.head?, f.isAssignment = true) (e : Expr) :
    fs.target e = (fs, e) := by
  cases fs with
  | nil => rfl
  | cons f fs => exact if_pos (h f rfl)

/-- Where a minus sign is not followed by another one, nothing is taken together. -/
theorem push_eq (hf : f.isAssignment = false) (h : fs.Admits (f.wrap e)) : push f fs = f :: fs := by
  rw [push.eq_def]
  split
  · cases h _ rfl
  · cases h _ rfl
  · rfl

end Fronts

/-! ## Expressions that are not grouped anew -/

open Fronts

/-- What a reader makes of an expression that is grouped as it is listed. -/
structure KeepsGrouping (fs : Fronts) (e : Expr) : Prop where
  operand : e.isOperand = true → e.spine fs = (fs, e)
  target : e.isAssignment = false → Fronts.target (e.spine fs).1 (e.spine fs).2 = fs.target e
  whole : Fronts.whole (e.spine fs) = fs.wrap e

namespace KeepsGrouping

variable {fs : Fronts} {e : Expr} {f : Front}

theorem of_spine (h : e.spine fs = (fs, e)) : KeepsGrouping fs e :=
  ⟨fun _ => h, fun _ => by rw [h], by rw [h]; rfl⟩

/-- What is assigned to is read as it is, up to the assignment before it. -/
theorem target_spine (h : KeepsGrouping fs e) (he : e.isAssignment = false)
    (hfs : ∀ f ∈ fs.head?, f.isAssignment = true) :
    Fronts.target (e.spine fs).1 (e.spine fs).2 = (fs, e) :=
  (h.target he).trans (target_eq hfs e)

/-- An assignment, if its right side is as it is read after it. -/
theorem assignment (h : KeepsGrouping (f :: fs) e) (hf : f.isAssignment = true)
    (hspine : (f.wrap e).spine fs = e.spine (f :: fs)) : KeepsGrouping fs (f.wrap e) where
  operand hop := by
    cases f with
    | assign | update => cases hop
    | _ => cases hf
  target hassign := by
    cases f with
    | assign | update => cases hassign
    | _ => cases hf
  whole := (congrArg Fronts.whole hspine).trans h.whole

/-- An operator in front of an operand, if the operand is as it is read after it. -/
theorem prefixed (h : KeepsGrouping (f :: fs) e) (hf : f.isAssignment = false)
    (he : e.isAssignment = false) (hfs : fs.Admits (f.wrap e))
    (hspine : (f.wrap e).spine fs = e.spine (push f fs)) : KeepsGrouping fs (f.wrap e) where
  operand hop := by
    cases f with
    | assign | update => cases hf
    | _ => cases hop
  target _ := by
    rw [hspine, push_eq hf hfs, h.target he, Fronts.target, hf, if_neg Bool.false_ne_true]
  whole := by
    rw [hspine, push_eq hf hfs, h.whole, Fronts.wrap]

end KeepsGrouping

end Listing

namespace Expr

open Fronts

theorem isAssignment_of_admits_unary {op : UnaryOp} {e : Expr}
    (h : (Front.unary op).admits e = true) : e.isAssignment = false := by
  cases he : e.isAssignment with
  | false => rfl
  | true => cases Front.isAssignment_of_admits h he

/-- What stands in front of an assignment is one. -/
theorem isAssignment_of_admits {e : Expr} {fs : Fronts} (he : e.isAssignment = true)
    (hfs : fs.Admits e) : ∀ f ∈ fs.head?, f.isAssignment = true :=
  fun f hf => Front.isAssignment_of_admits (hfs f hf) he

mutual

theorem keepsGrouping :
    ∀ e : Expr, e.isWellGrouped = true → ∀ fs : Fronts, fs.Admits e → KeepsGrouping fs e
  | .literal l, h, fs, _ => .of_spine (congrArg (fs, ·) (Literal.regroup_eq h))
  | .var name, h, fs, _ => .of_spine (congrArg (fs, ·) (named_eq h))
  | .assign target value, h, fs, hfs => by
    rw [isWellGrouped, Bool.and_eq_true, Bool.and_eq_true, Bool.not_eq_true'] at h
    have hfront := isAssignment_of_admits rfl hfs
    have htarget := target.keepsGrouping h.1.2 fs fun f hf =>
      Front.admits_of_isAssignment (hfront f hf) _
    have hvalue := value.keepsGrouping h.2 (.assign target :: fs) (admits_cons rfl fs)
    have hbefore := htarget.target_spine h.1.1 hfront
    exact hvalue.assignment rfl
      (congrArg (fun p : Fronts × Expr => value.spine (.assign p.2 :: p.1)) hbefore)
  | .update op target value, h, fs, hfs => by
    rw [isWellGrouped, Bool.and_eq_true, Bool.and_eq_true, Bool.not_eq_true'] at h
    have hfront := isAssignment_of_admits rfl hfs
    have htarget := target.keepsGrouping h.1.2 fs fun f hf =>
      Front.admits_of_isAssignment (hfront f hf) _
    have hvalue := value.keepsGrouping h.2 (.update op target :: fs) (admits_cons rfl fs)
    have hbefore := htarget.target_spine h.1.1 hfront
    exact hvalue.assignment rfl
      (congrArg (fun p : Fronts × Expr => value.spine (.update op p.2 :: p.1)) hbefore)
  | .step .preInc target, h, fs, hfs => by
    rw [isWellGrouped, Bool.and_eq_true, Bool.not_eq_true'] at h
    have htarget := target.keepsGrouping h.2 (.increment :: fs)
      (admits_cons (by rw [Front.admits, h.1]; rfl) fs)
    exact htarget.prefixed rfl h.1 hfs rfl
  | .step .preDec target, h, fs, hfs => by
    rw [isWellGrouped, Bool.and_eq_true, Bool.not_eq_true'] at h
    have htarget := target.keepsGrouping h.2 (.decrement :: fs)
      (admits_cons (by rw [Front.admits, h.1]; rfl) fs)
    exact htarget.prefixed rfl h.1 hfs rfl
  | .step .postInc target, h, fs, _ => by
    obtain ⟨hop, htarget⟩ := Bool.and_eq_true_iff.1 h
    have hspine := (target.keepsGrouping htarget fs (admits_operand hop fs)).operand hop
    exact .of_spine (by rw [spine, hspine])
  | .step .postDec target, h, fs, _ => by
    obtain ⟨hop, htarget⟩ := Bool.and_eq_true_iff.1 h
    have hspine := (target.keepsGrouping htarget fs (admits_operand hop fs)).operand hop
    exact .of_spine (by rw [spine, hspine])
  | .binary op left right, h, fs, _ => by
    obtain ⟨hleft, hright⟩ := Bool.and_eq_true_iff.1 h
    refine .of_spine ?_
    rw [spine, (left.keepsGrouping hleft [] nofun).whole,
      (right.keepsGrouping hright [] nofun).whole]
    rfl
  | .unary op operand, h, fs, hfs => by
    obtain ⟨hadmits, hoperand⟩ := Bool.and_eq_true_iff.1 h
    have hkeeps := operand.keepsGrouping hoperand (.unary op :: fs) (admits_cons hadmits fs)
    exact hkeeps.prefixed rfl (isAssignment_of_admits_unary hadmits) hfs rfl
  | .ternary condition thenValue elseValue, h, fs, _ => by
    rw [isWellGrouped, Bool.and_eq_true, Bool.and_eq_true] at h
    refine .of_spine ?_
    rw [spine, (condition.keepsGrouping h.1.1 [] nofun).whole,
      (thenValue.keepsGrouping h.1.2 [] nofun).whole,
      (elseValue.keepsGrouping h.2 [] nofun).whole]
    rfl
  | .call name args, h, fs, _ => .of_spine (by rw [spine, regroupAll_eq args h])
  | .method object name args, h, fs, _ => by
    rw [isWellGrouped, Bool.and_eq_true, Bool.and_eq_true] at h
    have hspine := (object.keepsGrouping h.1.2 fs (admits_operand h.1.1 fs)).operand h.1.1
    exact .of_spine (by rw [spine, hspine, regroupAll_eq args h.2])
  | .member object name, h, fs, _ => by
    obtain ⟨hop, hobject⟩ := Bool.and_eq_true_iff.1 h
    have hspine := (object.keepsGrouping hobject fs (admits_operand hop fs)).operand hop
    exact .of_spine (by rw [spine, hspine])
  | .index object key, h, fs, _ => by
    rw [isWellGrouped, Bool.and_eq_true, Bool.and_eq_true] at h
    have hspine := (object.keepsGrouping h.1.2 fs (admits_operand h.1.1 fs)).operand h.1.1
    refine .of_spine ?_
    rw [spine, hspine, (key.keepsGrouping h.2 [] nofun).whole]
    rfl
  | .guard _, _, _, _ => .of_spine rfl

theorem regroupAll_eq : ∀ es : List Expr, allWellGrouped es = true → regroupAll es = es
  | [], _ => rfl
  | e :: es, h => by
    obtain ⟨he, hes⟩ := Bool.and_eq_true_iff.1 h
    rw [regroupAll, (e.keepsGrouping he [] nofun).whole, regroupAll_eq es hes]
    rfl

end

/-- **An expression that is grouped as it is listed is read as it is.** -/
theorem regroup_eq {e : Expr} (h : e.isWellGrouped = true) : e.regroup = e :=
  (e.keepsGrouping h [] nofun).whole

end Expr

/-! ## What a reader makes of any expression -/

namespace Listing

/-- What is assigned to is grouped as it is listed, and is no assignment. -/
def Front.isSound : Front → Bool
  | assign target => !target.isAssignment && target.isWellGrouped
  | update _ target => !target.isAssignment && target.isWellGrouped
  | _ => true

/-- What stands in front of an operand, each grouped with what stands in front of it. -/
inductive Fronts.Sound : Fronts → Prop
  | nil : Sound []
  | cons {f : Front} {fs : Fronts} (hf : f.isSound = true) (hfs : Sound fs)
      (h : ∀ e, fs.Admits (f.wrap e)) : Sound (f :: fs)

variable {e : Expr} {f : Front} {fs : Fronts}

theorem Front.isWellGrouped_wrap (hf : f.isSound = true) (hadmits : f.admits e = true)
    (he : e.isWellGrouped = true) : (f.wrap e).isWellGrouped = true := by
  cases f with
  | unary op => exact Bool.and_eq_true_iff.2 ⟨hadmits, he⟩
  | increment | decrement => exact Bool.and_eq_true_iff.2 ⟨hadmits, he⟩
  | assign target | update op target => exact Bool.and_eq_true_iff.2 ⟨hf, he⟩

namespace Fronts

theorem Sound.isWellGrouped_wrap (h : Sound fs) (hadmits : fs.Admits e)
    (he : e.isWellGrouped = true) : (wrap fs e).isWellGrouped = true := by
  induction h generalizing e with
  | nil => exact he
  | cons hf hfs hwrap ih =>
    exact ih (hwrap e) (Front.isWellGrouped_wrap hf (hadmits _ rfl) he)

/-- What is left of the fronts of an assignment, and its target. -/
theorem Sound.target (h : Sound fs) (hadmits : fs.Admits e) (he : e.isWellGrouped = true)
    (hassign : e.isAssignment = false) :
    Sound (target fs e).1 ∧ (∀ f ∈ (target fs e).1.head?, f.isAssignment = true) ∧
      (target fs e).2.isAssignment = false ∧ (target fs e).2.isWellGrouped = true := by
  induction h generalizing e with
  | nil => exact ⟨.nil, nofun, hassign, he⟩
  | @cons f fs hf hfs hwrap ih =>
    rw [Fronts.target]
    split
    · next hfassign =>
      refine ⟨.cons hf hfs hwrap, fun g hg => ?_, hassign, he⟩
      rwa [← Option.some.inj hg]
    · next hfassign =>
      refine ih (hwrap e) (Front.isWellGrouped_wrap hf (hadmits _ rfl) he) ?_
      cases f with
      | assign | update => exact absurd rfl hfassign
      | _ => rfl

/-- What stands in front of a minus sign may stand in front of a decrement. -/
theorem Sound.decrement (h : Sound (.unary .neg :: fs)) : Sound (.decrement :: fs) := by
  cases h with
  | cons _ hfs hwrap =>
    refine .cons rfl hfs fun e f hf => ?_
    have hadmits := hwrap e f hf
    cases f with
    | unary op => cases op <;> exact hadmits
    | _ => exact hadmits

theorem Sound.push (h : Sound fs) (hf : f.isAssignment = false) : Sound (push f fs) := by
  rw [push.eq_def]
  split
  · exact h.decrement
  · exact .cons rfl h.decrement fun e => admits_cons rfl _
  · next hneg hdec =>
    refine .cons ?_ h fun e g hg => ?_
    · cases f with
      | assign | update => cases hf
      | _ => rfl
    · obtain ⟨gs, rfl⟩ := List.head?_eq_some_iff.1 hg
      -- of the operators only a minus sign does not admit all others, and those have been taken
      -- together with it
      have hassign : ∀ e, (f.wrap e).isAssignment = false := by
        cases f with
        | assign | update => cases hf
        | _ => exact fun _ => rfl
      have hminus : g = .unary .neg → ∀ e, (f.wrap e).startsMinus = false := by
        rintro rfl
        cases f with
        | unary op =>
          cases op with
          | neg => exact absurd rfl (hneg gs rfl)
          | not | bitNot => exact fun _ => rfl
        | decrement => exact absurd rfl (hdec gs rfl)
        | _ => exact fun _ => rfl
      cases g with
      | unary op =>
        cases op with
        | neg => rw [Front.admits, hassign, hminus rfl]; rfl
        | not | bitNot => exact congrArg Bool.not (hassign e)
      | increment | decrement => exact congrArg Bool.not (hassign e)
      | assign | update => rfl

end Fronts

/-- What is read from an expression: an operand, and what stands in front of it. -/
structure WellGroupedSpine (p : Fronts × Expr) : Prop where
  fronts : p.1.Sound
  isOperand : p.2.isOperand = true
  operand : p.2.isWellGrouped = true

namespace WellGroupedSpine

variable {p : Fronts × Expr}

theorem whole (h : WellGroupedSpine p) : (Fronts.whole p).isWellGrouped = true :=
  h.fronts.isWellGrouped_wrap (Fronts.admits_operand h.isOperand p.1) h.operand

theorem target (h : WellGroupedSpine p) :
    Fronts.Sound (Fronts.target p.1 p.2).1 ∧
      (∀ f ∈ (Fronts.target p.1 p.2).1.head?, f.isAssignment = true) ∧
      (Fronts.target p.1 p.2).2.isAssignment = false ∧
      (Fronts.target p.1 p.2).2.isWellGrouped = true :=
  h.fronts.target (Fronts.admits_operand h.isOperand p.1) h.operand
    (Expr.isAssignment_of_isOperand h.isOperand)

end WellGroupedSpine

theorem isWellGrouped_named (name : String) :
    (named name).isWellGrouped = true ∧ (named name).isOperand = true := by
  rw [named]
  split
  · exact ⟨rfl, rfl⟩
  split
  · exact ⟨rfl, rfl⟩
  split
  · exact ⟨rfl, rfl⟩
  · next htrue hfalse hnull => exact ⟨by simp [Expr.isWellGrouped, htrue, hfalse, hnull], rfl⟩

end Listing

namespace Expr

mutual

theorem wellGrouped_spine : ∀ (e : Expr) {fs : Fronts}, fs.Sound → WellGroupedSpine (e.spine fs)
  | .literal l, fs, hfs => by
    rw [spine]
    cases l with
    | float x =>
      rw [Literal.regroup]
      split
      · next hfinite => exact ⟨hfs, rfl, hfinite⟩
      · exact ⟨hfs, rfl, (by decide : (var "inf").isWellGrouped = true)⟩
    | _ => exact ⟨hfs, rfl, rfl⟩
  | .var name, fs, hfs => ⟨hfs, (isWellGrouped_named name).2, (isWellGrouped_named name).1⟩
  | .assign target value, fs, hfs => by
    obtain ⟨hbefore, hfront, hassign, htarget⟩ := (target.wellGrouped_spine hfs).target
    exact value.wellGrouped_spine (.cons (by rw [Front.isSound, hassign, htarget]; rfl) hbefore
      fun e f hf => Front.admits_of_isAssignment (hfront f hf) _)
  | .update op target value, fs, hfs => by
    obtain ⟨hbefore, hfront, hassign, htarget⟩ := (target.wellGrouped_spine hfs).target
    exact value.wellGrouped_spine (.cons (by rw [Front.isSound, hassign, htarget]; rfl) hbefore
      fun e f hf => Front.admits_of_isAssignment (hfront f hf) _)
  | .step .preInc target, fs, hfs => target.wellGrouped_spine (hfs.push rfl)
  | .step .preDec target, fs, hfs => target.wellGrouped_spine (hfs.push rfl)
  | .step .postInc target, fs, hfs => by
    have htarget := target.wellGrouped_spine hfs
    exact ⟨htarget.fronts, rfl, Bool.and_eq_true_iff.2 ⟨htarget.isOperand, htarget.operand⟩⟩
  | .step .postDec target, fs, hfs => by
    have htarget := target.wellGrouped_spine hfs
    exact ⟨htarget.fronts, rfl, Bool.and_eq_true_iff.2 ⟨htarget.isOperand, htarget.operand⟩⟩
  | .binary op left right, fs, hfs =>
    ⟨hfs, rfl, Bool.and_eq_true_iff.2
      ⟨(left.wellGrouped_spine .nil).whole, (right.wellGrouped_spine .nil).whole⟩⟩
  | .unary op operand, fs, hfs => operand.wellGrouped_spine (hfs.push rfl)
  | .ternary condition thenValue elseValue, fs, hfs =>
    ⟨hfs, rfl, Bool.and_eq_true_iff.2 ⟨Bool.and_eq_true_iff.2
      ⟨(condition.wellGrouped_spine .nil).whole, (thenValue.wellGrouped_spine .nil).whole⟩,
      (elseValue.wellGrouped_spine .nil).whole⟩⟩
  | .call name args, fs, hfs => ⟨hfs, rfl, allWellGrouped_regroupAll args⟩
  | .method object name args, fs, hfs => by
    have hobject := object.wellGrouped_spine hfs
    exact ⟨hobject.fronts, rfl, Bool.and_eq_true_iff.2 ⟨Bool.and_eq_true_iff.2
      ⟨hobject.isOperand, hobject.operand⟩, allWellGrouped_regroupAll args⟩⟩
  | .member object name, fs, hfs => by
    have hobject := object.wellGrouped_spine hfs
    exact ⟨hobject.fronts, rfl, Bool.and_eq_true_iff.2 ⟨hobject.isOperand, hobject.operand⟩⟩
  | .index object key, fs, hfs => by
    have hobject := object.wellGrouped_spine hfs
    exact ⟨hobject.fronts, rfl, Bool.and_eq_true_iff.2 ⟨Bool.and_eq_true_iff.2
      ⟨hobject.isOperand, hobject.operand⟩, (key.wellGrouped_spine .nil).whole⟩⟩
  | .guard _, _, hfs => ⟨hfs, rfl, rfl⟩

theorem allWellGrouped_regroupAll : ∀ es : List Expr, allWellGrouped (regroupAll es) = true
  | [] => rfl
  | e :: es =>
    Bool.and_eq_true_iff.2 ⟨(e.wellGrouped_spine .nil).whole, allWellGrouped_regroupAll es⟩

end

/-- **A reader groups every expression so that it is grouped as it is listed,** and leaves alone
exactly those that are. -/
theorem regroup_eq_self_iff {e : Expr} : e.regroup = e ↔ e.isWellGrouped = true := by
  refine ⟨fun h => ?_, regroup_eq⟩
  rw [← h]
  exact (e.wellGrouped_spine .nil).whole

end Expr

end Stepwise
