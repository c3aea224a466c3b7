import Stepwise.Proofs.Program.Markers

/-!
# Where jumps stand

A `break` or `continue` is meant for the loop in whose body it stands.

* `Stmt.jumpsEnclosed` says of a statement that each of its jumps stands in the body of a loop, and
  `Program.jumpsEnclosed` says it of programs.
* The first clause of a `for` loop stands in front of the body of this loop, and in the body of
  another one if the loop itself does.  Whether a jump in the clause is enclosed by that one makes
  no difference for a program that was read from a source text (`Program.jumpsEnclosed_ofSource`):
  the clause consists of declarations and expressions (`Program.straightInits_ofSource`).
-/

set_option autoImplicit false

namespace Stepwise

/-! ## Jumps and loops -/

mutual

/-- Whether every jump in a statement stands in the body of a loop, which may be one around the
statement.  With `inits`, the first clause of a `for` loop is taken for a part of the body in which
the loop stands. -/
def Stmt.jumpsEnclosed (inits inLoop : Bool) : Stmt → Bool
  | .branch _ thenBody => Stmt.allJumpsEnclosed inits inLoop thenBody
  | .branchElse _ thenBody elseBody =>
    Stmt.allJumpsEnclosed inits inLoop thenBody && Stmt.allJumpsEnclosed inits inLoop elseBody
  | .whileLoop _ body => Stmt.allJumpsEnclosed inits true body
  | .doWhile body _ => Stmt.allJumpsEnclosed inits true body
  | .forLoop init _ _ body =>
    Stmt.allJumpsEnclosed inits (inits && inLoop) init && Stmt.allJumpsEnclosed inits true body
  | .block body => Stmt.allJumpsEnclosed inits inLoop body
  | .jump _ => inLoop
  | _ => true

/-- Whether every jump in statements stands in the body of a loop. -/
def Stmt.allJumpsEnclosed (inits inLoop : Bool) : List Stmt → Bool
  | [] => true
  | s :: rest => s.jumpsEnclosed inits inLoop && Stmt.allJumpsEnclosed inits inLoop rest

end

/-- Whether every jump of a program stands in the body of a loop within its function body or within
the statements of the program. -/
def Program.jumpsEnclosed (inits : Bool) (p : Program) : Bool :=
  Stmt.allJumpsEnclosed inits false p.body &&
    p.functions.all fun f => Stmt.allJumpsEnclosed inits false f.body

theorem Program.jumpsEnclosed_iff {inits : Bool} {p : Program} :
    p.jumpsEnclosed inits = true ↔ Stmt.allJumpsEnclosed inits false p.body = true ∧
      ∀ f ∈ p.functions, Stmt.allJumpsEnclosed inits false f.body = true := by
  rw [jumpsEnclosed, Bool.and_eq_true, List.all_eq_true]

/-! ### Initialisers -/

theorem Stmt.jumpsEnclosed_of_isStraight {s : Stmt} (h : s.isStraight = true)
    (inits inLoop : Bool) :
    s.jumpsEnclosed inits inLoop = true := by
  cases s <;> first | rfl | cases h

theorem Stmt.allJumpsEnclosed_of_isStraight {stmts : List Stmt}
    (h : stmts.all Stmt.isStraight = true) (inits inLoop : Bool) :
    Stmt.allJumpsEnclosed inits inLoop stmts = true := by
  induction stmts with
  | nil => rfl
  | cons s rest ih =>
    rw [List.all_cons, Bool.and_eq_true] at h
    rw [allJumpsEnclosed, jumpsEnclosed_of_isStraight h.1, ih h.2, Bool.and_true]

mutual

/-- Where no jump stands in an initialiser, it does not matter what it is a part of. -/
theorem Stmt.jumpsEnclosed_of_straightInits {inLoop : Bool} :
    ∀ s : Stmt, s.straightInits = true → s.jumpsEnclosed true inLoop = true →
      s.jumpsEnclosed false inLoop = true
  | .branch _ thenBody, hs, h => allJumpsEnclosed_of_straightInits thenBody hs h
  | .branchElse _ thenBody elseBody, hs, h => by
    rw [straightInits, Bool.and_eq_true] at hs
    rw [jumpsEnclosed, Bool.and_eq_true] at h ⊢
    exact ⟨allJumpsEnclosed_of_straightInits thenBody hs.1 h.1,
      allJumpsEnclosed_of_straightInits elseBody hs.2 h.2⟩
  | .whileLoop _ body, hs, h => allJumpsEnclosed_of_straightInits body hs h
  | .doWhile body _, hs, h => allJumpsEnclosed_of_straightInits body hs h
  | .forLoop init _ _ body, hs, h => by
    rw [straightInits, Bool.and_eq_true] at hs
    rw [jumpsEnclosed, Bool.and_eq_true] at h ⊢
    exact ⟨allJumpsEnclosed_of_isStraight hs.1 _ _, allJumpsEnclosed_of_straightInits body hs.2 h.2⟩
  | .block body, hs, h => allJumpsEnclosed_of_straightInits body hs h
  | .jump _, _, h => h
  | .line _, _, _ | .declare _ _, _, _ | .construct _ _, _, _ | .array _ _ _, _, _ | .expr _, _, _
  | .ret _, _, _ | .malformed _, _, _ => rfl

theorem Stmt.allJumpsEnclosed_of_straightInits {inLoop : Bool} :
    ∀ stmts : List Stmt, Stmt.allStraightInits stmts = true →
      Stmt.allJumpsEnclosed true inLoop stmts = true →
      Stmt.allJumpsEnclosed false inLoop stmts = true
  | [], _, _ => rfl
  | s :: rest, hs, h => by
    rw [allStraightInits, Bool.and_eq_true] at hs
    rw [allJumpsEnclosed, Bool.and_eq_true] at h ⊢
    exact ⟨jumpsEnclosed_of_straightInits s hs.1 h.1,
      allJumpsEnclosed_of_straightInits rest hs.2 h.2⟩

end

end Stepwise
