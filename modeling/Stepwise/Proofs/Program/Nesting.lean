import Stepwise.Proofs.Program.Trees
import Stepwise.Proofs.Program.Written

/-!
# How deep trees are

Reading goes no more than `maxNesting` levels deep, but not every step down a tree is such a level.
The operands of a sequence of operators are read in a loop, and so is what follows an operand, and
each turn of these loops puts one more node on top of the tree that was there before.  So a text
that is not nested at all, like `1 + 1 + 1 + …`, has a tree as deep as it is long.

* `Expr.depth link` and `Stmt.depth link` are the length of the longest way down a tree.  A step to
  a part that is read before it is known to be a part, like the left operand of an operator or the
  object of a member, counts `link`, and all others count one.  So `depth 1` is the height, and
  `depth 0` leaves such chains out.
* `Program.depth_bounded` bounds the depth apart from chains by the number of levels.
* `Program.height_unbounded` says that there is no bound for the height.
-/

set_option autoImplicit false

namespace Stepwise

/-! ## The depth of a tree -/

mutual

/-- The longest way down an expression, where a step along a chain counts `link`. -/
def Expr.depth (link : Nat) : Expr → Nat
  | .literal _ => 0
  | .var _ => 0
  | .assign target value => max (target.depth link + link) (value.depth link + 1)
  | .update _ target value => max (target.depth link + link) (value.depth link + 1)
  | .step op target => target.depth link + if op.isPost then link else 1
  | .binary _ left right => max (left.depth link + link) (right.depth link + 1)
  | .unary _ operand => operand.depth link + 1
  | .ternary condition thenValue elseValue =>
    max (condition.depth link + link) (max (thenValue.depth link) (elseValue.depth link) + 1)
  | .call _ args => Expr.depths link args + 1
  | .method object _ args => max (object.depth link + link) (Expr.depths link args + 1)
  | .member object _ => object.depth link + link
  | .index object key => max (object.depth link + link) (key.depth link + 1)
  | .guard condition => condition.depth link + 1

/-- The longest way down any of several expressions. -/
def Expr.depths (link : Nat) : List Expr → Nat
  | [] => 0
  | e :: es => max (e.depth link) (Expr.depths link es)

end

mutual

/-- The longest way down a statement, where a step along a chain counts `link`. -/
def Stmt.depth (link : Nat) : Stmt → Nat
  | .line _ => 0
  | .declare _ init => Expr.depths link init.toList + 1
  | .construct _ _ => 0
  | .array _ size init => max (Expr.depths link size.toList) (Expr.depths link init) + 1
  | .expr e => e.depth link + 1
  | .branch condition thenBody => max (condition.depth link) (Stmt.depths link thenBody) + 1
  | .branchElse condition thenBody elseBody =>
    max (condition.depth link) (max (Stmt.depths link thenBody) (Stmt.depths link elseBody)) + 1
  | .whileLoop condition body => max (condition.depth link) (Stmt.depths link body) + 1
  | .doWhile body condition => max (condition.depth link) (Stmt.depths link body) + 1
  | .forLoop init condition increment body =>
    max (max (Stmt.depths link init) (condition.depth link))
      (max (Expr.depths link increment) (Stmt.depths link body)) + 1
  | .block body => Stmt.depths link body + 1
  | .ret value => Expr.depths link value.toList + 1
  | .jump _ => 0
  | .malformed _ => 0

/-- The longest way down any of several statements. -/
def Stmt.depths (link : Nat) : List Stmt → Nat
  | [] => 0
  | s :: rest => max (s.depth link) (Stmt.depths link rest)

end

theorem Expr.depths_le_iff {link n : Nat} {es : List Expr} :
    Expr.depths link es ≤ n ↔ ∀ e ∈ es, e.depth link ≤ n := by
  induction es with
  | nil => simp [Expr.depths]
  | cons e es ih => rw [Expr.depths, Nat.max_le, List.forall_mem_cons, ih]

theorem Stmt.depths_le_iff {link n : Nat} {stmts : List Stmt} :
    Stmt.depths link stmts ≤ n ↔ ∀ s ∈ stmts, s.depth link ≤ n := by
  induction stmts with
  | nil => simp [Stmt.depths]
  | cons s stmts ih => rw [Stmt.depths, Nat.max_le, List.forall_mem_cons, ih]

/-- The longest way down a program, in its own statements and in those of its functions. -/
def Program.depth (link : Nat) (p : Program) : Nat :=
  (p.body :: p.functions.map Function.body).foldr (fun stmts n => max (Stmt.depths link stmts) n) 0

theorem Program.depth_le_iff {link n : Nat} {p : Program} :
    p.depth link ≤ n ↔ p.Holds fun s => s.depth link ≤ n := by
  have hfold : ∀ bodies : List (List Stmt),
      bodies.foldr (fun stmts m => max (Stmt.depths link stmts) m) 0 ≤ n ↔
        ∀ stmts ∈ bodies, Stmt.depths link stmts ≤ n := by
    intro bodies
    induction bodies with
    | nil => simp
    | cons stmts bodies ih => rw [List.foldr_cons, Nat.max_le, List.forall_mem_cons, ih]
  rw [depth, hfold, List.forall_mem_cons, List.forall_mem_map, Stmt.depths_le_iff]
  simp only [Stmt.depths_le_iff]
  exact ⟨fun h => ⟨h.1, h.2⟩, fun h => ⟨h.body, h.functions⟩⟩

/-! ## Sequences of operators -/

theorem BinaryOp.precedence_le (op : BinaryOp) : op.precedence ≤ 10 := by
  cases op <;> decide

namespace Chain

/-- Pending operators bind less tightly than `bound` and than those before them in the list, which
come after them in the text.  A tree of operators that bind more tightly is less deep: by one for
each degree. -/
def Pending (n : Nat) : Nat → List (Expr × BinaryOp) → Prop
  | _, [] => True
  | bound, (left, op) :: pending =>
    op.precedence < bound ∧ left.depth 0 ≤ n + (11 - op.precedence) ∧
      Pending n op.precedence pending

theorem pending_collapse {n strength : Nat} :
    ∀ {bound : Nat} {pending : List (Expr × BinaryOp)} {last : Expr}, strength ≤ bound →
      Pending n bound pending → last.depth 0 ≤ n + (11 - bound) →
      Pending n strength (collapse strength pending last).1 ∧
        (collapse strength pending last).2.depth 0 ≤ n + (11 - strength)
  | bound, [], last, hle, _, hlast => ⟨trivial, Nat.le_trans hlast (by omega)⟩
  | bound, (left, op) :: pending, last, hle, ⟨hop, hleft, hpending⟩, hlast => by
    have hdegree := op.precedence_le
    rw [collapse]
    split
    · rename_i hstrength
      refine pending_collapse hstrength hpending ?_
      rw [Expr.depth]
      omega
    · rename_i hstrength
      exact ⟨⟨by omega, hleft, hpending⟩, Nat.le_trans hlast (by omega)⟩

theorem depth_build {n : Nat} :
    ∀ {others : List (BinaryOp × Expr)} {pending : List (Expr × BinaryOp)} {last : Expr},
      Pending n 11 pending → last.depth 0 ≤ n → (∀ q ∈ others, q.2.depth 0 ≤ n) →
      (build pending last others).depth 0 ≤ n + 11
  | [], pending, last, hpending, hlast, _ =>
    (pending_collapse (Nat.zero_le 11) hpending hlast).2
  | (op, operand) :: others, pending, last, hpending, hlast, hothers => by
    have hdegree := op.precedence_le
    rw [List.forall_mem_cons] at hothers
    obtain ⟨hlower, hleft⟩ := pending_collapse (by omega : op.precedence ≤ 11) hpending hlast
    rw [build]
    exact depth_build ⟨by omega, hleft, hlower⟩ hothers.1 hothers.2

/-- A tree of operators is deeper than its operands by at most the number of degrees of binding,
apart from chains of operators that bind equally. -/
theorem depth_tree {n : Nat} {first : Expr} {others : List (BinaryOp × Expr)}
    (hfirst : first.depth 0 ≤ n) (hothers : ∀ q ∈ others, q.2.depth 0 ≤ n) :
    (tree first others).depth 0 ≤ n + 11 :=
  depth_build trivial hfirst hothers

end Chain

/-! ## The bound -/

theorem buildsExpr_depth (n : Nat) :
    BuildsExpr (fun e => e.depth 0 ≤ n) (fun e => e.depth 0 ≤ n + 1)
      (fun e => e.depth 0 ≤ n + 12) where
  literal _ := Nat.zero_le _
  var _ := Nat.zero_le _
  enclosed := Nat.le_succ_of_le
  unary he := Nat.succ_le_succ he
  stepBefore hop he := by
    rw [Expr.depth, hop]
    exact Nat.succ_le_succ he
  stepAfter hop he := by
    rw [Expr.depth, hop]
    exact he
  call hargs := Nat.succ_le_succ (Expr.depths_le_iff.2 hargs)
  method he hargs := Nat.max_le.2 ⟨he, Nat.succ_le_succ (Expr.depths_le_iff.2 hargs)⟩
  member he := he
  index he hkey := Nat.max_le.2 ⟨he, Nat.succ_le_succ hkey⟩
  whole he := Nat.le_trans he (by omega)
  tree := Chain.depth_tree
  ternary hc ha hb := by
    rw [Expr.depth]
    omega
  assign ht hv := Nat.max_le.2 ⟨ht, Nat.le_trans (Nat.succ_le_succ hv) (by omega)⟩
  update ht hv := Nat.max_le.2 ⟨ht, Nat.le_trans (Nat.succ_le_succ hv) (by omega)⟩

theorem depth_guarded {n : Nat} {test : Option Expr} (h : ∀ e ∈ test, e.depth 0 ≤ n) :
    (Expr.guarded test).depth 0 ≤ n + 1 := by
  cases test with
  | none => exact Nat.succ_le_succ (Nat.zero_le n)
  | some e => exact Nat.succ_le_succ (h e rfl)

theorem depths_toList {n : Nat} {value : Option Expr} (h : ∀ e ∈ value, e.depth 0 ≤ n) :
    Expr.depths 0 value.toList ≤ n :=
  Expr.depths_le_iff.2 fun e he => h e (by simpa using he)

theorem buildsStmt_depth (n : Nat) :
    BuildsStmt (fun _ => True) (fun e => e.depth 0 ≤ n) (fun s => s.depth 0 ≤ n)
      (fun s => s.depth 0 ≤ n + 1) (fun s => s.depth 0 ≤ n + 12) where
  declare hinit := Nat.succ_le_succ (depths_toList hinit)
  construct _ _ := Nat.zero_le _
  array hsize hinit :=
    Nat.succ_le_succ (Nat.max_le.2 ⟨depths_toList hsize, Expr.depths_le_iff.2 hinit⟩)
  expr he := Nat.succ_le_succ he
  ret hvalue := Nat.succ_le_succ (depths_toList hvalue)
  jump _ := Nat.zero_le _
  whole hs := Nat.le_trans hs (by omega)
  same hs := Nat.le_trans hs (by omega)
  branch hc hbody := by
    have hbody := Stmt.depths_le_iff.2 hbody
    rw [Stmt.depth]
    omega
  branchElse hc hthen helse := by
    have hthen := Stmt.depths_le_iff.2 hthen
    have helse := Stmt.depths_le_iff.2 helse
    rw [Stmt.depth]
    omega
  whileLoop {c _} hc hbody := by
    have hc := @depth_guarded n (some c) (by simpa using hc)
    have hbody := Stmt.depths_le_iff.2 hbody
    rw [Stmt.depth]
    omega
  doWhile {_ c} hbody hc := by
    have hc := @depth_guarded n (some c) (by simpa using hc)
    have hbody := Stmt.depths_le_iff.2 hbody
    rw [Stmt.depth]
    omega
  forLoop hinit _ htest hincrement hbody := by
    have hinit := Stmt.depths_le_iff.2 hinit
    have htest := depth_guarded htest
    have hincrement := Expr.depths_le_iff.2 hincrement
    have hbody := Stmt.depths_le_iff.2 hbody
    rw [Stmt.depth]
    omega
  block hbody := by
    have hbody := Stmt.depths_le_iff.2 hbody
    rw [Stmt.depth]
    omega
  line _ := Nat.zero_le _
  malformed _ := Nat.zero_le _

/-- **Levels bound the depth apart from chains.**  Each level of nesting has room for a statement or
for operators of every degree of binding. -/
theorem Program.depth_bounded (source : String) :
    (ofSource source).depth 0 ≤ 12 * maxNesting :=
  depth_le_iff.2 <| holds_ofSource (fun depth => buildsExpr_depth (12 * depth))
    (fun depth => buildsStmt_depth (12 * depth)) (by decide) source

/-! ## A chain -/

/-- The operators and operands of a sum of ones, after its first operand. -/
def moreOnes (n : Nat) : List (BinaryOp × List TokenKind × Expr) :=
  List.replicate n (.add, [.int 1], .literal (.int 1))

/-- The tokens of a sum of `n + 1` ones. -/
def sumTokens (n : Nat) : List TokenKind :=
  [.int 1] ++ (moreOnes n).flatMap fun q => .symbol q.1.token :: q.2.1

/-- A text of one line, a sum of `n + 1` ones. -/
def sumText (n : Nat) : String :=
  String.ofList (Token.spellLines [sumTokens n ++ [.symbol .semicolon]])

/-- Operators that bind equally make a tree that is as deep as there are operators. -/
theorem height_build (n : Nat) :
    ∀ left : Expr, left.depth 1 + 1 + n ≤
      (Chain.build [(left, .add)] (.literal (.int 1))
        ((moreOnes n).map fun q => (q.1, q.2.2))).depth 1 := by
  induction n with
  | zero =>
    intro left
    exact Nat.le_max_left _ _
  | succ n ih =>
    intro left
    have hnext := ih (.binary .add left (.literal (.int 1)))
    have hleft : left.depth 1 + 1 ≤ (Expr.binary .add left (.literal (.int 1))).depth 1 :=
      Nat.le_max_left _ _
    have hstep : Chain.build [(left, .add)] (.literal (.int 1))
          ((moreOnes (n + 1)).map fun q => (q.1, q.2.2))
        = Chain.build [(.binary .add left (.literal (.int 1)), .add)] (.literal (.int 1))
          ((moreOnes n).map fun q => (q.1, q.2.2)) := rfl
    rw [hstep]
    omega

theorem height_sum (n : Nat) :
    n ≤ (Chain.tree (.literal (.int 1)) ((moreOnes n).map fun q => (q.1, q.2.2))).depth 1 := by
  cases n with
  | zero => exact Nat.zero_le _
  | succ n =>
    have hbuild := height_build n (.literal (.int 1))
    have htree : Chain.tree (.literal (.int 1)) ((moreOnes (n + 1)).map fun q => (q.1, q.2.2))
        = Chain.build [(.literal (.int 1), .add)] (.literal (.int 1))
          ((moreOnes n).map fun q => (q.1, q.2.2)) := rfl
    rw [htree]
    simp only [Expr.depth] at hbuild
    omega

theorem isWritable_sumTokens (n : Nat) : ∀ k ∈ sumTokens n, k.isWritable = true := by
  intro k hk
  rw [sumTokens, List.mem_append, List.mem_flatMap] at hk
  rcases hk with hk | ⟨q, hq, hk⟩
  · rw [List.mem_singleton.1 hk]
    decide
  · rw [moreOnes, List.mem_replicate] at hq
    rw [hq.2] at hk
    simp only [List.mem_cons, List.not_mem_nil, or_false] at hk
    rcases hk with rfl | rfl <;> decide

namespace Parser

/-- However long it is, a sum is read without going deeper than its operands. -/
theorem reads_sum (depth n : Nat) :
    Reads (inner (depth + 1)).expression (sumTokens n) TokenKind.endsExpr
      (Chain.tree (.literal (.int 1)) ((moreOnes n).map fun q => (q.1, q.2.2))) := by
  have hone : Reads (unary (inner depth)) [.int 1] TokenKind.endsOperand (.literal (.int 1)) :=
    reads_unary_operand (reads_operand_nil (reads_primary_literal rfl)) (begins_cons rfl) nofun
  refine reads_assignment_choice (reads_ternary_chain (reads_binary hone fun q hq => ?_))
  rw [moreOnes, List.mem_replicate] at hq
  rw [hq.2]
  exact hone

end Parser

/-- The sum is read as a whole. -/
theorem mem_ofSource_sumText (n : Nat) :
    Stmt.expr (Chain.tree (.literal (.int 1)) ((moreOnes n).map fun q => (q.1, q.2.2)))
      ∈ (Program.ofSource (sumText n)).body := by
  have hwritable : ∀ ks ∈ [sumTokens n ++ [.symbol .semicolon]], ∀ k ∈ ks,
      k.isWritable = true := by
    simp only [List.mem_singleton, forall_eq, List.mem_append]
    rintro k (hk | rfl)
    · exact isWritable_sumTokens n k hk
    · rfl
  obtain ⟨s, s', hs, hend, hprogram⟩ := Program.ofSource_spellLines hwritable (rfl : sumText n = _)
  have hline := hs.singleton.1
  obtain ⟨place, rest, finish, rfl, -⟩ := hline.eq_cons
  have hread := Parser.reads_expressionStatement (Parser.reads_sum 254 n) hline rfl
  have hstatement : Parser.statement (Program.lineText (sumText n)) maxNesting
        ⟨⟨.int 1, place⟩ :: rest, finish⟩
      = Parser.expressionStatement (Parser.level 255) ⟨⟨.int 1, place⟩ :: rest, finish⟩ := rfl
  rw [hprogram, Parser.topLevels_step (List.cons_ne_nil _ _)
      (Parser.topLevel_statement rfl rfl (Parser.recovered_of_ok (hstatement.trans hread))),
    Parser.topLevels_end hend]
  exact List.mem_cons_of_mem _ List.mem_cons_self

/-- **There is no bound for the height of trees.** -/
theorem Program.height_unbounded :
    ¬ ∃ bound, ∀ source : String, (ofSource source).depth 1 ≤ bound := by
  rintro ⟨bound, h⟩
  have hmem := mem_ofSource_sumText bound
  have hstmt := (depth_le_iff.1 (h (sumText bound))).body _ hmem
  have hsum := height_sum bound
  rw [Stmt.depth] at hstmt
  omega

end Stepwise
