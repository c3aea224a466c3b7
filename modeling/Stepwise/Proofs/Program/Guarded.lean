import Stepwise.Program.Source
import Stepwise.Proofs.Program.Ends
import Stepwise.Proofs.Program.Yields

/-!
# Guarded programs

A run counts the evaluations of loop conditions where it meets a `guard`.  A program is *guarded* if
that is where it meets one: the condition of every loop is a guard, at every depth and in every
function, and there is no guard anywhere else.

`Expr.guardFree`, `Stmt.guarded` and `Program.guarded` decide this, and `ofSource_guarded` says that
every program read from a source text is guarded.  The proof follows the parsers from the inside
out: no expression parser makes a guard, and the three loop statements wrap what they read.
-/

set_option autoImplicit false

namespace Stepwise

/-! ## The shape -/

mutual

/-- Whether an expression has no guard in it. -/
def Expr.guardFree : Expr → Bool
  | .literal _ => true
  | .var _ => true
  | .assign target value => target.guardFree && value.guardFree
  | .update _ target value => target.guardFree && value.guardFree
  | .step _ target => target.guardFree
  | .binary _ left right => left.guardFree && right.guardFree
  | .unary _ operand => operand.guardFree
  | .ternary condition thenValue elseValue =>
    condition.guardFree && thenValue.guardFree && elseValue.guardFree
  | .call _ args => Expr.allGuardFree args
  | .method object _ args => object.guardFree && Expr.allGuardFree args
  | .member object _ => object.guardFree
  | .index object key => object.guardFree && key.guardFree
  | .guard _ => false

/-- Whether no expression of a list has a guard in it. -/
def Expr.allGuardFree : List Expr → Bool
  | [] => true
  | e :: es => e.guardFree && Expr.allGuardFree es

end

/-- Whether an expression is a guard with no other guard in it. -/
def Expr.isLoopCondition : Expr → Bool
  | .guard condition => condition.guardFree
  | _ => false

mutual

/-- Whether all loop conditions of a statement, and nothing else in it, are guards. -/
def Stmt.guarded : Stmt → Bool
  | .line _ => true
  | .declare _ init => init.all Expr.guardFree
  | .construct _ _ => true
  | .array _ size init => size.all Expr.guardFree && Expr.allGuardFree init
  | .expr e => e.guardFree
  | .branch condition thenBody => condition.guardFree && Stmt.allGuarded thenBody
  | .branchElse condition thenBody elseBody =>
    condition.guardFree && Stmt.allGuarded thenBody && Stmt.allGuarded elseBody
  | .whileLoop condition body => condition.isLoopCondition && Stmt.allGuarded body
  | .doWhile body condition => Stmt.allGuarded body && condition.isLoopCondition
  | .forLoop init condition increment body =>
    Stmt.allGuarded init && condition.isLoopCondition && Expr.allGuardFree increment &&
      Stmt.allGuarded body
  | .block body => Stmt.allGuarded body
  | .ret value => value.all Expr.guardFree
  | .jump _ => true
  | .malformed _ => true

/-- Whether all statements of a list are guarded. -/
def Stmt.allGuarded : List Stmt → Bool
  | [] => true
  | s :: rest => s.guarded && Stmt.allGuarded rest

end

-- whether a tree is guarded is computed from its parts in all that follows
attribute [local simp] Expr.guardFree Expr.allGuardFree Stmt.guarded Stmt.allGuarded

/-- Whether a program is guarded: its own statements, and the bodies of its functions. -/
def Program.guarded (p : Program) : Bool :=
  Stmt.allGuarded p.body && p.functions.all fun f => Stmt.allGuarded f.body

theorem Expr.allGuardFree_iff {es : List Expr} :
    Expr.allGuardFree es = true ↔ ∀ e ∈ es, e.guardFree = true := by
  induction es with
  | nil => simp
  | cons e es ih => rw [Expr.allGuardFree, Bool.and_eq_true, List.forall_mem_cons, ih]

theorem Stmt.allGuarded_iff {stmts : List Stmt} :
    Stmt.allGuarded stmts = true ↔ ∀ s ∈ stmts, s.guarded = true := by
  induction stmts with
  | nil => simp
  | cons s stmts ih => rw [Stmt.allGuarded, Bool.and_eq_true, List.forall_mem_cons, ih]

theorem Stmt.allGuarded_append {stmts others : List Stmt} :
    Stmt.allGuarded (stmts ++ others) = true ↔
      Stmt.allGuarded stmts = true ∧ Stmt.allGuarded others = true := by
  rw [allGuarded_iff, allGuarded_iff, allGuarded_iff, List.forall_mem_append]

@[simp]
theorem Expr.isLoopCondition_guarded (condition : Option Expr) :
    (Expr.guarded condition).isLoopCondition = condition.all Expr.guardFree := by
  cases condition <;> rfl

/-! ## Operators -/

namespace Chain

/-- A tree of operands without guards has none. -/
theorem guardFree_tree {first : Expr} {others : List (BinaryOp × Expr)}
    (hf : first.guardFree = true) (ho : ∀ q ∈ others, q.2.guardFree = true) :
    (tree first others).guardFree = true :=
  holds_tree (fun hl hr => Bool.and_eq_true_iff.2 ⟨hl, hr⟩) hf ho

end Chain

/-! ## Expressions

`GuardFreeInner` is what the parsers of a deeper level are assumed to yield; each level then yields
the same, and `guardFreeInner` closes the circle by induction on the depth. -/

namespace Parser

/-- All expressions that the parsers of a level yield are free of guards. -/
structure GuardFreeInner (inner : Inner Parser) : Prop where
  /-- Full expressions. -/
  expression : Yields (fun e => e.guardFree = true) inner.expression
  /-- Expressions without assignments. -/
  ternary : Yields (fun e => e.guardFree = true) inner.ternary
  /-- Operands. -/
  unary : Yields (fun e => e.guardFree = true) inner.unary

variable {inner : Inner Parser}

theorem GuardFreeInner.arguments (h : GuardFreeInner inner) :
    Yields (fun args => Expr.allGuardFree args = true) (arguments inner) := by
  rw [Parser.arguments]
  refine yields_after fun close => ?_
  split
  · exact yields_pure rfl
  · refine yields_bind (yields_commaList h.expression) fun args hargs => yields_after fun _ => ?_
    exact yields_pure (Expr.allGuardFree_iff.2 hargs)

theorem yields_literal (l : Literal) : Yields (fun e => e.guardFree = true) (literal l) :=
  yields_after fun _ => yields_pure rfl

theorem GuardFreeInner.primary (h : GuardFreeInner inner) :
    Yields (fun e => e.guardFree = true) (primary inner) := by
  rw [Parser.primary]
  refine yields_after fun next => ?_
  split
  case h_8 =>
    split
    · exact yields_literal _
    · exact yields_after fun _ => yields_pure rfl
  case h_9 =>
    refine yields_after fun _ => yields_bind h.expression fun e he => yields_after fun _ => ?_
    exact yields_pure he
  case h_10 | h_11 => exact yields_failHere _
  all_goals exact yields_literal _

theorem GuardFreeInner.memberOf (h : GuardFreeInner inner) {object : Expr}
    (ho : object.guardFree = true) :
    Yields (fun e => e.guardFree = true) (memberOf inner object) := by
  rw [Parser.memberOf]
  refine yields_after fun name => yields_after fun call => ?_
  split
  · refine yields_bind h.arguments fun args hargs => yields_pure ?_
    rw [Expr.guardFree, ho, hargs]
    rfl
  · exact yields_pure ho

theorem GuardFreeInner.trailers (h : GuardFreeInner inner) :
    ∀ (fuel : Nat) {e : Expr}, e.guardFree = true →
      Yields (fun e => e.guardFree = true) (trailers inner fuel e)
  | 0, _, he => yields_pure he
  | fuel + 1, e, he => by
    unfold Parser.trailers
    refine yields_after fun next => ?_
    split
    · split
      · refine yields_after fun _ => yields_bind h.arguments fun args hargs => ?_
        exact h.trailers fuel hargs
      · exact yields_failHere _
    · refine yields_after fun _ => yields_bind (h.memberOf he) fun e' he' => ?_
      exact h.trailers fuel he'
    · refine yields_after fun _ => yields_bind (h.memberOf he) fun e' he' => ?_
      exact h.trailers fuel he'
    · refine yields_after fun _ => yields_bind h.expression fun i hi => yields_after fun _ => ?_
      refine h.trailers fuel ?_
      rw [Expr.guardFree, he, hi]
      rfl
    · exact yields_after fun _ => h.trailers fuel he
    · exact yields_after fun _ => h.trailers fuel he
    · exact yields_pure he

theorem GuardFreeInner.operand (h : GuardFreeInner inner) :
    Yields (fun e => e.guardFree = true) (operand inner) :=
  yields_bind h.primary fun _ he => yields_after fun _ => h.trailers _ he

theorem GuardFreeInner.level_unary (h : GuardFreeInner inner) :
    Yields (fun e => e.guardFree = true) (Parser.unary inner) := by
  rw [Parser.unary]
  refine yields_after fun next => ?_
  split
  · exact yields_after fun _ => yields_bind h.unary fun e he => yields_pure he
  · split
    · exact yields_after fun _ => h.unary
    · exact yields_after fun _ => yields_bind h.unary fun e he => yields_pure he
    · exact yields_after fun _ => yields_bind h.unary fun e he => yields_pure he
    · exact yields_failHere _
    · exact yields_failHere _
    · refine yields_after fun second => ?_
      split
      · exact yields_after fun _ => yields_after fun _ => yields_after fun _ => h.unary
      · exact h.operand
    · exact h.operand

theorem GuardFreeInner.operations (h : GuardFreeInner inner) :
    ∀ fuel, Yields (fun others => ∀ q ∈ others, q.2.guardFree = true) (operations inner fuel)
  | 0 => yields_pure fun _ hq => by cases hq
  | fuel + 1 => by
    rw [Parser.operations]
    refine yields_after fun next => ?_
    split
    · refine yields_after fun _ => yields_bind h.level_unary fun right hright => ?_
      refine yields_bind (h.operations fuel) fun others hothers => yields_pure ?_
      exact List.forall_mem_cons.2 ⟨hright, hothers⟩
    · exact yields_pure fun _ hq => by cases hq

theorem GuardFreeInner.level_ternary (h : GuardFreeInner inner) :
    Yields (fun e => e.guardFree = true) (Parser.ternary inner) := by
  have hbinary : Yields (fun e => e.guardFree = true) (binary inner) :=
    yields_bind h.level_unary fun first hfirst => yields_after fun _ =>
      yields_bind (h.operations _) fun others hothers =>
        yields_pure (Chain.guardFree_tree hfirst hothers)
  rw [Parser.ternary]
  refine yields_bind hbinary fun condition hc => yields_after fun question => ?_
  split
  · refine yields_bind h.expression fun a ha => yields_after fun _ => ?_
    refine yields_bind h.ternary fun b hb => yields_pure ?_
    rw [Expr.guardFree, hc, ha, hb]
    rfl
  · exact yields_pure hc

theorem GuardFreeInner.level_expression (h : GuardFreeInner inner) :
    Yields (fun e => e.guardFree = true) (assignment inner) := by
  rw [assignment]
  refine yields_bind h.level_ternary fun target ht => yields_after fun assign => ?_
  split
  · refine yields_bind h.expression fun value hv => yields_pure ?_
    rw [Expr.guardFree, ht, hv]
    rfl
  · refine yields_after fun next => ?_
    split
    · refine yields_after fun _ => yields_bind h.expression fun value hv => yields_pure ?_
      rw [Expr.guardFree, ht, hv]
      rfl
    · exact yields_pure ht

/-- **No expression parser makes a guard.** -/
theorem guardFreeInner : ∀ depth, GuardFreeInner (Parser.inner depth)
  | 0 => ⟨yields_failHere _, yields_failHere _, yields_failHere _⟩
  | depth + 1 =>
    have h := guardFreeInner depth
    ⟨h.level_expression, h.level_ternary, h.level_unary⟩

/-! ## Declarations -/

theorem yields_initializerItems {expression : Parser Expr} {nested : Parser (List Expr)}
    (he : Yields (fun e => e.guardFree = true) expression)
    (hn : Yields (fun es => ∀ e ∈ es, e.guardFree = true) nested) :
    ∀ fuel, Yields (fun es => ∀ e ∈ es, e.guardFree = true)
      (initializerItems expression nested fuel)
  | 0 => yields_pure fun _ h => by cases h
  | fuel + 1 => by
    rw [initializerItems]
    refine yields_after fun close => ?_
    split
    · exact yields_pure fun _ h => by cases h
    · refine yields_after fun brace => ?_
      extract_lets rest
      have hrest : ∀ items : List Expr, (∀ e ∈ items, e.guardFree = true) →
          Yields (fun es => ∀ e ∈ es, e.guardFree = true) (rest items) := by
        intro items hitems
        refine yields_after fun comma => ?_
        split
        · refine yields_bind (yields_initializerItems he hn fuel) fun others hothers => ?_
          exact yields_pure (List.forall_mem_append.2 ⟨hitems, hothers⟩)
        · exact yields_after fun _ => yields_pure hitems
      split
      · exact yields_bind hn hrest
      · refine yields_bind he fun e hfree => yields_bind (yields_pure ?_) hrest
        simpa using hfree

theorem yields_initializerList :
    ∀ depth, Yields (fun es => ∀ e ∈ es, e.guardFree = true) (initializerList depth)
  | 0 => yields_after fun _ =>
    yields_initializerItems (guardFreeInner 0).expression (yields_failHere _) _
  | depth + 1 => yields_after fun _ =>
    yields_initializerItems (guardFreeInner (depth + 1)).expression (yields_initializerList depth) _

theorem yields_arrayDeclarator (depth : Nat) (name : String) :
    Yields (fun s => s.guarded = true) (arrayDeclarator (level depth) name) := by
  rw [arrayDeclarator]
  refine yields_after fun unsized => ?_
  extract_lets rest
  have hrest : ∀ size : Option Expr, size.all Expr.guardFree = true →
      Yields (fun s => s.guarded = true) (rest size) := by
    intro size hsize
    refine yields_after fun _ => yields_after fun second => ?_
    split
    · exact yields_failHere _
    · refine yields_after fun assign => yields_after fun brace => ?_
      split
      · refine yields_after fun _ => yields_bind (yields_initializerList depth) fun es hes => ?_
        refine yields_pure ?_
        rw [Stmt.guarded, hsize, Expr.allGuardFree_iff.2 hes]
        rfl
      · split
        · exact yields_failHere _
        · refine yields_pure ?_
          rw [Stmt.guarded, hsize]
          rfl
  split
  · exact hrest none rfl
  · refine yields_bind (guardFreeInner depth).expression fun e he => ?_
    exact hrest (some e) he

theorem yields_declarator (depth : Nat) :
    Yields (fun s => s.guarded = true) (declarator (level depth)) := by
  rw [declarator]
  refine yields_after fun _ => yields_after fun name => yields_after fun bracket => ?_
  split
  · exact yields_arrayDeclarator depth name
  · refine yields_after fun assign => ?_
    split
    · exact yields_bind (guardFreeInner depth).expression fun e he => yields_pure he
    · refine yields_after fun paren => ?_
      split
      · refine yields_bind (guardFreeInner depth).expression fun e he => yields_after fun _ => ?_
        exact yields_pure he
      · refine yields_after fun brace => ?_
        split
        · refine yields_bind (yields_initializerList depth) fun es hes => yields_pure ?_
          cases es with
          | nil => rfl
          | cons e es => exact hes e List.mem_cons_self
        · exact yields_pure rfl

theorem yields_scalarDeclaration (depth : Nat) :
    Yields (fun stmts => Stmt.allGuarded stmts = true) (scalarDeclaration (level depth)) := by
  rw [scalarDeclaration]
  refine yields_after fun _ => yields_after fun next => ?_
  split
  · refine yields_after fun _ => yields_bind (yields_commaList (yields_declarator depth)) ?_
    exact fun stmts hs => yields_after fun _ => yields_pure (Stmt.allGuarded_iff.2 hs)
  · exact yields_failHere _

theorem yields_containerDeclaration (kind : SequenceKind) :
    Yields (fun stmts => Stmt.allGuarded stmts = true) (containerDeclaration kind) := by
  have hitem : Yields (fun s => s.guarded = true) (containerDeclarator kind) := by
    rw [containerDeclarator]
    refine yields_after fun name => yields_after fun next => ?_
    split
    · exact yields_failHere _
    · exact yields_pure rfl
  refine yields_after fun _ => yields_after fun _ => yields_bind (yields_commaList hitem) ?_
  exact fun stmts hs => yields_after fun _ => yields_pure (Stmt.allGuarded_iff.2 hs)

/-! ## Statements -/

/-- The parser yields guarded statements. -/
abbrev YieldsGuarded (p : Parser (List Stmt)) : Prop :=
  Yields (fun stmts => Stmt.allGuarded stmts = true) p

/-- Neither a line marker nor an error in place of a statement is a loop. -/
theorem yieldsGuarded_recovered {lineText : Nat → String} {statement : Parser (List Stmt)}
    (h : YieldsGuarded statement) : YieldsGuarded (recovered lineText statement) := by
  intro s stmts s' hs
  rw [recovered_apply] at hs
  split at hs
  · cases hs
    rfl
  · next hok =>
    cases hs
    rw [Stmt.allGuarded, h _ _ _ hok]
    rfl
  · cases hs
    rfl

theorem yieldsGuarded_statementItems {statement : Parser (List Stmt)}
    (h : YieldsGuarded statement) : ∀ fuel, YieldsGuarded (statementItems statement fuel)
  | 0 => yields_pure rfl
  | fuel + 1 => by
    rw [statementItems]
    refine yields_after fun s => ?_
    split
    · exact yields_pure rfl
    · refine yields_bind h fun first hfirst => ?_
      refine yields_bind (yieldsGuarded_statementItems h fuel) fun others hothers => yields_pure ?_
      exact Stmt.allGuarded_append.2 ⟨hfirst, hothers⟩

theorem yieldsGuarded_statements {statement : Parser (List Stmt)} (h : YieldsGuarded statement) :
    YieldsGuarded (statements statement) :=
  yields_after fun _ => yieldsGuarded_statementItems h _

theorem yieldsGuarded_block {statement : Parser (List Stmt)} (h : YieldsGuarded statement) :
    YieldsGuarded (block statement) :=
  yields_bind (yieldsGuarded_statements h) fun _ hs => yields_after fun _ => yields_pure hs

theorem yieldsGuarded_body {statement : Parser (List Stmt)} (h : YieldsGuarded statement) :
    YieldsGuarded (body statement) := by
  rw [body]
  refine yields_after fun brace => ?_
  split
  · exact yieldsGuarded_block h
  · exact h

theorem yields_condition (depth : Nat) (keyword : String) :
    Yields (fun e => e.guardFree = true) (condition (level depth) keyword) :=
  yields_after fun _ => yields_bind (guardFreeInner depth).expression fun _ he =>
    yields_after fun _ => yields_pure he

theorem yieldsGuarded_expressionStatement (depth : Nat) :
    YieldsGuarded (expressionStatement (level depth)) := by
  refine yields_bind (guardFreeInner depth).expression fun e he => ?_
  refine yields_after fun _ => yields_pure ?_
  rw [Stmt.allGuarded, Stmt.guarded, he]
  rfl

theorem yieldsGuarded_ifStatement {statement : Parser (List Stmt)} (h : YieldsGuarded statement)
    (depth : Nat) : YieldsGuarded (ifStatement (level depth) statement) := by
  rw [ifStatement]
  refine yields_bind (yields_condition depth _) fun test ht => ?_
  refine yields_bind (yieldsGuarded_body h) fun thenBody hthen => yields_after fun more => ?_
  split
  · refine yields_bind (yieldsGuarded_body h) fun elseBody helse => yields_pure ?_
    rw [Stmt.allGuarded, Stmt.guarded, ht, hthen, helse]
    rfl
  · refine yields_pure ?_
    rw [Stmt.allGuarded, Stmt.guarded, ht, hthen]
    rfl

theorem yieldsGuarded_whileStatement {statement : Parser (List Stmt)} (h : YieldsGuarded statement)
    (depth : Nat) : YieldsGuarded (whileStatement (level depth) statement) := by
  refine yields_bind (yields_condition depth _) fun test ht => ?_
  refine yields_bind (yieldsGuarded_body h) fun stmts hstmts => yields_pure ?_
  rw [Stmt.allGuarded, Stmt.guarded, Expr.isLoopCondition_guarded, Option.all_some, ht, hstmts]
  rfl

theorem yieldsGuarded_doStatement {statement : Parser (List Stmt)} (h : YieldsGuarded statement)
    (depth : Nat) : YieldsGuarded (doStatement (level depth) statement) := by
  refine yields_bind (yieldsGuarded_body h) fun stmts hstmts => yields_after fun _ => ?_
  refine yields_bind (yields_condition depth _) fun test ht => yields_after fun _ => yields_pure ?_
  rw [Stmt.allGuarded, Stmt.guarded, Expr.isLoopCondition_guarded, Option.all_some, ht, hstmts]
  rfl

theorem yieldsGuarded_forInit (depth : Nat) : YieldsGuarded (forInit (level depth)) := by
  rw [forInit]
  refine yields_after fun none => ?_
  split
  · exact yields_pure rfl
  · refine yields_after fun next => ?_
    split
    · exact yields_scalarDeclaration depth
    · exact yieldsGuarded_expressionStatement depth

theorem yieldsGuarded_forStatement {statement : Parser (List Stmt)} (h : YieldsGuarded statement)
    (depth : Nat) : YieldsGuarded (forStatement (level depth) statement) := by
  rw [forStatement]
  refine yields_after fun _ => yields_bind (yieldsGuarded_forInit depth) fun init hinit => ?_
  refine yields_after fun untested => ?_
  extract_lets rest
  have hrest : ∀ test : Option Expr, test.all Expr.guardFree = true →
      YieldsGuarded (rest test) := by
    intro test htest
    refine yields_after fun _ => yields_after fun unstepped => ?_
    extract_lets loop
    have hloop : ∀ increment : List Expr, (∀ e ∈ increment, e.guardFree = true) →
        YieldsGuarded (loop increment) := by
      intro increment hincrement
      refine yields_after fun _ => yields_bind (yieldsGuarded_body h) fun stmts hstmts => ?_
      refine yields_pure ?_
      rw [Stmt.allGuarded, Stmt.guarded, hinit, Expr.isLoopCondition_guarded, htest,
        Expr.allGuardFree_iff.2 hincrement, hstmts]
      rfl
    split
    · exact hloop [] fun _ he => by cases he
    · exact yields_bind (yields_commaList (guardFreeInner depth).expression) hloop
  split
  · exact hrest none rfl
  · refine yields_bind (guardFreeInner depth).expression fun e he => ?_
    exact hrest (some e) he

theorem yieldsGuarded_returnStatement (depth : Nat) :
    YieldsGuarded (returnStatement (level depth)) := by
  rw [returnStatement]
  refine yields_after fun bare => ?_
  extract_lets rest
  have hrest : ∀ value : Option Expr, value.all Expr.guardFree = true →
      YieldsGuarded (rest value) := by
    intro value hvalue
    refine yields_after fun _ => yields_pure ?_
    rw [Stmt.allGuarded, Stmt.guarded, hvalue]
    rfl
  split
  · exact hrest none rfl
  · refine yields_bind (guardFreeInner depth).expression fun e he => ?_
    exact hrest (some e) he

theorem yieldsGuarded_namedStatement (depth : Nat) (name : String) :
    YieldsGuarded (namedStatement (level depth) name) := by
  rw [namedStatement]
  refine yields_after fun s => ?_
  extract_lets next declares
  split
  · exact yields_after fun _ => yields_pure rfl
  · split
    · split
      · exact yields_containerDeclaration _
      · split
        · exact yields_failHere _
        · exact yieldsGuarded_expressionStatement depth
    · exact yieldsGuarded_expressionStatement depth

theorem yieldsGuarded_statementBy {depth : Nat} {nested member : Parser (List Stmt)}
    (hn : YieldsGuarded nested) (hm : YieldsGuarded member) :
    YieldsGuarded (statementBy (level depth) nested member) := by
  rw [statementBy]
  refine yields_after fun next => ?_
  split
  · exact yields_after fun _ => yields_pure rfl
  · refine yields_after fun _ => yields_bind (yieldsGuarded_block hm) fun stmts hstmts => ?_
    refine yields_pure ?_
    rw [Stmt.allGuarded, Stmt.guarded, hstmts]
    rfl
  · exact yields_after fun _ => yieldsGuarded_ifStatement hm depth
  · exact yields_after fun _ => yieldsGuarded_whileStatement hm depth
  · exact yields_after fun _ => yieldsGuarded_doStatement hm depth
  · exact yields_after fun _ => yieldsGuarded_forStatement hm depth
  · exact yields_after fun _ => yieldsGuarded_returnStatement depth
  · exact yields_after fun _ => yields_after fun _ => yields_pure rfl
  · exact yields_after fun _ => yields_after fun _ => yields_pure rfl
  · exact yields_after fun _ => yields_pure rfl
  · refine yields_after fun second => ?_
    split
    · exact yields_after fun _ => hn
    · exact yields_scalarDeclaration depth
  · exact yields_scalarDeclaration depth
  · exact yieldsGuarded_namedStatement depth _
  · exact yieldsGuarded_expressionStatement depth

/-- **Every statement is read guarded,** at every depth. -/
theorem yieldsGuarded_statement (lineText : Nat → String) :
    ∀ depth, YieldsGuarded (statement lineText depth)
  | 0 => yields_failHere _
  | depth + 1 =>
    have h := yieldsGuarded_statement lineText depth
    yieldsGuarded_statementBy h (yieldsGuarded_recovered h)

/-! ## Programs -/

theorem yields_functionDefinition {member : Parser (List Stmt)} (h : YieldsGuarded member) :
    Yields (fun f => f.all (fun f => Stmt.allGuarded f.body) = true)
      (functionDefinition member) := by
  rw [functionDefinition]
  refine yields_after fun s => ?_
  extract_lets location
  refine yields_after fun _ => yields_after fun name => yields_after fun _ => ?_
  refine yields_after fun params => yields_after fun prototype => ?_
  split
  · exact yields_pure rfl
  · refine yields_after fun names => yields_after fun _ => ?_
    refine yields_bind (yieldsGuarded_statements h) fun stmts hstmts => yields_after fun _ => ?_
    exact yields_pure hstmts

end Parser

namespace Program

theorem guarded_iff {p : Program} :
    p.guarded = true ↔
      Stmt.allGuarded p.body = true ∧ ∀ f ∈ p.functions, Stmt.allGuarded f.body = true := by
  rw [guarded, Bool.and_eq_true, List.all_eq_true]

theorem guarded_define {p : Program} {f : Function} (hp : p.guarded = true)
    (hf : Stmt.allGuarded f.body = true) : (p.define f).guarded = true := by
  rw [guarded_iff] at hp ⊢
  refine ⟨hp.1, fun g hg => ?_⟩
  rcases List.mem_append.1 hg with hg | hg
  · exact hp.2 g (List.mem_filter.1 hg).1
  · rw [List.mem_singleton.1 hg]
    exact hf

theorem guarded_append {p : Program} {stmts : List Stmt} (hp : p.guarded = true)
    (hs : Stmt.allGuarded stmts = true) : ({ p with body := p.body ++ stmts }).guarded = true := by
  rw [guarded_iff] at hp ⊢
  exact ⟨Stmt.allGuarded_append.2 ⟨hp.1, hs⟩, hp.2⟩

end Program

namespace Parser

theorem guarded_topLevel {lineText : Nat → String} {member : Parser (List Stmt)}
    (h : YieldsGuarded member) {p : Program} (hp : p.guarded = true) (s : Stream) :
    (topLevel lineText member p s).1.guarded = true := by
  rw [topLevel]
  split
  · exact Program.guarded_append hp rfl
  · split
    · split
      · next hf => exact Program.guarded_define hp (yields_functionDefinition h _ _ _ hf)
      · exact hp
      · exact Program.guarded_append hp rfl
    · split
      · next hm => exact Program.guarded_append hp (h _ _ _ hm)
      · exact hp

theorem guarded_topLevels {lineText : Nat → String} {member : Parser (List Stmt)}
    (h : YieldsGuarded member) : ∀ (fuel : Nat) {p : Program}, p.guarded = true → ∀ s : Stream,
      (topLevels lineText member fuel p s).guarded = true
  | 0, _, hp, _ => hp
  | fuel + 1, p, hp, s => by
    rw [topLevels]
    split
    · exact hp
    · exact guarded_topLevels h fuel (guarded_topLevel h hp s) _

end Parser

/-- **Every program read from a source text is guarded.** -/
theorem Program.ofSource_guarded (source : String) : (ofSource source).guarded = true := by
  rw [ofSource, ofTokens, callMain]
  have hmember : Parser.YieldsGuarded (Parser.recovered (lineText source)
      (Parser.statement (lineText source) maxNesting)) :=
    Parser.yieldsGuarded_recovered (Parser.yieldsGuarded_statement (lineText source) maxNesting)
  have hempty : ({} : Program).guarded = true := rfl
  split
  · exact guarded_append (Parser.guarded_topLevels hmember _ hempty _) rfl
  · exact Parser.guarded_topLevels hmember _ hempty _

end Stepwise
