import Stepwise.Proofs.Program.Mentions

/-!
# The trees that parsers build

A fact about every tree that is read from a source text has to hold of literals and names, and has
to pass from the parts of a tree to the whole in each of the ways in which parsers put parts
together.  This file says what these ways are, and that there are no others.

* `BuildsExpr deeper operand full` lists the ways in which expressions are put together: what stands
  one nesting level deeper satisfies `deeper`, operands satisfy `operand`, and whole expressions
  satisfy `full`.  `BuildsStmt` does the same for statements.
* `Parser.yields_expression` and `Parser.yields_statement` go along the levels of nesting, so the
  properties may depend on the number of levels that are left.
* `Program.holds_ofLines` is the result for all statements of a program, `Program.holds_ofSource`
  the case in which the marked lines do not matter.
-/

set_option autoImplicit false

namespace Stepwise

/-- The ways in which expressions are put together, as conditions on the properties of parts and
wholes. -/
structure BuildsExpr (deeper operand full : Expr → Prop) : Prop where
  literal : ∀ l, operand (.literal l)
  var : ∀ name, operand (.var name)
  /-- In parentheses, after a cast, or after a plus sign. -/
  enclosed : ∀ {e}, deeper e → operand e
  unary : ∀ {op e}, deeper e → operand (.unary op e)
  stepBefore : ∀ {op e}, op.isPost = false → deeper e → operand (.step op e)
  stepAfter : ∀ {op e}, op.isPost = true → operand e → operand (.step op e)
  call : ∀ {name args}, (∀ e ∈ args, deeper e) → operand (.call name args)
  method : ∀ {e name args}, operand e → (∀ a ∈ args, deeper a) → operand (.method e name args)
  member : ∀ {e name}, operand e → operand (.member e name)
  index : ∀ {e key}, operand e → deeper key → operand (.index e key)
  whole : ∀ {e}, operand e → full e
  tree : ∀ {first others}, operand first → (∀ q ∈ others, operand q.2) →
    full (Chain.tree first others)
  ternary : ∀ {c a b}, full c → deeper a → deeper b → full (.ternary c a b)
  assign : ∀ {target value}, full target → deeper value → full (.assign target value)
  update : ∀ {op target value}, full target → deeper value → full (.update op target value)

/-- The ways in which statements are put together: from expressions that satisfy `value`, the simple
statements, which satisfy `leaf`, and from these and the statements of bodies, which satisfy
`deeper`, all others.  The marked lines satisfy `marked`. -/
structure BuildsStmt (marked : SourceLine → Prop) (value : Expr → Prop)
    (deeper leaf full : Stmt → Prop) : Prop where
  declare : ∀ {name init}, (∀ e ∈ init, value e) → leaf (.declare name init)
  construct : ∀ name kind, leaf (.construct name kind)
  array : ∀ {name size init}, (∀ e ∈ size, value e) → (∀ e ∈ init, value e) →
    leaf (.array name size init)
  expr : ∀ {e}, value e → leaf (.expr e)
  ret : ∀ {result}, (∀ e ∈ result, value e) → leaf (.ret result)
  jump : ∀ j, leaf (.jump j)
  whole : ∀ {s}, leaf s → full s
  /-- A statement after `const` is read one level deeper and takes its place. -/
  same : ∀ {s}, deeper s → full s
  branch : ∀ {c body}, value c → (∀ s ∈ body, deeper s) → full (.branch c body)
  branchElse : ∀ {c thenBody elseBody}, value c → (∀ s ∈ thenBody, deeper s) →
    (∀ s ∈ elseBody, deeper s) → full (.branchElse c thenBody elseBody)
  whileLoop : ∀ {c body}, value c → (∀ s ∈ body, deeper s) →
    full (.whileLoop (.guarded (some c)) body)
  doWhile : ∀ {body c}, (∀ s ∈ body, deeper s) → value c → full (.doWhile body (.guarded (some c)))
  /-- The initialiser consists of declarations or of an expression. -/
  forLoop : ∀ {init test increment body}, (∀ s ∈ init, leaf s) →
    (∀ s ∈ init, s.isStraight = true) → (∀ e ∈ test, value e) → (∀ e ∈ increment, value e) →
    (∀ s ∈ body, deeper s) → full (.forLoop init (.guarded test) increment body)
  block : ∀ {body}, (∀ s ∈ body, deeper s) → full (.block body)
  /-- The marker in front of a statement of a body. -/
  line : ∀ {l}, marked l → deeper (.line l)
  /-- The error in place of a statement of a body. -/
  malformed : ∀ e, deeper (.malformed e)

namespace Parser

/-! ## Expressions -/

/-- Whatever the expression parsers of a level yield satisfies `P`. -/
structure InnerYields (P : Expr → Prop) (inner : Inner Parser) : Prop where
  /-- Full expressions. -/
  expression : Yields P inner.expression
  /-- Expressions without assignments. -/
  ternary : Yields P inner.ternary
  /-- Operands. -/
  unary : Yields P inner.unary

section Expressions

variable {deeper operand full : Expr → Prop} {inner : Inner Parser}

theorem InnerYields.arguments (h : InnerYields deeper inner) :
    Yields (fun args => ∀ e ∈ args, deeper e) (arguments inner) := by
  rw [Parser.arguments]
  refine yields_after fun close => ?_
  split
  · exact yields_pure fun _ he => by cases he
  · refine yields_bind (yields_commaList h.expression) fun args hargs => yields_after fun _ => ?_
    exact yields_pure hargs

variable (hb : BuildsExpr deeper operand full) (h : InnerYields deeper inner)

include hb

theorem yields_literalOperand (l : Literal) : Yields operand (literal l) :=
  yields_after fun _ => yields_pure (hb.literal l)

include h

theorem yields_primary : Yields operand (primary inner) := by
  rw [Parser.primary]
  refine yields_after fun next => ?_
  split
  case h_8 name =>
    split
    · exact yields_literalOperand hb _
    · exact yields_after fun _ => yields_pure (hb.var name)
  case h_9 =>
    refine yields_after fun _ => yields_bind h.expression fun e he => yields_after fun _ => ?_
    exact yields_pure (hb.enclosed he)
  case h_10 | h_11 => exact yields_failHere _
  all_goals exact yields_literalOperand hb _

theorem yields_memberOf {e : Expr} (he : operand e) : Yields operand (memberOf inner e) := by
  rw [Parser.memberOf]
  refine yields_after fun name => yields_after fun call => ?_
  split
  · exact yields_bind h.arguments fun args hargs => yields_pure (hb.method he hargs)
  · exact yields_pure (hb.member he)

theorem yields_trailers :
    ∀ (fuel : Nat) {e : Expr}, operand e → Yields operand (trailers inner fuel e)
  | 0, _, he => yields_pure he
  | fuel + 1, e, he => by
    unfold Parser.trailers
    refine yields_after fun next => ?_
    split
    · split
      · refine yields_after fun _ => yields_bind h.arguments fun args hargs => ?_
        exact yields_trailers fuel (hb.call hargs)
      · exact yields_failHere _
    · refine yields_after fun _ => yields_bind (yields_memberOf hb h he) fun e' he' => ?_
      exact yields_trailers fuel he'
    · refine yields_after fun _ => yields_bind (yields_memberOf hb h he) fun e' he' => ?_
      exact yields_trailers fuel he'
    · refine yields_after fun _ => yields_bind h.expression fun i hi => yields_after fun _ => ?_
      exact yields_trailers fuel (hb.index he hi)
    · exact yields_after fun _ => yields_trailers fuel (hb.stepAfter rfl he)
    · exact yields_after fun _ => yields_trailers fuel (hb.stepAfter rfl he)
    · exact yields_pure he

theorem yields_operand : Yields operand (Parser.operand inner) :=
  yields_bind (yields_primary hb h) fun _ he => yields_after fun _ => yields_trailers hb h _ he

theorem yields_unary : Yields operand (Parser.unary inner) := by
  rw [Parser.unary]
  refine yields_after fun next => ?_
  split
  · exact yields_after fun _ => yields_bind h.unary fun e he => yields_pure (hb.unary he)
  · split
    · exact yields_after fun _ => h.unary.imp fun _ => hb.enclosed
    · exact yields_after fun _ => yields_bind h.unary fun e he =>
        yields_pure (hb.stepBefore rfl he)
    · exact yields_after fun _ => yields_bind h.unary fun e he =>
        yields_pure (hb.stepBefore rfl he)
    · exact yields_failHere _
    · exact yields_failHere _
    · refine yields_after fun second => ?_
      split
      · refine yields_after fun _ => yields_after fun _ => yields_after fun _ => ?_
        exact h.unary.imp fun _ => hb.enclosed
      · exact yields_operand hb h
    · exact yields_operand hb h

theorem yields_operations :
    ∀ fuel, Yields (fun others => ∀ q ∈ others, operand q.2) (operations inner fuel)
  | 0 => yields_pure fun _ hq => by cases hq
  | fuel + 1 => by
    rw [Parser.operations]
    refine yields_after fun next => ?_
    split
    · refine yields_after fun _ => yields_bind (yields_unary hb h) fun right hright => ?_
      refine yields_bind (yields_operations fuel) fun others hothers => yields_pure ?_
      exact List.forall_mem_cons.2 ⟨hright, hothers⟩
    · exact yields_pure fun _ hq => by cases hq

theorem yields_binary : Yields full (binary inner) :=
  yields_bind (yields_unary hb h) fun _ hfirst => yields_after fun _ =>
    yields_bind (yields_operations hb h _) fun _ hothers => yields_pure (hb.tree hfirst hothers)

theorem yields_ternary : Yields full (Parser.ternary inner) := by
  rw [Parser.ternary]
  refine yields_bind (yields_binary hb h) fun condition hc => yields_after fun question => ?_
  split
  · refine yields_bind h.expression fun a ha => yields_after fun _ => ?_
    exact yields_bind h.ternary fun b hb' => yields_pure (hb.ternary hc ha hb')
  · exact yields_pure hc

theorem yields_assignment : Yields full (assignment inner) := by
  rw [assignment]
  refine yields_bind (yields_ternary hb h) fun target ht => yields_after fun assign => ?_
  split
  · exact yields_bind h.expression fun value hv => yields_pure (hb.assign ht hv)
  · refine yields_after fun next => ?_
    split
    · refine yields_after fun _ => yields_bind h.expression fun value hv => ?_
      exact yields_pure (hb.update ht hv)
    · exact yields_pure ht

end Expressions

theorem yields_elements {expression : Parser Expr} {nested : Parser (List Expr)}
    {P : Expr → Prop} (he : Yields P expression) (hn : Yields (fun es => ∀ e ∈ es, P e) nested) :
    ∀ fuel, Yields (fun es => ∀ e ∈ es, P e) (initializerItems expression nested fuel)
  | 0 => yields_pure fun _ h => by cases h
  | fuel + 1 => by
    rw [initializerItems]
    refine yields_after fun close => ?_
    split
    · exact yields_pure fun _ h => by cases h
    · refine yields_after fun brace => ?_
      extract_lets rest
      have hrest : ∀ items : List Expr, (∀ e ∈ items, P e) →
          Yields (fun es => ∀ e ∈ es, P e) (rest items) := by
        intro items hitems
        refine yields_after fun comma => ?_
        split
        · refine yields_bind (yields_elements he hn fuel) fun others hothers => ?_
          exact yields_pure (List.forall_mem_append.2 ⟨hitems, hothers⟩)
        · exact yields_after fun _ => yields_pure hitems
      split
      · exact yields_bind hn hrest
      · refine yields_bind he fun e hfree => yields_bind (yields_pure ?_) hrest
        simpa using hfree

section Levels

variable {E O : Nat → Expr → Prop} (hE : ∀ depth, BuildsExpr (E depth) (O depth) (E (depth + 1)))

include hE

/-- **Expressions are put together in the ways that are listed,** from one level to the next. -/
theorem yields_inner : ∀ depth, InnerYields (E depth) (Parser.inner depth)
  | 0 => ⟨yields_failHere _, yields_failHere _, yields_failHere _⟩
  | depth + 1 =>
    have h := yields_inner depth
    ⟨yields_assignment (hE depth) h, yields_ternary (hE depth) h,
      (yields_unary (hE depth) h).imp fun _ => (hE depth).whole⟩

theorem yields_expression (depth : Nat) : Yields (E depth) (Parser.inner depth).expression :=
  (yields_inner hE depth).expression

theorem yields_initializer :
    ∀ depth, Yields (fun es => ∀ e ∈ es, E depth e) (initializerList depth)
  | 0 => yields_after fun _ => yields_elements (yields_expression hE 0) (yields_failHere _) _
  | depth + 1 => by
    have hnested := (yields_initializer depth).imp fun es hes e he =>
      (hE depth).whole ((hE depth).enclosed (hes e he))
    exact yields_after fun _ => yields_elements (yields_expression hE (depth + 1)) hnested _

/-! ## Declarations -/

variable {marked : SourceLine → Prop} {S L : Nat → Stmt → Prop}
  (hS : ∀ depth, BuildsStmt marked (E depth) (S depth) (L depth) (S (depth + 1)))

include hS

theorem yields_arrayLeaf (depth : Nat) (name : String) :
    Yields (L depth) (arrayDeclarator (level depth) name) := by
  rw [arrayDeclarator]
  refine yields_after fun unsized => ?_
  extract_lets rest
  have hrest : ∀ size : Option Expr, (∀ e ∈ size, E depth e) → Yields (L depth) (rest size) := by
    intro size hsize
    refine yields_after fun _ => yields_after fun second => ?_
    split
    · exact yields_failHere _
    · refine yields_after fun assign => yields_after fun brace => ?_
      split
      · refine yields_after fun _ => yields_bind (yields_initializer hE depth) fun es hes => ?_
        exact yields_pure ((hS depth).array hsize hes)
      · split
        · exact yields_failHere _
        · exact yields_pure ((hS depth).array hsize fun _ he => by cases he)
  split
  · exact hrest none fun _ he => by cases he
  · refine yields_bind (yields_expression hE depth) fun e he => hrest (some e) ?_
    simpa using he

theorem yields_declaratorLeaf (depth : Nat) : Yields (L depth) (declarator (level depth)) := by
  have hvalue : ∀ {name : String} {e : Expr}, E depth e → L depth (.declare name (some e)) :=
    fun he => (hS depth).declare (by simpa using he)
  rw [declarator]
  refine yields_after fun _ => yields_after fun name => yields_after fun bracket => ?_
  split
  · exact yields_arrayLeaf hE hS depth name
  · refine yields_after fun assign => ?_
    split
    · exact yields_bind (yields_expression hE depth) fun e he => yields_pure (hvalue he)
    · refine yields_after fun paren => ?_
      split
      · refine yields_bind (yields_expression hE depth) fun e he => yields_after fun _ => ?_
        exact yields_pure (hvalue he)
      · refine yields_after fun brace => ?_
        split
        · refine yields_bind (yields_initializer hE depth) fun es hes => yields_pure ?_
          exact (hS depth).declare fun e he => hes e (List.mem_of_mem_head? he)
        · exact yields_pure ((hS depth).declare fun _ he => by cases he)

theorem yields_scalarLeaves (depth : Nat) :
    Yields (fun stmts => ∀ s ∈ stmts, L depth s) (scalarDeclaration (level depth)) := by
  rw [scalarDeclaration]
  refine yields_after fun _ => yields_after fun next => ?_
  split
  · refine yields_after fun _ =>
      yields_bind (yields_commaList (yields_declaratorLeaf hE hS depth)) fun stmts hs => ?_
    exact yields_after fun _ => yields_pure hs
  · exact yields_failHere _

omit hE in
theorem yields_containerLeaves (depth : Nat) (kind : SequenceKind) :
    Yields (fun stmts => ∀ s ∈ stmts, L depth s) (containerDeclaration kind) := by
  have hitem : Yields (L depth) (containerDeclarator kind) := by
    rw [containerDeclarator]
    refine yields_after fun name => yields_after fun next => ?_
    split
    · exact yields_failHere _
    · exact yields_pure ((hS depth).construct name kind)
  refine yields_after fun _ => yields_after fun _ => yields_bind (yields_commaList hitem) ?_
  exact fun stmts hs => yields_after fun _ => yields_pure hs

/-! ## Statements -/

theorem yields_expressionLeaf (depth : Nat) :
    Yields (fun stmts => ∀ s ∈ stmts, L depth s) (expressionStatement (level depth)) := by
  refine yields_bind (yields_expression hE depth) fun e he => yields_after fun _ => yields_pure ?_
  simpa using (hS depth).expr he

theorem yields_returnLeaf (depth : Nat) :
    Yields (fun stmts => ∀ s ∈ stmts, L depth s) (returnStatement (level depth)) := by
  rw [returnStatement]
  refine yields_after fun bare => ?_
  extract_lets rest
  have hrest : ∀ value : Option Expr, (∀ e ∈ value, E depth e) →
      Yields (fun stmts => ∀ s ∈ stmts, L depth s) (rest value) := by
    intro value hvalue
    refine yields_after fun _ => yields_pure ?_
    simpa using (hS depth).ret hvalue
  split
  · exact hrest none fun _ he => by cases he
  · refine yields_bind (yields_expression hE depth) fun e he => hrest (some e) ?_
    simpa using he

theorem yields_namedLeaves (depth : Nat) (name : String) :
    Yields (fun stmts => ∀ s ∈ stmts, L depth s) (namedStatement (level depth) name) := by
  rw [namedStatement]
  refine yields_after fun s => ?_
  extract_lets next declares
  split
  · exact yields_after fun _ => yields_pure fun _ hs => by cases hs
  · split
    · split
      · exact yields_containerLeaves hS depth _
      · split
        · exact yields_failHere _
        · exact yields_expressionLeaf hE hS depth
    · exact yields_expressionLeaf hE hS depth

end Levels

/-! ## Initialisers -/

theorem yields_straightArray (depth : Nat) (name : String) :
    Yields (fun s => s.isStraight = true) (arrayDeclarator (level depth) name) := by
  rw [arrayDeclarator]
  refine yields_after fun unsized => ?_
  extract_lets rest
  have hrest : ∀ size : Option Expr, Yields (fun s => s.isStraight = true) (rest size) := by
    intro size
    refine yields_after fun _ => yields_after fun second => ?_
    split
    · exact yields_failHere _
    · refine yields_after fun assign => yields_after fun brace => ?_
      split
      · exact yields_after fun _ => yields_after fun es => yields_pure rfl
      · split
        · exact yields_failHere _
        · exact yields_pure rfl
  split
  · exact hrest none
  · exact yields_after fun e => hrest (some e)

theorem yields_straightDeclarator (depth : Nat) :
    Yields (fun s => s.isStraight = true) (declarator (level depth)) := by
  rw [declarator]
  refine yields_after fun _ => yields_after fun name => yields_after fun bracket => ?_
  split
  · exact yields_straightArray depth name
  · refine yields_after fun assign => ?_
    split
    · exact yields_after fun e => yields_pure rfl
    · refine yields_after fun paren => ?_
      split
      · exact yields_after fun e => yields_after fun _ => yields_pure rfl
      · refine yields_after fun brace => ?_
        split
        · exact yields_after fun es => yields_pure rfl
        · exact yields_pure rfl

/-- The initialiser of a loop neither jumps nor returns. -/
theorem yields_straightInit (depth : Nat) :
    Yields (fun stmts => ∀ s ∈ stmts, s.isStraight = true) (forInit (level depth)) := by
  rw [forInit]
  refine yields_after fun none => ?_
  split
  · exact yields_pure fun _ hs => by cases hs
  · refine yields_after fun next => ?_
    split
    · rw [scalarDeclaration]
      refine yields_after fun _ => yields_after fun next => ?_
      split
      · refine yields_after fun _ =>
          yields_bind (yields_commaList (yields_straightDeclarator depth)) ?_
        exact fun stmts hs => yields_after fun _ => yields_pure hs
      · exact yields_failHere _
    · exact yields_after fun e => yields_after fun _ => yields_pure (by simp [Stmt.isStraight])

section Bodies

variable {S : Stmt → Prop} {statement : Parser (List Stmt)}

theorem yields_recovered (lineText : Nat → String)
    (hline : ∀ number, S (.line ⟨number, lineText number⟩))
    (hmalformed : ∀ e, S (.malformed e)) (h : Yields (fun stmts => ∀ s ∈ stmts, S s) statement) :
    Yields (fun stmts => ∀ s ∈ stmts, S s) (recovered lineText statement) := by
  intro s stmts s' hs
  rw [recovered_apply] at hs
  split at hs
  · cases hs
    exact fun _ hmem => by cases hmem
  · next hok =>
    cases hs
    exact List.forall_mem_cons.2 ⟨hline _, h _ _ _ hok⟩
  · cases hs
    exact List.forall_mem_cons.2 ⟨hline _, by simpa using hmalformed _⟩

theorem yields_statementItems (h : Yields (fun stmts => ∀ s ∈ stmts, S s) statement) :
    ∀ fuel, Yields (fun stmts => ∀ s ∈ stmts, S s) (statementItems statement fuel)
  | 0 => yields_pure fun _ hs => by cases hs
  | fuel + 1 => by
    rw [statementItems]
    refine yields_after fun s => ?_
    split
    · exact yields_pure fun _ hs => by cases hs
    · refine yields_bind h fun first hfirst => ?_
      refine yields_bind (yields_statementItems h fuel) fun others hothers => yields_pure ?_
      exact List.forall_mem_append.2 ⟨hfirst, hothers⟩

theorem yields_statements (h : Yields (fun stmts => ∀ s ∈ stmts, S s) statement) :
    Yields (fun stmts => ∀ s ∈ stmts, S s) (statements statement) :=
  yields_after fun _ => yields_statementItems h _

theorem yields_block (h : Yields (fun stmts => ∀ s ∈ stmts, S s) statement) :
    Yields (fun stmts => ∀ s ∈ stmts, S s) (block statement) :=
  yields_bind (yields_statements h) fun _ hs => yields_after fun _ => yields_pure hs

theorem yields_body (h : Yields (fun stmts => ∀ s ∈ stmts, S s) statement) :
    Yields (fun stmts => ∀ s ∈ stmts, S s) (body statement) := by
  rw [body]
  refine yields_after fun brace => ?_
  split
  · exact yields_block h
  · exact h

end Bodies

section Statements

variable {E O : Nat → Expr → Prop} (hE : ∀ depth, BuildsExpr (E depth) (O depth) (E (depth + 1)))

include hE

theorem yields_test (depth : Nat) (keyword : String) :
    Yields (E depth) (condition (level depth) keyword) :=
  yields_after fun _ => yields_bind (yields_expression hE depth) fun _ he =>
    yields_after fun _ => yields_pure he

variable {marked : SourceLine → Prop} {S L : Nat → Stmt → Prop}
  (hS : ∀ depth, BuildsStmt marked (E depth) (S depth) (L depth) (S (depth + 1)))

include hS

variable {member : Parser (List Stmt)} {depth : Nat}
  (hm : Yields (fun stmts => ∀ s ∈ stmts, S depth s) member)

include hm

theorem yields_ifStatement :
    Yields (fun stmts => ∀ s ∈ stmts, S (depth + 1) s) (ifStatement (level depth) member) := by
  rw [ifStatement]
  refine yields_bind (yields_test hE depth _) fun test ht => ?_
  refine yields_bind (yields_body hm) fun thenBody hthen => yields_after fun more => ?_
  split
  · refine yields_bind (yields_body hm) fun elseBody helse => yields_pure ?_
    simpa using (hS depth).branchElse ht hthen helse
  · exact yields_pure (by simpa using (hS depth).branch ht hthen)

theorem yields_whileStatement :
    Yields (fun stmts => ∀ s ∈ stmts, S (depth + 1) s) (whileStatement (level depth) member) := by
  refine yields_bind (yields_test hE depth _) fun test ht => ?_
  refine yields_bind (yields_body hm) fun stmts hstmts => yields_pure ?_
  simpa using (hS depth).whileLoop ht hstmts

theorem yields_doStatement :
    Yields (fun stmts => ∀ s ∈ stmts, S (depth + 1) s) (doStatement (level depth) member) := by
  refine yields_bind (yields_body hm) fun stmts hstmts => yields_after fun _ => ?_
  refine yields_bind (yields_test hE depth _) fun test ht => yields_after fun _ => yields_pure ?_
  simpa using (hS depth).doWhile hstmts ht

omit hm in
theorem yields_forInit (depth : Nat) :
    Yields (fun stmts => ∀ s ∈ stmts, L depth s) (forInit (level depth)) := by
  rw [forInit]
  refine yields_after fun none => ?_
  split
  · exact yields_pure fun _ hs => by cases hs
  · refine yields_after fun next => ?_
    split
    · exact yields_scalarLeaves hE hS depth
    · exact yields_expressionLeaf hE hS depth

theorem yields_forStatement :
    Yields (fun stmts => ∀ s ∈ stmts, S (depth + 1) s) (forStatement (level depth) member) := by
  rw [forStatement]
  refine yields_after fun _ => yields_bind
    ((yields_forInit hE hS depth).and (yields_straightInit depth)) fun init hboth => ?_
  obtain ⟨hinit, hstraight⟩ := hboth
  refine yields_after fun untested => ?_
  extract_lets rest
  have hrest : ∀ test : Option Expr, (∀ e ∈ test, E depth e) →
      Yields (fun stmts => ∀ s ∈ stmts, S (depth + 1) s) (rest test) := by
    intro test htest
    refine yields_after fun _ => yields_after fun unstepped => ?_
    extract_lets loop
    have hloop : ∀ increment : List Expr, (∀ e ∈ increment, E depth e) →
        Yields (fun stmts => ∀ s ∈ stmts, S (depth + 1) s) (loop increment) := by
      intro increment hincrement
      refine yields_after fun _ => yields_bind (yields_body hm) fun stmts hstmts => ?_
      exact yields_pure (by simpa using (hS depth).forLoop hinit hstraight htest hincrement hstmts)
    split
    · exact hloop [] fun _ he => by cases he
    · exact yields_bind (yields_commaList (yields_expression hE depth)) hloop
  split
  · exact hrest none fun _ he => by cases he
  · refine yields_bind (yields_expression hE depth) fun e he => hrest (some e) ?_
    simpa using he

theorem yields_statementBy {nested : Parser (List Stmt)}
    (hn : Yields (fun stmts => ∀ s ∈ stmts, S depth s) nested) :
    Yields (fun stmts => ∀ s ∈ stmts, S (depth + 1) s)
      (statementBy (level depth) nested member) := by
  have hleaf : ∀ {p : Parser (List Stmt)}, Yields (fun stmts => ∀ s ∈ stmts, L depth s) p →
      Yields (fun stmts => ∀ s ∈ stmts, S (depth + 1) s) p :=
    fun hp => hp.imp fun _ hstmts s hs => (hS depth).whole (hstmts s hs)
  have hjump : ∀ j, Yields (fun stmts => ∀ s ∈ stmts, S (depth + 1) s) (jumpStatement j) :=
    fun j => yields_after fun _ => yields_pure
      (by simpa using (hS depth).whole ((hS depth).jump j))
  rw [statementBy]
  refine yields_after fun next => ?_
  split
  · exact yields_after fun _ => yields_pure fun _ hs => by cases hs
  · refine yields_after fun _ => yields_bind (yields_block hm) fun stmts hstmts => yields_pure ?_
    simpa using (hS depth).block hstmts
  · exact yields_after fun _ => yields_ifStatement hE hS hm
  · exact yields_after fun _ => yields_whileStatement hE hS hm
  · exact yields_after fun _ => yields_doStatement hE hS hm
  · exact yields_after fun _ => yields_forStatement hE hS hm
  · exact yields_after fun _ => hleaf (yields_returnLeaf hE hS depth)
  · exact yields_after fun _ => hjump .break
  · exact yields_after fun _ => hjump .continue
  · exact yields_after fun _ => yields_pure fun _ hs => by cases hs
  · refine yields_after fun second => ?_
    split
    · exact yields_after fun _ => hn.imp fun _ hstmts s hs => (hS depth).same (hstmts s hs)
    · exact hleaf (yields_scalarLeaves hE hS depth)
  · exact hleaf (yields_scalarLeaves hE hS depth)
  · exact hleaf (yields_namedLeaves hE hS depth _)
  · exact hleaf (yields_expressionLeaf hE hS depth)

omit hm

/-- **Statements are put together in the ways that are listed,** from one level to the next. -/
theorem yields_statement (lineText : Nat → String)
    (hmarked : ∀ number, marked ⟨number, lineText number⟩) :
    ∀ depth, Yields (fun stmts => ∀ s ∈ stmts, S depth s) (statement lineText depth)
  | 0 => yields_failHere _
  | depth + 1 =>
    have h := yields_statement lineText hmarked depth
    have hline := fun number => (hS depth).line (hmarked number)
    yields_statementBy hE hS (yields_recovered lineText hline (hS depth).malformed h) h

end Statements

end Parser

/-! ## Programs -/

/-- Every statement of the program satisfies `S`, in its own body and in those of its functions. -/
structure Program.Holds (S : Stmt → Prop) (p : Program) : Prop where
  body : ∀ s ∈ p.body, S s
  functions : ∀ f ∈ p.functions, ∀ s ∈ f.body, S s

namespace Program

variable {S : Stmt → Prop} {p : Program}

theorem Holds.append (h : p.Holds S) {stmts : List Stmt} (hs : ∀ s ∈ stmts, S s) :
    ({ p with body := p.body ++ stmts } : Program).Holds S :=
  ⟨List.forall_mem_append.2 ⟨h.body, hs⟩, h.functions⟩

theorem Holds.define (h : p.Holds S) {f : Function} (hf : ∀ s ∈ f.body, S s) :
    (p.define f).Holds S := by
  refine ⟨h.body, fun g hg => ?_⟩
  rcases List.mem_append.1 hg with hg | hg
  · exact h.functions g (List.mem_filter.1 hg).1
  · rw [List.mem_singleton.1 hg]
    exact hf

end Program

namespace Parser

variable {S : Stmt → Prop} {member : Parser (List Stmt)}
  (hm : Yields (fun stmts => ∀ s ∈ stmts, S s) member)

include hm

theorem yields_function :
    Yields (fun f => ∀ g ∈ f, ∀ s ∈ g.body, S s) (functionDefinition member) := by
  rw [functionDefinition]
  refine yields_after fun s => ?_
  extract_lets location
  refine yields_after fun _ => yields_after fun name => yields_after fun _ => ?_
  refine yields_after fun params => yields_after fun prototype => ?_
  split
  · exact yields_pure fun _ hg => by cases hg
  · refine yields_after fun names => yields_after fun _ => ?_
    refine yields_bind (yields_statements hm) fun stmts hstmts => yields_after fun _ => ?_
    exact yields_pure (by simpa using hstmts)

variable {lineText : Nat → String} (hline : ∀ number, S (.line ⟨number, lineText number⟩))
  (hmalformed : ∀ e, S (.malformed e))

include hline hmalformed

theorem holds_topLevel {p : Program} (hp : p.Holds S) (s : Stream) :
    (topLevel lineText member p s).1.Holds S := by
  have herror : ∀ number e, ∀ s ∈ [Stmt.line ⟨number, lineText number⟩, .malformed e], S s :=
    fun number e => List.forall_mem_cons.2 ⟨hline number, by simpa using hmalformed e⟩
  rw [topLevel]
  split
  · exact hp.append (herror _ _)
  · split
    · split
      · next hf => exact hp.define (yields_function hm _ _ _ hf _ rfl)
      · exact hp
      · exact hp.append (herror _ _)
    · split
      · next hmember => exact hp.append (hm _ _ _ hmember)
      · exact hp

theorem holds_topLevels : ∀ (fuel : Nat) {p : Program}, p.Holds S → ∀ s : Stream,
    (topLevels lineText member fuel p s).Holds S
  | 0, _, hp, _ => hp
  | fuel + 1, p, hp, s => by
    rw [topLevels]
    split
    · exact hp
    · exact holds_topLevels fuel (holds_topLevel hm hline hmalformed hp s) _

end Parser

/-- **What passes from parts to wholes holds of all statements of a program.**  The lines that are
marked are those of the source text. -/
theorem Program.holds_ofLines {marked : SourceLine → Prop} {E O : Nat → Expr → Prop}
    {S L : Nat → Stmt → Prop} {source : String}
    (hmarked : ∀ number, marked ⟨number, lineText source number⟩)
    (hE : ∀ depth, BuildsExpr (E depth) (O depth) (E (depth + 1)))
    (hS : ∀ depth, BuildsStmt marked (E depth) (S depth) (L depth) (S (depth + 1)))
    (hmain : S maxNesting (.expr (.call "main" []))) :
    (ofSource source).Holds (S maxNesting) := by
  have hline := fun number => (hS maxNesting).line (hmarked number)
  have hmalformed := (hS maxNesting).malformed
  have hmember := Parser.yields_recovered (lineText source) hline hmalformed
    (Parser.yields_statement hE hS (lineText source) hmarked maxNesting)
  have hempty : ({} : Program).Holds (S maxNesting) := ⟨nofun, nofun⟩
  have hread : (Parser.topLevels (lineText source) _ _ _ _).Holds (S maxNesting) :=
    Parser.holds_topLevels hmember hline hmalformed
      ((Stream.ofTokens (Token.tokenize source)).length + 1) hempty
      (Stream.ofTokens (Token.tokenize source))
  rw [ofSource, ofTokens, callMain]
  split
  · refine ⟨List.forall_mem_append.2 ⟨hread.body, ?_⟩, hread.functions⟩
    simpa using hmain
  · exact hread

/-- The case in which nothing depends on the lines. -/
theorem Program.holds_ofSource {E O : Nat → Expr → Prop} {S L : Nat → Stmt → Prop}
    (hE : ∀ depth, BuildsExpr (E depth) (O depth) (E (depth + 1)))
    (hS : ∀ depth, BuildsStmt (fun _ => True) (E depth) (S depth) (L depth) (S (depth + 1)))
    (hmain : S maxNesting (.expr (.call "main" []))) (source : String) :
    (ofSource source).Holds (S maxNesting) :=
  holds_ofLines (fun _ => trivial) hE hS hmain

end Stepwise
