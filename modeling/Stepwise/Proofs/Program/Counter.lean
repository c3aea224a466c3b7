import Stepwise.Proofs.Program.Fuel

/-!
# The counter of nesting levels

`Parser.statement` and the parsers below it take the number of nesting levels that may still be
opened, and each hands one less to what it reads inside.  A parser that keeps a counter goes about
it the other way round: the number of levels that are open is part of its state, and whoever opens a
level adds one before and takes one off after, be it with a result or with an error.  Nothing in
that says that the counter is right after an error from somewhere deep inside, or after a statement
that was given up and skipped.

* `Parser.Counting` has the counter in its state, `Parser.Counting.nested` opens a level and closes
  it again, and `Parser.Counting.Mutual` are parsers that call each other through it.
* `Parser.Tracks` relates a parser with a counter to one without: they read the same, with the same
  result, and the counter is afterwards what it was before.  All parsers are written for both kinds
  of state, so there is one short lemma for each of them.
* `Parser.Counting.Mutual.tracksInner`, `tracks_initializers` and `tracks_statement` are the
  inductions, on the levels that are left.  So the parsers that are told how many levels are left
  call each other in this way too, and no others do (`Parser.Counting.Mutual.eq_byLevels`).
-/

set_option autoImplicit false

namespace Stepwise

namespace Parser

variable {α β : Type}

/-! ## Parsers with a counter -/

/-- Reads from a token stream and counts the nesting levels that are open. -/
abbrev Counting := EStateM ParseError (Nat × Stream)

namespace Counting

/-- What is read and set is the stream.  The counter stays as it is. -/
instance : MonadStateOf Stream Counting where
  get := fun (opened, s) => .ok s (opened, s)
  set s := fun (opened, _) => .ok () (opened, s)
  modifyGet f := fun (opened, s) => .ok (f s).1 (opened, (f s).2)

/-- Open a level, read, and close the level.  This fails if too many levels are open. -/
def nested (p : Counting α) : Counting α := fun (opened, s) =>
  if maxNesting ≤ opened then .error ⟨"Nesting too deep", s.location⟩ (opened, s)
  else
    match p (opened + 1, s) with
    | .ok a (opened', s') => .ok a (opened' - 1, s')
    | .error e (opened', s') => .error e (opened' - 1, s')

/-- Parsers that call each other, and open a level each time. -/
structure Mutual (lineText : Nat → String) extends Level Counting where
  statement : Counting (List Stmt)
  expression_eq : expression = nested (assignment toInner)
  ternary_eq : ternary = nested (Parser.ternary toInner)
  unary_eq : unary = nested (Parser.unary toInner)
  initializers_eq : initializers = initializer expression (nested initializers)
  statement_eq :
    statement = nested (statementBy toLevel statement (recovered lineText statement))

/-- The levels that are open are the same before and after, on success and on failure. -/
def Restores (p : Counting α) : Prop :=
  ∀ opened s, match p (opened, s) with
    | .ok _ (opened', _) => opened' = opened
    | .error _ (opened', _) => opened' = opened

end Counting

open Counting

/-! ## Reading the same -/

/-- What a parser without a counter yields, with a counter. -/
def counted (opened : Nat) :
    EStateM.Result ParseError Stream α → EStateM.Result ParseError (Nat × Stream) α
  | .ok a s => .ok a (opened, s)
  | .error e s => .error e (opened, s)

/-- While `opened` levels are open, `p` reads what `q` reads and leaves the counter as it is. -/
def Tracks (opened : Nat) (p : Counting α) (q : Parser α) : Prop :=
  ∀ s, p (opened, s) = counted opened (q s)

variable {opened : Nat} {c : Symbol}

theorem tracks_pure (a : α) : Tracks opened (pure a) (pure a) := fun _ => rfl

theorem tracks_throw (e : ParseError) : Tracks opened (throw e : Counting α) (throw e) :=
  fun _ => rfl

theorem tracks_get : Tracks opened (getThe Stream) get := fun _ => rfl

theorem tracks_set (s : Stream) : Tracks opened (set s) (set s) := fun _ => rfl

theorem tracks_modify (f : Stream → Stream) : Tracks opened (modify f) (modify f) := fun _ => rfl

theorem Tracks.ok {p : Counting α} {q : Parser α} {s s' : Stream} {a : α}
    (h : Tracks opened p q) (hq : q s = .ok a s') : p (opened, s) = .ok a (opened, s') :=
  (h s).trans (congrArg (counted opened) hq)

theorem Tracks.error {p : Counting α} {q : Parser α} {s s' : Stream} {e : ParseError}
    (h : Tracks opened p q) (hq : q s = .error e s') : p (opened, s) = .error e (opened, s') :=
  (h s).trans (congrArg (counted opened) hq)

theorem Tracks.bind {p : Counting α} {q : Parser α} {f : α → Counting β} {g : α → Parser β}
    (h : Tracks opened p q) (hf : ∀ a, Tracks opened (f a) (g a)) :
    Tracks opened (p >>= f) (q >>= g) := by
  intro s
  cases hq : q s with
  | ok a s' =>
    rw [bind_of_ok (h.ok hq), bind_of_ok hq]
    exact hf a s'
  | error e s' =>
    rw [bind_of_error (h.error hq), bind_of_error hq]
    rfl

theorem Tracks.tryCatch {p : Counting α} {q : Parser α} {f : ParseError → Counting α}
    {g : ParseError → Parser α} (h : Tracks opened p q) (hf : ∀ e, Tracks opened (f e) (g e)) :
    Tracks opened (MonadExcept.tryCatch p f) (MonadExcept.tryCatch q g) := by
  intro s
  cases hq : q s with
  | ok a s' =>
    rw [tryCatch_of_ok (h.ok hq), tryCatch_of_ok hq]
    rfl
  | error e s' =>
    rw [tryCatch_of_error (h.error hq), tryCatch_of_error hq]
    exact hf e s'

theorem Tracks.ite {p p' : Counting α} {q q' : Parser α} {b : Prop} [Decidable b]
    (h : Tracks opened p q) (h' : Tracks opened p' q') :
    Tracks opened (if b then p else p') (if b then q else q') := by
  split
  · exact h
  · exact h'

/-! ## Single tokens -/

theorem tracks_failHere (message : String) :
    Tracks opened (failHere message : Counting α) (failHere message) :=
  tracks_get.bind fun _ => tracks_throw _

theorem tracks_peek : Tracks opened peek peek := tracks_get.bind fun _ => tracks_pure _

theorem tracks_peekAt (n : Nat) : Tracks opened (peekAt n) (peekAt n) :=
  tracks_get.bind fun _ => tracks_pure _

theorem tracks_advance : Tracks opened advance advance := tracks_modify _

theorem tracks_check (c : Symbol) : Tracks opened (check c) (check c) :=
  tracks_peek.bind fun _ => tracks_pure _

theorem tracks_accept (c : Symbol) : Tracks opened (accept c) (accept c) :=
  (tracks_check c).bind fun _ => .ite (tracks_advance.bind fun _ => tracks_pure _) (tracks_pure _)

theorem tracks_expect (c : Symbol) (context : String) :
    Tracks opened (expect c context) (expect c context) :=
  tracks_peek.bind fun _ => .ite tracks_advance (tracks_failHere _)

theorem tracks_identifier : Tracks opened identifier identifier :=
  tracks_peek.bind fun k => by
    cases k with
    | ident name => exact tracks_advance.bind fun _ => tracks_pure _
    | _ => exact tracks_failHere _

theorem tracks_skipWhile (p : TokenKind → Bool) : Tracks opened (skipWhile p) (skipWhile p) :=
  tracks_modify _

theorem tracks_commaItems {p : Counting α} {q : Parser α} (h : Tracks opened p q) :
    ∀ fuel, Tracks opened (commaItems p fuel) (commaItems q fuel)
  | 0 => tracks_pure _
  | fuel + 1 => h.bind fun _ => (tracks_accept _).bind fun _ =>
    .ite ((tracks_commaItems h fuel).bind fun _ => tracks_pure _) (tracks_pure _)

theorem tracks_commaList {p : Counting α} {q : Parser α} (h : Tracks opened p q) :
    Tracks opened (commaList p) (commaList q) :=
  tracks_get.bind fun _ => tracks_commaItems h _

/-! ## Expressions -/

/-- The parsers for what stands one level deeper read the same. -/
structure TracksInner (opened : Nat) (i : Inner Counting) (j : Inner Parser) : Prop where
  /-- Full expressions. -/
  expression : Tracks opened i.expression j.expression
  /-- Expressions without assignments. -/
  ternary : Tracks opened i.ternary j.ternary
  /-- Operands. -/
  unary : Tracks opened i.unary j.unary

namespace TracksInner

variable {i : Inner Counting} {j : Inner Parser} (h : TracksInner opened i j)
include h

theorem arguments : Tracks opened (arguments i) (Parser.arguments j) :=
  (tracks_accept _).bind fun _ => .ite (tracks_pure _) <|
    (tracks_commaList h.expression).bind fun _ => (tracks_expect _ _).bind fun _ => tracks_pure _

omit h in
theorem literal (l : Literal) : Tracks opened (literal l) (Parser.literal l) :=
  tracks_advance.bind fun _ => tracks_pure _

theorem primary : Tracks opened (primary i) (Parser.primary j) :=
  tracks_peek.bind fun k => by
    cases k with
    | symbol c =>
      cases c with
      | leftParen =>
        exact tracks_advance.bind fun _ => h.expression.bind fun _ =>
          (tracks_expect _ _).bind fun _ => tracks_pure _
      | «true» | «false» | null => exact literal _
      | _ => exact tracks_failHere _
    | ident name => exact .ite (literal _) (tracks_advance.bind fun _ => tracks_pure _)
    | int | float | str | char => exact literal _
    | _ => exact tracks_failHere _

theorem memberOf (object : Expr) : Tracks opened (memberOf i object) (Parser.memberOf j object) :=
  tracks_identifier.bind fun _ => (tracks_accept _).bind fun _ =>
    .ite (h.arguments.bind fun _ => tracks_pure _) (tracks_pure _)

theorem trailers : ∀ (fuel : Nat) (e : Expr),
    Tracks opened (trailers i fuel e) (Parser.trailers j fuel e)
  | 0, _ => tracks_pure _
  | fuel + 1, e => tracks_peek.bind fun k => by
    cases k with
    | symbol c =>
      cases c with
      | leftParen =>
        cases e with
        | var name =>
          exact tracks_advance.bind fun _ => h.arguments.bind fun _ => trailers fuel _
        | _ => exact tracks_failHere _
      | dot | arrow =>
        exact tracks_advance.bind fun _ => (h.memberOf e).bind fun _ => trailers fuel _
      | leftBracket =>
        exact tracks_advance.bind fun _ => h.expression.bind fun _ =>
          (tracks_expect _ _).bind fun _ => trailers fuel _
      | plusPlus | minusMinus => exact tracks_advance.bind fun _ => trailers fuel _
      | _ => exact tracks_pure _
    | _ => exact tracks_pure _

theorem operand : Tracks opened (operand i) (Parser.operand j) :=
  h.primary.bind fun _ => tracks_get.bind fun _ => h.trailers _ _

theorem cast : Tracks opened (cast i) (Parser.cast j) :=
  tracks_advance.bind fun _ => (tracks_skipWhile _).bind fun _ =>
    (tracks_expect _ _).bind fun _ => h.unary

theorem level_unary : Tracks opened (Parser.unary i) (Parser.unary j) :=
  tracks_peek.bind fun k => by
    cases k with
    | symbol c =>
      cases c with
      | minus | bang | tilde | plusPlus | minusMinus =>
        exact tracks_advance.bind fun _ => h.unary.bind fun _ => tracks_pure _
      | plus => exact tracks_advance.bind fun _ => h.unary
      | star | ampersand => exact tracks_failHere _
      | leftParen => exact (tracks_peekAt 1).bind fun _ => .ite h.cast h.operand
      | _ => exact h.operand
    | _ => exact h.operand

theorem operations : ∀ fuel, Tracks opened (operations i fuel) (Parser.operations j fuel)
  | 0 => tracks_pure _
  | fuel + 1 => tracks_peek.bind fun k => by
    cases BinaryOp.ofToken? k with
    | none => exact tracks_pure _
    | some op =>
      exact tracks_advance.bind fun _ => h.level_unary.bind fun _ =>
        (operations fuel).bind fun _ => tracks_pure _

theorem binary : Tracks opened (binary i) (Parser.binary j) :=
  h.level_unary.bind fun _ => tracks_get.bind fun _ => (h.operations _).bind fun _ => tracks_pure _

theorem level_ternary : Tracks opened (Parser.ternary i) (Parser.ternary j) :=
  h.binary.bind fun _ => (tracks_accept _).bind fun _ => .ite
    (h.expression.bind fun _ => (tracks_expect _ _).bind fun _ =>
      h.ternary.bind fun _ => tracks_pure _)
    (tracks_pure _)

theorem level_expression : Tracks opened (assignment i) (assignment j) :=
  h.level_ternary.bind fun _ => (tracks_accept _).bind fun _ =>
    .ite (h.expression.bind fun _ => tracks_pure _) <| tracks_peek.bind fun k => by
      cases BinaryOp.ofAssignment? k with
      | none => exact tracks_pure _
      | some op => exact tracks_advance.bind fun _ => h.expression.bind fun _ => tracks_pure _

end TracksInner

/-! ## Declarations -/

theorem tracks_templateArguments : Tracks opened templateArguments templateArguments :=
  tracks_get.bind fun s => by
    cases s.kind.isSymbol .less with
    | false => exact tracks_failHere _
    | true =>
      cases templateEnd? 0 s.rest with
      | none => exact tracks_failHere _
      | some rest => exact tracks_set _

theorem tracks_returnType : Tracks opened returnType returnType :=
  (tracks_skipWhile _).bind fun _ => tracks_peek.bind fun _ => by
    split
    · exact (tracks_skipWhile _).bind fun _ => tracks_skipWhile _
    · exact tracks_identifier.bind fun _ => (tracks_check _).bind fun _ =>
        .ite (tracks_templateArguments.bind fun _ => tracks_skipWhile _) (tracks_skipWhile _)

theorem tracks_parameterTokens : ∀ (fuel : Nat) (p : Param),
    Tracks opened (parameterTokens fuel p) (parameterTokens fuel p)
  | 0, _ => tracks_failHere _
  | fuel + 1, _ => tracks_peek.bind fun _ =>
    .ite (tracks_pure _) <| .ite (tracks_failHere _) <|
      tracks_advance.bind fun _ => tracks_parameterTokens fuel _

theorem tracks_parameterList : ∀ (fuel : Nat) (isFirst : Bool),
    Tracks opened (parameterList fuel isFirst) (parameterList fuel isFirst)
  | 0, _ => tracks_failHere _
  | fuel + 1, _ => tracks_get.bind fun _ => (tracks_parameterTokens _ _).bind fun _ =>
    (tracks_check _).bind fun _ => .ite (tracks_advance.bind fun _ => tracks_pure _) <|
      (tracks_expect _ _).bind fun _ => (tracks_parameterList fuel false).bind fun _ =>
        tracks_pure _

theorem tracks_parameters : Tracks opened parameters parameters :=
  (tracks_accept _).bind fun _ => .ite (tracks_pure _) <|
    tracks_get.bind fun _ => tracks_parameterList _ _

section Initializers

variable {p : Counting Expr} {q : Parser Expr} {p' : Counting (List Expr)} {q' : Parser (List Expr)}

theorem tracks_initializerItems (h : Tracks opened p q) (h' : Tracks opened p' q') :
    ∀ fuel, Tracks opened (initializerItems p p' fuel) (initializerItems q q' fuel)
  | 0 => tracks_pure _
  | fuel + 1 => by
    rw [initializerItems, initializerItems]
    refine (tracks_accept _).bind fun _ => .ite (tracks_pure _) ?_
    refine (tracks_accept _).bind fun _ => ?_
    extract_lets rest rest'
    have hrest : ∀ items, Tracks opened (rest items) (rest' items) := fun _ =>
      (tracks_accept _).bind fun _ =>
        .ite ((tracks_initializerItems h h' fuel).bind fun _ => tracks_pure _)
          ((tracks_expect _ _).bind fun _ => tracks_pure _)
    exact .ite (h'.bind hrest) (h.bind fun e => hrest [e])

theorem tracks_initializer (h : Tracks opened p q) (h' : Tracks opened p' q') :
    Tracks opened (initializer p p') (initializer q q') :=
  tracks_get.bind fun _ => tracks_initializerItems h h' _

end Initializers

/-- The parsers of one level read the same. -/
structure TracksLevel (opened : Nat) (i : Level Counting) (j : Level Parser) : Prop
    extends TracksInner opened i.toInner j.toInner where
  /-- Brace initializers. -/
  initializers : Tracks opened i.initializers j.initializers

theorem tracks_containerDeclarator (kind : SequenceKind) :
    Tracks opened (containerDeclarator kind) (containerDeclarator kind) :=
  tracks_identifier.bind fun _ => tracks_peek.bind fun _ =>
    .ite (tracks_failHere _) (tracks_pure _)

theorem tracks_containerDeclaration (kind : SequenceKind) :
    Tracks opened (containerDeclaration kind) (containerDeclaration kind) :=
  tracks_advance.bind fun _ => tracks_templateArguments.bind fun _ =>
    (tracks_commaList (tracks_containerDeclarator kind)).bind fun _ =>
      (tracks_expect _ _).bind fun _ => tracks_pure _

namespace TracksLevel

variable {i : Level Counting} {j : Level Parser} (h : TracksLevel opened i j)
include h

theorem arrayDeclarator (name : String) :
    Tracks opened (arrayDeclarator i name) (Parser.arrayDeclarator j name) := by
  rw [Parser.arrayDeclarator, Parser.arrayDeclarator]
  refine (tracks_check _).bind fun _ => ?_
  extract_lets rest rest'
  have hrest : ∀ size, Tracks opened (rest size) (rest' size) := by
    intro size
    refine (tracks_expect _ _).bind fun _ => (tracks_check _).bind fun _ => ?_
    refine .ite (tracks_failHere _) ?_
    refine (tracks_accept _).bind fun _ => (tracks_check _).bind fun _ => .ite ?_ ?_
    · exact (tracks_expect _ _).bind fun _ => h.initializers.bind fun _ => tracks_pure _
    · exact .ite (tracks_failHere _) (tracks_pure _)
  exact .ite (hrest none) (h.expression.bind fun e => hrest (some e))

theorem declarator : Tracks opened (declarator i) (Parser.declarator j) := by
  refine (tracks_skipWhile _).bind fun _ => tracks_identifier.bind fun name => ?_
  refine (tracks_accept _).bind fun _ => .ite (h.arrayDeclarator name) ?_
  refine (tracks_accept _).bind fun _ => .ite (h.expression.bind fun _ => tracks_pure _) ?_
  refine (tracks_accept _).bind fun _ => .ite ?_ ?_
  · exact h.expression.bind fun _ => (tracks_expect _ _).bind fun _ => tracks_pure _
  · exact (tracks_accept _).bind fun _ =>
      .ite (h.initializers.bind fun _ => tracks_pure _) (tracks_pure _)

theorem scalarDeclaration : Tracks opened (scalarDeclaration i) (Parser.scalarDeclaration j) :=
  (tracks_skipWhile _).bind fun _ => tracks_peek.bind fun _ => .ite
    ((tracks_skipWhile _).bind fun _ => (tracks_commaList h.declarator).bind fun _ =>
      (tracks_expect _ _).bind fun _ => tracks_pure _)
    (tracks_failHere _)

end TracksLevel

/-! ## Statements -/

section Bodies

variable {p : Counting (List Stmt)} {q : Parser (List Stmt)} (h : Tracks opened p q)
include h

theorem tracks_recovered (lineText : Nat → String) :
    Tracks opened (recovered lineText p) (recovered lineText q) :=
  tracks_get.bind fun _ => .tryCatch
    (h.bind fun stmts => by
      cases stmts with
      | nil => exact tracks_pure _
      | cons => exact tracks_pure _)
    fun _ => (tracks_modify _).bind fun _ => tracks_pure _

theorem tracks_statementItems :
    ∀ fuel, Tracks opened (statementItems p fuel) (statementItems q fuel)
  | 0 => tracks_pure _
  | fuel + 1 => tracks_get.bind fun _ => .ite (tracks_pure _) <|
    h.bind fun _ => (tracks_statementItems fuel).bind fun _ => tracks_pure _

theorem tracks_statements : Tracks opened (statements p) (statements q) :=
  tracks_get.bind fun _ => tracks_statementItems h _

theorem tracks_block : Tracks opened (block p) (block q) :=
  (tracks_statements h).bind fun _ => (tracks_expect _ _).bind fun _ => tracks_pure _

theorem tracks_body : Tracks opened (body p) (body q) :=
  (tracks_accept _).bind fun _ => .ite (tracks_block h) h

end Bodies

theorem tracks_skipStatement : Tracks opened skipStatement skipStatement := tracks_modify _

theorem tracks_jumpStatement (jump : Jump) :
    Tracks opened (jumpStatement jump) (jumpStatement jump) :=
  (tracks_expect _ _).bind fun _ => tracks_pure _

namespace TracksLevel

variable {i : Level Counting} {j : Level Parser} {p : Counting (List Stmt)}
  {q : Parser (List Stmt)}

section Plain

variable (h : TracksLevel opened i j)
include h

theorem condition (keyword : String) :
    Tracks opened (condition i keyword) (Parser.condition j keyword) :=
  (tracks_expect _ _).bind fun _ => h.expression.bind fun _ =>
    (tracks_expect _ _).bind fun _ => tracks_pure _

theorem expressionStatement :
    Tracks opened (expressionStatement i) (Parser.expressionStatement j) :=
  h.expression.bind fun _ => (tracks_expect _ _).bind fun _ => tracks_pure _

theorem forInit : Tracks opened (forInit i) (Parser.forInit j) :=
  (tracks_accept _).bind fun _ => .ite (tracks_pure _) <|
    tracks_peek.bind fun _ => .ite h.scalarDeclaration h.expressionStatement

theorem returnStatement : Tracks opened (returnStatement i) (Parser.returnStatement j) := by
  rw [Parser.returnStatement, Parser.returnStatement]
  refine (tracks_check _).bind fun _ => ?_
  extract_lets rest rest'
  have hrest : ∀ value, Tracks opened (rest value) (rest' value) := fun _ =>
    (tracks_expect _ _).bind fun _ => tracks_pure _
  exact .ite (hrest none) (h.expression.bind fun e => hrest (some e))

theorem namedStatement (name : String) :
    Tracks opened (namedStatement i name) (Parser.namedStatement j name) := by
  refine tracks_get.bind fun s => .ite (tracks_skipStatement.bind fun _ => tracks_pure _) ?_
  refine .ite ?_ h.expressionStatement
  cases SequenceKind.ofTypeName? name with
  | some kind => exact tracks_containerDeclaration kind
  | none => exact .ite (tracks_failHere _) h.expressionStatement

end Plain

section Compound

variable (h : TracksLevel opened i j) (hp : Tracks opened p q)
include h hp

theorem ifStatement : Tracks opened (ifStatement i p) (Parser.ifStatement j q) :=
  (h.condition _).bind fun _ => (tracks_body hp).bind fun _ => (tracks_accept _).bind fun _ =>
    .ite ((tracks_body hp).bind fun _ => tracks_pure _) (tracks_pure _)

theorem whileStatement : Tracks opened (whileStatement i p) (Parser.whileStatement j q) :=
  (h.condition _).bind fun _ => (tracks_body hp).bind fun _ => tracks_pure _

theorem doStatement : Tracks opened (doStatement i p) (Parser.doStatement j q) :=
  (tracks_body hp).bind fun _ => (tracks_expect _ _).bind fun _ => (h.condition _).bind fun _ =>
    (tracks_expect _ _).bind fun _ => tracks_pure _

theorem forStatement : Tracks opened (forStatement i p) (Parser.forStatement j q) := by
  rw [Parser.forStatement, Parser.forStatement]
  refine (tracks_expect _ _).bind fun _ => h.forInit.bind fun init => ?_
  refine (tracks_check _).bind fun _ => ?_
  extract_lets rest rest'
  have hrest : ∀ test, Tracks opened (rest test) (rest' test) := by
    intro test
    refine (tracks_expect _ _).bind fun _ => (tracks_check _).bind fun _ => ?_
    extract_lets loop loop'
    have hloop : ∀ increment, Tracks opened (loop increment) (loop' increment) := fun _ =>
      (tracks_expect _ _).bind fun _ => (tracks_body hp).bind fun _ => tracks_pure _
    exact .ite (hloop []) ((tracks_commaList h.expression).bind hloop)
  exact .ite (hrest none) (h.expression.bind fun e => hrest (some e))

end Compound

theorem statementBy {nested : Counting (List Stmt)} {nested' : Parser (List Stmt)}
    (h : TracksLevel opened i j) (hn : Tracks opened nested nested') (hm : Tracks opened p q) :
    Tracks opened (statementBy i nested p) (Parser.statementBy j nested' q) :=
  tracks_peek.bind fun k => by
    cases k with
    | symbol c =>
      cases c with
      | semicolon => exact tracks_advance.bind fun _ => tracks_pure _
      | leftBrace =>
        exact tracks_advance.bind fun _ => (tracks_block hm).bind fun _ => tracks_pure _
      | «if» => exact tracks_advance.bind fun _ => h.ifStatement hm
      | «while» => exact tracks_advance.bind fun _ => h.whileStatement hm
      | «do» => exact tracks_advance.bind fun _ => h.doStatement hm
      | «for» => exact tracks_advance.bind fun _ => h.forStatement hm
      | «return» => exact tracks_advance.bind fun _ => h.returnStatement
      | «break» | «continue» => exact tracks_advance.bind fun _ => tracks_jumpStatement _
      | «using» => exact tracks_skipStatement.bind fun _ => tracks_pure _
      | const =>
        exact (tracks_peekAt 1).bind fun _ => .ite (tracks_advance.bind fun _ => hn)
          h.scalarDeclaration
      | _ => exact h.expressionStatement
    | type => exact h.scalarDeclaration
    | ident name => exact h.namedStatement name
    | _ => exact h.expressionStatement

end TracksLevel

/-! ## Functions -/

theorem tracks_namedParams (name : String) (location : Location) :
    ∀ params, Tracks opened (namedParams name location params) (namedParams name location params)
  | [] => tracks_pure _
  | some _ :: others => (tracks_namedParams name location others).bind fun _ => tracks_pure _
  | none :: _ => tracks_throw _

theorem tracks_functionDefinition {p : Counting (List Stmt)} {q : Parser (List Stmt)}
    (h : Tracks opened p q) : Tracks opened (functionDefinition p) (functionDefinition q) := by
  refine tracks_get.bind fun s => tracks_returnType.bind fun _ => tracks_identifier.bind fun _ => ?_
  refine (tracks_expect _ _).bind fun _ => tracks_parameters.bind fun params => ?_
  refine (tracks_accept _).bind fun _ => .ite (tracks_pure _) ?_
  refine (tracks_namedParams _ _ params).bind fun _ => (tracks_expect _ _).bind fun _ => ?_
  exact (tracks_statements h).bind fun _ => (tracks_expect _ _).bind fun _ => tracks_pure _

/-! ## Parsers that call each other -/

/-- `outer` reads what `inside` reads one level deeper, and fails if there is no level left. -/
structure Deeper (outer inside : Nat → Parser α) : Prop where
  /-- No level is left. -/
  zero : outer 0 = failHere "Nesting too deep"
  /-- One of the levels is taken. -/
  succ : ∀ depth, outer (depth + 1) = inside depth

theorem deeper_expression :
    Deeper (fun depth => (inner depth).expression) fun depth => assignment (inner depth) :=
  ⟨rfl, fun _ => rfl⟩

theorem deeper_ternary :
    Deeper (fun depth => (inner depth).ternary) fun depth => ternary (inner depth) :=
  ⟨rfl, fun _ => rfl⟩

theorem deeper_unary : Deeper (fun depth => (inner depth).unary) fun depth => unary (inner depth) :=
  ⟨rfl, fun _ => rfl⟩

theorem deeper_initializer : Deeper nestedInitializer initializerList := ⟨rfl, fun _ => rfl⟩

theorem deeper_statement (lineText : Nat → String) :
    Deeper (statement lineText) fun depth => statementBy (level depth) (statement lineText depth)
      (recovered lineText (statement lineText depth)) :=
  ⟨rfl, fun _ => rfl⟩

theorem Deeper.tracks {p : Counting α} {outer inside : Nat → Parser α} (h : Deeper outer inside)
    (hp : opened < maxNesting → Tracks (opened + 1) p (inside (maxNesting - (opened + 1)))) :
    Tracks opened (nested p) (outer (maxNesting - opened)) := by
  intro s
  rw [nested]
  by_cases hfull : maxNesting ≤ opened
  · rw [if_pos hfull, Nat.sub_eq_zero_of_le hfull, h.zero]
    rfl
  · have hlevel : maxNesting - opened = maxNesting - (opened + 1) + 1 := by omega
    rw [if_neg hfull, hlevel, h.succ, hp (Nat.lt_of_not_le hfull) s]
    cases inside (maxNesting - (opened + 1)) s <;> rfl

namespace Counting

/-- A parser with a counter that reads with the levels that are left. -/
def ofLevels (q : Nat → Parser α) : Counting α :=
  fun (opened, s) => counted opened (q (maxNesting - opened) s)

theorem tracks_ofLevels (q : Nat → Parser α) (opened : Nat) :
    Tracks opened (ofLevels q) (q (maxNesting - opened)) := fun _ => rfl

theorem eq_ofLevels {p : Counting α} {q : Nat → Parser α}
    (h : ∀ opened, Tracks opened p (q (maxNesting - opened))) : p = ofLevels q :=
  funext fun (opened, s) => h opened s

theorem restores_ofLevels (q : Nat → Parser α) : Restores (ofLevels q) := by
  intro opened s
  rw [ofLevels]
  cases q (maxNesting - opened) s <;> rfl

/-- The parsers of a level, with a counter. -/
def levels : Level Counting where
  expression := ofLevels fun depth => (inner depth).expression
  ternary := ofLevels fun depth => (inner depth).ternary
  unary := ofLevels fun depth => (inner depth).unary
  initializers := ofLevels initializerList

theorem tracksLevel_levels (opened : Nat) :
    TracksLevel opened levels (level (maxNesting - opened)) where
  expression := tracks_ofLevels (fun depth => (inner depth).expression) opened
  ternary := tracks_ofLevels (fun depth => (inner depth).ternary) opened
  unary := tracks_ofLevels (fun depth => (inner depth).unary) opened
  initializers := tracks_ofLevels initializerList opened

namespace Mutual

variable {lineText : Nat → String}

/-- The parsers that are told how many levels are left call each other in this way. -/
def byLevels (lineText : Nat → String) : Mutual lineText where
  toLevel := levels
  statement := ofLevels (Parser.statement lineText)
  expression_eq := .symm <| eq_ofLevels (q := fun depth => (inner depth).expression) fun opened =>
    deeper_expression.tracks fun _ => (tracksLevel_levels (opened + 1)).level_expression
  ternary_eq := .symm <| eq_ofLevels (q := fun depth => (inner depth).ternary) fun opened =>
    deeper_ternary.tracks fun _ => (tracksLevel_levels (opened + 1)).level_ternary
  unary_eq := .symm <| eq_ofLevels (q := fun depth => (inner depth).unary) fun opened =>
    deeper_unary.tracks fun _ => (tracksLevel_levels (opened + 1)).level_unary
  initializers_eq := .symm <| eq_ofLevels (q := initializerList) fun opened => by
    rw [initializerList_eq]
    exact tracks_initializer (tracksLevel_levels opened).expression
      (deeper_initializer.tracks fun _ => (tracksLevel_levels (opened + 1)).initializers)
  statement_eq := .symm <| eq_ofLevels fun opened =>
    (deeper_statement lineText).tracks fun _ => (tracksLevel_levels (opened + 1)).statementBy
      (tracks_ofLevels _ (opened + 1)) (tracks_recovered (tracks_ofLevels _ (opened + 1)) lineText)

variable (k : Mutual lineText)

theorem tracksInner (opened : Nat) :
    TracksInner opened k.toInner (inner (maxNesting - opened)) := by
  -- Inside of each level one less is left, and where none is left nothing is read inside.
  refine ⟨?_, ?_, ?_⟩
  · rw [k.expression_eq]
    exact deeper_expression.tracks fun _ => (tracksInner (opened + 1)).level_expression
  · rw [k.ternary_eq]
    exact deeper_ternary.tracks fun _ => (tracksInner (opened + 1)).level_ternary
  · rw [k.unary_eq]
    exact deeper_unary.tracks fun _ => (tracksInner (opened + 1)).level_unary
termination_by maxNesting - opened

theorem tracks_initializers (opened : Nat) :
    Tracks opened k.initializers (initializerList (maxNesting - opened)) := by
  rw [k.initializers_eq, initializerList_eq]
  exact tracks_initializer (k.tracksInner opened).expression
    (deeper_initializer.tracks fun _ => tracks_initializers (opened + 1))
termination_by maxNesting - opened

theorem tracksLevel (opened : Nat) : TracksLevel opened k.toLevel (level (maxNesting - opened)) :=
  ⟨k.tracksInner opened, k.tracks_initializers opened⟩

theorem tracks_statement (opened : Nat) :
    Tracks opened k.statement (Parser.statement lineText (maxNesting - opened)) := by
  rw [k.statement_eq]
  refine (deeper_statement lineText).tracks fun _ => ?_
  have hdeeper := tracks_statement (opened + 1)
  exact (k.tracksLevel (opened + 1)).statementBy hdeeper (tracks_recovered hdeeper lineText)
termination_by maxNesting - opened

/-- **No other parsers call each other in this way.** -/
theorem eq_byLevels : k = byLevels lineText := by
  have hexpression : k.expression = ofLevels fun depth => (inner depth).expression :=
    eq_ofLevels fun opened => (k.tracksInner opened).expression
  have hternary : k.ternary = ofLevels fun depth => (inner depth).ternary :=
    eq_ofLevels fun opened => (k.tracksInner opened).ternary
  have hunary : k.unary = ofLevels fun depth => (inner depth).unary :=
    eq_ofLevels fun opened => (k.tracksInner opened).unary
  have hinitializers : k.initializers = ofLevels initializerList :=
    eq_ofLevels k.tracks_initializers
  have hstatement : k.statement = ofLevels (Parser.statement lineText) :=
    eq_ofLevels k.tracks_statement
  obtain ⟨⟨⟨expression, ternary, unary⟩, initializers⟩, statement, _, _, _, _, _⟩ := k
  dsimp only at hexpression hternary hunary hinitializers hstatement
  subst hexpression hternary hunary hinitializers hstatement
  rfl

end Mutual

end Counting

end Parser

end Stepwise
