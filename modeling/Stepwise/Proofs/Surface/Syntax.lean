import Stepwise.Proofs.Program.Written

/-!
# Source programs

Programs as they are written, before types are dropped and markers and guards are put in: functions
and statements in any order.  There are no words here that mean something else in the language than
what they stand for, because a `Name` is no keyword, type or console word, and a number has no sign.

* `Surface.Program.text` writes a program, one statement per line and with a blank between any two
  tokens.  A binary operator or a choice has parentheses around it wherever it stands, and every
  other expression that is not a single token has them where it is an operand.
* `Surface.Program.lower` is the program that is run: the same tree, with a marker for the line of
  each statement, a guard around each loop condition and a call to `main`.
* `Surface.Program.levels` counts the nesting levels that are open at once when the text is read.
-/

set_option autoImplicit false

namespace Stepwise

@[simp] theorem TokenKind.isWritable_symbol (c : Symbol) :
    (TokenKind.symbol c).isWritable = true := rfl

namespace Surface

/-! ## Words -/

/-- Whether all tokens can be written. -/
def writable (ks : List TokenKind) : Bool := ks.all TokenKind.isWritable

section Writable

variable (k : TokenKind) (ks ks' : List TokenKind)

@[simp] theorem writable_nil : writable [] = true := rfl

@[simp] theorem writable_cons : writable (k :: ks) = (k.isWritable && writable ks) := rfl

@[simp] theorem writable_append : writable (ks ++ ks') = (writable ks && writable ks') :=
  List.all_append

theorem writable_commaTokens : ∀ {parts : List (List TokenKind)},
    (∀ ks ∈ parts, writable ks = true) → writable (Parser.commaTokens parts) = true
  | [], _ => rfl
  | [ks], h => h ks List.mem_cons_self
  | ks :: ks' :: others, h => by
    obtain ⟨hfirst, hothers⟩ := List.forall_mem_cons.1 h
    have hjoin : Parser.commaTokens (ks :: ks' :: others)
        = ks ++ .symbol .comma :: Parser.commaTokens (ks' :: others) := rfl
    rw [hjoin, writable_append, writable_cons, hfirst, writable_commaTokens hothers]
    rfl

end Writable

/-- The words that mean something without being keywords. -/
def reserved : List String := "endl" :: (Parser.consoleStreams ++ Parser.consoleCalls)

/-- The name of a variable, function, method or member. -/
structure Name where
  text : String
  /-- It is a word, and neither a keyword nor a type. -/
  isWritable : (TokenKind.ident text).isWritable = true
  not_reserved : text ∉ reserved

/-- The token of a name. -/
def Name.token (name : Name) : TokenKind := .ident name.text

@[simp] theorem Name.isWritable_token (name : Name) : name.token.isWritable = true :=
  name.isWritable

/-- A scalar type. -/
structure ScalarType where
  text : String
  isWritable : (TokenKind.type text).isWritable = true

/-- The token of a type. -/
def ScalarType.token (type : ScalarType) : TokenKind := .type type.text

@[simp] theorem ScalarType.isWritable_token (type : ScalarType) : type.token.isWritable = true :=
  type.isWritable

/-- Literals.  A number with a sign is no literal. -/
inductive Literal where
  | int (n : Int64) (nonneg : 0 ≤ n)
  | str (s : String)
  | bool (b : Bool)
  | null

namespace Literal

/-- The token of a literal. -/
def token : Literal → TokenKind
  | int n _ => .int n
  | str s => .str s
  | bool true => .symbol .true
  | bool false => .symbol .false
  | null => .symbol .null

/-- What a literal stands for. -/
def lower : Literal → Stepwise.Literal
  | int n _ => .int n
  | str s => .str s
  | bool b => .bool b
  | null => .null

theorem literal?_token (l : Literal) : l.token.literal? = some l.lower := by
  cases l with
  | bool b => cases b <;> rfl
  | _ => rfl

@[simp] theorem isWritable_token (l : Literal) : l.token.isWritable = true := by
  cases l with
  | int n nonneg => exact decide_eq_true nonneg
  | bool b => cases b <;> rfl
  | _ => rfl

end Literal

/-- The operators of updating assignments. -/
inductive UpdateOp where
  | add
  | sub
  | mul
  | div
  | mod

namespace UpdateOp

/-- The symbol of an updating assignment. -/
def token : UpdateOp → Symbol
  | add => .plusAssign
  | sub => .minusAssign
  | mul => .starAssign
  | div => .slashAssign
  | mod => .percentAssign

/-- The operator by which the old value is combined with the new one. -/
def lower : UpdateOp → BinaryOp
  | add => .add
  | sub => .sub
  | mul => .mul
  | div => .div
  | mod => .mod

theorem ofAssignment?_token (op : UpdateOp) :
    BinaryOp.ofAssignment? (.symbol op.token) = some op.lower := by
  cases op <;> rfl

end UpdateOp

/-! ## Expressions -/

/-- Expressions. -/
inductive Expr where
  | literal (l : Literal)
  | var (name : Name)
  | assign (target value : Expr)
  | update (op : UpdateOp) (target value : Expr)
  | step (op : StepOp) (target : Expr)
  | binary (op : BinaryOp) (left right : Expr)
  | unary (op : UnaryOp) (operand : Expr)
  | ternary (condition thenValue elseValue : Expr)
  | call (name : Name) (args : List Expr)
  | method (object : Expr) (name : Name) (args : List Expr)
  | member (object : Expr) (name : Name)
  | index (object key : Expr)

/-- Tokens, in parentheses if `grouped`. -/
def parens (grouped : Bool) (ks : List TokenKind) : List TokenKind :=
  if grouped then .symbol .leftParen :: (ks ++ [.symbol .rightParen]) else ks

@[simp] theorem writable_parens (grouped : Bool) (ks : List TokenKind) :
    writable (parens grouped ks) = writable ks := by
  cases grouped <;> simp [parens]

/-- One level more for a pair of parentheses. -/
def enclosed (grouped : Bool) (levels : Nat) : Nat :=
  if grouped then levels + 1 else levels

namespace Expr

/-- Whether an expression is a single token. -/
def isAtom : Expr → Bool
  | literal _ => true
  | var _ => true
  | _ => false

/-- Whether an expression has parentheses around it wherever it stands. -/
def isGrouped : Expr → Bool
  | binary _ _ _ => true
  | ternary _ _ _ => true
  | _ => false

mutual

/-- The tokens of an expression, without parentheses around it. -/
def tokens : Expr → List TokenKind
  | literal l => [l.token]
  | var name => [name.token]
  | assign target value =>
    parens (!target.isAtom) target.tokens ++ .symbol .assign :: parens (!value.isAtom) value.tokens
  | update op target value =>
    parens (!target.isAtom) target.tokens ++ .symbol op.token :: parens (!value.isAtom) value.tokens
  | step op target =>
    if op.isPost then parens (!target.isAtom) target.tokens ++ [.symbol op.token]
    else .symbol op.token :: parens (!target.isAtom) target.tokens
  | binary op left right =>
    parens (!left.isAtom) left.tokens ++ .symbol op.token :: parens (!right.isAtom) right.tokens
  | unary op operand => .symbol op.token :: parens (!operand.isAtom) operand.tokens
  | ternary condition thenValue elseValue =>
    parens (!condition.isAtom) condition.tokens ++ .symbol .question ::
      (parens (!thenValue.isAtom) thenValue.tokens ++ .symbol .colon ::
        parens (!elseValue.isAtom) elseValue.tokens)
  | call name args =>
    name.token :: .symbol .leftParen :: (Parser.commaTokens (listed args) ++ [.symbol .rightParen])
  | method object name args =>
    parens (!object.isAtom) object.tokens ++ .symbol .dot :: name.token :: .symbol .leftParen ::
      (Parser.commaTokens (listed args) ++ [.symbol .rightParen])
  | member object name => parens (!object.isAtom) object.tokens ++ [.symbol .dot, name.token]
  | index object key =>
    parens (!object.isAtom) object.tokens ++ .symbol .leftBracket ::
      (parens key.isGrouped key.tokens ++ [.symbol .rightBracket])

/-- The tokens of expressions, each as it is written on its own. -/
def listed : List Expr → List (List TokenKind)
  | [] => []
  | e :: es => parens e.isGrouped e.tokens :: listed es

end

/-- The tokens of an expression as an operand. -/
def operand (e : Expr) : List TokenKind := parens (!e.isAtom) e.tokens

/-- The tokens of an expression on its own. -/
def written (e : Expr) : List TokenKind := parens e.isGrouped e.tokens

theorem listed_eq_map (es : List Expr) : listed es = es.map written := by
  induction es with
  | nil => rfl
  | cons e es ih => rw [listed, ih, List.map_cons, written]

/-- The tokens of an expression that may be missing. -/
def optional (e : Option Expr) : List TokenKind := e.elim [] written

mutual

/-- The tree of an expression. -/
def lower : Expr → Stepwise.Expr
  | literal l => .literal l.lower
  | var name => .var name.text
  | assign target value => .assign target.lower value.lower
  | update op target value => .update op.lower target.lower value.lower
  | step op target => .step op target.lower
  | binary op left right => .binary op left.lower right.lower
  | unary op operand => .unary op operand.lower
  | ternary condition thenValue elseValue =>
    .ternary condition.lower thenValue.lower elseValue.lower
  | call name args => .call name.text (lowerAll args)
  | method object name args => .method object.lower name.text (lowerAll args)
  | member object name => .member object.lower name.text
  | index object key => .index object.lower key.lower

/-- The trees of expressions. -/
def lowerAll : List Expr → List Stepwise.Expr
  | [] => []
  | e :: es => e.lower :: lowerAll es

end

theorem lowerAll_eq_map (es : List Expr) : lowerAll es = es.map lower := by
  induction es with
  | nil => rfl
  | cons e es ih => rw [lowerAll, ih, List.map_cons]

mutual

/-- The nesting levels that are open at once below an expression, without parentheses around it. -/
def levels : Expr → Nat
  | literal _ => 0
  | var _ => 0
  | assign target value =>
    max (enclosed (!target.isAtom) target.levels) (enclosed (!value.isAtom) value.levels + 1)
  | update _ target value =>
    max (enclosed (!target.isAtom) target.levels) (enclosed (!value.isAtom) value.levels + 1)
  | step op target => enclosed (!target.isAtom) target.levels + if op.isPost then 0 else 1
  | binary _ left right =>
    max (enclosed (!left.isAtom) left.levels) (enclosed (!right.isAtom) right.levels)
  | unary _ operand => enclosed (!operand.isAtom) operand.levels + 1
  | ternary condition thenValue elseValue =>
    max (enclosed (!condition.isAtom) condition.levels)
      (max (enclosed (!thenValue.isAtom) thenValue.levels)
        (enclosed (!elseValue.isAtom) elseValue.levels) + 1)
  | call _ args => listLevels args
  | method object _ args => max (enclosed (!object.isAtom) object.levels) (listLevels args)
  | member object _ => enclosed (!object.isAtom) object.levels
  | index object key =>
    max (enclosed (!object.isAtom) object.levels) (enclosed key.isGrouped key.levels + 1)

/-- The levels that any of several expressions opens. -/
def listLevels : List Expr → Nat
  | [] => 0
  | e :: es => max (enclosed e.isGrouped e.levels + 1) (listLevels es)

end

/-- The levels that an operand opens. -/
def operandLevels (e : Expr) : Nat := enclosed (!e.isAtom) e.levels

/-- The levels that an expression on its own opens. -/
def ownLevels (e : Expr) : Nat := enclosed e.isGrouped e.levels + 1

theorem listLevels_le_iff {es : List Expr} {n : Nat} :
    listLevels es ≤ n ↔ ∀ e ∈ es, e.ownLevels ≤ n := by
  induction es with
  | nil => simp [listLevels]
  | cons e es ih => rw [listLevels, Nat.max_le, List.forall_mem_cons, ih, ownLevels]

theorem listLevels_append (es es' : List Expr) :
    listLevels (es ++ es') = max (listLevels es) (listLevels es') := by
  induction es with
  | nil => rw [List.nil_append, listLevels, Nat.zero_max]
  | cons e es ih => rw [List.cons_append, listLevels, listLevels, ih, Nat.max_assoc]

end Expr

/-! ## Declarations -/

/-- Declarations of one scalar or array. -/
inductive Decl where
  | scalar (type : ScalarType) (name : Name) (init : Option Expr)
  /-- An array has a size, initial elements or both. -/
  | array (type : ScalarType) (name : Name) (size : Option Expr) (init : Option (List Expr))
    (shaped : size.isSome ∨ init.isSome)

namespace Decl

/-- The tokens of initial elements. -/
def braces (es : List Expr) : List TokenKind :=
  .symbol .assign :: .symbol .leftBrace ::
    (Parser.commaTokens (es.map Expr.written) ++ [.symbol .rightBrace])

/-- The type of a declaration. -/
def type : Decl → ScalarType
  | scalar type _ _ => type
  | array type _ _ _ _ => type

/-- The tokens of a declaration between its type and its semicolon. -/
def declared : Decl → List TokenKind
  | scalar _ name init => name.token :: init.elim [] fun e => .symbol .assign :: e.written
  | array _ name size init _ =>
    name.token :: .symbol .leftBracket ::
      (Expr.optional size ++ .symbol .rightBracket :: init.elim [] braces)

/-- The tokens of a declaration. -/
def tokens (d : Decl) : List TokenKind :=
  d.type.token :: (d.declared ++ [.symbol .semicolon])

/-- What a declaration declares. -/
def lower : Decl → Stmt
  | scalar _ name init => .declare name.text (init.map Expr.lower)
  | array _ name size init _ =>
    .array name.text (size.map Expr.lower) (init.elim [] fun es => es.map Expr.lower)

/-- The expressions of a declaration. -/
def parts : Decl → List Expr
  | scalar _ _ init => init.toList
  | array _ _ size init _ => size.toList ++ init.getD []

end Decl

/-- The first clause of a `for` loop. -/
inductive Clause where
  | none
  | declare (d : Decl)
  | expr (e : Expr)

namespace Clause

/-- The tokens of a first clause, with its semicolon. -/
def tokens : Clause → List TokenKind
  | none => [.symbol .semicolon]
  | declare d => d.tokens
  | expr e => e.written ++ [.symbol .semicolon]

/-- What a first clause does. -/
def lower : Clause → List Stmt
  | none => []
  | declare d => [d.lower]
  | expr e => [.expr e.lower]

/-- The expressions of a first clause. -/
def parts : Clause → List Expr
  | none => []
  | declare d => d.parts
  | expr e => [e]

end Clause

/-! ## Statements -/

/-- Statements.  Every body is a block. -/
inductive Stmt where
  | declare (d : Decl)
  | construct (kind : SequenceKind) (element : ScalarType) (name : Name)
  | expr (e : Expr)
  | branch (condition : Expr) (thenBody : List Stmt)
  | branchElse (condition : Expr) (thenBody elseBody : List Stmt)
  | whileLoop (condition : Expr) (body : List Stmt)
  | doWhile (body : List Stmt) (condition : Expr)
  | forLoop (init : Clause) (condition : Option Expr) (increment : List Expr) (body : List Stmt)
  | block (body : List Stmt)
  | ret (value : Option Expr)
  | jump (kind : Jump)

/-- The name of the generic type of a container. -/
def typeName : SequenceKind → String
  | .stack => "stack"
  | .queue => "queue"
  | .list => "list"

/-- The keyword of a jump. -/
def keyword : Jump → Symbol
  | .break => .break
  | .continue => .continue

namespace Stmt

/-- The line that begins a body after a condition. -/
def header (keyword : Symbol) (condition : Expr) : List TokenKind :=
  .symbol keyword :: .symbol .leftParen ::
    (condition.written ++ [.symbol .rightParen, .symbol .leftBrace])

/-- The clauses of a `for` loop, through the opening brace of its body. -/
def clauses (init : Clause) (condition : Option Expr) (increment : List Expr) : List TokenKind :=
  .symbol .for :: .symbol .leftParen ::
    (init.tokens ++ (Expr.optional condition ++ .symbol .semicolon ::
      (Parser.commaTokens (increment.map Expr.written)
        ++ [.symbol .rightParen, .symbol .leftBrace])))

mutual

/-- The lines of a statement. -/
def lines : Stmt → List (List TokenKind)
  | declare d => [d.tokens]
  | construct kind element name =>
    [[.ident (typeName kind), .symbol .less, element.token, .symbol .greater, name.token,
      .symbol .semicolon]]
  | expr e => [e.written ++ [.symbol .semicolon]]
  | branch condition thenBody =>
    header .if condition :: (allLines thenBody ++ [[.symbol .rightBrace]])
  | branchElse condition thenBody elseBody =>
    header .if condition :: (allLines thenBody ++
      [.symbol .rightBrace, .symbol .else, .symbol .leftBrace] ::
        (allLines elseBody ++ [[.symbol .rightBrace]]))
  | whileLoop condition body =>
    header .while condition :: (allLines body ++ [[.symbol .rightBrace]])
  | doWhile body condition =>
    [.symbol .do, .symbol .leftBrace] :: (allLines body ++
      [.symbol .rightBrace :: .symbol .while :: .symbol .leftParen ::
        (condition.written ++ [.symbol .rightParen, .symbol .semicolon])])
  | forLoop init condition increment body =>
    clauses init condition increment :: (allLines body ++ [[.symbol .rightBrace]])
  | block body => [.symbol .leftBrace] :: (allLines body ++ [[.symbol .rightBrace]])
  | ret value => [.symbol .return :: (Expr.optional value ++ [.symbol .semicolon])]
  | jump kind => [[.symbol (keyword kind), .symbol .semicolon]]

/-- The lines of statements. -/
def allLines : List Stmt → List (List TokenKind)
  | [] => []
  | st :: rest => st.lines ++ allLines rest

end

variable (text : Nat → String)

mutual

/-- What a statement does that begins on the given line. -/
def lower (number : Nat) : Stmt → Stepwise.Stmt
  | declare d => d.lower
  | construct kind _ name => .construct name.text kind
  | expr e => .expr e.lower
  | branch condition thenBody => .branch condition.lower (lowerAll (number + 1) thenBody)
  | branchElse condition thenBody elseBody =>
    .branchElse condition.lower (lowerAll (number + 1) thenBody)
      (lowerAll (number + (allLines thenBody).length + 2) elseBody)
  | whileLoop condition body =>
    .whileLoop (.guarded (some condition.lower)) (lowerAll (number + 1) body)
  | doWhile body condition =>
    .doWhile (lowerAll (number + 1) body) (.guarded (some condition.lower))
  | forLoop init condition increment body =>
    .forLoop init.lower (.guarded (condition.map Expr.lower)) (increment.map Expr.lower)
      (lowerAll (number + 1) body)
  | block body => .block (lowerAll (number + 1) body)
  | ret value => .ret (value.map Expr.lower)
  | jump kind => .jump kind

/-- What statements do of which the first begins on the given line. -/
def lowerAll (number : Nat) : List Stmt → List Stepwise.Stmt
  | [] => []
  | st :: rest =>
    .line { number, text := text number } :: lower number st ::
      lowerAll (number + st.lines.length) rest

end

mutual

/-- The nesting levels that are open at once when a statement is read. -/
def levels : Stmt → Nat
  | declare d => Expr.listLevels d.parts + 1
  | construct _ _ _ => 1
  | expr e => e.ownLevels + 1
  | branch condition thenBody => max condition.ownLevels (allLevels thenBody) + 1
  | branchElse condition thenBody elseBody =>
    max condition.ownLevels (max (allLevels thenBody) (allLevels elseBody)) + 1
  | whileLoop condition body => max condition.ownLevels (allLevels body) + 1
  | doWhile body condition => max condition.ownLevels (allLevels body) + 1
  | forLoop init condition increment body =>
    max (Expr.listLevels (init.parts ++ condition.toList ++ increment)) (allLevels body) + 1
  | block body => allLevels body + 1
  | ret value => Expr.listLevels value.toList + 1
  | jump _ => 1

/-- The levels that any of several statements opens. -/
def allLevels : List Stmt → Nat
  | [] => 0
  | st :: rest => max st.levels (allLevels rest)

end

end Stmt

/-! ## Programs -/

/-- Function definitions. -/
structure Function where
  type : ScalarType
  name : Name
  params : List (ScalarType × Name)
  body : List Stmt

namespace Function

/-- The tokens of a parameter. -/
def param (p : ScalarType × Name) : List TokenKind := [p.1.token, p.2.token]

/-- The line that begins a function. -/
def header (f : Function) : List TokenKind :=
  f.type.token :: f.name.token :: .symbol .leftParen ::
    (Parser.commaTokens (f.params.map param) ++ [.symbol .rightParen, .symbol .leftBrace])

/-- The lines of a function. -/
def lines (f : Function) : List (List TokenKind) :=
  f.header :: (Stmt.allLines f.body ++ [[.symbol .rightBrace]])

/-- A function that begins on the given line. -/
def lower (text : Nat → String) (number : Nat) (f : Function) : Stepwise.Function where
  name := f.name.text
  params := f.params.map fun p => p.2.text
  body := Stmt.lowerAll text (number + 1) f.body
  location := ⟨number, 1⟩

end Function

/-- The pieces of a program. -/
inductive Item where
  | function (f : Function)
  | statement (st : Stmt)

namespace Item

/-- The name of a function. -/
def name? : Item → Option String
  | function f => some f.name.text
  | statement _ => none

/-- The lines of a piece. -/
def lines : Item → List (List TokenKind)
  | function f => f.lines
  | statement st => st.lines

/-- The levels that a piece opens. -/
def levels : Item → Nat
  | function f => Stmt.allLevels f.body
  | statement st => st.levels

/-- The functions among pieces of which the first begins on the given line. -/
def functions (text : Nat → String) (number : Nat) : List Item → List Stepwise.Function
  | [] => []
  | function f :: rest => f.lower text number :: functions text (number + f.lines.length) rest
  | statement st :: rest => functions text (number + st.lines.length) rest

/-- The statements among pieces of which the first begins on the given line. -/
def body (text : Nat → String) (number : Nat) : List Item → List Stepwise.Stmt
  | [] => []
  | function f :: rest => body text (number + f.lines.length) rest
  | statement st :: rest =>
    .line { number, text := text number } :: st.lower text number ::
      body text (number + st.lines.length) rest

end Item

/-- Programs: functions of distinct names and statements. -/
structure Program where
  items : List Item
  distinct : (items.filterMap Item.name?).Nodup

namespace Program

/-- The text of a program. -/
def text (p : Program) : String :=
  String.ofList (Token.spellLines (p.items.flatMap Item.lines))

/-- The levels that a program opens. -/
def levels (p : Program) : Nat := (p.items.map Item.levels).foldr max 0

/-- Whether there is a `main`. -/
def hasMain (p : Program) : Bool := (p.items.filterMap Item.name?).contains "main"

/-- The program that is run. -/
def lower (p : Program) : Stepwise.Program where
  functions := Item.functions (Program.lineText p.text) 1 p.items
  body := Item.body (Program.lineText p.text) 1 p.items
    ++ if p.hasMain then [.expr (.call "main" [])] else []
  entry := if p.hasMain then some "main" else none

end Program

end Surface

end Stepwise
