import Stepwise.Program.Stream

/-!
# Reading expressions

Expressions are read by recursive descent.  Recursion goes through `Inner`, the parsers for what may
stand one nesting level deeper; each level is built from the one below it, and at the bottom every
parser fails.  So the nesting depth of a text is bounded by construction, and the recursion is on
that depth.

Binary operators are first read as a flat sequence of operands and operators, and `Chain.tree` then
builds the tree: operators that bind more tightly are combined first, and operators of equal
strength from left to right.
-/

set_option autoImplicit false

namespace Stepwise

/-! ## Operators -/

def BinaryOp.ofToken? : TokenKind → Option BinaryOp
  | .symbol .orOr => some .or
  | .symbol .andAnd => some .and
  | .symbol .pipe => some .bitOr
  | .symbol .caret => some .bitXor
  | .symbol .ampersand => some .bitAnd
  | .symbol .equal => some .eq
  | .symbol .notEqual => some .ne
  | .symbol .less => some .lt
  | .symbol .lessEqual => some .le
  | .symbol .greater => some .gt
  | .symbol .greaterEqual => some .ge
  | .symbol .shiftLeft => some .shl
  | .symbol .shiftRight => some .shr
  | .symbol .plus => some .add
  | .symbol .minus => some .sub
  | .symbol .star => some .mul
  | .symbol .slash => some .div
  | .symbol .percent => some .mod
  | _ => none

def BinaryOp.ofAssignment? : TokenKind → Option BinaryOp
  | .symbol .plusAssign => some .add
  | .symbol .minusAssign => some .sub
  | .symbol .starAssign => some .mul
  | .symbol .slashAssign => some .div
  | .symbol .percentAssign => some .mod
  | _ => none

def UnaryOp.ofToken? : TokenKind → Option UnaryOp
  | .symbol .minus => some .neg
  | .symbol .bang => some .not
  | .symbol .tilde => some .bitNot
  | _ => none

namespace Chain

/-- Combine the last operand with the pending ones, the latest first, as long as their operators
bind at least as tightly as `strength`. -/
def collapse (strength : Nat) : List (Expr × BinaryOp) → Expr → List (Expr × BinaryOp) × Expr
  | [], last => ([], last)
  | (left, op) :: pending, last =>
    if strength ≤ op.precedence then collapse strength pending (.binary op left last)
    else ((left, op) :: pending, last)

/-- Combine pending operands, the last operand, and the operators and operands that follow it. -/
def build (pending : List (Expr × BinaryOp)) (last : Expr) : List (BinaryOp × Expr) → Expr
  | [] => (collapse 0 pending last).2
  | (op, operand) :: others =>
    let (lower, left) := collapse op.precedence pending last
    build ((left, op) :: lower) operand others

/-- The tree of a flat sequence of operands with operators between them. -/
def tree (first : Expr) (others : List (BinaryOp × Expr)) : Expr :=
  build [] first others

end Chain

/-! ## Parsers -/

namespace Parser

/-- Parsers for what stands one nesting level deeper. -/
structure Inner (m : Type → Type) where
  expression : m Expr
  ternary : m Expr
  unary : m Expr

variable {m : Type → Type} [Monad m] [MonadStateOf Stream m] [MonadExceptOf ParseError m]

/-- The parsers of a level that is too deep. -/
def Inner.tooDeep : Inner m where
  expression := failHere "Nesting too deep"
  ternary := failHere "Nesting too deep"
  unary := failHere "Nesting too deep"

/-- Call arguments after the opening parenthesis, through the closing one. -/
def arguments (inner : Inner m) : m (List Expr) := do
  if ← accept .rightParen then
    return []
  else
    let args ← commaList inner.expression
    expect .rightParen "after arguments"
    return args

def literal (l : Literal) : m Expr := do
  advance
  return .literal l

/-- A literal, a name or an expression in parentheses. -/
def primary (inner : Inner m) : m Expr := do
  match ← peek with
  | .int n => literal (.int n)
  | .float x => literal (.float x)
  | .str s => literal (.str s)
  | .char c => literal (.str (String.singleton c))
  | .symbol .true => literal (.bool true)
  | .symbol .false => literal (.bool false)
  | .symbol .null => literal .null
  | .ident name =>
    if name = "endl" then
      literal (.str "\n")
    else
      advance
      return .var name
  | .symbol .leftParen =>
    advance
    let e ← inner.expression
    expect .rightParen "after expression"
    return e
  | .invalid description => failHere description
  | found => failHere ("Expected expression, found " ++ found.describe)

/-- A member of `object`, after the dot: a method call if an argument list follows. -/
def memberOf (inner : Inner m) (object : Expr) : m Expr := do
  let name ← identifier
  if ← accept .leftParen then
    let args ← arguments inner
    return .method object name args
  else
    return .member object name

/-- What may follow an operand: calls, members, elements and steps, at most `fuel` of them. -/
def trailers (inner : Inner m) : Nat → Expr → m Expr
  | 0, e => return e
  | fuel + 1, e => do
    match ← peek with
    | .symbol .leftParen =>
      match e with
      | .var name =>
        advance
        let args ← arguments inner
        trailers inner fuel (.call name args)
      | _ => failHere "Only named functions can be called"
    | .symbol .dot =>
      advance
      trailers inner fuel (← memberOf inner e)
    | .symbol .arrow =>
      advance
      trailers inner fuel (← memberOf inner e)
    | .symbol .leftBracket =>
      advance
      let index ← inner.expression
      expect .rightBracket "after index"
      trailers inner fuel (.index e index)
    | .symbol .plusPlus =>
      advance
      trailers inner fuel (.step .postInc e)
    | .symbol .minusMinus =>
      advance
      trailers inner fuel (.step .postDec e)
    | _ => return e

def operand (inner : Inner m) : m Expr := do
  let e ← primary inner
  trailers inner ((← get).length + 1) e

/-- A cast, which is dropped, and its operand.  The opening parenthesis is the next token. -/
def cast (inner : Inner m) : m Expr := do
  advance
  skipWhile TokenKind.isType
  expect .rightParen "after cast type"
  inner.unary

def unary (inner : Inner m) : m Expr := do
  let next ← peek
  match UnaryOp.ofToken? next with
  | some op =>
    advance
    return .unary op (← inner.unary)
  | none =>
    match next with
    | .symbol .plus =>
      advance
      inner.unary
    | .symbol .plusPlus =>
      advance
      return .step .preInc (← inner.unary)
    | .symbol .minusMinus =>
      advance
      return .step .preDec (← inner.unary)
    | .symbol .star => failHere "Pointer operators are not supported"
    | .symbol .ampersand => failHere "Pointer operators are not supported"
    | .symbol .leftParen => if (← peekAt 1).isType then cast inner else operand inner
    | _ => operand inner

/-- Binary operators, each with the operand to its right, at most `fuel` of them. -/
def operations (inner : Inner m) : Nat → m (List (BinaryOp × Expr))
  | 0 => return []
  | fuel + 1 => do
    match BinaryOp.ofToken? (← peek) with
    | some op =>
      advance
      let right ← unary inner
      let others ← operations inner fuel
      return (op, right) :: others
    | none => return []

def binary (inner : Inner m) : m Expr := do
  let first ← unary inner
  let others ← operations inner ((← get).length + 1)
  return Chain.tree first others

def ternary (inner : Inner m) : m Expr := do
  let condition ← binary inner
  if ← accept .question then
    let thenValue ← inner.expression
    expect .colon "in ternary expression"
    let elseValue ← inner.ternary
    return .ternary condition thenValue elseValue
  else
    return condition

def assignment (inner : Inner m) : m Expr := do
  let target ← ternary inner
  if ← accept .assign then
    return .assign target (← inner.expression)
  else
    match BinaryOp.ofAssignment? (← peek) with
    | some op =>
      advance
      return .update op target (← inner.expression)
    | none => return target

/-- The parsers under which `depth` nesting levels are left. -/
def inner : Nat → Inner Parser
  | 0 => .tooDeep
  | depth + 1 =>
    let deeper := inner depth
    { expression := assignment deeper
      ternary := ternary deeper
      unary := unary deeper }

end Parser

end Stepwise
