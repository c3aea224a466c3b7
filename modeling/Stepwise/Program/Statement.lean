import Stepwise.Program.Declaration

/-!
# Reading statements

A statement yields any number of lowered statements: none for an empty one, for `using` and for
console input and output, several for a declaration of several names.

Reading statements one after another never fails.  `recovered` puts the line marker in front of what
a statement yields; if it could not be understood, it takes the error in its place and goes on after
the statement, which `skipMalformed` finds by counting braces.
-/

set_option autoImplicit false

namespace Stepwise

/-! ## Recovery -/

/-- What follows a statement that could not be understood, after `depth` of its braces were opened:
the tokens after the next semicolon outside of braces, or after the block that was opened, or from
the brace that closes the block around it. -/
def skipMalformed : Nat → List Token → List Token
  | _, [] => []
  | depth, t :: ts =>
    match t.kind with
    | .symbol .semicolon => if depth = 0 then ts else skipMalformed depth ts
    | .symbol .leftBrace => skipMalformed (depth + 1) ts
    | .symbol .rightBrace =>
      match depth with
      | 0 => t :: ts
      | 1 => ts
      | deeper + 2 => skipMalformed (deeper + 1) ts
    | _ => skipMalformed depth ts

namespace Stream

/-- The stream after a statement that could not be understood and before which `start` tokens were
left.  A closing brace at its very beginning is skipped. -/
def synchronize (start : Nat) (s : Stream) : Stream :=
  if s.length = start && s.kind.isSymbol .rightBrace then s.advance
  else { s with rest := skipMalformed 0 s.rest }

/-- The marker for the line of the next token. -/
def marker (lineText : Nat → String) (s : Stream) : Stmt :=
  .line { number := s.location.line, text := lineText s.location.line }

end Stream

namespace Parser

variable {m : Type → Type} [Monad m] [MonadStateOf Stream m] [MonadExceptOf ParseError m]

/-- Read a statement with its line marker.  A statement that could not be understood is replaced by
its error. -/
def recovered (lineText : Nat → String) (statement : m (List Stmt)) : m (List Stmt) := do
  let s ← get
  let marked : m (List Stmt) := do
    match ← statement with
    | [] => pure []
    | stmts => pure (s.marker lineText :: stmts)
  tryCatch marked fun e => do
    modify (Stream.synchronize s.length)
    pure [s.marker lineText, .malformed e]

/-- Read statements up to a closing brace or the end of the text, at most `fuel` of them. -/
def statementItems (statement : m (List Stmt)) : Nat → m (List Stmt)
  | 0 => return []
  | fuel + 1 => do
    let s ← get
    if s.rest.isEmpty || s.kind.isSymbol .rightBrace then
      return []
    else
      let first ← statement
      return first ++ (← statementItems statement fuel)

/-- Read statements up to a closing brace or the end of the text.  Each takes at least one
token. -/
def statements (statement : m (List Stmt)) : m (List Stmt) := do
  statementItems statement ((← get).length + 1)

/-- The statements of a block after its opening brace, through the closing one. -/
def block (statement : m (List Stmt)) : m (List Stmt) := do
  let stmts ← statements statement
  expect .rightBrace "after block"
  return stmts

/-- The body of a loop or branch: a block or a single statement. -/
def body (statement : m (List Stmt)) : m (List Stmt) := do
  if ← accept .leftBrace then
    block statement
  else
    statement

/-! ## Statements by their first token -/

def consoleStreams : List String := ["cout", "cin", "cerr", "clog"]

def consoleCalls : List String := ["printf", "puts", "scanf", "putchar", "getchar", "system"]

def skipStatement : m Unit :=
  modify fun s => { s with rest := (s.rest.dropWhile fun t => !t.kind.isSymbol .semicolon).tail }

/-- A condition in parentheses, after `keyword`. -/
def condition (level : Level m) (keyword : String) : m Expr := do
  expect .leftParen ("after '" ++ keyword ++ "'")
  let e ← level.expression
  expect .rightParen ("after " ++ keyword ++ " condition")
  return e

def expressionStatement (level : Level m) : m (List Stmt) := do
  let e ← level.expression
  expect .semicolon "after expression"
  return [.expr e]

def ifStatement (level : Level m) (statement : m (List Stmt)) : m (List Stmt) := do
  let test ← condition level "if"
  let thenBody ← body statement
  if ← accept .else then
    let elseBody ← body statement
    return [.branchElse test thenBody elseBody]
  else
    return [.branch test thenBody]

def whileStatement (level : Level m) (statement : m (List Stmt)) : m (List Stmt) := do
  let test ← condition level "while"
  let stmts ← body statement
  return [.whileLoop (.guarded (some test)) stmts]

/-- A loop with its condition at the end, after `do`. -/
def doStatement (level : Level m) (statement : m (List Stmt)) : m (List Stmt) := do
  let stmts ← body statement
  expect .while "after do-while body"
  let test ← condition level "while"
  expect .semicolon "after do-while"
  return [.doWhile stmts (.guarded (some test))]

/-- The first clause of a `for` loop, with its semicolon. -/
def forInit (level : Level m) : m (List Stmt) := do
  if ← accept .semicolon then
    return []
  else
    let next ← peek
    if next.isType || next.isConst then scalarDeclaration level
    else expressionStatement level

/-- A loop with three clauses, each of which may be empty, after `for`. -/
def forStatement (level : Level m) (statement : m (List Stmt)) : m (List Stmt) := do
  expect .leftParen "after 'for'"
  let init ← forInit level
  let test ←
    if ← check .semicolon then pure none
    else do
      let e ← level.expression
      pure (some e)
  expect .semicolon "after for condition"
  let increment ←
    if ← check .rightParen then pure []
    else commaList level.expression
  expect .rightParen "after for clauses"
  let stmts ← body statement
  return [.forLoop init (.guarded test) increment stmts]

def returnStatement (level : Level m) : m (List Stmt) := do
  let value ←
    if ← check .semicolon then pure none
    else do
      let e ← level.expression
      pure (some e)
  expect .semicolon "after 'return'"
  return [.ret value]

def jumpStatement (jump : Jump) : m (List Stmt) := do
  expect .semicolon ("after '" ++ jump.keyword ++ "'")
  return [.jump jump]

/-- A statement that starts with `name`: console input or output, a container declaration, or an
expression. -/
def namedStatement (level : Level m) (name : String) : m (List Stmt) := do
  let s ← get
  let next := s.kindAt 1
  if consoleStreams.contains name || (consoleCalls.contains name && next.isSymbol .leftParen) then
    skipStatement
    return []
  else if next.isSymbol .less then
    match SequenceKind.ofTypeName? name with
    | some kind => containerDeclaration kind
    | none =>
      let declares := match templateEnd? 0 s.rest.tail with
        | some (t :: _) => t.kind.isIdent
        | _ => false
      if declares then failHere ("Unsupported container type '" ++ name ++ "'")
      else expressionStatement level
  else
    expressionStatement level

/-- A statement of the given nesting level.  `nested` reads a statement one level
deeper and `member` one of the statements of a body. -/
def statementBy (level : Level m) (nested member : m (List Stmt)) : m (List Stmt) := do
  match ← peek with
  | .symbol .semicolon =>
    advance
    return []
  | .symbol .leftBrace =>
    advance
    return [.block (← block member)]
  | .symbol .if =>
    advance
    ifStatement level member
  | .symbol .while =>
    advance
    whileStatement level member
  | .symbol .do =>
    advance
    doStatement level member
  | .symbol .for =>
    advance
    forStatement level member
  | .symbol .return =>
    advance
    returnStatement level
  | .symbol .break =>
    advance
    jumpStatement .break
  | .symbol .continue =>
    advance
    jumpStatement .continue
  | .symbol .using =>
    skipStatement
    return []
  | .symbol .const =>
    if (← peekAt 1).isIdent then
      advance
      nested
    else
      scalarDeclaration level
  | .type _ => scalarDeclaration level
  | .ident name => namedStatement level name
  | _ => expressionStatement level

/-- A statement of which at most `depth` nesting levels may be used. -/
def statement (lineText : Nat → String) : Nat → Parser (List Stmt)
  | 0 => failHere "Nesting too deep"
  | depth + 1 =>
    let nested := statement lineText depth
    statementBy (level depth) nested (recovered lineText nested)

end Parser

end Stepwise
