import Stepwise.Program.Expression

/-!
# Reading declarations

Scalars, arrays and containers, and the headers of functions.  Types are read over: all that is kept
of a declaration is the names it introduces and their initial values.

The brackets of a type are counted by an integer.  A counter of 32 bits holds the same number as
long as fewer than `2 ^ 31` brackets are open at a time, and texts in which more are open are left
out of account: they have more than two thousand million tokens.
-/

set_option autoImplicit false

namespace Stepwise

/-! ## Types -/

/-- What follows a list of template arguments of which `depth` brackets are still open.  The list
must be closed before a semicolon, an opening brace or the end of the text. -/
def templateEnd? (depth : Int) : List Token → Option (List Token)
  | [] => none
  | t :: ts =>
    let close (depth : Int) := if depth ≤ 0 then some ts else templateEnd? depth ts
    match t.kind with
    | .symbol .less => close (depth + 1)
    | .symbol .greater => close (depth - 1)
    | .symbol .shiftRight => close (depth - 2)
    | .symbol .semicolon => none
    | .symbol .leftBrace => none
    | .eof => none
    | _ => close depth

def TokenKind.isConst : TokenKind → Bool := TokenKind.isSymbol .const

/-- Whether a token may stand between a type and a name. -/
def TokenKind.isPointer (k : TokenKind) : Bool :=
  k.isSymbol .star || k.isSymbol .ampersand

/-- What follows a return type: a run of scalar types, a generic type, or a name with a name after
it. -/
def returnTypeEnd? (ts : List Token) : Option (List Token) :=
  let more := List.dropWhile fun t : Token => t.kind.isConst || t.kind.isType
  match ts.dropWhile fun t => t.kind.isConst with
  | [] => none
  | t :: rest =>
    match t.kind with
    | .type _ => some (more rest)
    | .ident _ =>
      match rest with
      | [] => none
      | u :: _ =>
        if u.kind.isSymbol .less then (templateEnd? 0 rest).map more
        else if u.kind.isIdent then some rest
        else none
    | _ => none

/-- Whether a function definition or prototype starts here: a return type, then a name and an
opening parenthesis. -/
def looksLikeFunction (ts : List Token) : Bool :=
  match returnTypeEnd? ts with
  | none => false
  | some rest =>
    match rest.dropWhile fun t => t.kind.isPointer with
    | name :: paren :: _ => name.kind.isIdent && paren.kind.isSymbol .leftParen
    | _ => false

namespace Parser

variable {m : Type → Type} [Monad m] [MonadStateOf Stream m] [MonadExceptOf ParseError m]

def templateArguments : m Unit := do
  let s ← get
  match s.kind.isSymbol .less, templateEnd? 0 s.rest with
  | true, some rest => set { s with rest }
  | _, _ => failHere "Unterminated template argument list"

def returnType : m Unit := do
  skipWhile TokenKind.isConst
  if (← peek).isType then
    skipWhile TokenKind.isType
  else
    let _ ← identifier
    if ← check .less then
      templateArguments
  skipWhile TokenKind.isPointer

/-! ## Parameters -/

/-- What has been read of a parameter: its name so far, the open angle and square brackets, whether
its default value has begun, and whether it is nothing but `void`. -/
structure Param where
  name : Option String := none
  angle : Int := 0
  bracket : Int := 0
  defaulted : Bool := false
  onlyVoid : Bool := true

def Param.isClosed (p : Param) : Bool :=
  p.angle ≤ 0 && p.bracket = 0

/-- One more token of a parameter.  The name is the last name outside of brackets and before any
default value. -/
def Param.step (p : Param) (k : TokenKind) : Param :=
  let isVoid := match k with
    | .type name => name = "void"
    | _ => false
  let p := { p with onlyVoid := p.onlyVoid && isVoid }
  match k with
  | .symbol .less => { p with angle := p.angle + 1 }
  | .symbol .greater => { p with angle := p.angle - 1 }
  | .symbol .shiftRight => { p with angle := p.angle - 2 }
  | .symbol .leftBracket => { p with bracket := p.bracket + 1 }
  | .symbol .rightBracket => { p with bracket := p.bracket - 1 }
  | .symbol .assign => if p.angle ≤ 0 then { p with defaulted := true } else p
  | .ident name => if p.isClosed && !p.defaulted then { p with name := some name } else p
  | _ => p

/-- Read a parameter, up to the comma or parenthesis after it, in at most `fuel` tokens. -/
def parameterTokens : Nat → Param → m Param
  | 0, _ => failHere "Unterminated parameter list"
  | fuel + 1, p => do
    let k ← peek
    if (k.isSymbol .comma || k.isSymbol .rightParen) && p.isClosed then
      return p
    else if k == .eof || k.isSymbol .leftBrace || k.isSymbol .semicolon then
      failHere "Unterminated parameter list"
    else
      advance
      parameterTokens fuel (p.step k)

/-- Read parameters through the closing parenthesis, at most `fuel` of them.  A lone `void` is no
parameter. -/
def parameterList : Nat → Bool → m (List (Option String))
  | 0, _ => failHere "Unterminated parameter list"
  | fuel + 1, isFirst => do
    let p ← parameterTokens ((← get).length + 1) {}
    let isLast ← check .rightParen
    let names := if p.onlyVoid && p.name.isNone && isFirst && isLast then [] else [p.name]
    if isLast then
      advance
      return names
    else
      expect .comma "between parameters"
      return names ++ (← parameterList fuel false)

def parameters : m (List (Option String)) := do
  if ← accept .rightParen then
    return []
  else
    parameterList ((← get).length + 1) true

/-! ## Scalars and arrays -/

/-- A brace initializer after its opening brace, through the closing one, with at most `fuel`
elements.  Braces inside are flattened, and a comma may end the list. -/
def initializerItems (expression : m Expr) (nested : m (List Expr)) :
    Nat → m (List Expr)
  | 0 => return []
  | fuel + 1 => do
    if ← accept .rightBrace then
      return []
    else
      let items ←
        if ← accept .leftBrace then nested
        else do
          let e ← expression
          pure [e]
      if ← accept .comma then
        return items ++ (← initializerItems expression nested fuel)
      else
        expect .rightBrace "after initializer list"
        return items

/-- A brace initializer of which the elements are read by `expression` and the braces inside by
`nested`. -/
def initializer (expression : m Expr) (nested : m (List Expr)) : m (List Expr) := do
  initializerItems expression nested ((← get).length + 1)

/-- A brace initializer under which `depth` nesting levels are left. -/
def initializerList : Nat → Parser (List Expr)
  | 0 => initializer (inner 0).expression (failHere "Nesting too deep")
  | depth + 1 => initializer (inner (depth + 1)).expression (initializerList depth)

/-- The parsers of one nesting level: those for what stands in it, and that for brace
initializers. -/
structure Level (m : Type → Type) extends Inner m where
  initializers : m (List Expr)

/-- The parsers of the level under which `depth` more are left. -/
@[reducible]
def level (depth : Nat) : Level Parser := ⟨inner depth, initializerList depth⟩

/-- The rest of an array declarator, after the opening bracket. -/
def arrayDeclarator (level : Level m) (name : String) : m Stmt := do
  let size ←
    if ← check .rightBracket then pure none
    else do
      let e ← level.expression
      pure (some e)
  expect .rightBracket "after array size"
  if ← check .leftBracket then
    failHere "Multi-dimensional arrays are not supported"
  else if (← accept .assign) || (← check .leftBrace) then
    expect .leftBrace "to open array initializer"
    return .array name size (← level.initializers)
  else if size.isNone then
    failHere ("Array '" ++ name ++ "' needs a size or an initializer")
  else
    return .array name size []

def declarator (level : Level m) : m Stmt := do
  skipWhile TokenKind.isPointer
  let name ← identifier
  if ← accept .leftBracket then
    arrayDeclarator level name
  else if ← accept .assign then
    return .declare name (some (← level.expression))
  else if ← accept .leftParen then
    let value ← level.expression
    expect .rightParen "after initializer"
    return .declare name (some value)
  else if ← accept .leftBrace then
    let items ← level.initializers
    return .declare name items.head?
  else
    return .declare name none

/-- A declaration of scalars and arrays, from `const` or a type. -/
def scalarDeclaration (level : Level m) : m (List Stmt) := do
  skipWhile TokenKind.isConst
  if (← peek).isType then
    skipWhile fun k => k.isType || k.isConst
    let stmts ← commaList (declarator level)
    expect .semicolon "after declaration"
    return stmts
  else
    failHere "Expected type name"

/-! ## Containers -/

def containerDeclarator (kind : SequenceKind) : m Stmt := do
  let name ← identifier
  let next ← peek
  if next.isSymbol .assign || next.isSymbol .leftParen || next.isSymbol .leftBrace then
    failHere ("Initializing container '" ++ name ++ "' at declaration is not supported")
  else
    return .construct name kind

/-- A declaration of containers of one type. -/
def containerDeclaration (kind : SequenceKind) : m (List Stmt) := do
  advance
  templateArguments
  let stmts ← commaList (containerDeclarator kind)
  expect .semicolon "after container declaration"
  return stmts

end Parser

end Stepwise
