import Stepwise.Program.Statement
import Stepwise.Text.Lines
import Stepwise.Token.Lexer

/-!
# From source text to program

`Program.ofSource` reads a whole source text: function definitions and top-level statements in any
order.  It never fails.  Prototypes are dropped, a later definition replaces an earlier one of the
same name, and if there is a `main` a call to it ends the program's body.
-/

set_option autoImplicit false

namespace Stepwise

/-- The deepest nesting of statements and expressions. -/
def maxNesting : Nat := 256

namespace Parser

variable {m : Type → Type} [Monad m] [MonadStateOf Stream m] [MonadExceptOf ParseError m]

/-- A name for every parameter, or the error that the function `name` lacks one. -/
def namedParams (name : String) (location : Location) : List (Option String) → m (List String)
  | [] => return []
  | some param :: others => do
    let names ← namedParams name location others
    return param :: names
  | none :: _ => throw ⟨"Parameter of '" ++ name ++ "' has no name", location⟩

/-- A function definition, or nothing for a prototype. -/
def functionDefinition (member : m (List Stmt)) : m (Option Function) := do
  let location := (← get).location
  returnType
  let name ← identifier
  expect .leftParen "after function name"
  let params ← parameters
  if ← accept .semicolon then
    return none
  else
    let names ← namedParams name location params
    expect .leftBrace "before function body"
    let stmts ← statements member
    expect .rightBrace "after function body"
    return some { name, params := names, body := stmts, location }

/-- One piece of the top level, added to the program read so far: a stray closing brace, a function
or a statement. -/
def topLevel (lineText : Nat → String) (member : Parser (List Stmt)) (p : Program)
    (s : Stream) : Program × Stream :=
  let append (stmts : List Stmt) : Program := { p with body := p.body ++ stmts }
  if s.kind.isSymbol .rightBrace then
    (append [s.marker lineText, .malformed ⟨"Unmatched '\x7d'", s.location⟩], s.advance)
  else if looksLikeFunction s.rest then
    match functionDefinition member s with
    | .ok (some f) s' => (p.define f, s')
    | .ok none s' => (p, s')
    | .error e s' => (append [s.marker lineText, .malformed e], s'.synchronize s.length)
  else
    match member s with
    | .ok stmts s' => (append stmts, s')
    | .error _ s' => (p, s')

/-- Read the top level to the end of the text, at most `fuel` pieces. -/
def topLevels (lineText : Nat → String) (member : Parser (List Stmt)) :
    Nat → Program → Stream → Program
  | 0, p, _ => p
  | fuel + 1, p, s =>
    if s.rest.isEmpty then p
    else
      let (p', s') := topLevel lineText member p s
      topLevels lineText member fuel p' s'

end Parser

namespace Program

/-- The trimmed text of the line with the given number, nothing if there is no such line. -/
def lineText (source : String) : Nat → String :=
  let texts := ((Text.lines source).map Text.trim).toArray
  fun number => if number = 0 then "" else texts.getD (number - 1) ""

/-- The program with a call to its `main`, if it has one. -/
def callMain (p : Program) : Program :=
  match p.function? "main" with
  | some _ => { p with body := p.body ++ [.expr (.call "main" [])], entry := some "main" }
  | none => p

/-- The program of a token list, given the texts of the source lines. -/
def ofTokens (lineText : Nat → String) (tokens : List Token) : Program :=
  let s := Stream.ofTokens tokens
  let member := Parser.recovered lineText (Parser.statement lineText maxNesting)
  callMain (Parser.topLevels lineText member (s.length + 1) {} s)

/-- The program of a source text. -/
def ofSource (source : String) : Program :=
  ofTokens (lineText source) (Token.tokenize source)

end Program

end Stepwise
