import Stepwise.Program
import Stepwise.Token

/-!
# Token streams

A `Stream` is what is left of a token list, and a `Parser` reads from it: it yields a result or a
`ParseError`, and in both cases says how much it has read.  The end token is not kept as a token.
It is what one sees when nothing is left, so no parser can run past it.

What is read does not depend on what else a parser keeps in its state, so the parsers here and in
the files after this one are written for every kind of state that has a stream in it.  `Parser` is
the kind that runs.
-/

set_option autoImplicit false

namespace Stepwise

/-- The tokens still to be read, and where the text ends. -/
structure Stream where
  rest : List Token
  finish : Location

namespace Stream

/-- The stream of a token list. -/
def ofTokens (tokens : List Token) : Stream where
  rest := tokens.takeWhile fun t => t.kind != .eof
  finish := ((tokens.find? fun t => t.kind == .eof).map Token.location).getD .start

/-- The kind of the token after `n` others, the end of the text counting as one. -/
def kindAt (s : Stream) (n : Nat) : TokenKind :=
  match s.rest[n]? with
  | some t => t.kind
  | none => .eof

def kind (s : Stream) : TokenKind :=
  match s.rest with
  | t :: _ => t.kind
  | [] => .eof

def location (s : Stream) : Location :=
  match s.rest with
  | t :: _ => t.location
  | [] => s.finish

def advance (s : Stream) : Stream :=
  { s with rest := s.rest.tail }

/-- The number of tokens still to be read. -/
def length (s : Stream) : Nat := s.rest.length

end Stream

/-- Reads from a token stream. -/
abbrev Parser := EStateM ParseError Stream

namespace Parser

variable {α : Type} {m : Type → Type} [Monad m] [MonadStateOf Stream m] [MonadExceptOf ParseError m]

def failHere (message : String) : m α := do
  throw ⟨message, (← get).location⟩

def peek : m TokenKind := do
  return (← get).kind

/-- The kind of the token after `n` others. -/
def peekAt (n : Nat) : m TokenKind := do
  return (← get).kindAt n

def advance : m Unit :=
  modify Stream.advance

def check (s : Symbol) : m Bool := do
  return (← peek).isSymbol s

/-- Skip the next token if it is the symbol `s`, and say whether it was. -/
def accept (s : Symbol) : m Bool := do
  if ← check s then
    advance
    return true
  else
    return false

/-- Skip the symbol `s`, or fail in the given context. -/
def expect (s : Symbol) (context : String) : m Unit := do
  let found ← peek
  if found.isSymbol s then
    advance
  else
    failHere ("Expected " ++ (TokenKind.symbol s).describe ++ " " ++ context ++ ", found "
      ++ found.describe)

def identifier : m String := do
  match ← peek with
  | .ident name =>
    advance
    return name
  | found => failHere ("Expected identifier, found " ++ found.describe)

/-- Skip tokens as long as they satisfy `p`. -/
def skipWhile (p : TokenKind → Bool) : m Unit :=
  modify fun s => { s with rest := s.rest.dropWhile fun t => p t.kind }

/-- Items with commas between them, at least one and at most `fuel`. -/
def commaItems (item : m α) : Nat → m (List α)
  | 0 => return []
  | fuel + 1 => do
    let first ← item
    if ← accept .comma then
      let others ← commaItems item fuel
      return first :: others
    else
      return [first]

/-- Items with commas between them, at least one.  Every comma is a token, so the number of tokens
bounds the number of items. -/
def commaList (item : m α) : m (List α) := do
  commaItems item ((← get).length + 1)

end Parser

end Stepwise
