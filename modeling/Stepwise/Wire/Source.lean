/-!
# Reading JSON text

A `Reader` reads from the characters that are left of a JSON text.  It fails in one of three ways:
the text is no JSON, or it ended too early, or it is JSON but not what was expected.  A text is read
from left to right and the first failure is the one that counts.
-/

set_option autoImplicit false

namespace Stepwise.Wire

/-- Why a text could not be read. -/
inductive WireError where
  /-- The text is no JSON. -/
  | malformed
  /-- The text is JSON, but not that of a log. -/
  | mistyped
  /-- The text ended too early. -/
  | truncated
deriving DecidableEq, Repr

/-- Reads from the characters that are left. -/
abbrev Reader := StateT (List Char) (Except WireError)

namespace Reader

variable {α : Type}

def isBlank (c : Char) : Bool :=
  c = ' ' || c = '\n' || c = '\t' || c = '\r'

/-- Read by a function of the characters that are left. -/
def ofFunction (f : List Char → Except WireError (α × List Char)) : Reader α := f

def peek : Reader (Option Char) := do
  return (← get).head?

def next : Reader Unit :=
  modify List.tail

/-- Skip blanks; the next character after them. -/
def peekToken : Reader (Option Char) := do
  modify fun cs => cs.dropWhile isBlank
  peek

/-- Skip blanks and the character `c`. -/
def expect (c : Char) : Reader Unit := do
  match ← peekToken with
  | some d => if d = c then next else throw .malformed
  | none => throw .truncated

/-- Skip the characters of a word. -/
def word : List Char → Reader Unit
  | [] => return ()
  | c :: cs => do
    match ← peek with
    | some d =>
      if d = c then
        next
        word cs
      else
        throw .malformed
    | none => throw .truncated

/-- An upper bound for the number of further steps of a reader that takes a character at each. -/
def fuel : Reader Nat := do
  return (← get).length + 1

end Reader

end Stepwise.Wire
