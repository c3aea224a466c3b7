/-!
# Places in a source text

A `Location` is a line and a column, both counted from one, columns in characters.  A `SourceLine`
is a line number together with the trimmed text of that line: what a recorded command cites.
-/

set_option autoImplicit false

namespace Stepwise

/-- A line and a column of a source text, from one. -/
structure Location where
  line : Nat
  column : Nat
deriving DecidableEq, Repr, Inhabited

namespace Location

def start : Location := ⟨1, 1⟩

def next (l : Location) (c : Char) : Location :=
  if c = '\n' then ⟨l.line + 1, 1⟩ else ⟨l.line, l.column + 1⟩

end Location

/-- A line of the source, as cited by the commands it produces.  Line zero with no text stands for
no line at all. -/
structure SourceLine where
  number : Nat := 0
  text : String := ""
deriving DecidableEq, Repr, Inhabited

end Stepwise
