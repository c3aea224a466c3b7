import Stepwise.Text.Blank

/-!
# The lines of a text

A line ends at a line feed or at the end of the text.  A carriage return right before the line feed
belongs to the line end, and a text that ends with a line feed has no further, empty line.

* `lines` are the lines of a text in order.
* `locate` finds the first line that reads like a given text once both are trimmed.
-/

set_option autoImplicit false

namespace Stepwise.Text

/-- Put `c` in front of the first line. -/
def consLine (c : Char) : List (List Char) → List (List Char)
  | [] => [[c]]
  | line :: rest => (c :: line) :: rest

def charLines : List Char → List (List Char)
  | [] => []
  | '\n' :: cs => [] :: charLines cs
  | '\r' :: '\n' :: cs => [] :: charLines cs
  | c :: cs => consLine c (charLines cs)

def lines (s : String) : List String :=
  (charLines s.toList).map String.ofList

/-- The number, from one, of the first line whose trimmed text is the trimmed `text`.  A blank
text is nowhere. -/
def locate (source text : String) : Option Nat :=
  let wanted := trim text
  if wanted.isEmpty then none
  else ((lines source).findIdx? fun line => trim line == wanted).map (· + 1)

end Stepwise.Text
