import Stepwise.Text.Ranges

/-!
# Blanks, and texts without them at either end

`isBlank` is the white space of Unicode: the five ASCII controls from tab to carriage return, the
blank, next-line, and the space, line and paragraph separators.  `trim` cuts a text at its first and
last character that is not one of them.
-/

set_option autoImplicit false

namespace Stepwise.Text

def blankBounds : List Nat :=
  [0x9, 0xe, 0x20, 0x21, 0x85, 0x86, 0xa0, 0xa1, 0x1680, 0x1681, 0x2000, 0x200b, 0x2028, 0x202a,
   0x202f, 0x2030, 0x205f, 0x2060, 0x3000, 0x3001]

def isBlank (c : Char) : Bool :=
  inRanges blankBounds c

/-- The characters between the first and the last that is not a blank. -/
def trimChars (cs : List Char) : List Char :=
  ((cs.dropWhile isBlank).reverse.dropWhile isBlank).reverse

/-- The text between its first and its last character that is not a blank. -/
def trim (s : String) : String :=
  String.ofList (trimChars s.toList)

end Stepwise.Text
