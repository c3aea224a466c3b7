import Stepwise.Text.Printable

/-!
# Quoted texts

A quoted text stands between two quotation marks.  The mark itself, the backslash and the four
controls that have a letter of their own are written after a backslash; every other character that
is not printable is written by its code point in hexadecimal.
-/

set_option autoImplicit false

namespace Stepwise.Text

/-- How `c` is written between two copies of `mark`. -/
def quoteChar (mark c : Char) : List Char :=
  if c = '\x00' then ['\\', '0']
  else if c = '\t' then ['\\', 't']
  else if c = '\r' then ['\\', 'r']
  else if c = '\n' then ['\\', 'n']
  else if c = '\\' || c = mark then ['\\', c]
  else if isPrintable c then [c]
  else '\\' :: 'u' :: '\x7b' :: Nat.toDigits 16 c.toNat ++ ['\x7d']

/-- `cs` between two copies of `mark`. -/
def quoteChars (mark : Char) (cs : List Char) : List Char :=
  mark :: cs.flatMap (quoteChar mark) ++ [mark]

def quoted (s : String) : String :=
  String.ofList (quoteChars '"' s.toList)

def quotedChar (c : Char) : String :=
  String.ofList (quoteChars '\'' [c])

end Stepwise.Text
