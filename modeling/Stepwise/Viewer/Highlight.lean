import Stepwise.Text.Alphanumeric
import Stepwise.Text.Blank
import Stepwise.Viewer.Theme

/-!
# Syntax colouring

A source line is cut into words, quoted texts, comments and single other characters, each with a
style.  Every character of the line is in exactly one span, in order.
-/

set_option autoImplicit false

namespace Stepwise.Highlight

def typeNames : List String :=
  ["stack", "queue", "list", "int", "char", "void", "bool", "float", "double", "long", "short",
   "unsigned", "signed", "string", "auto", "size_t"]

def keywords : List String :=
  ["return", "if", "else", "while", "for", "do", "break", "continue", "const", "using",
   "namespace", "std"]

def constants : List String := ["true", "false", "nullptr", "NULL", "endl"]

/-- The style of a word; `isCall` says whether an argument list follows. -/
def wordStyle (word : List Char) (isCall : Bool) : Style :=
  let text := String.ofList word
  if typeNames.contains text then { fg := Theme.typeName }
  else if keywords.contains text then { fg := Theme.primary, bold := true }
  else if constants.contains text then { fg := Theme.secondary }
  else if word.head?.any Char.isDigit then { fg := Theme.secondary }
  else if isCall then { fg := Theme.accent }
  else { fg := Theme.plain }

/-- The style of a character that stands by itself. -/
def charStyle (c : Char) : Style :=
  if "\x7b\x7d()[]".toList.contains c then { fg := Theme.primary }
  else if c = '<' || c = '>' then { fg := Theme.typeName }
  else { fg := Theme.plain }

/-- A word in the given style, if there is one. -/
def wordSpan (word : List Char) (style : Style) : Line :=
  if word.isEmpty then [] else [{ text := String.ofList word, style }]

/-- How many characters a quoted text takes after its opening mark, through the closing one. -/
def quotedLength (mark : Char) : List Char → Nat
  | [] => 0
  | [_] => 1
  | c :: d :: cs =>
    if c = mark then 1
    else if c = '\\' then 2 + quotedLength mark cs
    else 1 + quotedLength mark (d :: cs)

/-- The spans of a line, of which `word` is a word not yet finished.  The first `skip` characters
belong to the span before; `blank` says whether the line has been blank so far. -/
def spans (blank : Bool) (word : List Char) (skip : Nat) : List Char → Line
  | [] => wordSpan word (wordStyle word false)
  | c :: cs =>
    match skip with
    | n + 1 => spans false [] n cs
    | 0 =>
      let stillBlank := blank && Text.isBlank c
      if (c = '/' && cs.head? = some '/') || (c = '#' && blank) then
        wordSpan word {} ++ [{ text := String.ofList (c :: cs), style := Theme.mutedStyle }]
      else if c = '"' || c = '\'' then
        let n := quotedLength c cs
        wordSpan word {}
          ++ { text := String.ofList (c :: cs.take n), style := { fg := Theme.secondary } }
            :: spans false [] n cs
      else if Text.isAlphanumeric c || c = '_' then
        spans stillBlank (word ++ [c]) 0 cs
      else
        wordSpan word (wordStyle word (c = '('))
          ++ { text := String.singleton c, style := charStyle c } :: spans stillBlank [] 0 cs

def line (s : String) : Line :=
  spans true [] 0 s.toList

end Stepwise.Highlight
