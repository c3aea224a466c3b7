/-!
# Screens

A screen is a grid of styled characters, row by row.  Texts are laid out as `Line`s of `Span`s, each
with one style; a line that is too long is cut and one that is too short is filled with blanks.
-/

set_option autoImplicit false

namespace Stepwise

inductive Color where
  /-- Whatever the terminal shows by itself. -/
  | default
  | black
  | white
  | rgb (red green blue : Nat)
deriving DecidableEq, Repr

/-- How a character is shown. -/
structure Style where
  fg : Color := .default
  bg : Color := .default
  bold : Bool := false
  reversed : Bool := false
deriving DecidableEq, Repr

/-- A character in one place of a screen. -/
structure Cell where
  char : Char := ' '
  style : Style := {}
deriving DecidableEq, Repr

/-- A row of a screen. -/
abbrev Row := List Cell

/-- The rows of a screen, from the top. -/
abbrev Screen := List Row

/-- A text in one style. -/
structure Span where
  text : String
  style : Style := {}
deriving DecidableEq, Repr

/-- The spans of one line of text. -/
abbrev Line := List Span

namespace Row

/-- The row of `width` cells that starts with `cells`, cut or filled with blanks of the given
style. -/
def fit (width : Nat) (style : Style) (cells : Row) : Row :=
  cells.take width ++ List.replicate (width - cells.length) { style := style }

/-- Put a cell in front of the runs of the cells after it. -/
def consRun (c : Cell) : List (List Char × Style) → List (List Char × Style)
  | [] => [([c.char], c.style)]
  | (text, style) :: runs =>
    if style = c.style then (c.char :: text, style) :: runs
    else ([c.char], c.style) :: (text, style) :: runs

/-- The longest stretches of cells in one style. -/
def runs (row : Row) : List Span :=
  (row.foldr consRun []).map fun (text, style) => { text := String.ofList text, style }

end Row

def Span.cells (s : Span) : Row :=
  s.text.toList.map fun char => { char, style := s.style }

def Line.cells (l : Line) : Row :=
  l.flatMap Span.cells

namespace Screen

/-- The screen of the given size that starts with `rows`, cut or filled with blank rows. -/
def fit (width height : Nat) (style : Style) (rows : List Row) : Screen :=
  (rows.take height).map (Row.fit width style)
    ++ List.replicate (height - rows.length) (Row.fit width style [])

/-- Two screens of the same height side by side. -/
def beside (left right : Screen) : Screen :=
  List.zipWith (· ++ ·) left right

/-- Two screens of the same width one above the other. -/
def above (top bottom : Screen) : Screen :=
  top ++ bottom

end Screen

end Stepwise
