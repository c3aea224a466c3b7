import Stepwise.Text.Lines
import Stepwise.Viewer.Highlight
import Stepwise.Viewer.Pane

/-!
# The source pane

The source text with line numbers.  The line of the current command is marked, and the text is
scrolled so that it stays in one row of the pane, as far as the ends of the text allow.
-/

set_option autoImplicit false

namespace Stepwise.SourcePane

/-- The first line shown, and the row to which the current line is pinned; it is the middle row
until the pane has been drawn. -/
structure Scroll where
  offset : Nat := 0
  row : Option Nat := none
deriving DecidableEq, Repr

/-- The scroll position for a text of `total` lines with the given current line, if there is one. -/
def Scroll.update (s : Scroll) (total height : Nat) (current : Option Nat) : Scroll :=
  let visible := Pane.visibleLines height
  let row := min (s.row.getD (visible / 2)) (visible - 1)
  let offset :=
    match current with
    | some line =>
      if 0 < line && line ≤ total then Pane.clampScroll (line - 1 - row) total visible
      else s.offset
    | none => s.offset
  { offset, row := some row }

/-- A line of the source with its number.  The current line has a background, which is red if the
run stopped on it. -/
def numberedLine (current : Option Nat) (isFault : Bool) (number : Nat) (text : String) : Line :=
  let contents := Highlight.line text
  let isCurrent := current = some number
  let (numberStyle, spans) : Style × Line :=
    if isCurrent && isFault then
      ({ fg := Theme.error, bold := true },
       contents.map fun s => { s with style := { fg := .white, bg := Theme.error, bold := true } })
    else if isCurrent then
      ({ fg := Theme.secondary, bold := true },
       contents.map fun s => { s with style := { s.style with bg := Theme.highlight } })
    else (Theme.mutedStyle, contents)
  { text := Pane.number number ++ " ", style := numberStyle } :: spans

def draw (source : String) (current : Option Nat) (isFault focused : Bool) (width height : Nat)
    (scroll : Scroll) : Screen × Scroll :=
  let title := " Source Code "
  if source.isEmpty then
    (Pane.placeholder title focused width height "(replaying a saved log, no source)", scroll)
  else
    let texts := Text.lines source
    let scroll' := scroll.update texts.length height current
    let rows := (texts.zipIdx 1).drop scroll'.offset |>.take (Pane.visibleLines height)
    let contents := rows.map fun (text, number) =>
      Line.cells (numberedLine current isFault number text)
    (Pane.bordered title focused width height {} contents, scroll')

end Stepwise.SourcePane
