import Stepwise.Command
import Stepwise.Viewer.Pane

/-!
# The log pane

The commands of the log with their numbers: those carried out, the current one, and those to come.
While the pane follows the cursor, it scrolls no further than needed to keep the cursor in view.
-/

set_option autoImplicit false

namespace Stepwise.LogPane

/-- The offset at which the row of the cursor is in view, changed as little as possible. -/
def followCursor (offset visible : Nat) (cursor : Option Nat) : Nat :=
  let row := cursor.getD 0
  if row < offset then row
  else if offset + visible ≤ row then row + 1 - visible
  else offset

/-- The scroll offset for a log of `total` commands. -/
def scroll (offset total height : Nat) (cursor : Option Nat) (follow : Bool) : Nat :=
  let visible := Pane.visibleLines height
  Pane.clampScroll (if follow then followCursor offset visible cursor else offset) total visible

/-- The style of the command at `index`. -/
def commandStyle (cursor : Option Nat) (index : Nat) : Style :=
  match cursor with
  | none => Theme.mutedStyle
  | some k =>
    if index = k then { fg := Theme.secondary, bg := Theme.highlight, bold := true }
    else if index < k then { fg := Theme.plain }
    else Theme.mutedStyle

def line (cursor : Option Nat) (index : Nat) (c : Command) : Line :=
  let marker := if cursor = some index then "▶" else " "
  [{ text := marker ++ Pane.number (index + 1) ++ " ", style := Theme.mutedStyle },
   { text := c.text, style := commandStyle cursor index }]

def draw (log : Log) (cursor : Option Nat) (focused : Bool) (width height offset : Nat)
    (follow : Bool) : Screen × Nat :=
  let title := " Command Log "
  if log.isEmpty then
    (Pane.placeholder title focused width height "(no commands)", offset)
  else
    let offset' := scroll offset log.length height cursor follow
    let rows := log.zipIdx.drop offset' |>.take (Pane.visibleLines height)
    let contents := rows.map fun (c, index) => Line.cells (line cursor index c)
    (Pane.bordered title focused width height {} contents, offset')

end Stepwise.LogPane
