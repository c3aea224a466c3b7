import Stepwise.Viewer.Theme

/-!
# Panes

A pane is a part of the screen with a border around it and a title in the border.  Its contents may
be longer than it is high; then a scroll offset says which line comes first.
-/

set_option autoImplicit false

namespace Stepwise.Pane

def borderStyle (focused : Bool) : Style :=
  if focused then { fg := Theme.accent, bold := true } else { fg := Theme.muted }

/-- A pane of the given size around `contents`, which are cut or filled with blanks of the given
style.  In a pane with no room for all of its border, the upper and left parts of it are drawn. -/
def bordered (title : String) (focused : Bool) (width height : Nat) (fill : Style)
    (contents : List Row) : Screen :=
  let style := borderStyle focused
  let edge (char : Char) : Cell := { char, style }
  let line (left right : Char) (text : String) : Row :=
    let inner := (({ text, style } : Span).cells).take (width - 2)
    edge left :: inner ++ List.replicate (width - 2 - inner.length) (edge '─') ++ [edge right]
  let inside := Screen.fit (width - 2) (height - 2) fill contents
  let rows :=
    [line '┌' '┐' title] ++ inside.map (fun row => edge '│' :: row ++ [edge '│'])
      ++ [line '└' '┘' ""]
  (rows.take height).map (·.take width)

/-- A pane with nothing but a remark in it. -/
def placeholder (title : String) (focused : Bool) (width height : Nat) (text : String) : Screen :=
  bordered title focused width height Theme.mutedStyle
    [Line.cells [{ text, style := Theme.mutedStyle }]]

/-- The number of lines that a pane of the given height is taken to show, at least one. -/
def visibleLines (height : Nat) : Nat :=
  max (height - 2) 1

/-- The greatest offset up to `offset` at which the last page is full. -/
def clampScroll (offset total visible : Nat) : Nat :=
  if visible < total then min offset (total - visible) else 0

def number (n : Nat) : String :=
  let digits := toString n
  String.ofList (List.replicate (4 - digits.length) ' ') ++ digits

end Stepwise.Pane
