import Stepwise.Timeline
import Stepwise.Viewer.Theme

/-!
# The status bar

One row: the step counter and the status message or the fault on the left, the keys, the speed and
the state of the timeline on the right.
-/

set_option autoImplicit false

namespace Stepwise

/-- What the status bar shows. -/
structure StatusBar where
  message : String
  position : Position
  total : Nat
  isPlaying : Bool
  speedLabel : String
  fault : Option String

namespace StatusBar

/-- The number of commands carried out. -/
def step (b : StatusBar) : Nat :=
  match b.position with
  | .idle => 0
  | .positioned k => k + 1
  | .finished => b.total

def onBar (fg : Color) (text : String) : Span :=
  { text, style := { fg, bg := Theme.highlight } }

/-- A text on a background of its own. -/
def badge (bg : Color) (bold : Bool) (text : String) : Span :=
  { text, style := { fg := .black, bg, bold } }

def leftLine (b : StatusBar) : Line :=
  let counter := " Step " ++ toString b.step ++ "/" ++ toString b.total ++ " "
  let (color, message, background) :=
    match b.fault with
    | some fault => (Theme.error, fault, Theme.error)
    | none => (Theme.plain, b.message, Theme.primary)
  [badge background true counter, onBar Theme.muted " | ", onBar color (" " ++ message ++ " ")]

/-- The keys and what they do. -/
def keys : List (String × String) :=
  [(" ←/→ ", " step "), (" ⎵ ", " play "), (" +/- ", " speed "), (" ↵ / ⌫ ", " end/start "),
   (" r ", " reset "), (" q ", " quit ")]

def separator : Span := onBar Theme.muted "│"

/-- What the timeline is doing, if it is worth saying. -/
def state? (b : StatusBar) : Option Span :=
  if b.isPlaying then some (badge Theme.secondary true " ▶ PLAYING ")
  else
    match b.position with
    | .finished => some (badge Theme.error true " END ")
    | .idle => some (badge Theme.success true " START ")
    | .positioned _ => none

def rightLine (b : StatusBar) : Line :=
  let entries := keys.map fun (key, description) =>
    [badge Theme.muted false key, onBar Theme.plain description]
  (entries.intersperse [separator, onBar Theme.plain " "]).flatten
    ++ [separator, onBar Theme.plain (" " ++ b.speedLabel ++ " ")]
    ++ (match b.state? with
      | some span => [separator, span]
      | none => [])

/-- Blank places of the bar. -/
def blankStyle : Style := { bg := Theme.highlight }

/-- The row with the two halves.  The right half is aligned to the right if it fits. -/
def row (b : StatusBar) (width : Nat) : Row :=
  let leftWidth := (width + 1) / 2
  let rightWidth := width - leftWidth
  let right := Line.cells b.rightLine
  Row.fit leftWidth blankStyle (Line.cells b.leftLine)
    ++ Row.fit rightWidth blankStyle
      (List.replicate (rightWidth - right.length) { style := blankStyle } ++ right)

/-- Draw the bar in the given size.  Its first row has the texts, any others only the
background. -/
def draw (b : StatusBar) (width height : Nat) : Screen :=
  Screen.fit width height blankStyle [b.row width]

end StatusBar

end Stepwise
