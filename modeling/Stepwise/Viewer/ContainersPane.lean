import Stepwise.Snapshot
import Stepwise.Viewer.Pane

/-!
# The containers pane

A snapshot, container by container: a heading, what the container holds, and an empty line.  Stacks
are drawn top first, one item a row; queues and lists in one row from front to back; arrays with the
index of every slot.  The item with the identity `newest` is shown reversed.
-/

set_option autoImplicit false

namespace Stepwise.ContainersPane

def itemStyle (color : Color) (newest : Option Nat) (id : Nat) : Style :=
  if newest = some id then { fg := color, bold := true, reversed := true } else { fg := color }

def heading (kind name : String) (length : Nat) (color : Color) : Line :=
  [{ text := kind ++ " ", style := { fg := color, bold := true } },
   { text := name, style := { fg := Theme.plain, bold := true } },
   { text := "  (" ++ toString length ++ ")", style := Theme.mutedStyle }]

def muted (text : String) : Span := { text, style := Theme.mutedStyle }

/-- A text in the middle of `width` places. -/
def centered (width : Nat) (text : String) : String :=
  let gap := width - text.length
  String.ofList (List.replicate (gap / 2) ' ') ++ text
    ++ String.ofList (List.replicate (gap - gap / 2) ' ')

/-- The rows of a stack, top first. -/
def stackLines (items : List Item) (newest : Option Nat) : List Line :=
  let width := (items.map fun i => i.value.text.length).foldl max 0
  items.reverse.zipIdx.map fun (item, depth) =>
    [muted "  │ ",
     { text := centered width item.value.text, style := itemStyle Theme.stack newest item.id },
     muted " │"]
      ++ (if depth = 0 then [muted " ← top"] else [])

def rowLine (items : List Item) (color : Color) (newest : Option Nat)
    (lead separator tail : String) : Line :=
  let spans := items.map fun item =>
    [({ text := "[" ++ item.value.text ++ "]", style := itemStyle color newest item.id } : Span)]
  muted lead :: (spans.intersperse [muted separator]).flatten ++ [muted tail]

/-- The slots of an array in one row. -/
def slotsLine (slots : List Slot) (newest : Option Nat) : Line :=
  { text := "  " } :: slots.flatMap fun slot =>
    [muted (toString slot.index ++ ":"),
     match slot.value with
     | some value => { text := value.text, style := itemStyle Theme.array newest slot.id }
     | none => muted "·",
     { text := " " }]

def entryLines (e : Entry) (newest : Option Nat) : List Line :=
  let empty : Line := [muted "  (empty)"]
  match e.holding with
  | .stack items =>
    heading "stack" e.name items.length Theme.stack
      :: (if items.isEmpty then [empty] else stackLines items newest ++ [[muted "  └─────┘"]])
      ++ [[]]
  | .queue items =>
    [heading "queue" e.name items.length Theme.queue,
     if items.isEmpty then empty
     else rowLine items Theme.queue newest "  front " " " " back",
     []]
  | .array slots =>
    [heading "array" e.name slots.size Theme.array, slotsLine slots.toList newest, []]
  | .linkedList nodes =>
    [heading "list" e.name nodes.length Theme.list,
     rowLine nodes Theme.list newest "  head → " " → " " → null",
     []]

def draw (s : Snapshot) (newest : Option Nat) (focused : Bool) (width height offset : Nat) :
    Screen × Nat :=
  let title := " Containers "
  if s.entries.isEmpty then
    (Pane.placeholder title focused width height "(no containers yet)", offset)
  else
    let lines := s.entries.flatMap fun e => entryLines e newest
    let visible := Pane.visibleLines height
    let offset' := Pane.clampScroll offset lines.length visible
    let contents := (lines.drop offset' |>.take visible).map fun l => {} :: Line.cells l
    (Pane.bordered title focused width height {} contents, offset')

end Stepwise.ContainersPane
