import Stepwise.Fault
import Stepwise.Viewer.ContainersPane
import Stepwise.Viewer.LogPane
import Stepwise.Viewer.SourcePane
import Stepwise.Viewer.StatusBar

/-!
# The viewer

A `Viewer` shows a timeline next to the source it was traced from and lets the reader step through
it by key.  Times are given to it in milliseconds.

* `Viewer.press` handles a key.
* `Viewer.tick` makes the automatic step that is due.
* `Viewer.draw` draws the screen.  Drawing settles the scroll positions, so it changes the viewer.
-/

set_option autoImplicit false

namespace Stepwise

/-- The panes that can have the focus. -/
inductive Focus where
  | source
  | containers
  | log
deriving DecidableEq, Repr

/-- The pane that gets the focus next. -/
def Focus.next : Focus → Focus
  | source => containers
  | containers => log
  | log => source

/-- Keys that the viewer knows. -/
inductive Key where
  | left
  | right
  | up
  | down
  | tab
  | enter
  | backspace
  | char (c : Char)
deriving DecidableEq, Repr

/-- A timeline on display. -/
structure Viewer where
  timeline : Timeline
  /-- The traced source; empty if there is none. -/
  source : String := ""
  /-- Why the traced run stopped early. -/
  fault : Option Fault := none
  focus : Focus := .source
  sourceScroll : SourcePane.Scroll := {}
  containersScroll : Nat := 0
  logScroll : Nat := 0
  /-- Whether the log pane keeps the cursor in view. -/
  logFollow : Bool := true
  speed : Speed := .normal
  shouldQuit : Bool := false
  status : String := "Ready!"
  /-- When playback was last switched by key. -/
  lastSwitch : Option Nat := none

namespace Viewer

/-- A viewer of a timeline. -/
def ofTimeline (timeline : Timeline) (source : String) (fault : Option Fault) : Viewer :=
  { timeline, source, fault, speed := timeline.speed?.getD .normal }

/-! ## What is shown -/

def atEnd (v : Viewer) : Bool :=
  v.timeline.position = .finished || v.timeline.log.isEmpty

/-- The source line to mark, and whether the run stopped on it: the line of the fault at the end of
the log, and else the line that the current command cites. -/
def currentLine (v : Viewer) : Option Nat × Bool :=
  let cited := (v.timeline.current?.bind fun c => Text.locate v.source c.cited, false)
  match v.fault with
  | some f => if v.atEnd && 0 < f.line then (some f.line, true) else cited
  | none => cited

/-- The item of the greatest identity. -/
def newestItem (items : List Item) : Option Nat :=
  (items.map Item.id).max?

/-- The identity of the item that the current command brought in or wrote. -/
def highlighted (v : Viewer) : Option Nat := do
  let c ← v.timeline.current?
  let e ← v.timeline.snapshot.get? c.target c.name
  match c.action, e.holding with
  | .push, .stack items => newestItem items
  | .enqueue, .queue items => newestItem items
  | .listInsert, .linkedList nodes => newestItem nodes
  | .arraySet, .array slots => do
    let i ← c.index
    let slot ← slots[i.toNat]?
    return slot.id
  | _, _ => none

/-- What the status bar shows. -/
def statusBar (v : Viewer) : StatusBar where
  message := v.status
  position := v.timeline.position
  total := v.timeline.log.length
  isPlaying := v.timeline.isPlaying
  speedLabel :=
    match v.timeline.speed? with
    | some speed => speed.label
    | none => toString v.timeline.interval ++ "ms"
  fault := if v.atEnd then v.fault.map Fault.message else none

/-- The given percentage of a length, to the nearest whole. -/
def percent (p length : Nat) : Nat :=
  (p * length + 50) / 100

/-- Draw a screen of the given size: source and log on the left, containers on the right, and the
status bar in the last row, if there is one. -/
def draw (v : Viewer) (width height : Nat) : Screen × Viewer :=
  let barHeight := min height 1
  let bodyHeight := height - barHeight
  let leftWidth := percent 55 width
  let sourceHeight := percent 65 bodyHeight
  let (line, isFault) := v.currentLine
  let (sourceScreen, sourceScroll) :=
    SourcePane.draw v.source line isFault (v.focus = .source) leftWidth sourceHeight v.sourceScroll
  let (logScreen, logScroll) :=
    LogPane.draw v.timeline.log v.timeline.cursor (v.focus = .log) leftWidth
      (bodyHeight - sourceHeight) v.logScroll v.logFollow
  let (containersScreen, containersScroll) :=
    ContainersPane.draw v.timeline.snapshot v.highlighted (v.focus = .containers)
      (width - leftWidth) bodyHeight v.containersScroll
  let body := Screen.beside (Screen.above sourceScreen logScreen) containersScreen
  (Screen.above body (v.statusBar.draw width barHeight),
   { v with sourceScroll, logScroll, containersScroll })

/-! ## Keys -/

/-- Step forward up to `n` times, and count the steps made. -/
def stepTimes : Nat → Timeline → Nat × Timeline
  | 0, t => (0, t)
  | n + 1, t =>
    match t.stepForward with
    | (true, t') =>
      let (count, t'') := stepTimes n t'
      (count + 1, t'')
    | (false, t') => (0, t')

/-- Show another place of the timeline, with a message, keeping the cursor in view. -/
def moved (v : Viewer) (timeline : Timeline) (status : String) : Viewer :=
  { v with timeline, status, logFollow := true }

def changeSpeed (v : Viewer) (speed : Speed) (now : Nat) : Viewer :=
  { v with
    speed
    timeline := v.timeline.setSpeed speed.interval now
    status := "Speed " ++ speed.label }

/-- The time within which a second switch of playback is taken for the first one, in
milliseconds. -/
def debounce : Nat := 200

def switchPlayback (v : Viewer) (now : Nat) : Viewer :=
  let tooSoon := v.lastSwitch.any fun last => now - last < debounce
  if tooSoon then v
  else
    let switched := { v with lastSwitch := some now }
    if v.timeline.isPlaying then
      { switched with timeline := v.timeline.pause, status := "Paused" }
    else
      switched.moved (v.timeline.run now) "Playing..."

def scrollUp (v : Viewer) : Viewer :=
  match v.focus with
  | .source =>
    { v with sourceScroll := { v.sourceScroll with row := v.sourceScroll.row.map (· + 1) } }
  | .containers => { v with containersScroll := v.containersScroll - 1 }
  | .log => { v with logFollow := false, logScroll := v.logScroll - 1 }

def scrollDown (v : Viewer) : Viewer :=
  match v.focus with
  | .source =>
    { v with sourceScroll := { v.sourceScroll with row := v.sourceScroll.row.map (· - 1) } }
  | .containers => { v with containersScroll := v.containersScroll + 1 }
  | .log => { v with logFollow := false, logScroll := v.logScroll + 1 }

/-- Handle a key with a character on it. -/
def pressChar (v : Viewer) (c : Char) (now : Nat) : Viewer :=
  if c = 'q' || c = 'Q' then { v with shouldQuit := true }
  else if '1' ≤ c && c ≤ '9' then
    let (count, t) := stepTimes (c.toNat - '0'.toNat) v.timeline.pause
    v.moved t ("Stepped forward " ++ toString count ++ " step(s)")
  else if c = ' ' then v.switchPlayback now
  else if c = '+' || c = '=' then v.changeSpeed v.speed.faster now
  else if c = '-' || c = '_' then v.changeSpeed v.speed.slower now
  else if c = 'r' || c = 'R' then v.moved v.timeline.reset "Reset"
  else v

def press (v : Viewer) (key : Key) (now : Nat) : Viewer :=
  match key with
  | .char c => v.pressChar c now
  | .tab => { v with focus := v.focus.next }
  | .left =>
    let (done, t) := v.timeline.pause.stepBack
    v.moved t (if done then "Stepped backward" else "Already at the start")
  | .right =>
    let (done, t) := v.timeline.pause.stepForward
    v.moved t (if done then "Stepped forward" else "Already at the end")
  | .up => v.scrollUp
  | .down => v.scrollDown
  | .enter => v.moved v.timeline.jumpToEnd "Jumped to end"
  | .backspace => v.moved (v.timeline.jumpTo none) "Jumped to start"

/-- Make the automatic step that is due, if there is one. -/
def tick (v : Viewer) (now : Nat) : Viewer :=
  match v.timeline.tick now with
  | (true, t) => v.moved t (if t.isPlaying then "Playing..." else "Playback complete")
  | (false, t) => { v with timeline := t }

/-- One turn of the viewer: a key, if one was pressed, and the automatic step that is due. -/
def turn (v : Viewer) (key : Option Key) (now : Nat) : Viewer :=
  match key with
  | some k => (v.press k now).tick now
  | none => v.tick now

end Viewer

end Stepwise
