import Stepwise.AutoPlay
import Stepwise.Snapshot

/-!
# Timelines

A `Timeline` is a log, a cursor on it and the snapshot at the cursor.  Going forward carries out one
command; every other move replays the log from nothing, because commands cannot be undone.  Moves
that replace the snapshot by another log or another place stop automatic stepping, and so does
arriving at the last command.
-/

set_option autoImplicit false

namespace Stepwise

/-- Where a cursor is. -/
inductive Position where
  /-- Before the first command. -/
  | idle
  /-- On the command of the given index, with more to come. -/
  | positioned (k : Nat)
  /-- On the last command. -/
  | finished
deriving DecidableEq, Repr

/-- A log, a cursor on it, and the snapshot at the cursor. -/
structure Timeline where
  log : Log := []
  snapshot : Snapshot := {}
  /-- The index of the last command carried out. -/
  cursor : Option Nat := none
  autoplay : AutoPlay := {}

namespace Timeline

def lastIndex (t : Timeline) : Option Nat :=
  if t.log.isEmpty then none else some (t.log.length - 1)

/-- Where the cursor is. -/
def position (t : Timeline) : Position :=
  match t.cursor with
  | none => .idle
  | some k => if t.log.isEmpty || k + 1 < t.log.length then .positioned k else .finished

def pause (t : Timeline) : Timeline :=
  { t with autoplay := t.autoplay.cancel }

/-- Go to a cursor by replaying the log. -/
def rebuild (t : Timeline) (cursor : Option Nat) : Timeline :=
  { t with snapshot := .replay t.log cursor, cursor }

/-- Go back to the start. -/
def reset (t : Timeline) : Timeline :=
  { t.pause with snapshot := {}, cursor := none }

/-- Take another log, at its start. -/
def load (t : Timeline) (log : Log) : Timeline :=
  { t with log }.reset

/-- A timeline at the start of a log. -/
def ofLog (log : Log) : Timeline :=
  ({} : Timeline).load log

/-- The timeline with another time between automatic steps, not stepping. -/
def withInterval (t : Timeline) (interval : Nat) : Timeline :=
  { t with autoplay := { interval := interval } }

/-- Carry out the next command, if there is one, and say whether there was. -/
def stepForward (t : Timeline) : Bool × Timeline :=
  let next := Snapshot.applied t.cursor
  match t.log[next]? with
  | none => (false, t.pause)
  | some c =>
    let moved := { t with snapshot := t.snapshot.apply c, cursor := some next }
    (true, if moved.position = .finished then moved.pause else moved)

/-- Go back by one command, if there is one, and say whether there was. -/
def stepBack (t : Timeline) : Bool × Timeline :=
  match t.cursor with
  | none => (false, t)
  | some 0 => (true, t.rebuild none)
  | some (k + 1) => (true, t.rebuild (some k))

/-- Go to a cursor, or to the last command if it lies beyond that. -/
def jumpTo (t : Timeline) (cursor : Option Nat) : Timeline :=
  let target :=
    match cursor, t.lastIndex with
    | some k, some last => some (min k last)
    | _, _ => none
  t.pause.rebuild target

/-- Go to the last command. -/
def jumpToEnd (t : Timeline) : Timeline :=
  t.jumpTo t.lastIndex

/-- Start automatic stepping. -/
def run (t : Timeline) (now : Nat) : Timeline :=
  { t with autoplay := t.autoplay.cancel.start now }

/-- Change the time between automatic steps. -/
def setSpeed (t : Timeline) (interval now : Nat) : Timeline :=
  { t with autoplay := t.autoplay.setInterval interval now }

/-- Make the automatic step that is due, if there is one, and say whether the cursor moved. -/
def tick (t : Timeline) (now : Nat) : Bool × Timeline :=
  match t.autoplay.poll now with
  | (true, autoplay) => { t with autoplay }.stepForward
  | (false, _) => (false, t)

/-- The command carried out last. -/
def current? (t : Timeline) : Option Command :=
  t.cursor.bind fun k => t.log[k]?

def isPlaying (t : Timeline) : Bool :=
  t.autoplay.isRunning

def interval (t : Timeline) : Nat :=
  t.autoplay.interval

/-- The speed of automatic stepping, if its interval is that of one. -/
def speed? (t : Timeline) : Option Speed :=
  Speed.ofInterval? t.interval

end Timeline

end Stepwise
