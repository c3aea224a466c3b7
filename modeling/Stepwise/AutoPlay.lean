/-!
# Automatic stepping

An `AutoPlay` knows when the next automatic step is due.  It has no clock: times are given to it, in
milliseconds.  At most one step is due at any one time, however late the question comes, so that
stepping never skips a position.
-/

set_option autoImplicit false

namespace Stepwise

/-- The speeds that can be chosen, the slowest first. -/
inductive Speed where
  | quarter
  | half
  | normal
  | double
  | quadruple
deriving DecidableEq, Repr

namespace Speed

def all : List Speed := [quarter, half, normal, double, quadruple]

/-- The time between two steps, in milliseconds. -/
def interval : Speed → Nat
  | quarter => 2000
  | half => 1000
  | normal => 500
  | double => 250
  | quadruple => 125

/-- The next faster speed, if there is one. -/
def faster : Speed → Speed
  | quarter => half
  | half => normal
  | normal => double
  | double | quadruple => quadruple

/-- The next slower speed, if there is one. -/
def slower : Speed → Speed
  | quarter | half => quarter
  | normal => half
  | double => normal
  | quadruple => double

def label : Speed → String
  | quarter => "0.25x"
  | half => "0.5x"
  | normal => "1x"
  | double => "2x"
  | quadruple => "4x"

def ofLabel? (s : String) : Option Speed :=
  all.find? fun speed => speed.label == s

/-- The speed with the given time between two steps. -/
def ofInterval? (ms : Nat) : Option Speed :=
  all.find? fun speed => speed.interval == ms

end Speed

/-- When the next automatic step is due. -/
structure AutoPlay where
  /-- The time between two steps, in milliseconds. -/
  interval : Nat := Speed.normal.interval
  /-- When the next step is due, if stepping is under way. -/
  deadline : Option Nat := none
deriving DecidableEq, Repr

namespace AutoPlay

def isRunning (a : AutoPlay) : Bool :=
  a.deadline.isSome

/-- Start stepping: the first step is one interval away. -/
def start (a : AutoPlay) (now : Nat) : AutoPlay :=
  { a with deadline := some (now + a.interval) }

def cancel (a : AutoPlay) : AutoPlay :=
  { a with deadline := none }

/-- Change the interval.  If stepping is under way it starts anew. -/
def setInterval (a : AutoPlay) (interval now : Nat) : AutoPlay :=
  let changed := { a with interval }
  if a.isRunning then changed.start now else changed

def remaining (a : AutoPlay) (now : Nat) : Option Nat :=
  a.deadline.map (· - now)

/-- Whether a step is due.  If so, the next one is an interval from now. -/
def poll (a : AutoPlay) (now : Nat) : Bool × AutoPlay :=
  match a.deadline with
  | some deadline => if deadline ≤ now then (true, a.start now) else (false, a)
  | none => (false, a)

end AutoPlay

end Stepwise
