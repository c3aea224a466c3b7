import Stepwise.Run.State

/-!
# The command line

What the program is asked to do: which source it traces or which saved log it opens, under which
limits, and whether it prints the log, prints the listing or shows the viewer.
-/

set_option autoImplicit false

namespace Stepwise

/-- What comes of a run. -/
inductive Task where
  /-- Show the viewer. -/
  | view
  /-- Print the wire form of the log. -/
  | dump
  /-- Print the listing of the program. -/
  | list
deriving DecidableEq, Repr

/-- Where a log comes from. -/
inductive Origin where
  /-- A run of the built-in program. -/
  | demo
  /-- A run of the program in a file. -/
  | source (path : String)
  /-- A log that was saved in a file. -/
  | saved (path : String)
deriving DecidableEq, Repr

/-- The choices of a command line. -/
structure Options where
  task : Task := .view
  origin : Origin := .demo
  settings : Settings := {}
  /-- The time between automatic steps, in milliseconds. -/
  interval : Option UInt64 := none
deriving DecidableEq, Repr

namespace Options

/-- The number that an option is given: decimal digits, perhaps after a plus sign, that stay within
64 bits. -/
def number (option value : String) : Except String UInt64 :=
  let digits := match value.toList with
    | '+' :: rest => rest
    | chars => chars
  let n := digits.foldl (fun n c => 10 * n + (c.toNat - '0'.toNat)) 0
  if !digits.isEmpty && digits.all Char.isDigit && n < UInt64.size then .ok (UInt64.ofNat n)
  else .error ("invalid value '" ++ value ++ "' for '" ++ option ++ "'")

/-- Choose a task, unless another one was chosen before. -/
def withTask (o : Options) (task : Task) : Except String Options :=
  if o.task = .view then .ok { o with task }
  else .error "only one of '--dump' and '--lowered' can be used"

/-- Choose an origin, unless one was chosen before. -/
def withOrigin (o : Options) (origin : Origin) : Except String Options :=
  if o.origin = .demo then .ok { o with origin } else .error "only one file can be used"

/-- Check that a saved log is only viewed: it has no listing, and it is already in its wire form. -/
def checked (o : Options) : Except String Options :=
  match o.origin, o.task with
  | .saved _, .dump => .error "'--dump' cannot be used with '--replay'"
  | .saved _, .list => .error "'--lowered' cannot be used with '--replay'"
  | _, _ => .ok o

/-- Read the arguments after the ones that gave `o`. -/
def readFrom (o : Options) : List String → Except String Options
  | [] => o.checked
  | "--dump" :: rest => do (← o.withTask .dump).readFrom rest
  | "--lowered" :: rest => do (← o.withTask .list).readFrom rest
  | "--suppress-empty-removals" :: rest =>
    { o with settings := { o.settings with suppressEmptyRemovals := true } }.readFrom rest
  | "--replay" :: path :: rest => do (← o.withOrigin (.saved path)).readFrom rest
  | "--ceiling" :: value :: rest => do
    let iterations ← number "--ceiling" value
    { o with settings := { o.settings with iterations } }.readFrom rest
  | "--speed-ms" :: value :: rest => do
    let interval ← number "--speed-ms" value
    { o with interval := some interval }.readFrom rest
  | argument :: rest =>
    if argument.startsWith "-" then .error ("unexpected argument '" ++ argument ++ "'")
    else do (← o.withOrigin (.source argument)).readFrom rest

def read (args : List String) : Except String Options :=
  ({} : Options).readFrom args

end Options

end Stepwise
