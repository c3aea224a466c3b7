import Stepwise.Scalar

/-!
# Commands

A `Command` is one observed change of one container: what was done, to which container, with which
value, index or size, and which source line it cites.  The ordered list of all of them, the `Log`,
is the whole outcome of a traced run and the whole input of a replay.
-/

set_option autoImplicit false

namespace Stepwise

inductive Target where
  | stack
  | queue
  | array
  | linkedList
deriving DecidableEq, Repr

namespace Target

def all : List Target := [stack, queue, array, linkedList]

def label : Target → String
  | stack => "stack"
  | queue => "queue"
  | array => "array"
  | linkedList => "linkedlist"

def ofLabel? (s : String) : Option Target :=
  all.find? fun t => t.label == s

end Target

inductive Action where
  | push
  | pop
  | enqueue
  | dequeue
  | arrayDeclare
  | arraySet
  | listInsert
  | listRemove
deriving DecidableEq, Repr

namespace Action

def all : List Action :=
  [push, pop, enqueue, dequeue, arrayDeclare, arraySet, listInsert, listRemove]

def label : Action → String
  | push => "PUSH"
  | pop => "POP"
  | enqueue => "ENQUEUE"
  | dequeue => "DEQUEUE"
  | arrayDeclare => "ARRAY_DECLARE"
  | arraySet => "ARRAY_SET"
  | listInsert => "LIST_INSERT"
  | listRemove => "LIST_REMOVE"

def ofLabel? (s : String) : Option Action :=
  all.find? fun a => a.label == s

end Action

/-- One recorded change of one container. -/
structure Command where
  action : Action
  target : Target
  /-- The name of the changed container. -/
  name : String
  value : Option Scalar := none
  index : Option UInt64 := none
  size : Option UInt64 := none
  /-- The text of the source line that caused the change. -/
  cited : String := ""
deriving BEq, Repr

/-- The commands of a run, in the order in which they were recorded. -/
abbrev Log := List Command

namespace Command

/-- The compact text of a command, such as `PUSH(stack,s,10)` or
`ARRAY_DECLARE(array,arr,size=3)`. -/
def text (c : Command) : String :=
  c.action.label ++ "(" ++ c.target.label ++ "," ++ c.name
    ++ (match c.index with | some i => "," ++ toString i.toNat | none => "")
    ++ (match c.value with | some v => "," ++ v.text | none => "")
    ++ (match c.size with | some n => ",size=" ++ toString n.toNat | none => "")
    ++ ")"

end Command

end Stepwise
