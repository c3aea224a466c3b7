import Stepwise.Command

/-!
# Snapshots

A snapshot shows what the containers named by a log hold after some of its commands.  Containers
appear in the order in which they are first mentioned.  Every item gets an identity when it enters a
container, counted from one in the order of entry, by which a viewer can follow it from one snapshot
to the next.

* `Snapshot.apply` carries out one command.  A command that does not fit its container, or that
  lacks what it needs, changes nothing but may still be the first to mention the container.
* `Snapshot.replay` carries out the first commands of a log, from nothing.

Two bounds are left out of `apply`.  Identities are numbers of 64 bits to a viewer, and they are
natural numbers here: no memory has room for so many items and slots that the two differ.  And an
array is shown with a slot for each of its elements, so that the command that declares more of them
than an allocation can have breaks the viewer down: `Snapshot.tryApply` and `Snapshot.tryReplay` say
where that happens.
-/

set_option autoImplicit false

namespace Stepwise

/-- An element of a stack, a queue or a list. -/
structure Item where
  id : Nat
  value : Scalar
deriving BEq

/-- A slot of an array; it has no value until it is written. -/
structure Slot where
  id : Nat
  value : Option Scalar
  index : Nat
deriving BEq

/-- What a container holds. -/
inductive Holding where
  /-- From bottom to top. -/
  | stack (items : List Item)
  /-- From front to back. -/
  | queue (items : List Item)
  | array (slots : Array Slot)
  /-- From head to tail. -/
  | linkedList (nodes : List Item)
deriving BEq

namespace Holding

/-- Nothing, in a container of the given kind. -/
def empty : Target → Holding
  | .stack => stack []
  | .queue => queue []
  | .array => array #[]
  | .linkedList => linkedList []

def target : Holding → Target
  | stack _ => .stack
  | queue _ => .queue
  | array _ => .array
  | linkedList _ => .linkedList

def length : Holding → Nat
  | stack items | queue items | linkedList items => items.length
  | array slots => slots.size

/-- The item that a command brings in, if it has a value. -/
def entering (c : Command) (issued : Nat) : List Item :=
  match c.value with
  | some value => [⟨issued + 1, value⟩]
  | none => []

/-- Empty slots with the identities after `issued`. -/
def freshSlots (size issued : Nat) : Array Slot :=
  Array.ofFn fun i : Fin size => ⟨issued + i + 1, none, i⟩

/-- The slots after a write; a write outside of them changes nothing. -/
def write (slots : Array Slot) (index : Option UInt64) (value : Option Scalar) : Array Slot :=
  match index with
  | some i => slots.modify i.toNat fun slot => { slot with value }
  | none => slots

/-- The nodes after a removal: of the first that agrees with the value, or of the last if there is
no value. -/
def unlink (nodes : List Item) : Option Scalar → List Item
  | some value => nodes.eraseP fun node => node.value.agrees value
  | none => nodes.dropLast

/-- Carry out a command, where `issued` identities have been given out, and count those given out
after it. -/
def apply (h : Holding) (c : Command) (issued : Nat) : Holding × Nat :=
  let new := entering c issued
  match c.action, h with
  | .push, stack items => (stack (items ++ new), issued + new.length)
  | .enqueue, queue items => (queue (items ++ new), issued + new.length)
  | .listInsert, linkedList nodes => (linkedList (nodes ++ new), issued + new.length)
  | .pop, stack items => (stack items.dropLast, issued)
  | .dequeue, queue items => (queue items.tail, issued)
  | .listRemove, linkedList nodes => (linkedList (unlink nodes c.value), issued)
  | .arrayDeclare, array _ =>
    let size := (c.size.map UInt64.toNat).getD 0
    (array (freshSlots size issued), issued + size)
  | .arraySet, array slots => (array (write slots c.index c.value), issued)
  | _, h => (h, issued)

end Holding

/-- A container of a snapshot. -/
structure Entry where
  name : String
  holding : Holding
deriving BEq

/-- Whether an entry is the container of the given kind and name. -/
def Entry.isNamed (e : Entry) (target : Target) (name : String) : Bool :=
  e.holding.target = target && e.name == name

/-- The containers mentioned so far, in the order of their first mention, and the number of
identities given out, which is taken to stay below `2 ^ 64`. -/
structure Snapshot where
  entries : List Entry := []
  issued : Nat := 0
deriving BEq

namespace Snapshot

/-- Carry out a command on the entry that it names, adding one if there is none. -/
def applyTo (c : Command) (issued : Nat) : List Entry → List Entry × Nat
  | [] =>
    let (holding, issued') := (Holding.empty c.target).apply c issued
    ([⟨c.name, holding⟩], issued')
  | e :: es =>
    if e.isNamed c.target c.name then
      let (holding, issued') := e.holding.apply c issued
      ({ e with holding } :: es, issued')
    else
      let (es', issued') := applyTo c issued es
      (e :: es', issued')

def apply (s : Snapshot) (c : Command) : Snapshot :=
  let (entries, issued) := applyTo c s.issued s.entries
  { entries, issued }

/-- The container of the given kind and name. -/
def get? (s : Snapshot) (target : Target) (name : String) : Option Entry :=
  s.entries.find? fun e => e.isNamed target name

/-- How many commands a cursor has carried out: none without a cursor, and else those through
it. -/
def applied : Option Nat → Nat
  | none => 0
  | some k => k + 1

/-- The snapshot after the commands through the cursor. -/
def replay (log : Log) (cursor : Option Nat) : Snapshot :=
  (log.take (applied cursor)).foldl apply {}

/-! ## Arrays that are too large -/

/-- The most slots of an array that can be shown: a slot takes 40 bytes, and an allocation at most
`2 ^ 63 - 1`. -/
def capacity : Nat :=
  9223372036854775807 / 40

/-- Whether a command leaves the viewer in working order. -/
def admits (c : Command) : Bool :=
  c.action != .arrayDeclare || c.target != .array || (c.size.map UInt64.toNat).getD 0 ≤ capacity

/-- Carry out a command that leaves the viewer in working order. -/
def tryApply (s : Snapshot) (c : Command) : Option Snapshot :=
  if admits c then some (s.apply c) else none

/-- The snapshot after the commands through the cursor, unless the viewer breaks down on one. -/
def tryReplay (log : Log) (cursor : Option Nat) : Option Snapshot :=
  (log.take (applied cursor)).foldlM tryApply {}

end Snapshot

end Stepwise
