import Stepwise.Fault
import Stepwise.Sequence
import Stepwise.Table
import Stepwise.Value

/-!
# Live containers

The containers of a running program.  Stacks, queues and lists hold a sequence of items and differ
only in the methods by which it is reached: `SequenceKind.method?` gives a method name its meaning,
and `Method.apply` carries it out.  Arrays hold as many slots as they were declared with.  A write
beyond them is not an error; it is kept in a table of its own under the text of its index.

An operation does not record anything itself.  It says by a `Change` what there is to record.
-/

set_option autoImplicit false

namespace Stepwise

/-- What an operation did to a container, as far as it is recorded. -/
structure Change where
  action : Action
  value : Option Scalar := none
  index : Option UInt64 := none
  /-- Whether this was a removal from a container that held nothing. -/
  idle : Bool := false

/-! ## Sequences -/

inductive Method where
  | pushBack
  | pushFront
  | popBack
  | popFront
  | remove
  | first
  | last
  | size
  | isEmpty
deriving DecidableEq, Repr

namespace SequenceKind

/-- The methods of a kind of sequence, by name. -/
def methods : SequenceKind → List (String × Method)
  | stack =>
    [("push", .pushBack), ("push_back", .pushBack), ("pop", .popBack), ("pop_back", .popBack),
     ("top", .last), ("size", .size), ("empty", .isEmpty)]
  | queue =>
    [("push", .pushBack), ("pop", .popFront), ("front", .first), ("size", .size),
     ("empty", .isEmpty)]
  | list =>
    [("push_back", .pushBack), ("insert", .pushBack), ("push_front", .pushFront),
     ("pop_back", .popBack), ("pop_front", .popFront), ("remove", .remove), ("front", .first),
     ("back", .last), ("size", .size), ("empty", .isEmpty)]

/-- The method of the given name. -/
def method? (kind : SequenceKind) (name : String) : Option Method :=
  kind.methods.lookup name

/-- How an insertion is recorded. -/
def insertion : SequenceKind → Action
  | stack => .push
  | queue => .enqueue
  | list => .listInsert

/-- How a removal is recorded. -/
def removal : SequenceKind → Action
  | stack => .pop
  | queue => .dequeue
  | list => .listRemove

end SequenceKind

/-- What a method did: it read a value, or it left other items behind. -/
inductive Effect where
  | read (value : Value)
  | changed (items : List Scalar) (change : Change)

namespace Method

/-- Check that `method` was called with `expected` arguments. -/
def expectArity (method : String) (args : List Value) (expected : Nat) : Except Cause Unit :=
  if args.length = expected then .ok ()
  else .error (.argumentCount method expected args.length)

/-- The only argument of `method`, as an item. -/
def scalarArg (method : String) (args : List Value) : Except Cause Scalar :=
  match args with
  | [v] =>
    match v.toScalar? with
    | some s => .ok s
    | none => .error (.mismatch (.badArgument method v.elementKind))
  | _ => .error (.argumentCount method 1 args.length)

/-- Read a value, if there are no arguments. -/
def reading (method : String) (args : List Value) (value : Value) : Except Cause Effect := do
  expectArity method args 0
  return .read value

/-- Leave `items` behind by inserting the only argument. -/
def inserting (kind : SequenceKind) (method : String) (args : List Value)
    (insert : Scalar → List Scalar) : Except Cause Effect := do
  let s ← scalarArg method args
  return .changed (insert s) { action := kind.insertion, value := some s }

/-- Leave `rest` of `items` behind, if there are no arguments. -/
def removing (kind : SequenceKind) (method : String) (args : List Value)
    (items rest : List Scalar) : Except Cause Effect := do
  expectArity method args 0
  return .changed rest { action := kind.removal, idle := items.isEmpty }

/-- Carry out a method that was called by the name `method`.  Removal without a value takes the last
item, and removal by value takes the first item that agrees with it, if there is one. -/
def apply (m : Method) (kind : SequenceKind) (method : String) (args : List Value)
    (items : List Scalar) : Except Cause Effect :=
  match m with
  | pushBack => inserting kind method args fun s => items ++ [s]
  | pushFront => inserting kind method args fun s => s :: items
  | popBack => removing kind method args items items.dropLast
  | popFront => removing kind method args items items.tail
  | remove =>
    if args.isEmpty then removing kind method args items items.dropLast
    else do
      let s ← scalarArg method args
      return .changed (items.eraseP fun item => item.agrees s)
        { action := kind.removal, value := some s, idle := items.isEmpty }
  | first => reading method args (.ofItem? items.head?)
  | last => reading method args (.ofItem? items.getLast?)
  | size => reading method args (.int (Int64.ofNat items.length))
  | isEmpty => reading method args (.bool items.isEmpty)

end Method

/-! ## Arrays -/

/-- The slots of an array, and what was written beyond them. -/
structure Slots where
  slots : Array (Option Scalar)
  beyond : Table Value := {}

namespace Slots

/-- The most slots that an array can have: a slot takes 24 bytes, and an allocation at most
`2 ^ 63 - 1`.  How much memory there is does not count here. -/
def capacity : Nat :=
  9223372036854775807 / 24

def blank (size : UInt64) : Slots :=
  { slots := Array.replicate size.toNat none }

/-- The slots of a new array, if they fit into an allocation. -/
def ofSize? (size : UInt64) : Option Slots :=
  if size.toNat ≤ capacity then some (blank size) else none

/-- The slot that an index denotes, if there is one. -/
def slot? (a : Slots) (index : Value) : Option UInt64 :=
  index.index?.filter fun i => i.toNat < a.slots.size

/-- The element at `index`: `null` for an empty slot, and `undefined` where nothing was written
beyond the slots. -/
def get (a : Slots) (index : Value) : Value :=
  match a.slot? index with
  | some i =>
    match a.slots.getD i.toNat none with
    | some s => .ofScalar s
    | none => .null
  | none => (a.beyond.get? index.text).getD .undefined

/-- What a slot holds after `value` was written to it: `null` empties it. -/
def stored (array : String) (value : Value) : Except Cause (Option Scalar) :=
  match value with
  | .null => .ok none
  | v =>
    match v.toScalar? with
    | some s => .ok (some s)
    | none => .error (.mismatch (.notStorable v.elementKind array))

/-- Write `value` at `index` of the array called `array`.  Only a write to a slot is recorded. -/
def set (a : Slots) (array : String) (index value : Value) : Except Cause (Slots × Option Change) :=
  match a.slot? index with
  | some i => do
    let s ← stored array value
    return ({ a with slots := a.slots.set! i.toNat s },
      some { action := .arraySet, value := s, index := some i })
  | none => .ok ({ a with beyond := a.beyond.insert index.text value }, none)

end Slots

/-! ## Containers -/

/-- What a container holds. -/
inductive Contents where
  | sequence (kind : SequenceKind) (items : List Scalar)
  | array (a : Slots)

/-- A container of a running program. -/
structure Container where
  name : String
  contents : Contents

namespace Container

def target (c : Container) : Target :=
  match c.contents with
  | .sequence kind _ => kind.target
  | .array _ => .array

/-- The items of a container in order, an empty slot being `none`. -/
def items (c : Container) : List (Option Scalar) :=
  match c.contents with
  | .sequence _ items => items.map some
  | .array a => a.slots.toList

/-- Call a method by its name. -/
def call (c : Container) (method : String) (args : List Value) :
    Except Cause (Value × Container × Option Change) :=
  match c.contents with
  | .array _ => .error (.unsupportedMethod .array method)
  | .sequence kind items =>
    match kind.method? method with
    | none => .error (.unsupportedMethod kind.target method)
    | some m => do
      match ← m.apply kind method args items with
      | .read value => return (value, c, none)
      | .changed items' change =>
        return (.undefined, { c with contents := .sequence kind items' }, some change)

end Container

end Stepwise
