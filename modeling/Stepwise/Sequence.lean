import Stepwise.Command

/-!
# Kinds of sequences

Stacks, queues and lists hold a sequence of items; arrays do not, because their items have fixed
places.  A sequence is declared by the name of its type.
-/

set_option autoImplicit false

namespace Stepwise

/-- The kinds of containers that hold a sequence of items. -/
inductive SequenceKind where
  | stack
  | queue
  | list
deriving DecidableEq, Repr

namespace SequenceKind

/-- The kind declared by the name of a generic type. -/
def ofTypeName? (name : String) : Option SequenceKind :=
  if name = "stack" then some stack
  else if name = "queue" then some queue
  else if name = "list" || name = "vector" || name = "LinkedList" then some list
  else none

def target : SequenceKind → Target
  | stack => .stack
  | queue => .queue
  | list => .linkedList

def constructor : SequenceKind → String
  | stack => "__createStack"
  | queue => "__createQueue"
  | list => "__createList"

end SequenceKind

end Stepwise
