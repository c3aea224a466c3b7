import Stepwise.Table
import Stepwise.Value

/-!
# Scopes and calls

A `Frame` holds the names that are known in one call, in a single table.  A declaration in an inner
scope may hide one outside of it; the scope remembers what it hid and what it introduced, and
leaving it undoes both.  A `CallStack` is the frame of the top level and a frame for every call
under way.  A name is looked up in the current frame and then at the top level, so a function sees
what the top level declares and not what its caller does.
-/

set_option autoImplicit false

namespace Stepwise

/-- What a name stands for. -/
structure Binding where
  value : Value
  /-- Whether the name cannot be assigned to. -/
  constant : Bool := false

/-- What leaving a scope has to undo. -/
structure Scope where
  /-- Bindings outside of the scope that it hides. -/
  shadowed : List (String × Binding) := []
  /-- Names that are new in the scope. -/
  declared : List String := []

/-- The names known in one call. -/
structure Frame where
  function : String
  bindings : Table Binding := {}
  /-- The open scopes, innermost first. -/
  scopes : List Scope := []

namespace Frame

/-- Enter a scope. -/
def pushScope (f : Frame) : Frame :=
  { f with scopes := {} :: f.scopes }

/-- Leave the innermost scope, if there is one. -/
def popScope (f : Frame) : Frame :=
  match f.scopes with
  | [] => f
  | scope :: outer =>
    let without := scope.declared.foldl (fun t name => t.erase name) f.bindings
    { f with
      bindings := scope.shadowed.foldl (fun t e => t.insert e.1 e.2) without
      scopes := outer }

/-- Note in a scope that `name` is declared in it, where it stood for `previous` before. -/
def Scope.note (scope : Scope) (name : String) (previous : Option Binding) : Scope :=
  if scope.declared.contains name then scope
  else
    match previous with
    | none => { scope with declared := name :: scope.declared }
    | some old =>
      if scope.shadowed.any fun e => e.1 == name then scope
      else { scope with shadowed := (name, old) :: scope.shadowed }

/-- Declare a name in the innermost scope. -/
def declare (f : Frame) (name : String) (b : Binding) : Frame :=
  { f with
    bindings := f.bindings.insert name b
    scopes :=
      match f.scopes with
      | [] => []
      | scope :: outer => Scope.note scope name (f.bindings.get? name) :: outer }

/-- What a name stands for. -/
def get? (f : Frame) (name : String) : Option Binding :=
  f.bindings.get? name

/-- Change the value of a name, if it is known. -/
def assign? (f : Frame) (name : String) (value : Value) : Option Frame :=
  (f.get? name).map fun b => { f with bindings := f.bindings.insert name { b with value } }

end Frame

/-- The frame of the top level, and those of the calls under way, the current one first. -/
structure CallStack where
  globals : Frame := { function := "<global>" }
  calls : List Frame := []

namespace CallStack

/-- The frame that is current. -/
def current (s : CallStack) : Frame :=
  match s.calls with
  | [] => s.globals
  | f :: _ => f

/-- Put a frame in place of the current one. -/
def setCurrent (s : CallStack) (f : Frame) : CallStack :=
  match s.calls with
  | [] => { s with globals := f }
  | _ :: callers => { s with calls := f :: callers }

def depth (s : CallStack) : Nat :=
  s.calls.length

/-- Enter a call of `function`, which opens a scope of its own. -/
def pushFrame (s : CallStack) (function : String) : CallStack :=
  { s with calls := ({ function := function } : Frame).pushScope :: s.calls }

/-- Leave the current call, if there is one. -/
def popFrame (s : CallStack) : CallStack :=
  { s with calls := s.calls.tail }

/-- Enter a scope. -/
def pushScope (s : CallStack) : CallStack :=
  s.setCurrent s.current.pushScope

/-- Leave the innermost scope of the current frame. -/
def popScope (s : CallStack) : CallStack :=
  s.setCurrent s.current.popScope

/-- Declare a name in the current frame. -/
def declare (s : CallStack) (name : String) (b : Binding) : CallStack :=
  s.setCurrent (s.current.declare name b)

/-- What a name stands for: in the current frame, and else at the top level. -/
def lookup (s : CallStack) (name : String) : Option Binding :=
  (s.current.get? name).or (s.globals.get? name)

/-- Change the value of a name where it is found, whether or not it is constant. -/
def assign? (s : CallStack) (name : String) (value : Value) : Option CallStack :=
  match s.current.assign? name value with
  | some f => some (s.setCurrent f)
  | none => (s.globals.assign? name value).map fun f => { s with globals := f }

end CallStack

end Stepwise
