import Stepwise.Program
import Stepwise.Run.Operation
import Stepwise.Run.State

/-!
# Evaluating expressions

Operands are evaluated from left to right.  The target of an assignment is resolved before the value
is evaluated, so in `a[i++] = v` the index is taken once.  `&&` and `||` look at their right side
only if the left one leaves the answer open.

Calls go through a parameter, so that the evaluator recurses on the expression alone.
-/

set_option autoImplicit false

namespace Stepwise

/-- Calls a function of the program with evaluated arguments. -/
abbrev Callee := String → List Value → Run Value

/-- Something that can be assigned to. -/
inductive Place where
  | named (name : String)
  | element (array : Nat) (index : Value)

namespace Place

def load : Place → Run Value
  | named name => Run.read name
  | element array index => Run.getElement array index

def store (value : Value) : Place → Run Unit
  | named name => Run.write name value
  | element array index => Run.setElement array index value

end Place

/-- The element of a value at an index: of an array, or a character of a text. -/
def Value.element (v index : Value) : Run Value :=
  match v with
  | container id => Run.getElement id index
  | str s =>
    match index.index?.bind fun i => s.toList[i.toNat]? with
    | some c => return .str (String.singleton c)
    | none => return .undefined
  | v => Run.fail (.mismatch (.noElements v.kind))

/-- The member of a value: the length of an array or a text. -/
def Value.member (v : Value) (name : String) : Run Value := do
  let length ← match v with
    | container id => Run.arrayLength id
    | str s => pure (some s.length)
    | _ => pure none
  match length with
  | some n =>
    if name = "length" then return .int (Int64.ofNat n)
    else Run.fail (.mismatch (.noMember v.kind name))
  | none => Run.fail (.mismatch (.noMember v.kind name))

/-- Call a method of a value: any of a container, `size` and `length` of a text. -/
def Value.call (v : Value) (method : String) (args : List Value) : Run Value :=
  match v with
  | container id => Run.callContainer id method args
  | str s =>
    if method = "size" || method = "length" then
      if args.isEmpty then return .int (Int64.ofNat s.length)
      else Run.fail (.argumentCount method 0 args.length)
    else Run.fail (.mismatch (.noMethod v.kind method))
  | v => Run.fail (.mismatch (.noMethod v.kind method))

/-- The value of a step, and the value that it leaves at its place. -/
def StepOp.apply (op : StepOp) (v : Value) : Except Cause Value :=
  if v.isNumeric then op.delta.apply v (.int 1)
  else .error (.mismatch (.notSteppable v.kind))

mutual

/-- Evaluate an expression. -/
def Expr.eval (settings : Settings) (callee : Callee) : Expr → Run Value
  | .literal l => return l.value
  | .var name => Run.read name
  | .assign target value => do
    let place ← target.place settings callee
    let v ← value.eval settings callee
    place.store v
    return v
  | .update op target value => do
    let place ← target.place settings callee
    let current ← place.load
    let operand ← value.eval settings callee
    let v ← Run.ofCause (op.apply current operand)
    place.store v
    return v
  | .step op target => do
    let place ← target.place settings callee
    let current ← place.load
    let v ← Run.ofCause (op.apply current)
    place.store v
    return if op.isPost then current else v
  | .binary op left right => do
    let a ← left.eval settings callee
    match op with
    | .and =>
      if a.isTruthy then return .bool (← right.eval settings callee).isTruthy
      else return .bool false
    | .or =>
      if a.isTruthy then return .bool true
      else return .bool (← right.eval settings callee).isTruthy
    | op =>
      let b ← right.eval settings callee
      Run.ofCause (op.apply a b)
  | .unary op operand => do
    let v ← operand.eval settings callee
    Run.ofCause (op.apply v)
  | .ternary condition thenValue elseValue => do
    if (← condition.eval settings callee).isTruthy then thenValue.eval settings callee
    else elseValue.eval settings callee
  | .call name args => do
    let values ← Expr.evalAll settings callee args
    callee name values
  | .method object name args => do
    let receiver ← object.eval settings callee
    let values ← Expr.evalAll settings callee args
    receiver.call name values
  | .member object name => do
    let receiver ← object.eval settings callee
    receiver.member name
  | .index object key => do
    let receiver ← object.eval settings callee
    let i ← key.eval settings callee
    receiver.element i
  | .guard condition => do
    Run.countGuard settings
    condition.eval settings callee

def Expr.evalAll (settings : Settings) (callee : Callee) : List Expr → Run (List Value)
  | [] => return []
  | e :: es => do
    let v ← e.eval settings callee
    let vs ← Expr.evalAll settings callee es
    return v :: vs

/-- Resolve the target of an assignment. -/
def Expr.place (settings : Settings) (callee : Callee) : Expr → Run Place
  | .var name => return .named name
  | .index object key => do
    let receiver ← object.eval settings callee
    let i ← key.eval settings callee
    match receiver with
    | .container array => return .element array i
    | v => Run.fail (.mismatch (.notAssignable v.kind))
  | _ => Run.fail .invalidTarget

end

end Stepwise
