import Stepwise.Run.Evaluate

/-!
# Executing statements

The statements after one that leaves the flow of control other than normal are not executed.  A jump
is caught by the loop whose body it stands in, and a return by its call.

A loop need not end.  So a run is followed for a number of turns of each of its loops, the `turns`
of its `Horizon`, and is `unfinished` where a loop goes on after them.  The program itself has no
such number: it comes to an end if the run is finished under some horizon, and then in the same way
under every wider one.
-/

set_option autoImplicit false

namespace Stepwise

/-- The settings of a run, and how many turns of each loop are looked at. -/
structure Horizon extends Settings where
  turns : Nat

instance : CoeOut Horizon Settings :=
  ⟨Horizon.toSettings⟩

/-- Look at the first `turns` turns of each loop. -/
def Settings.within (settings : Settings) (turns : Nat) : Horizon :=
  { settings with turns }

namespace Run

/-- Whether a loop goes on after its body, which is where it catches `break` and `continue`.  A
return is left for the call around the loop. -/
def goesOn : Run Bool := do
  match ← flow with
  | .ret _ => return false
  | .jump .break =>
    setFlow .normal
    return false
  | _ =>
    setFlow .normal
    return true

/-- One turn of a loop that tests first, and whether another one follows. -/
def whileTurn (test : Run Bool) (body next : Run Unit) : Run Bool := do
  if ← test then
    body
    if ← goesOn then
      next
      return true
    else
      return false
  else
    return false

/-- One turn of a loop that tests last, and whether another one follows. -/
def untilTurn (body : Run Unit) (test : Run Bool) : Run Bool := do
  body
  if ← goesOn then test else return false

/-- Take turns as long as another one follows. -/
def iterate (turn : Run Bool) : Nat → Run Unit
  | 0 => throw .unfinished
  | turns + 1 => do
    if ← turn then iterate turn turns

end Run

def Expr.evalOption (settings : Settings) (callee : Callee) : Option Expr → Run Value
  | some e => e.eval settings callee
  | none => return .undefined

def Expr.test (settings : Settings) (callee : Callee) (e : Expr) : Run Bool := do
  return (← e.eval settings callee).isTruthy

/-- The size of an array: that of its declaration, or the number of its initial elements. -/
def arraySize (settings : Settings) (callee : Callee) (size : Option Expr) (init : List Expr) :
    Run UInt64 := do
  match size with
  | none => return UInt64.ofNat init.length
  | some e =>
    let v ← e.eval settings callee
    match v.index? with
    | some n => return n
    | none => Run.fail (.invalidSize v.text)

mutual

/-- Execute a statement. -/
def Stmt.exec (x : Horizon) (callee : Callee) : Stmt → Run Unit
  | .line l => Run.setLine l
  | .declare name init => do
    let value ← Expr.evalOption x callee init
    Run.declare name { value := value }
  | .construct name kind => do
    let id ← Run.createSequence kind name
    Run.declare name { value := .container id, constant := true }
  | .array name size init => do
    let n ← arraySize x callee size init
    let values ← Expr.evalAll x callee init
    let id ← Run.createArray name n values
    Run.declare name { value := .container id, constant := true }
  | .expr e => do
    let _ ← e.eval x callee
  | .branch condition thenBody => do
    if ← condition.test x callee then Run.inScope (Stmt.execAll x callee thenBody)
  | .branchElse condition thenBody elseBody => do
    if ← condition.test x callee then Run.inScope (Stmt.execAll x callee thenBody)
    else Run.inScope (Stmt.execAll x callee elseBody)
  | .whileLoop condition body =>
    Run.iterate (Run.whileTurn (condition.test x callee)
      (Run.inScope (Stmt.execAll x callee body)) (return ())) x.turns
  | .doWhile body condition =>
    Run.iterate (Run.untilTurn (Run.inScope (Stmt.execAll x callee body))
      (condition.test x callee)) x.turns
  | .forLoop init condition increment body =>
    Run.inScope do
      Stmt.execAll x callee init
      Run.iterate (Run.whileTurn (condition.test x callee)
        (Run.inScope (Stmt.execAll x callee body))
        (do let _ ← Expr.evalAll x callee increment)) x.turns
  | .block body => Run.inScope (Stmt.execAll x callee body)
  | .ret value => do
    Run.setFlow (.ret (← Expr.evalOption x callee value))
  | .jump j => Run.setFlow (.jump j)
  | .malformed e =>
    throw (.fault ⟨.malformed e.message e.location.column, e.location.line⟩)

/-- Execute statements in order, until one leaves the flow of control other than normal. -/
def Stmt.execAll (x : Horizon) (callee : Callee) : List Stmt → Run Unit
  | [] => return ()
  | s :: rest => do
    s.exec x callee
    if (← Run.flow).isNormal then Stmt.execAll x callee rest

end

/-! ## Calls -/

/-- Declare the parameters of a function. -/
def bindParams : List String → List Value → Run Unit
  | param :: params, v :: vs => do
    Run.declare param { value := v }
    bindParams params vs
  | _, _ => return ()

/-- Call `f`, given how to execute its body.  The line of the caller is current again afterwards,
unless the call stopped the run. -/
def Function.invoke (f : Function) (args : List Value) (body : Run Unit) : Run Value := do
  if args.length = f.params.length then
    let caller ← Run.currentLine
    let flow ← Run.inCall f.name do
      bindParams f.params args
      body
    match flow with
    | .jump j => Run.fail (.strayJump j)
    | .normal =>
      Run.setLine caller
      return .undefined
    | .ret value =>
      Run.setLine caller
      return value
  else
    Run.fail (.argumentCount f.name f.params.length args.length)

namespace Program

/-- The function of the given name, or a fault. -/
def resolve (p : Program) (name : String) : Run Function :=
  match p.function? name with
  | some f => return f
  | none => Run.fail (.undefinedFunction name)

/-- Calls of the program's functions when `depth` more may be under way. -/
def callee (p : Program) (x : Horizon) : Nat → Callee
  | 0 => fun name _ => do
    let _ ← p.resolve name
    Run.fail (.callDepth x.callDepth)
  | depth + 1 => fun name args => do
    let f ← p.resolve name
    f.invoke args (Stmt.execAll x (p.callee x depth) f.body)

/-- Execute the top-level statements.  A return ends them, and a jump has no loop to go to. -/
def exec (p : Program) (x : Horizon) : Run Unit := do
  Stmt.execAll x (p.callee x x.callDepth.toNat) p.body
  match ← Run.flow with
  | .jump j => Run.fail (.strayJump j)
  | _ => Run.setFlow .normal

end Program

end Stepwise
