import Mathlib.Logic.Relation
import Stepwise.Proofs.Run.Safety

/-!
# The moments of a run

A run evaluates a piece of a program by evaluating the pieces that this is made of, one after
another.  This file names the moments at which a piece is begun, so that something can be said of a
run in its course and not only of its end.

* `Stmt.turn` is one turn of a loop, and `Turns` says that a loop takes a number of them.
* A `Piece` is a part of a program that a run can be busy with, and a `Moment` is where a run begins
  one: in which state, and which values it holds in the meantime because other pieces have yielded
  them.
* `Program.Enters` says which piece a run begins while it is busy with another.  Its rules follow
  the evaluation of expressions and statements form by form: each says what has been evaluated
  before, and takes the state which that has really left.
* `Program.Reaches` are the moments that the run of a program comes to, and `Program.Visits` the
  states that it comes through, each with the values that it holds there.
-/

set_option autoImplicit false

namespace Stepwise

open Run

/-! ## Turns -/

/-- One turn of a loop. -/
def Stmt.turn (x : Horizon) (c : Callee) : Stmt → Run Bool
  | .whileLoop condition body =>
    whileTurn (condition.test x c) (inScope (Stmt.execAll x c body)) (return ())
  | .doWhile body condition => untilTurn (inScope (Stmt.execAll x c body)) (condition.test x c)
  | .forLoop _ condition increment body =>
    whileTurn (condition.test x c) (inScope (Stmt.execAll x c body))
      (do let _ ← Expr.evalAll x c increment)
  | _ => return false

/-- A loop takes a number of turns after each of which it goes on. -/
inductive Turns (turn : Run Bool) : Nat → State → State → Prop
  | none (s : State) : Turns turn 0 s s
  | more {n : Nat} {s u t : State} (h : turn s = .ok true u) (hmore : Turns turn n u t) :
    Turns turn (n + 1) s t

/-! ## Pieces of a program -/

/-- A part of a program that a run can be busy with. -/
inductive Piece where
  | expr (e : Expr)
  | exprs (es : List Expr)
  /-- The target of an assignment, which is resolved to a place. -/
  | target (e : Expr)
  | stmt (s : Stmt)
  | stmts (ss : List Stmt)

namespace Piece

/-- What a piece yields. -/
def Result : Piece → Type
  | expr _ => Value
  | exprs _ => List Value
  | target _ => Place
  | stmt _ | stmts _ => Unit

/-- The values that are yielded. -/
def values : (piece : Piece) → piece.Result → List Value
  | expr _ => fun v => [v]
  | exprs _ => fun vs => vs
  | target _ => Place.values
  | stmt _ | stmts _ => fun _ => []

/-- The run of a piece. -/
def run (x : Horizon) (c : Callee) : (piece : Piece) → Run piece.Result
  | expr e => e.eval x c
  | exprs es => Expr.evalAll x c es
  | target e => e.place x c
  | stmt s => s.exec x c
  | stmts ss => Stmt.execAll x c ss

theorem sound_run {x : Horizon} {c : Callee}
    (hc : ∀ name args, Sound args (fun v => [v]) (c name args)) (piece : Piece) :
    Sound [] piece.values (piece.run x c) := by
  cases piece with
  | expr e => exact Expr.sound_eval hc e
  | exprs es => exact Expr.sound_evalAll hc es
  | target e => exact Expr.sound_place hc e
  | stmt s => exact Stmt.sound_exec hc s
  | stmts ss => exact Stmt.sound_execAll hc ss

/-- The piece that a piece begins with, if there is one that is begun in the same state, with
nothing held besides. -/
def first? : Piece → Option Piece
  | expr (.assign e _) | expr (.update _ e _) | expr (.step _ e) => some (.target e)
  | expr (.binary _ e _) | expr (.unary _ e) | expr (.ternary e _ _) | expr (.method e _ _)
  | expr (.member e _) | expr (.index e _) => some (.expr e)
  | expr (.call _ args) => some (.exprs args)
  | exprs (e :: _) => some (.expr e)
  | target (.index e _) => some (.expr e)
  | stmt (.declare _ (some e)) | stmt (.array _ (some e) _) | stmt (.expr e) | stmt (.branch e _)
  | stmt (.branchElse e _ _) | stmt (.ret (some e)) => some (.expr e)
  | stmts (s :: _) => some (.stmt s)
  | _ => none

end Piece

/-- A moment at which a run begins a piece of its program. -/
structure Moment where
  /-- How many more calls may be under way. -/
  depth : Nat
  piece : Piece
  state : State
  /-- The values that the run has evaluated and not used yet. -/
  held : List Value

namespace Program

/-- The run of the piece that is begun. -/
def runAt (p : Program) (x : Horizon) (m : Moment) : Run m.piece.Result :=
  m.piece.run x (p.callee x m.depth)

/-- The state that the piece which is begun leaves behind, at its end or where it is stopped. -/
def stateAfter (p : Program) (x : Horizon) (m : Moment) : State :=
  (p.runAt x m).final m.state

/-- The moment at which a run begins its program. -/
def start (p : Program) (x : Horizon) : Moment where
  depth := x.callDepth.toNat
  piece := .stmts p.body
  state := .initial x
  held := []

/-- While it is busy with one piece, the run begins another. -/
inductive Enters (p : Program) (x : Horizon) : Moment → Moment → Prop
  | first {d : Nat} {piece part : Piece} {s : State} {held : List Value}
      (h : piece.first? = some part) : Enters p x ⟨d, piece, s, held⟩ ⟨d, part, s, held⟩
  | assign {d : Nat} {target value : Expr} {spot : Place} {s t : State} {held : List Value}
      (h : target.place x (p.callee x d) s = .ok spot t) :
      Enters p x ⟨d, .expr (.assign target value), s, held⟩
        ⟨d, .expr value, t, spot.values ++ held⟩
  | update {d : Nat} {op : BinaryOp} {target value : Expr} {spot : Place} {current : Value}
      {s t u : State} {held : List Value}
      (h : target.place x (p.callee x d) s = .ok spot t)
      (hload : spot.load t = .ok current u) :
      Enters p x ⟨d, .expr (.update op target value), s, held⟩
        ⟨d, .expr value, u, current :: (spot.values ++ held)⟩
  | right {d : Nat} {op : BinaryOp} {left right : Expr} {a : Value} {s t : State}
      {held : List Value} (h : left.eval x (p.callee x d) s = .ok a t)
      (hlooks : op.looksRight a = true) :
      Enters p x ⟨d, .expr (.binary op left right), s, held⟩
        ⟨d, .expr right, t, a :: held⟩
  | choice {d : Nat} {condition thenValue elseValue : Expr} {v : Value} {s t : State}
      {held : List Value} (h : condition.eval x (p.callee x d) s = .ok v t) :
      Enters p x ⟨d, .expr (.ternary condition thenValue elseValue), s, held⟩
        ⟨d, .expr (if v.isTruthy then thenValue else elseValue), t, held⟩
  | call {d : Nat} {name : String} {args : List Expr} {values : List Value} {f : Function}
      {s t u : State} {held : List Value}
      (h : Expr.evalAll x (p.callee x (d + 1)) args s = .ok values t)
      (hf : p.function? name = some f) (hlength : values.length = f.params.length)
      (hbind : bindParams f.params values { t with stack := t.stack.pushFrame f.name }
        = .ok () u) :
      Enters p x ⟨d + 1, .expr (.call name args), s, held⟩
        ⟨d, .stmts f.body, u, values ++ held⟩
  | arguments {d : Nat} {object : Expr} {name : String} {args : List Expr} {receiver : Value}
      {s t : State} {held : List Value}
      (h : object.eval x (p.callee x d) s = .ok receiver t) :
      Enters p x ⟨d, .expr (.method object name args), s, held⟩
        ⟨d, .exprs args, t, receiver :: held⟩
  | key {d : Nat} {object key : Expr} {receiver : Value} {s t : State} {held : List Value}
      (h : object.eval x (p.callee x d) s = .ok receiver t) :
      Enters p x ⟨d, .expr (.index object key), s, held⟩ ⟨d, .expr key, t, receiver :: held⟩
  | targetKey {d : Nat} {object key : Expr} {receiver : Value} {s t : State} {held : List Value}
      (h : object.eval x (p.callee x d) s = .ok receiver t) :
      Enters p x ⟨d, .target (.index object key), s, held⟩
        ⟨d, .expr key, t, receiver :: held⟩
  | guard {d : Nat} {condition : Expr} {s t : State} {held : List Value}
      (h : countGuard x s = .ok () t) :
      Enters p x ⟨d, .expr (.guard condition), s, held⟩ ⟨d, .expr condition, t, held⟩
  | following {d : Nat} {e : Expr} {es : List Expr} {v : Value} {s t : State} {held : List Value}
      (h : e.eval x (p.callee x d) s = .ok v t) :
      Enters p x ⟨d, .exprs (e :: es), s, held⟩ ⟨d, .exprs es, t, v :: held⟩
  | elements {d : Nat} {name : String} {size : Option Expr} {init : List Expr} {n : UInt64}
      {s t : State} {held : List Value}
      (h : arraySize x (p.callee x d) size init s = .ok n t) :
      Enters p x ⟨d, .stmt (.array name size init), s, held⟩ ⟨d, .exprs init, t, held⟩
  | branch {d : Nat} {condition : Expr} {body : List Stmt} {s t : State} {held : List Value}
      (h : condition.test x (p.callee x d) s = .ok true t) :
      Enters p x ⟨d, .stmt (.branch condition body), s, held⟩
        ⟨d, .stmts body, { t with stack := t.stack.pushScope }, held⟩
  | branchElse {d : Nat} {condition : Expr} {thenBody elseBody : List Stmt} {holds : Bool}
      {s t : State} {held : List Value}
      (h : condition.test x (p.callee x d) s = .ok holds t) :
      Enters p x ⟨d, .stmt (.branchElse condition thenBody elseBody), s, held⟩
        ⟨d, .stmts (if holds then thenBody else elseBody),
          { t with stack := t.stack.pushScope }, held⟩
  | whileTest {d n : Nat} {condition : Expr} {body : List Stmt} {s t : State} {held : List Value}
      (hn : n < x.turns)
      (h : Turns ((Stmt.whileLoop condition body).turn x (p.callee x d)) n s t) :
      Enters p x ⟨d, .stmt (.whileLoop condition body), s, held⟩ ⟨d, .expr condition, t, held⟩
  | whileBody {d n : Nat} {condition : Expr} {body : List Stmt} {s t u : State}
      {held : List Value} (hn : n < x.turns)
      (h : Turns ((Stmt.whileLoop condition body).turn x (p.callee x d)) n s t)
      (htest : condition.test x (p.callee x d) t = .ok true u) :
      Enters p x ⟨d, .stmt (.whileLoop condition body), s, held⟩
        ⟨d, .stmts body, { u with stack := u.stack.pushScope }, held⟩
  | doBody {d n : Nat} {body : List Stmt} {condition : Expr} {s t : State} {held : List Value}
      (hn : n < x.turns)
      (h : Turns ((Stmt.doWhile body condition).turn x (p.callee x d)) n s t) :
      Enters p x ⟨d, .stmt (.doWhile body condition), s, held⟩
        ⟨d, .stmts body, { t with stack := t.stack.pushScope }, held⟩
  | doTest {d n : Nat} {body : List Stmt} {condition : Expr} {s t u v : State}
      {held : List Value} (hn : n < x.turns)
      (h : Turns ((Stmt.doWhile body condition).turn x (p.callee x d)) n s t)
      (hbody : inScope (Stmt.execAll x (p.callee x d) body) t = .ok () u)
      (hgoesOn : goesOn u = .ok true v) :
      Enters p x ⟨d, .stmt (.doWhile body condition), s, held⟩ ⟨d, .expr condition, v, held⟩
  | forInit {d : Nat} {init body : List Stmt} {condition : Expr} {increment : List Expr}
      {s : State} {held : List Value} :
      Enters p x ⟨d, .stmt (.forLoop init condition increment body), s, held⟩
        ⟨d, .stmts init, { s with stack := s.stack.pushScope }, held⟩
  | forTest {d n : Nat} {init body : List Stmt} {condition : Expr} {increment : List Expr}
      {s t u : State} {held : List Value}
      (hinit : Stmt.execAll x (p.callee x d) init { s with stack := s.stack.pushScope } = .ok () t)
      (hn : n < x.turns)
      (h : Turns ((Stmt.forLoop init condition increment body).turn x (p.callee x d)) n t u) :
      Enters p x ⟨d, .stmt (.forLoop init condition increment body), s, held⟩
        ⟨d, .expr condition, u, held⟩
  | forBody {d n : Nat} {init body : List Stmt} {condition : Expr} {increment : List Expr}
      {s t u v : State} {held : List Value}
      (hinit : Stmt.execAll x (p.callee x d) init { s with stack := s.stack.pushScope } = .ok () t)
      (hn : n < x.turns)
      (h : Turns ((Stmt.forLoop init condition increment body).turn x (p.callee x d)) n t u)
      (htest : condition.test x (p.callee x d) u = .ok true v) :
      Enters p x ⟨d, .stmt (.forLoop init condition increment body), s, held⟩
        ⟨d, .stmts body, { v with stack := v.stack.pushScope }, held⟩
  | forNext {d n : Nat} {init body : List Stmt} {condition : Expr} {increment : List Expr}
      {s t u v w z : State} {held : List Value}
      (hinit : Stmt.execAll x (p.callee x d) init { s with stack := s.stack.pushScope } = .ok () t)
      (hn : n < x.turns)
      (h : Turns ((Stmt.forLoop init condition increment body).turn x (p.callee x d)) n t u)
      (htest : condition.test x (p.callee x d) u = .ok true v)
      (hbody : inScope (Stmt.execAll x (p.callee x d) body) v = .ok () w)
      (hgoesOn : goesOn w = .ok true z) :
      Enters p x ⟨d, .stmt (.forLoop init condition increment body), s, held⟩
        ⟨d, .exprs increment, z, held⟩
  | block {d : Nat} {body : List Stmt} {s : State} {held : List Value} :
      Enters p x ⟨d, .stmt (.block body), s, held⟩
        ⟨d, .stmts body, { s with stack := s.stack.pushScope }, held⟩
  | proceed {d : Nat} {stmt : Stmt} {rest : List Stmt} {s t : State} {held : List Value}
      (h : stmt.exec x (p.callee x d) s = .ok () t) (hflow : t.flow.isNormal = true) :
      Enters p x ⟨d, .stmts (stmt :: rest), s, held⟩ ⟨d, .stmts rest, t, held⟩

/-- The moments that the run of a program comes to. -/
def Reaches (p : Program) (x : Horizon) (m : Moment) : Prop :=
  Relation.ReflTransGen (p.Enters x) (p.start x) m

/-- The states that the run of a program comes through, each with the values that the run holds
there: those in which it begins a piece, and those in which it has come to its end, by then with
what the piece has yielded, or was stopped in it. -/
inductive Visits (p : Program) (x : Horizon) : State → List Value → Prop
  | begins {m : Moment} (h : p.Reaches x m) : Visits p x m.state m.held
  | ends {m : Moment} (h : p.Reaches x m) {result : m.piece.Result} {t : State}
      (hrun : p.runAt x m m.state = .ok result t) :
      Visits p x t (m.piece.values result ++ m.held)
  | stops {m : Moment} (h : p.Reaches x m) {e : Stop} {t : State}
      (hrun : p.runAt x m m.state = .error e t) : Visits p x t m.held

end Program

end Stepwise
