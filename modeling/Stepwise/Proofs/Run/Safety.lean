import Stepwise.Proofs.Run.Sound

/-!
# Everything that a program does is sound

The induction over expressions and statements that `Run.Sound` is made for.  A run can be looked at
between its parts, so what a form goes on with after a part is there has a lemma of its own, such as
`Run.sound_assigning`, and the induction is put together from these.

* `Expr.eval_binary` and `Expr.eval_ternary` bring the operators that may leave out an operand
  into a form in which it is seen when they do.
* `Expr.sound_eval` and `Stmt.sound_exec` say that everything that a program does is sound if its
  calls are, and `Program.sound_callee` that they are.
-/

set_option autoImplicit false

namespace Stepwise

/-! ## Operators with two operands -/

/-- Whether an operator has to look at its right operand. -/
def BinaryOp.looksRight (op : BinaryOp) (a : Value) : Bool :=
  match op with
  | and => a.isTruthy
  | or => !a.isTruthy
  | _ => true

/-- The value of an operator that has looked at its right operand. -/
def BinaryOp.conclude (op : BinaryOp) (a b : Value) : Except Cause Value :=
  match op with
  | and | or => .ok (.bool b.isTruthy)
  | op => op.apply a b

theorem BinaryOp.conclude_cases (op : BinaryOp) (a b : Value) :
    (∃ x, op.conclude a b = .ok (.bool x)) ∨ op.conclude a b = op.apply a b := by
  cases op with
  | and | or => exact .inl ⟨_, rfl⟩
  | _ => exact .inr rfl

/-- `&&` and `||` are the left operand as a truth value unless they look at the right one. -/
theorem Expr.eval_binary (settings : Settings) (c : Callee) (op : BinaryOp) (left right : Expr) :
    (Expr.binary op left right).eval settings c = (do
      let a ← left.eval settings c
      if op.looksRight a then
        let b ← right.eval settings c
        Run.ofCause (op.conclude a b)
      else return .bool a.isTruthy) := by
  rw [Expr.eval]
  congr 1
  funext a
  cases op with
  | and | or =>
    dsimp only [BinaryOp.looksRight]
    by_cases h : a.isTruthy = true
    · simp only [h]
      rfl
    · rw [Bool.not_eq_true] at h
      simp only [h]
      rfl
  | _ => rfl

theorem Expr.eval_ternary (settings : Settings) (c : Callee)
    (condition thenValue elseValue : Expr) :
    (Expr.ternary condition thenValue elseValue).eval settings c = (do
      let v ← condition.eval settings c
      (if v.isTruthy then thenValue else elseValue).eval settings c) := by
  rw [Expr.eval]
  congr 1
  funext v
  split <;> rfl

namespace Run

variable {needs : List Value}

/-! ## What goes on after a part -/

theorem sound_stored {v result : Value} {spot : Place} (hspot : v :: spot.values ⊆ needs)
    (hresult : result ∈ needs) :
    Sound needs (fun v => [v]) (do spot.store v; return result) :=
  ((sound_store v spot).mono hspot).bind fun _ => sound_pure result fun w hw => .inr (by
    rwa [List.mem_singleton.1 hw])

section

variable {value : Run Value} (hvalue : Sound [] (fun v => [v]) value)
include hvalue

theorem sound_assigning (spot : Place) :
    Sound spot.values (fun v => [v]) (do
      let v ← value
      spot.store v
      return v) :=
  (hvalue.mono (List.nil_subset _)).bind fun _ =>
    sound_stored (List.Subset.refl _) List.mem_cons_self

theorem sound_combining (op : BinaryOp) (current : Value) (spot : Place) :
    Sound spot.values (fun v => [v]) (do
      let operand ← value
      let v ← ofCause (op.apply current operand)
      spot.store v
      return v) := by
  refine (hvalue.mono (List.nil_subset _)).bind fun operand => ?_
  refine (sound_ofCause (op.withinBounds_apply current operand)
    fun _ => BinaryOp.isPlain_apply).bind fun v => ?_
  exact sound_stored (List.cons_subset_cons v (List.subset_append_right _ _)) List.mem_cons_self

theorem sound_updating (op : BinaryOp) (spot : Place) :
    Sound spot.values (fun v => [v]) (do
      let current ← spot.load
      let operand ← value
      let v ← ofCause (op.apply current operand)
      spot.store v
      return v) :=
  (sound_load spot).bind fun current =>
    (sound_combining hvalue op current spot).mono (List.subset_append_right _ _)

theorem sound_concluding (op : BinaryOp) (a : Value) :
    Sound [] (fun v => [v]) (if op.looksRight a then do
        let b ← value
        ofCause (op.conclude a b)
      else return .bool a.isTruthy) := by
  split
  · refine hvalue.bind fun b => ?_
    rcases op.conclude_cases a b with ⟨x, hx⟩ | happly
    · rw [hx]
      exact sound_plain nofun
    · rw [happly]
      exact sound_ofCause (op.withinBounds_apply a b) fun _ => BinaryOp.isPlain_apply
  · exact sound_plain nofun

/-- After the object of an index, its key is evaluated. -/
theorem sound_indexing (receiver : Value) :
    Sound [receiver] (fun v => [v]) (do receiver.element (← value)) :=
  (hvalue.mono (List.nil_subset _)).bind fun i =>
    (sound_element receiver i).mono (List.subset_append_right _ _)

omit hvalue in
theorem sound_targeted (receiver i : Value) :
    Sound [i, receiver] Place.values (match receiver with
      | .container array => return .element array i
      | v => Run.fail (.mismatch (.notAssignable v.kind)) : Run Place) := by
  cases receiver with
  | container array => exact sound_pure _ fun v hv => .inr ((List.Perm.swap _ _ _).subset hv)
  | _ => exact sound_fail nofun

theorem sound_targeting (receiver : Value) :
    Sound [receiver] Place.values (do
      let i ← value
      match receiver with
      | .container array => return .element array i
      | v => Run.fail (.mismatch (.notAssignable v.kind))) :=
  (hvalue.mono (List.nil_subset _)).bind fun i => sound_targeted receiver i

end

theorem sound_stepping (op : StepOp) (spot : Place) :
    Sound spot.values (fun v => [v]) (do
      let current ← spot.load
      let v ← ofCause (op.apply current)
      spot.store v
      return if op.isPost then current else v) := by
  refine (sound_load spot).bind fun current => ?_
  refine (sound_ofCause (op.withinBounds_apply current) fun _ => StepOp.isPlain_apply).bind
    fun v => ?_
  refine sound_stored (List.cons_subset_cons v (List.subset_append_right _ _)) ?_
  split
  · exact List.mem_cons_of_mem _ List.mem_cons_self
  · exact List.mem_cons_self

section

variable {values : Run (List Value)} (hvalues : Sound [] (fun vs => vs) values)
include hvalues

theorem sound_calling (receiver : Value) (method : String) :
    Sound [receiver] (fun v => [v]) (do receiver.call method (← values)) :=
  (hvalues.mono (List.nil_subset _)).bind fun args =>
    (sound_call receiver method args).mono (List.subset_append_right _ _)

theorem sound_following (v : Value) :
    Sound [v] (fun vs => vs) (do return v :: (← values)) := by
  refine (hvalues.mono (List.nil_subset _)).bind fun vs => sound_pure _ fun w hw => .inr ?_
  exact (List.perm_append_singleton v vs).symm.subset hw

end

/-! ### Statements -/

theorem sound_declaring (name : String) (value : Value) (constant : Bool) :
    Sound [value] (fun _ => []) (Run.declare name { value, constant }) :=
  sound_declare name { value, constant } List.mem_cons_self

theorem sound_test {condition : Run Value} (h : Sound [] (fun v => [v]) condition) :
    Sound [] (fun _ => []) (do return (← condition).isTruthy) :=
  h.bind fun v => sound_pure v.isTruthy nofun

theorem sound_sized (v : Value) :
    Sound [v] (fun _ => []) (match v.index? with
      | some n => return n
      | none => Run.fail (.invalidSize v.text) : Run UInt64) := by
  split
  · exact sound_pure _ nofun
  · exact sound_fail nofun

theorem sound_storing (name : String) (size : UInt64) (values : List Value) :
    Sound values (fun _ => []) (do
      let id ← Run.createArray name size values
      Run.declare name { value := .container id, constant := true }) :=
  (sound_createArray name size (List.Subset.refl _)).bind fun id =>
    (sound_declaring name (.container id) true).mono (List.subset_append_left _ _)

/-- The statements after one are executed only if control goes on normally. -/
theorem sound_proceeding {rest : Run Unit} (hrest : Sound [] (fun _ => []) rest) :
    Sound [] (fun _ => []) (do if (← Run.flow).isNormal then rest) := by
  refine sound_flow.bind fun flow => ?_
  split
  · exact hrest.mono (List.nil_subset _)
  · exact sound_pure () nofun

section

/-- What a loop that tests first does after its body. -/
theorem sound_continuing {next : Run Unit} (hnext : Sound [] (fun _ => []) next) :
    Sound [] (fun _ => []) (do
      if ← goesOn then
        next
        return true
      else return false) := by
  refine sound_goesOn.bind fun again => ?_
  cases again with
  | false => exact sound_pure false nofun
  | true => exact hnext.bind fun _ => sound_pure true nofun

variable {body : Run Unit} (hbody : Sound [] (fun _ => []) body)
include hbody

/-- What it does after its test. -/
theorem sound_looping {next : Run Unit} (hnext : Sound [] (fun _ => []) next) (holds : Bool) :
    Sound [] (fun _ => []) (if holds then do
        body
        if ← goesOn then
          next
          return true
        else return false
      else return false) := by
  cases holds with
  | false => exact sound_pure false nofun
  | true => exact hbody.bind fun _ => sound_continuing hnext

theorem sound_whileTurn {test : Run Bool} (htest : Sound [] (fun _ => []) test) {next : Run Unit}
    (hnext : Sound [] (fun _ => []) next) : Sound [] (fun _ => []) (whileTurn test body next) :=
  htest.bind fun holds => sound_looping hbody hnext holds

omit hbody in
/-- What a loop that tests last does after its body. -/
theorem sound_testing {test : Run Bool} (htest : Sound [] (fun _ => []) test) :
    Sound [] (fun _ => []) (do if ← goesOn then test else return false) := by
  refine sound_goesOn.bind fun again => ?_
  cases again with
  | false => exact sound_pure false nofun
  | true => exact htest

theorem sound_untilTurn {test : Run Bool} (htest : Sound [] (fun _ => []) test) :
    Sound [] (fun _ => []) (untilTurn body test) :=
  hbody.bind fun _ => sound_testing htest

end

end Run

open Run

/-! ## Expressions -/

section

variable {settings : Settings} {x : Horizon} {c : Callee}

mutual

theorem Expr.sound_eval (hc : ∀ name args, Sound args (fun v => [v]) (c name args)) :
    ∀ e : Expr, Sound [] (fun v => [v]) (e.eval settings c)
  | .literal l => by
    rw [Expr.eval]
    exact sound_plain (by cases l <;> exact nofun)
  | .var name => by
    rw [Expr.eval]
    exact sound_read name
  | .assign target value => by
    rw [Expr.eval]
    exact (sound_place hc target).bind fun spot =>
      (sound_assigning (sound_eval hc value) spot).mono (List.subset_append_left _ _)
  | .update op target value => by
    rw [Expr.eval]
    exact (sound_place hc target).bind fun spot =>
      (sound_updating (sound_eval hc value) op spot).mono (List.subset_append_left _ _)
  | .step op target => by
    rw [Expr.eval]
    exact (sound_place hc target).bind fun spot =>
      (sound_stepping op spot).mono (List.subset_append_left _ _)
  | .binary op left right => by
    rw [Expr.eval_binary]
    exact (sound_eval hc left).bind fun a =>
      (sound_concluding (sound_eval hc right) op a).mono (List.nil_subset _)
  | .unary op operand => by
    rw [Expr.eval]
    exact (sound_eval hc operand).bind fun v =>
      sound_ofCause (op.withinBounds_apply v) fun _ => UnaryOp.isPlain_apply
  | .ternary condition thenValue elseValue => by
    rw [Expr.eval]
    refine (sound_eval hc condition).bind fun v => ?_
    have hthen := sound_eval hc thenValue
    have helse := sound_eval hc elseValue
    split
    · exact hthen.mono (List.nil_subset _)
    · exact helse.mono (List.nil_subset _)
  | .call name args => by
    rw [Expr.eval]
    exact (sound_evalAll hc args).bind fun values =>
      (hc name values).mono (List.subset_append_left _ _)
  | .method object name args => by
    rw [Expr.eval]
    exact (sound_eval hc object).bind fun receiver =>
      sound_calling (sound_evalAll hc args) receiver name
  | .member object name => by
    rw [Expr.eval]
    exact (sound_eval hc object).bind fun receiver => sound_member receiver name
  | .index object key => by
    rw [Expr.eval]
    exact (sound_eval hc object).bind fun receiver => sound_indexing (sound_eval hc key) receiver
  | .guard condition => by
    rw [Expr.eval]
    exact (sound_countGuard settings).bind fun _ => sound_eval hc condition

theorem Expr.sound_evalAll (hc : ∀ name args, Sound args (fun v => [v]) (c name args)) :
    ∀ es : List Expr, Sound [] (fun vs => vs) (Expr.evalAll settings c es)
  | [] => by
    rw [Expr.evalAll]
    exact sound_pure [] nofun
  | e :: es => by
    rw [Expr.evalAll]
    exact (sound_eval hc e).bind fun v => sound_following (sound_evalAll hc es) v

theorem Expr.sound_place (hc : ∀ name args, Sound args (fun v => [v]) (c name args)) :
    ∀ e : Expr, Sound [] Place.values (e.place settings c)
  | .var name => by
    rw [Expr.place]
    exact sound_pure _ nofun
  | .index object key => by
    rw [Expr.place]
    exact (sound_eval hc object).bind fun receiver => sound_targeting (sound_eval hc key) receiver
  | .literal _ | .assign .. | .update .. | .step .. | .binary .. | .unary .. | .ternary ..
  | .call .. | .method .. | .member .. | .guard _ => by
    simp only [Expr.place]
    exact sound_fail nofun

end

theorem Expr.sound_evalOption (hc : ∀ name args, Sound args (fun v => [v]) (c name args))
    (e : Option Expr) :
    Sound [] (fun v => [v]) (Expr.evalOption settings c e) := by
  cases e with
  | none => exact sound_plain nofun
  | some e => exact Expr.sound_eval hc e

theorem Expr.sound_test (hc : ∀ name args, Sound args (fun v => [v]) (c name args))
    (e : Expr) : Sound [] (fun _ => []) (e.test settings c) :=
  Run.sound_test (Expr.sound_eval hc e)

theorem sound_arraySize (hc : ∀ name args, Sound args (fun v => [v]) (c name args))
    (size : Option Expr) (init : List Expr) :
    Sound [] (fun _ => []) (arraySize settings c size init) := by
  cases size with
  | none => exact sound_pure _ nofun
  | some e => exact (Expr.sound_eval hc e).bind fun v => sound_sized v

/-! ## Statements -/

theorem Expr.sound_discard (hc : ∀ name args, Sound args (fun v => [v]) (c name args))
    (es : List Expr) :
    Sound [] (fun _ => []) (do let _ ← Expr.evalAll settings c es) :=
  (Expr.sound_evalAll hc es).bind fun _ => sound_pure () nofun

mutual

theorem Stmt.sound_exec (hc : ∀ name args, Sound args (fun v => [v]) (c name args)) :
    ∀ stmt : Stmt, Sound [] (fun _ => []) (stmt.exec x c)
  | .line l => by
    rw [Stmt.exec]
    exact sound_setLine l
  | .declare name init => by
    rw [Stmt.exec]
    exact (Expr.sound_evalOption hc init).bind fun value => sound_declaring name value false
  | .construct name kind => by
    rw [Stmt.exec]
    exact (sound_createSequence kind name).bind fun id =>
      sound_declaring name (.container id) true
  | .array name size init => by
    rw [Stmt.exec]
    refine (sound_arraySize hc size init).bind fun n => ?_
    exact (Expr.sound_evalAll hc init).bind fun values =>
      (sound_storing name n values).mono (List.subset_append_left _ _)
  | .expr e => by
    rw [Stmt.exec]
    exact (Expr.sound_eval hc e).bind fun _ => sound_pure _ nofun
  | .branch condition thenBody => by
    have hthen := (sound_execAll hc thenBody).inScope
    rw [Stmt.exec]
    refine (Expr.sound_test hc condition).bind fun holds => ?_
    cases holds with
    | false => exact sound_pure _ nofun
    | true => exact hthen
  | .branchElse condition thenBody elseBody => by
    have hthen := (sound_execAll hc thenBody).inScope
    have helse := (sound_execAll hc elseBody).inScope
    rw [Stmt.exec]
    refine (Expr.sound_test hc condition).bind fun holds => ?_
    cases holds with
    | false => exact helse
    | true => exact hthen
  | .whileLoop condition body => by
    rw [Stmt.exec]
    exact (sound_whileTurn (sound_execAll hc body).inScope (Expr.sound_test hc condition)
      (sound_pure () nofun)).iterate x.turns
  | .doWhile body condition => by
    rw [Stmt.exec]
    exact (sound_untilTurn (sound_execAll hc body).inScope (Expr.sound_test hc condition)).iterate
      x.turns
  | .forLoop init condition increment body => by
    rw [Stmt.exec]
    refine Sound.inScope ((sound_execAll hc init).bind fun _ => ?_)
    exact (sound_whileTurn (sound_execAll hc body).inScope (Expr.sound_test hc condition)
      (Expr.sound_discard hc increment)).iterate x.turns
  | .block body => by
    rw [Stmt.exec]
    exact (sound_execAll hc body).inScope
  | .ret value => by
    rw [Stmt.exec]
    exact (Expr.sound_evalOption hc value).bind fun v => sound_setFlow fun w hw => hw
  | .jump j => by
    rw [Stmt.exec]
    exact sound_setFlow (List.nil_subset _)
  | .malformed e => by
    rw [Stmt.exec]
    exact sound_throw _ fun f hf => by cases hf; exact nofun

theorem Stmt.sound_execAll (hc : ∀ name args, Sound args (fun v => [v]) (c name args)) :
    ∀ stmts : List Stmt, Sound [] (fun _ => []) (Stmt.execAll x c stmts)
  | [] => by
    rw [Stmt.execAll]
    exact sound_pure _ nofun
  | stmt :: rest => by
    rw [Stmt.execAll]
    exact (sound_exec hc stmt).bind fun _ => sound_proceeding (sound_execAll hc rest)

end

end

/-! ## Calls -/

theorem sound_bindParams :
    ∀ (params : List String) (args : List Value),
      Sound args (fun _ => []) (bindParams params args)
  | param :: params, v :: vs =>
    (sound_declare param { value := v } List.mem_cons_self).bind fun _ =>
      (sound_bindParams params vs).mono (List.subset_cons_self _ _)
  | [], _ => sound_pure () nofun
  | _ :: _, [] => sound_pure () nofun

theorem Flow.sound_leave (caller : SourceLine) (flow : Flow) :
    Sound flow.values (fun v => [v]) (flow.leave caller) := by
  cases flow with
  | jump j => exact sound_fail nofun
  | normal => exact (sound_setLine caller).bind fun _ => sound_plain nofun
  | ret value => exact (sound_setLine caller).bind fun _ => sound_pure value fun v hv => .inr hv

theorem Function.sound_entered (f : Function) (args : List Value) {body : Run Unit}
    (hbody : Sound [] (fun _ => []) body) :
    Sound args (fun _ => []) (do
      bindParams f.params args
      body) :=
  (sound_bindParams f.params args).bind fun _ => hbody.mono (List.nil_subset _)

theorem Function.sound_invoke (f : Function) (args : List Value) {body : Run Unit}
    (hbody : Sound [] (fun _ => []) body) : Sound args (fun v => [v]) (f.invoke args body) := by
  rw [Function.invoke_eq]
  split
  · refine sound_currentLine.bind fun caller => ?_
    refine ((f.sound_entered args hbody).inCall f.name).bind fun flow => ?_
    exact (flow.sound_leave caller).mono (List.subset_append_left _ _)
  · exact sound_fail nofun

/-- **Calls keep handles valid**, by induction on how many more may be under way. -/
theorem Program.sound_callee (p : Program) (x : Horizon) :
    ∀ (depth : Nat) (name : String) (args : List Value),
      Sound args (fun v => [v]) (p.callee x depth name args)
  | 0, name, args => by
    rw [Program.callee_zero]
    split <;> exact sound_fail nofun
  | depth + 1, name, args => by
    rw [Program.callee_succ]
    split
    · exact Function.sound_invoke _ args
        (Stmt.sound_execAll (sound_callee p x depth) _)
    · exact sound_fail nofun

end Stepwise
