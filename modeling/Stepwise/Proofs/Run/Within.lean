import Stepwise.Proofs.Recorder.Suppression
import Stepwise.Proofs.Run.Moments

/-!
# The moments of a run lie within it

Whatever a run begins in its course lies within the run: it takes its recorder from there and leaves
it to there, and the values that it is given have come from there.

* `Recorder.Leads` says of two recorders that operations lead from one to the other.  Then the log
  of the first is a prefix of that of the second, and its containers are still there.
* `Run.Within` is what there is to say of a run that takes place within another.  It is put together
  like runs are.
* `Program.within_of_enters` goes through the rules by which a run begins a piece of a program, and
  `Program.comes_of_enters` concludes for all moments within another.
* `Program.leads_of_visits` places the states that a run comes through between its beginning and its
  end.
-/

set_option autoImplicit false

namespace Stepwise

open Run

/-! ## Runs within runs -/

namespace Recorder

/-- Operations lead from one recorder to the other. -/
def Leads (r r' : Recorder) : Prop :=
  ∃ ops : List Operation, r' = r.performAll ops

theorem Leads.refl (r : Recorder) : r.Leads r :=
  ⟨[], rfl⟩

theorem Leads.trans {r r' r'' : Recorder} (h : r.Leads r') (h' : r'.Leads r'') : r.Leads r'' := by
  obtain ⟨ops, rfl⟩ := h
  obtain ⟨ops', rfl⟩ := h'
  exact ⟨ops ++ ops', (r.performAll_append ops ops').symm⟩

theorem Leads.keeps {r r' : Recorder} (h : r.Leads r') : r.Keeps r' := by
  obtain ⟨ops, rfl⟩ := h
  exact keeps_performAll ops r

/-- The log only ever grows at its end. -/
theorem Leads.log {r r' : Recorder} (h : r.Leads r') : r.log <+: r'.log := by
  obtain ⟨ops, rfl⟩ := h
  rw [log_performAll]
  exact List.prefix_append _ _

end Recorder

namespace Run

variable {α β γ : Type} {m : Run α} {n : Run β} {s t u : State} {held held' held'' : List Value}

/-- The run `m` from `s`, with the values `held`, comes to the run `n` from `t`, with the values
`held'`. -/
structure Within (m : Run α) (s : State) (held : List Value) (n : Run β) (t : State)
    (held' : List Value) : Prop where
  before : s.recorder.Leads t.recorder
  after : (final n t).recorder.Leads (final m s).recorder
  resolves (h : s.Resolves held) : t.Resolves held'

theorem Within.refl (m : Run α) (s : State) (held : List Value) : Within m s held m s held :=
  ⟨.refl _, .refl _, id⟩

theorem Within.trans {o : Run γ} (h : Within m s held n t held')
    (h' : Within n t held' o u held'') : Within m s held o u held'' :=
  ⟨h.before.trans h'.before, h'.after.trans h.after, fun hs => h'.resolves (h.resolves hs)⟩

theorem Within.mono (h : Within m s held n t held') (hle : held'' ⊆ held') :
    Within m s held n t held'' :=
  ⟨h.before, h.after, fun hs => (h.resolves hs).mono hle⟩

/-- What is within the first of two runs. -/
theorem Within.left {f : α → Run γ} (hf : ∀ a, Drives (f a)) (h : Within m s held n t held') :
    Within (m >>= f) s held n t held' := by
  refine ⟨h.before, h.after.trans ?_, h.resolves⟩
  cases hms : m s with
  | ok a u =>
    rw [final_of_ok hms, final_bind_of_ok hms]
    exact hf a u
  | error e u =>
    rw [final_of_error hms, final_bind_of_error hms]
    exact .refl _

/-- What is within the second of two runs, after the first has yielded something. -/
theorem Within.right {f : α → Run γ} {needs : List Value} {yields : α → List Value} {a : α}
    (hm : Sound needs yields m) (hneeds : needs ⊆ held) (hok : m s = .ok a u)
    (h : Within (f a) u (yields a ++ held) n t held') : Within (m >>= f) s held n t held' := by
  refine ⟨?_, ?_, fun hs => h.resolves (hm.of_ok hneeds hs hok)⟩
  · have hlead := hm.drives s
    rw [final_of_ok hok] at hlead
    exact Recorder.Leads.trans hlead h.before
  · rw [final_bind_of_ok hok]
    exact h.after

/-- What is within a scope. -/
theorem Within.inScope (h : Within m { s with stack := s.stack.pushScope } held n t held') :
    Within (inScope m) s held n t held' := by
  rw [inScope_eq_bracket]
  refine ⟨h.before, by rw [final_bracket]; exact h.after, fun hs => h.resolves (hs.stack ?_)⟩
  exact List.Subset.trans s.stack.values_pushScope (List.subset_append_right _ _)

/-- What is within the frame of a call. -/
theorem Within.inCall {m : Run Unit} {function : String}
    (h : Within m { s with stack := s.stack.pushFrame function } held n t held') :
    Within (inCall function m) s held n t held' := by
  have hbody := h.left (f := fun _ => flow) fun _ => Primitive.flow.drives
  rw [inCall_eq_bracket]
  refine ⟨h.before, by rw [final_bracket]; exact hbody.after, fun hs => h.resolves (hs.stack ?_)⟩
  exact List.Subset.trans (s.stack.values_pushFrame function) (List.subset_append_right _ _)

/-- What is within a turn that a loop takes after others. -/
theorem Within.iterate {turn : Run Bool} (hturn : Sound [] (fun _ => []) turn) {k : Nat}
    (hturns : Turns turn k s u) (h : Within turn u held n t held') :
    ∀ turns, k < turns → Within (iterate turn turns) s held n t held' := by
  induction hturns with
  | none s =>
    intro turns hlt
    obtain ⟨turns, rfl⟩ := Nat.exists_eq_add_of_lt hlt
    refine Within.left (fun again => ?_) h
    cases again with
    | false => exact (Primitive.pure ()).drives
    | true => exact (hturn.iterate _).drives
  | more hgoesOn _ ih =>
    intro turns hlt
    cases turns with
    | zero => exact absurd hlt (Nat.not_lt_zero _)
    | succ turns =>
      exact Within.right hturn (List.nil_subset _) hgoesOn (ih h turns (Nat.lt_of_succ_lt_succ hlt))

end Run

/-! ## What a run begins

A lemma for each way in which a run begins a piece of a program while it is busy with another. -/

section

variable {x : Horizon} {c : Callee} {s t u v w z : State} {held : List Value}

theorem Run.drives_ofCause {α : Type} (cause : Except Cause α) : Drives (ofCause cause) := by
  cases cause with
  | ok a => exact (Primitive.pure a).drives
  | error cause => exact drives_of_eq fun _ => rfl

theorem Expr.within_test (e : Expr) (s : State) (held : List Value) :
    Within (e.test x c) s held (e.eval x c) s held :=
  .left (fun v => (Primitive.pure v.isTruthy).drives) (.refl _ _ _)

section

variable (hc : ∀ name args, Sound args (fun v => [v]) (c name args))
include hc

/-! ### The part that a part begins with -/

theorem Piece.within_firstOfExpr (s : State) (held : List Value) :
    ∀ {e : Expr} {part : Piece}, (Piece.expr e).first? = some part →
      Within (e.eval x c) s held (part.run x c) s held
  | .assign _ value, _, rfl => by
    rw [Expr.eval]
    exact .left (fun spot => (sound_assigning (Expr.sound_eval hc value) spot).drives) (.refl _ _ _)
  | .update op _ value, _, rfl => by
    rw [Expr.eval]
    exact .left (fun spot => (sound_updating (Expr.sound_eval hc value) op spot).drives)
      (.refl _ _ _)
  | .step op _, _, rfl => by
    rw [Expr.eval]
    exact .left (fun spot => (sound_stepping op spot).drives) (.refl _ _ _)
  | .binary op _ right, _, rfl => by
    rw [Expr.eval_binary]
    exact .left (fun a => (sound_concluding (Expr.sound_eval hc right) op a).drives) (.refl _ _ _)
  | .unary op _, _, rfl => by
    rw [Expr.eval]
    exact .left (fun v => drives_ofCause (op.apply v)) (.refl _ _ _)
  | .ternary _ thenValue elseValue, _, rfl => by
    rw [Expr.eval_ternary]
    exact .left (fun v => (Expr.sound_eval hc _).drives) (.refl _ _ _)
  | .call name _, _, rfl => by
    rw [Expr.eval]
    exact .left (fun values => (hc name values).drives) (.refl _ _ _)
  | .method _ name args, _, rfl => by
    rw [Expr.eval]
    exact .left (fun receiver => (sound_calling (Expr.sound_evalAll hc args) receiver name).drives)
      (.refl _ _ _)
  | .member _ name, _, rfl => by
    rw [Expr.eval]
    exact .left (fun receiver => (sound_member receiver name).drives) (.refl _ _ _)
  | .index _ key, _, rfl => by
    rw [Expr.eval]
    exact .left (fun receiver => (sound_indexing (Expr.sound_eval hc key) receiver).drives)
      (.refl _ _ _)

theorem Piece.within_firstOfStmt (s : State) (held : List Value) :
    ∀ {stmt : Stmt} {part : Piece}, (Piece.stmt stmt).first? = some part →
      Within (stmt.exec x c) s held (part.run x c) s held
  | .declare name (some _), _, rfl => by
    rw [Stmt.exec]
    exact .left (fun value => (sound_declaring name value false).drives) (.refl _ _ _)
  | .array name (some _) init, _, rfl => by
    rw [Stmt.exec]
    refine .left (fun n => ?_) (.left (fun v => (sound_sized v).drives) (.refl _ _ _))
    exact (Expr.sound_evalAll hc init).drives.bind fun values =>
      (sound_storing name n values).drives
  | .expr _, _, rfl => by
    rw [Stmt.exec]
    exact .left (fun _ => (Primitive.pure ()).drives) (.refl _ _ _)
  | .branch e body, _, rfl => by
    rw [Stmt.exec]
    refine .left (fun holds => ?_) (e.within_test s held)
    cases holds with
    | false => exact (Primitive.pure ()).drives
    | true => exact (Stmt.sound_execAll hc body).inScope.drives
  | .branchElse e thenBody elseBody, _, rfl => by
    rw [Stmt.exec]
    refine .left (fun holds => ?_) (e.within_test s held)
    cases holds with
    | false => exact (Stmt.sound_execAll hc elseBody).inScope.drives
    | true => exact (Stmt.sound_execAll hc thenBody).inScope.drives
  | .ret (some _), _, rfl => by
    rw [Stmt.exec]
    exact .left (fun v => (Primitive.setFlow (.ret v)).drives) (.refl _ _ _)

/-- The part that a part begins with is evaluated first, and the rest goes on from there. -/
theorem Piece.within_first (s : State) (held : List Value) :
    ∀ {piece part : Piece}, piece.first? = some part →
      Within (piece.run x c) s held (part.run x c) s held
  | .expr _, _, h => within_firstOfExpr hc s held h
  | .stmt _, _, h => within_firstOfStmt hc s held h
  | .exprs (_ :: es), _, rfl => by
    dsimp only [run]
    rw [Expr.evalAll]
    exact .left (fun v => (sound_following (Expr.sound_evalAll hc es) v).drives) (.refl _ _ _)
  | .target (.index _ key), _, rfl => by
    dsimp only [run]
    rw [Expr.place]
    exact .left (fun receiver => (sound_targeting (Expr.sound_eval hc key) receiver).drives)
      (.refl _ _ _)
  | .stmts (_ :: rest), _, rfl => by
    dsimp only [run]
    rw [Stmt.execAll]
    exact .left (fun _ => (sound_proceeding (Stmt.sound_execAll hc rest)).drives) (.refl _ _ _)

/-! ### Later parts of expressions -/

theorem within_assigned {target value : Expr} {spot : Place}
    (h : target.place x c s = .ok spot t) :
    Within ((Expr.assign target value).eval x c) s held (value.eval x c) t
      (spot.values ++ held) := by
  rw [Expr.eval]
  exact .right (Expr.sound_place hc target) (List.nil_subset _) h
    (.left (fun v => (sound_stored (List.Subset.refl _) List.mem_cons_self).drives) (.refl _ _ _))

theorem within_updated {op : BinaryOp} {target value : Expr} {spot : Place} {current : Value}
    (h : target.place x c s = .ok spot t) (hload : spot.load t = .ok current u) :
    Within ((Expr.update op target value).eval x c) s held (value.eval x c) u
      (current :: (spot.values ++ held)) := by
  rw [Expr.eval]
  refine .right (Expr.sound_place hc target) (List.nil_subset _) h ?_
  refine .right (sound_load spot) (List.subset_append_left _ _) hload ?_
  refine .left (fun operand => ?_) (.refl _ _ _)
  refine (drives_ofCause (op.apply current operand)).bind fun v => ?_
  exact (sound_stored (List.Subset.refl _) List.mem_cons_self).drives

theorem within_right {op : BinaryOp} {left right : Expr} {a : Value}
    (h : left.eval x c s = .ok a t) (hlooks : op.looksRight a = true) :
    Within ((Expr.binary op left right).eval x c) s held (right.eval x c) t (a :: held) := by
  rw [Expr.eval_binary]
  refine .right (Expr.sound_eval hc left) (List.nil_subset _) h ?_
  rw [if_pos hlooks]
  exact .left (fun b => drives_ofCause (op.conclude a b)) (.refl _ _ _)

theorem within_choice {condition thenValue elseValue : Expr} {a : Value}
    (h : condition.eval x c s = .ok a t) :
    Within ((Expr.ternary condition thenValue elseValue).eval x c) s held
      ((if a.isTruthy then thenValue else elseValue).eval x c) t held := by
  rw [Expr.eval_ternary]
  exact .right (Expr.sound_eval hc condition) (List.nil_subset _) h
    (.mono (.refl _ _ _) (List.subset_cons_self _ _))

theorem within_arguments {object : Expr} {name : String} {args : List Expr} {receiver : Value}
    (h : object.eval x c s = .ok receiver t) :
    Within ((Expr.method object name args).eval x c) s held (Expr.evalAll x c args) t
      (receiver :: held) := by
  rw [Expr.eval]
  exact .right (Expr.sound_eval hc object) (List.nil_subset _) h
    (.left (fun values => (sound_call receiver name values).drives) (.refl _ _ _))

theorem within_key {object key : Expr} {receiver : Value}
    (h : object.eval x c s = .ok receiver t) :
    Within ((Expr.index object key).eval x c) s held (key.eval x c) t (receiver :: held) := by
  rw [Expr.eval]
  exact .right (Expr.sound_eval hc object) (List.nil_subset _) h
    (.left (fun i => (sound_element receiver i).drives) (.refl _ _ _))

theorem within_targetKey {object key : Expr} {receiver : Value}
    (h : object.eval x c s = .ok receiver t) :
    Within ((Expr.index object key).place x c) s held (key.eval x c) t (receiver :: held) := by
  rw [Expr.place]
  exact .right (Expr.sound_eval hc object) (List.nil_subset _) h
    (.left (fun i => (sound_targeted receiver i).drives) (.refl _ _ _))

omit hc in
theorem within_guarded {condition : Expr} (h : countGuard x s = .ok () t) :
    Within ((Expr.guard condition).eval x c) s held (condition.eval x c) t held := by
  rw [Expr.eval]
  exact .right (sound_countGuard x) (List.nil_subset _) h (.refl _ _ _)

theorem within_following {e : Expr} {es : List Expr} {a : Value} (h : e.eval x c s = .ok a t) :
    Within (Expr.evalAll x c (e :: es)) s held (Expr.evalAll x c es) t (a :: held) := by
  rw [Expr.evalAll]
  exact .right (Expr.sound_eval hc e) (List.nil_subset _) h
    (.left (fun vs => (Primitive.pure (a :: vs)).drives) (.refl _ _ _))

/-! ### Later parts of statements -/

theorem within_elements {name : String} {size : Option Expr} {init : List Expr} {n : UInt64}
    (h : arraySize x c size init s = .ok n t) :
    Within ((Stmt.array name size init).exec x c) s held (Expr.evalAll x c init) t held := by
  rw [Stmt.exec]
  exact .right (sound_arraySize hc size init) (List.nil_subset _) h
    (.left (fun values => (sound_storing name n values).drives) (.refl _ _ _))

theorem within_branch {condition : Expr} {body : List Stmt}
    (h : condition.test x c s = .ok true t) :
    Within ((Stmt.branch condition body).exec x c) s held (Stmt.execAll x c body)
      { t with stack := t.stack.pushScope } held := by
  rw [Stmt.exec]
  exact .right (Expr.sound_test hc condition) (List.nil_subset _) h (.inScope (.refl _ _ _))

theorem within_branchElse {condition : Expr} {thenBody elseBody : List Stmt} {holds : Bool}
    (h : condition.test x c s = .ok holds t) :
    Within ((Stmt.branchElse condition thenBody elseBody).exec x c) s held
      (Stmt.execAll x c (if holds then thenBody else elseBody))
      { t with stack := t.stack.pushScope } held := by
  rw [Stmt.exec]
  refine .right (Expr.sound_test hc condition) (List.nil_subset _) h ?_
  cases holds with
  | false => exact .inScope (.refl _ _ _)
  | true => exact .inScope (.refl _ _ _)

theorem within_proceed {stmt : Stmt} {rest : List Stmt} (h : stmt.exec x c s = .ok () t)
    (hflow : t.flow.isNormal = true) :
    Within (Stmt.execAll x c (stmt :: rest)) s held (Stmt.execAll x c rest) t held := by
  rw [Stmt.execAll]
  refine .right (Stmt.sound_exec hc stmt) (List.nil_subset _) h ?_
  have hsound : Sound [] Flow.values flow := sound_flow
  refine .right hsound (List.nil_subset _) rfl ?_
  rw [if_pos hflow]
  exact .mono (.refl _ _ _) (List.subset_append_right _ _)

/-! ### Loops -/

theorem Stmt.sound_turn (loop : Stmt) : Sound [] (fun _ => []) (loop.turn x c) := by
  cases loop with
  | whileLoop condition body =>
    exact sound_whileTurn (Stmt.sound_execAll hc body).inScope (Expr.sound_test hc condition)
      (sound_pure () (List.forall_mem_nil _))
  | doWhile body condition =>
    exact sound_untilTurn (Stmt.sound_execAll hc body).inScope (Expr.sound_test hc condition)
  | forLoop init condition increment body =>
    exact sound_whileTurn (Stmt.sound_execAll hc body).inScope (Expr.sound_test hc condition)
      (Expr.sound_discard hc increment)
  | _ => exact sound_pure false (List.forall_mem_nil _)

variable {α : Type} {n : Run α} {k : Nat} {held' : List Value}

/-- What is within a turn of a loop is within the loop; a `for` loop takes its turns after its first
clause, in the same scope. -/
theorem within_loop {condition : Expr} {body : List Stmt}
    (hk : k < x.turns) (hturns : Turns ((Stmt.whileLoop condition body).turn x c) k s t)
    (h : Within ((Stmt.whileLoop condition body).turn x c) t held n u held') :
    Within ((Stmt.whileLoop condition body).exec x c) s held n u held' := by
  rw [Stmt.exec]
  exact .iterate (Stmt.sound_turn hc _) hturns h _ hk

theorem within_doWhile {condition : Expr} {body : List Stmt}
    (hk : k < x.turns) (hturns : Turns ((Stmt.doWhile body condition).turn x c) k s t)
    (h : Within ((Stmt.doWhile body condition).turn x c) t held n u held') :
    Within ((Stmt.doWhile body condition).exec x c) s held n u held' := by
  rw [Stmt.exec]
  exact .iterate (Stmt.sound_turn hc _) hturns h _ hk

theorem within_forLoop {init body : List Stmt} {condition : Expr} {increment : List Expr}
    (hinit : Stmt.execAll x c init { s with stack := s.stack.pushScope } = .ok () t)
    (hk : k < x.turns)
    (hturns : Turns ((Stmt.forLoop init condition increment body).turn x c) k t u)
    (h : Within ((Stmt.forLoop init condition increment body).turn x c) u held n v held') :
    Within ((Stmt.forLoop init condition increment body).exec x c) s held n v held' := by
  rw [Stmt.exec]
  exact .inScope (.right (Stmt.sound_execAll hc init) (List.nil_subset _) hinit
    (.iterate (Stmt.sound_turn hc _) hturns h _ hk))

theorem within_forInit {init body : List Stmt} {condition : Expr} {increment : List Expr} :
    Within ((Stmt.forLoop init condition increment body).exec x c) s held
      (Stmt.execAll x c init) { s with stack := s.stack.pushScope } held := by
  rw [Stmt.exec]
  have hturn := Stmt.sound_turn (x := x) hc (.forLoop init condition increment body)
  exact .inScope (.left (fun _ => (hturn.iterate _).drives) (.refl _ _ _))

end

/-! A turn of a loop that tests first begins with the test, the body comes after it, and then what
follows the body. -/

section

variable {test : Run Bool} {body next : Run Unit} {α : Type} {n : Run α} {held' : List Value}

theorem within_whileTest (hbody : Sound [] (fun _ => []) body)
    (hnext : Sound [] (fun _ => []) next) (h : Within test s held n t held') :
    Within (whileTurn test body next) s held n t held' :=
  .left (fun holds => (sound_looping hbody hnext holds).drives) h

theorem within_whileBody (htest : Sound [] (fun _ => []) test)
    (hnext : Sound [] (fun _ => []) next) (hholds : test s = .ok true t)
    (h : Within body t held n u held') : Within (whileTurn test body next) s held n u held' :=
  .right htest (List.nil_subset _) hholds (.left (fun _ => (sound_continuing hnext).drives) h)

theorem within_whileNext (htest : Sound [] (fun _ => []) test)
    (hbody : Sound [] (fun _ => []) body) (hholds : test s = .ok true t) (hend : body t = .ok () u)
    (hgoesOn : goesOn u = .ok true v) (h : Within next v held n w held') :
    Within (whileTurn test body next) s held n w held' := by
  refine .right htest (List.nil_subset _) hholds (.right hbody (List.nil_subset _) hend ?_)
  have hsound : Sound [] (fun _ => []) goesOn := sound_goesOn
  refine .right hsound (List.nil_subset _) hgoesOn ?_
  exact .left (fun _ => (Primitive.pure true).drives) h

theorem within_untilBody (htest : Sound [] (fun _ => []) test) (h : Within body s held n t held') :
    Within (untilTurn body test) s held n t held' :=
  .left (fun _ => (sound_testing htest).drives) h

theorem within_untilTest (hbody : Sound [] (fun _ => []) body) (hend : body s = .ok () t)
    (hgoesOn : goesOn t = .ok true u) (h : Within test u held n v held') :
    Within (untilTurn body test) s held n v held' := by
  have hsound : Sound [] (fun _ => []) goesOn := sound_goesOn
  exact .right hbody (List.nil_subset _) hend (.right hsound (List.nil_subset _) hgoesOn h)

end

end

namespace Program

variable {p : Program} {x : Horizon} {m n : Moment}

/-- The run at one moment comes to that at the other. -/
def Comes (p : Program) (x : Horizon) (m n : Moment) : Prop :=
  Within (p.runAt x m) m.state m.held (p.runAt x n) n.state n.held

/-- The body of a function is begun in a frame of its own, in which its parameters are bound. -/
theorem within_callee {d : Nat} {name : String} {values : List Value} {f : Function}
    {t u : State} {held : List Value} (hf : p.function? name = some f)
    (hlength : values.length = f.params.length)
    (hbind : bindParams f.params values { t with stack := t.stack.pushFrame f.name } = .ok () u)
    (hvalues : values ⊆ held) :
    Within (p.callee x (d + 1) name values) t held (Stmt.execAll x (p.callee x d) f.body) u
      held := by
  rw [callee_succ, hf]
  dsimp only
  rw [Function.invoke_eq, if_pos hlength]
  refine .right sound_currentLine (List.nil_subset _) rfl ?_
  refine .left (fun flow => (flow.sound_leave _).drives) (.inCall ?_)
  exact .right (sound_bindParams f.params values) hvalues hbind (.refl _ _ _)

theorem within_call {d : Nat} {name : String} {args : List Expr} {values : List Value}
    {f : Function} {s t u : State} {held : List Value}
    (h : Expr.evalAll x (p.callee x (d + 1)) args s = .ok values t)
    (hf : p.function? name = some f) (hlength : values.length = f.params.length)
    (hbind : bindParams f.params values { t with stack := t.stack.pushFrame f.name } = .ok () u) :
    Within ((Expr.call name args).eval x (p.callee x (d + 1))) s held
      (Stmt.execAll x (p.callee x d) f.body) u (values ++ held) := by
  rw [Expr.eval]
  refine .right (Expr.sound_evalAll (p.sound_callee x (d + 1)) args) (List.nil_subset _) h ?_
  exact within_callee hf hlength hbind (List.subset_append_left _ _)

/-- **What a run begins is within what it is busy with.** -/
theorem within_of_enters (h : p.Enters x m n) : p.Comes x m n := by
  have hc := p.sound_callee x
  have htest : ∀ d (e : Expr), Sound [] (fun _ => []) (e.test x (p.callee x d)) := fun d e =>
    Expr.sound_test (hc d) e
  have hbody := fun d ss => (Stmt.sound_execAll (x := x) (hc d) ss).inScope
  have hnext : ∀ d (es : List Expr),
      Sound [] (fun _ => []) (do let _ ← Expr.evalAll x (p.callee x d) es) := fun d es =>
    Expr.sound_discard (hc d) es
  have hskip : Sound [] (fun _ => []) (pure () : Run Unit) := sound_pure () (List.forall_mem_nil _)
  unfold Comes runAt
  cases h with
  | first h => exact Piece.within_first (hc _) _ _ h
  | assign h => exact within_assigned (hc _) h
  | update h hload => exact within_updated (hc _) h hload
  | right h hlooks => exact within_right (hc _) h hlooks
  | choice h => exact within_choice (hc _) h
  | call h hf hlength hbind => exact within_call h hf hlength hbind
  | arguments h => exact within_arguments (hc _) h
  | key h => exact within_key (hc _) h
  | targetKey h => exact within_targetKey (hc _) h
  | guard h => exact within_guarded h
  | following h => exact within_following (hc _) h
  | elements h => exact within_elements (hc _) h
  | branch h => exact within_branch (hc _) h
  | branchElse h => exact within_branchElse (hc _) h
  | whileTest hn h =>
    exact within_loop (hc _) hn h (within_whileTest (hbody _ _) hskip (Expr.within_test _ _ _))
  | whileBody hn h hholds =>
    exact within_loop (hc _) hn h
      (within_whileBody (htest _ _) hskip hholds (.inScope (.refl _ _ _)))
  | doBody hn h =>
    exact within_doWhile (hc _) hn h (within_untilBody (htest _ _) (.inScope (.refl _ _ _)))
  | doTest hn h hend hgoesOn =>
    exact within_doWhile (hc _) hn h
      (within_untilTest (hbody _ _) hend hgoesOn (Expr.within_test _ _ _))
  | forInit => exact within_forInit (hc _)
  | forTest hinit hn h =>
    exact within_forLoop (hc _) hinit hn h
      (within_whileTest (hbody _ _) (hnext _ _) (Expr.within_test _ _ _))
  | forBody hinit hn h hholds =>
    exact within_forLoop (hc _) hinit hn h
      (within_whileBody (htest _ _) (hnext _ _) hholds (.inScope (.refl _ _ _)))
  | forNext hinit hn h hholds hend hgoesOn =>
    refine within_forLoop (hc _) hinit hn h
      (within_whileNext (htest _ _) (hbody _ _) hholds hend hgoesOn ?_)
    exact .left (fun _ => (Primitive.pure ()).drives) (.refl _ _ _)
  | block =>
    dsimp only [Piece.run]
    rw [Stmt.exec]
    exact .inScope (.refl _ _ _)
  | proceed h hflow => exact within_proceed (hc _) h hflow

/-- A moment within another, however deep. -/
theorem comes_of_enters (h : Relation.ReflTransGen (p.Enters x) m n) : p.Comes x m n := by
  induction h with
  | refl => exact .refl _ _ _
  | tail _ h ih => exact ih.trans (within_of_enters h)

theorem sound_runAt (p : Program) (x : Horizon) (m : Moment) :
    Sound [] m.piece.values (p.runAt x m) :=
  Piece.sound_run (p.sound_callee x m.depth) m.piece

/-- What is left to do after the top-level statements leaves the recorder as it is. -/
theorem within_exec (p : Program) (x : Horizon) :
    Within (p.exec x) (State.initial x) [] (p.runAt x (p.start x)) (State.initial x) [] := by
  refine .left (fun _ => Drives.bind Primitive.flow.drives fun flow => ?_) (.refl _ _ _)
  cases flow with
  | jump j => exact drives_of_eq fun _ => rfl
  | _ => exact (Primitive.setFlow .normal).drives

/-- **What a run comes through lies between its beginning and its end.** -/
theorem leads_of_visits {s : State} {held : List Value} (h : p.Visits x s held) :
    (State.initial x).recorder.Leads s.recorder ∧
      s.recorder.Leads (final (p.exec x) (State.initial x)).recorder := by
  have hwithin : ∀ {m : Moment}, p.Reaches x m →
      Within (p.exec x) (State.initial x) [] (p.runAt x m) m.state m.held :=
    fun hm => (p.within_exec x).trans (comes_of_enters hm)
  have hdrives : ∀ m : Moment, m.state.recorder.Leads (p.stateAfter x m).recorder :=
    fun m => (p.sound_runAt x m).drives m.state
  have hend : ∀ {m : Moment}, p.Reaches x m →
      (State.initial x).recorder.Leads (p.stateAfter x m).recorder ∧
        (p.stateAfter x m).recorder.Leads (final (p.exec x) (State.initial x)).recorder :=
    fun hm => ⟨(hwithin hm).before.trans (hdrives _), (hwithin hm).after⟩
  cases h with
  | begins h => exact ⟨(hwithin h).before, (hdrives _).trans (hwithin h).after⟩
  | ends h hrun =>
    have hleads := hend h
    rwa [stateAfter, final_of_ok hrun] at hleads
  | stops h hrun =>
    have hleads := hend h
    rwa [stateAfter, final_of_error hrun] at hleads

/-- A run has valid handles wherever it begins something. -/
theorem resolves_of_reaches (h : p.Reaches x m) : m.state.Resolves m.held := by
  refine (comes_of_enters h).resolves fun id hid => ?_
  cases hid

end Program

end Stepwise
