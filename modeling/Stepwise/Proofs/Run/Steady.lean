import Stepwise.Proofs.Recorder.Alike
import Stepwise.Proofs.Run.Ending

/-!
# What expressions leave alone

An expression marks no line and does not jump or return; the statements within the functions that it
calls do, but a call restores the line of its caller and takes up the flow of control.

* `Run.EvalEffect` is all that a step of an expression can do to the state.
* `Run.KeepsLine` is the law of runs that end on the line on which they started, and
  `Run.FallsThrough` that of runs after which control goes on normally.  Calls obey both, and so do
  expressions (`Run.keepsLine_eval`, `Run.fallsThrough_eval`).
* `Run.StraightLaw` is a law of runs that neither jump nor return, and carries what is known of
  steps through declarations as well.  `Run.FallsThrough` is one (`Run.fallsThrough_straightLaw`).
-/

set_option autoImplicit false

namespace Stepwise

open Recorder (Operation)

theorem Flow.isNormal_iff {flow : Flow} : flow.isNormal = true ↔ flow = .normal := by
  cases flow <;> simp [Flow.isNormal]

namespace Run

variable {α β : Type}

/-! ## The effects of steps -/

/-- What a step of an expression may do to the state `s`: carry out an operation on containers, or
assign to a name that is not constant. -/
inductive EvalEffect (s : State) : State → Prop
  | none : EvalEffect s s
  | perform (op : Operation) (hop : ∀ line, op ≠ .setLine line) :
      EvalEffect s { s with recorder := s.recorder.perform op }
  | assign {name : String} {b : Binding} (value : Value) (hb : s.stack.lookup name = some b)
      (hconstant : b.constant = false) :
      EvalEffect s { s with stack := (s.stack.assign? name value).getD s.stack }

theorem EvalStep.effect {V : Vocabulary} {m : Run α} (h : EvalStep V m) (s : State) :
    EvalEffect s (final m s) := by
  have hperform : ∀ (op : Operation) {x : Except Stop α}, (∀ line, op ≠ .setLine line) →
      m s = ofStop x { s with recorder := s.recorder.perform op } → EvalEffect s (final m s) := by
    intro op x hop hm
    rw [final_ofStop hm]
    exact .perform op hop
  cases h with
  | pure a => exact .none
  | fail cause h => exact .none
  | read name h =>
    rw [final, read_apply]
    cases s.stack.lookup name <;> exact .none
  | write name value h =>
    rw [final, write_apply]
    cases hb : s.stack.lookup name with
    | none => exact .none
    | some b =>
      dsimp only
      cases hconstant : b.constant with
      | true => exact .none
      | false => exact .assign value hb hconstant
  | callContainer id method args =>
    exact hperform (.call id method args) (by simp) (callContainer_apply id method args s)
  | getElement id index =>
    exact hperform (.getElement id index) (by simp) (getElement_apply id index s)
  | setElement id index value =>
    exact hperform (.setElement id index value) (by simp)
      (setElement_apply id index value s)
  | arrayLength id => exact .none

/-! ## The line and the flow of control -/

/-- The run ends on the line on which it started, unless it stops early. -/
def KeepsLine (m : Run α) : Prop :=
  ∀ ⦃s a s'⦄, m s = .ok a s' → s'.recorder.line = s.recorder.line

/-- Control goes on normally after the run if it did before, also if the run stops early. -/
def FallsThrough (m : Run α) : Prop :=
  ∀ ⦃s⦄, s.flow = .normal → (final m s).flow = .normal

/-- What comes next is executed only if control goes on normally. -/
theorem proceed_apply (m : Run Unit) (s : State) :
    (do if (← flow).isNormal then m) s = if s.flow.isNormal then m s else .ok () s := by
  rw [bind_apply]
  change (if s.flow.isNormal then _ else _ : Run Unit) s = _
  split <;> rfl

theorem keepsLine_of_final {m : Run α} (h : ∀ s, (final m s).recorder.line = s.recorder.line) :
    KeepsLine m := by
  intro s a s' hm
  rw [← final_of_ok hm, h]

theorem fallsThrough_of_final {m : Run α} (h : ∀ s, (final m s).flow = s.flow) :
    FallsThrough m := by
  intro s hs
  rw [h, hs]

theorem EvalStep.keepsLine {V : Vocabulary} {m : Run α} (h : EvalStep V m) : KeepsLine m := by
  refine keepsLine_of_final fun s => ?_
  have heffect := h.effect s
  generalize final m s = t at heffect
  cases heffect with
  | none => rfl
  | perform op hop => exact (s.recorder.perform_fields op).2 hop
  | assign value hb hconstant => rfl

theorem EvalStep.flow_final {V : Vocabulary} {m : Run α} (h : EvalStep V m) (s : State) :
    (final m s).flow = s.flow := by
  have heffect := h.effect s
  generalize final m s = t at heffect
  cases heffect <;> rfl

theorem EvalStep.fallsThrough {V : Vocabulary} {m : Run α} (h : EvalStep V m) : FallsThrough m :=
  fallsThrough_of_final h.flow_final

theorem KeepsLine.bind {m : Run α} {f : α → Run β} (hm : KeepsLine m)
    (hf : ∀ a, KeepsLine (f a)) : KeepsLine (m >>= f) := by
  intro s b s' h
  obtain ⟨a, t, hms, h⟩ := bind_eq_ok h
  exact (hf a h).trans (hm hms)

theorem FallsThrough.bind {m : Run α} {f : α → Run β} (hm : FallsThrough m)
    (hf : ∀ a, FallsThrough (f a)) : FallsThrough (m >>= f) := by
  intro s hs
  have hmid := hm hs
  cases h : m s with
  | error e t => rwa [final_bind_of_error h, ← final_of_error h]
  | ok a t =>
    rw [final_of_ok h] at hmid
    rw [final_bind_of_ok h]
    exact hf a hmid

/-- **Expressions keep the line,** if calls do. -/
theorem keepsLine_law (x : Horizon) : EvalLaw .any x KeepsLine where
  evalStep h := h.keepsLine
  countGuard := keepsLine_of_final fun s => by
    obtain ⟨guards, h⟩ := final_countGuard x s
    rw [h]
  bind h hf := h.bind hf

/-- **Expressions do not jump,** if calls do not. -/
theorem fallsThrough_law (x : Horizon) : EvalLaw .any x FallsThrough where
  evalStep h := h.fallsThrough
  countGuard := fallsThrough_of_final fun s => by
    obtain ⟨guards, h⟩ := final_countGuard x s
    rw [h]
  bind h hf := h.bind hf

/-! ## Calls -/

/-- However it ends, a call leaves control going on normally. -/
theorem flow_inCall (function : String) (m : Run Unit) (s : State) :
    (final (inCall function m) s).flow = .normal := by
  rw [inCall_eq_bracket, final_bracket]

/-- A call that yields a value marks the line of its caller again. -/
theorem line_of_leave {caller : SourceLine} {flow : Flow} {v : Value} {s s' : State}
    (h : flow.leave caller s = .ok v s') : s'.recorder.line = caller := by
  cases flow with
  | jump j => cases h
  | normal =>
    cases h
    rfl
  | ret value =>
    cases h
    rfl

theorem flow_leave (caller : SourceLine) (flow : Flow) (s : State) :
    (final (flow.leave caller) s).flow = s.flow := by
  cases flow <;> rfl

theorem currentLine_apply (s : State) : currentLine s = .ok s.recorder.line s := rfl

theorem keepsLine_invoke (f : Function) (args : List Value) (body : Run Unit) :
    KeepsLine (f.invoke args body) := by
  intro s v s' h
  rw [Function.invoke_eq] at h
  split at h
  · rw [bind_apply, currentLine_apply] at h
    obtain ⟨flow, t, -, h⟩ := bind_eq_ok h
    exact line_of_leave h
  · cases h

theorem fallsThrough_invoke (f : Function) (args : List Value) (body : Run Unit) :
    FallsThrough (f.invoke args body) := by
  intro s hs
  rw [Function.invoke_eq]
  split
  · have hframe := flow_inCall f.name (do bindParams f.params args; body) s
    rw [final_bind_of_ok (currentLine_apply s)]
    cases h : inCall f.name (do bindParams f.params args; body) s with
    | error e t => rwa [final_bind_of_error h, ← final_of_error h]
    | ok flow t =>
      rw [final_of_ok h] at hframe
      rw [final_bind_of_ok h, flow_leave, hframe]
  · exact hs

theorem keepsLine_callee (p : Program) (x : Horizon) (depth : Nat) (name : String)
    (args : List Value) : KeepsLine (p.callee x depth name args) := by
  cases depth with
  | zero =>
    rw [Program.callee_zero]
    split <;> exact fun _ _ _ => nofun
  | succ depth =>
    rw [Program.callee_succ]
    split
    · exact keepsLine_invoke _ args _
    · exact fun _ _ _ => nofun

theorem fallsThrough_callee (p : Program) (x : Horizon) (depth : Nat) (name : String)
    (args : List Value) : FallsThrough (p.callee x depth name args) := by
  cases depth with
  | zero =>
    rw [Program.callee_zero]
    split <;> exact fun _ => id
  | succ depth =>
    rw [Program.callee_succ]
    split
    · exact fallsThrough_invoke _ args _
    · exact fun _ => id

section

variable (p : Program) (x : Horizon) (depth : Nat) (e : Expr)

theorem keepsLine_eval : KeepsLine (e.eval x (p.callee x depth)) :=
  (keepsLine_law x).eval (fun name _ => keepsLine_callee p x depth name) e
    fun m _ => Vocabulary.any_has m

theorem fallsThrough_eval : FallsThrough (e.eval x (p.callee x depth)) :=
  (fallsThrough_law x).eval (fun name _ => fallsThrough_callee p x depth name) e
    fun m _ => Vocabulary.any_has m

end

end Run

/-! ## Declarations -/

/-- `P` holds of the steps of expressions and declarations, and is kept by what they put
together. -/
structure Run.StraightLaw (V : Vocabulary) (A : Horizon) (P : {α : Type} → Run α → Prop) : Prop
    extends Run.EvalLaw V A P where
  setLine (line : SourceLine) (h : V.lines line) : P (Run.setLine line)
  flow : P Run.flow
  declare (name : String) (b : Binding) : P (Run.declare name b)
  createSequence (kind : SequenceKind) (name : String) : P (Run.createSequence kind name)
  createArray (name : String) (size : UInt64) (init : List Value) :
    P (Run.createArray name size init)

open Run

namespace Run.StraightLaw

variable {V : Vocabulary} {x : Horizon} {P : {α : Type} → Run α → Prop} (h : StraightLaw V x P)
include h

variable {c : Callee} (hc : ∀ name, V.functions name → ∀ args, P (c name args))
include hc

/-- A law of straight runs holds of the statements that neither jump nor return and have no
statements in them. -/
theorem exec {stmt : Stmt} (hstraight : stmt.isStraight = true) (hw : stmt.Within V) :
    P (stmt.exec x c) := by
  cases stmt with
  | line l => exact h.setLine l (hw.lines l (List.mem_singleton_self l))
  | declare name init =>
    rw [Stmt.exec]
    exact h.bind (h.evalOption hc hw.mentions) fun v => h.declare name _
  | construct name kind =>
    rw [Stmt.exec]
    exact h.bind (h.createSequence kind name) fun id => h.declare name _
  | array name size init =>
    have hn := hw.mentions
    rw [Stmt.mentions, List.forall_mem_append] at hn
    rw [Stmt.exec]
    refine h.bind (h.arraySize hc hn.1 init) fun n => h.bind (h.evalAll hc init hn.2) ?_
    exact fun values => h.bind (h.createArray name n values) fun id => h.declare name _
  | expr e =>
    rw [Stmt.exec]
    exact h.bind (h.eval hc e hw.mentions) fun _ => h.evalStep (.pure ())
  | _ => cases hstraight

theorem execAll : ∀ {stmts : List Stmt}, (∀ stmt ∈ stmts, stmt.isStraight = true) →
    Stmt.AllWithin V stmts → P (Stmt.execAll x c stmts)
  | [], _, _ => by
    rw [Stmt.execAll]
    exact h.evalStep (.pure ())
  | stmt :: rest, hstraight, hw => by
    obtain ⟨hstmt, hrest⟩ := List.forall_mem_cons.1 hstraight
    obtain ⟨hw, hw'⟩ := hw.cons
    have hrest := execAll hrest hw'
    rw [Stmt.execAll]
    refine h.bind (h.exec hc hstmt hw) fun _ => h.bind h.flow fun flow => ?_
    cases flow with
    | normal => exact hrest
    | _ => exact h.evalStep (.pure ())

omit hc in
theorem bindParams : ∀ (params : List String) (args : List Value),
    P (Stepwise.bindParams params args)
  | param :: params, v :: vs =>
    h.bind (h.declare param { value := v }) fun _ => bindParams params vs
  | [], _ => h.evalStep (.pure ())
  | _ :: _, [] => h.evalStep (.pure ())

end Run.StraightLaw

/-- **Declarations do not jump,** if calls do not. -/
theorem Run.fallsThrough_straightLaw (x : Horizon) : StraightLaw .any x FallsThrough where
  toEvalLaw := fallsThrough_law x
  setLine _ _ := fallsThrough_of_final fun _ => rfl
  flow := fallsThrough_of_final fun _ => rfl
  declare _ _ := fallsThrough_of_final fun _ => rfl
  createSequence _ _ := fallsThrough_of_final fun _ => rfl
  createArray name size init := fallsThrough_of_final fun s => by
    rw [final_ofStop (createArray_apply name size init s)]

/-! ## Programs -/

namespace Program

/-- The run of the top-level statements. -/
def execBody (p : Program) (x : Horizon) : Run Unit :=
  Stmt.execAll x (p.callee x x.callDepth.toNat) p.body

/-- What a run does at the end of the top-level statements. -/
def finish : Run Unit := do
  match ← flow with
  | .jump j => Run.fail (.strayJump j)
  | _ => setFlow .normal

theorem finish_apply (s : State) :
    finish s = match s.flow with
      | .jump j => .error (.fault (s.recorder.fault (.strayJump j))) s
      | _ => .ok () { s with flow := .normal } := by
  rw [finish, bind_apply]
  change (match s.flow with | .jump j => _ | _ => _ : Run Unit) s = _
  cases s.flow <;> rfl

end Program

end Stepwise
