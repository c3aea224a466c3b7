import Stepwise.Proofs.Program.Mentions
import Stepwise.Proofs.Run.Primitive

/-!
# Congruences of runs

Statements about whole runs are proved by induction over expressions, statements and calls, and the
induction is always the same: a run is put together from a few primitive steps by sequence, scope,
call and loop.  This file does it once.

* `Run.Ticks` says that a turn of a loop after which the loop goes on has counted a guard.
* `Run.Step V` lists the primitive steps that keep to a vocabulary.
* `Run.CongruenceOn V A B R` says that the relation `R` between a run under the settings `A` and one
  under the settings `B` holds of these steps and is kept by all the ways in which statements put
  runs together.
* `CongruenceOn.exec` concludes that the two runs of a statement within the vocabulary are related
  if those of every call are, `CongruenceOn.callee` that the calls are if frames keep the relation,
  by induction on the depth that is left, and `CongruenceOn.program` that the runs of a program are.
* `Run.Law V A P` is the case of a property of single runs.

Under `Vocabulary.any` everything may be mentioned, and under `Vocabulary.guarded` everything except
for loops whose conditions are not guards.
-/

set_option autoImplicit false

namespace Stepwise

namespace Run

/-! ## Loops -/

theorem iterate_succ_apply (turn : Run Bool) (turns : Nat) (s : State) :
    iterate turn (turns + 1) s = match turn s with
      | .ok true s' => iterate turn turns s'
      | .ok false s' => .ok () s'
      | .error e s' => .error e s' := by
  rw [iterate, bind_apply]
  cases turn s with
  | error e s' => rfl
  | ok again s' => cases again <;> rfl

theorem goesOn_apply (s : State) :
    goesOn s = match s.flow with
      | .ret _ => .ok false s
      | .jump .break => .ok false { s with flow := .normal }
      | _ => .ok true { s with flow := .normal } := by
  rw [goesOn, bind_apply]
  change (match s.flow with | .ret _ => _ | .jump .break => _ | _ => _ : Run Bool) s = _
  rcases s.flow with _ | (_ | _) | value <;> rfl

theorem guards_of_goesOn {b : Bool} {s s' : State} (h : goesOn s = .ok b s') :
    s'.guards = s.guards := by
  rw [goesOn_apply] at h
  split at h <;> cases h <;> rfl

/-- A turn after which the loop goes on has evaluated a loop condition. -/
def Ticks (turn : Run Bool) : Prop :=
  ∀ ⦃s s'⦄, turn s = .ok true s' → s.guards.toNat < s'.guards.toNat

/-- A test that gives an answer has evaluated a loop condition. -/
def Counted (test : Run Bool) : Prop :=
  ∀ ⦃s b s'⦄, test s = .ok b s' → s.guards.toNat < s'.guards.toNat

theorem ticks_whileTurn {test : Run Bool} {body next : Run Unit} (ht : Counted test)
    (hb : Counts body) (hn : Counts next) : Ticks (whileTurn test body next) := by
  intro s s' h
  obtain ⟨holds, t, htest, h⟩ := bind_eq_ok h
  have htick := ht htest
  cases holds with
  | false => cases h
  | true =>
    rw [if_pos rfl] at h
    obtain ⟨_, u, hbody, h⟩ := bind_eq_ok h
    have hbody := hb.of_ok hbody
    obtain ⟨again, v, hcaught, h⟩ := bind_eq_ok h
    have hkept := guards_of_goesOn hcaught
    cases again with
    | false => cases h
    | true =>
      rw [if_pos rfl] at h
      obtain ⟨_, w, hnext, h⟩ := bind_eq_ok h
      have hnext := hn.of_ok hnext
      cases h
      rw [hkept] at hnext
      omega

theorem ticks_untilTurn {body : Run Unit} {test : Run Bool} (ht : Counted test)
    (hb : Counts body) : Ticks (untilTurn body test) := by
  intro s s' h
  obtain ⟨_, t, hbody, h⟩ := bind_eq_ok h
  have hbody := hb.of_ok hbody
  obtain ⟨again, u, hcaught, h⟩ := bind_eq_ok h
  have hkept := guards_of_goesOn hcaught
  cases again with
  | false => cases h
  | true =>
    rw [if_pos rfl] at h
    have htest := ht h
    rw [hkept] at htest
    omega

end Run

/-! ## Calls -/

/-- What a call yields after its body ended with `flow`: the line of the caller is current again,
unless a jump has left its function. -/
def Flow.leave (caller : SourceLine) : Flow → Run Value
  | jump j => Run.fail (.strayJump j)
  | normal => do
    Run.setLine caller
    return .undefined
  | ret value => do
    Run.setLine caller
    return value

theorem Function.invoke_eq (f : Function) (args : List Value) (body : Run Unit) :
    f.invoke args body =
      if args.length = f.params.length then do
        let caller ← Run.currentLine
        let flow ← Run.inCall f.name do
          bindParams f.params args
          body
        flow.leave caller
      else Run.fail (.argumentCount f.name f.params.length args.length) := rfl

/-- A call of depth at least one: its function is looked up and its body executed, with one call
less to go. -/
theorem Program.callee_succ (p : Program) (x : Horizon) (depth : Nat) (name : String)
    (args : List Value) :
    p.callee x (depth + 1) name args =
      match p.function? name with
      | some f => f.invoke args (Stmt.execAll x (p.callee x depth) f.body)
      | none => Run.fail (.undefinedFunction name) := by
  simp only [callee, resolve]
  cases p.function? name <;> rfl

/-- A call of depth zero is one too many. -/
theorem Program.callee_zero (p : Program) (x : Horizon) (name : String) (args : List Value) :
    p.callee x 0 name args =
      match p.function? name with
      | some _ => Run.fail (.callDepth x.callDepth)
      | none => Run.fail (.undefinedFunction name) := by
  simp only [callee, resolve]
  cases p.function? name <;> rfl

/-! ## Loop conditions -/

namespace Run

theorem countGuard_apply (settings : Settings) (s : State) :
    countGuard settings s =
      if s.guards + 1 = 0 then .error (.crash .counter) s
      else if settings.iterations < s.guards + 1 then
        .error (.fault (s.recorder.fault (.iterations settings.iterations)))
          { s with guards := s.guards + 1 }
      else .ok () { s with guards := s.guards + 1 } := by
  rw [countGuard, bind_apply]
  show (if s.guards + 1 = 0 then _ else _ : Run Unit) _ = _
  split
  · rfl
  · show (if settings.iterations < s.guards + 1 then _ else _ : Run Unit) _ = _
    split <;> rfl

/-- A counter that is not full counts on. -/
theorem toNat_succ {n : UInt64} (h : n + 1 ≠ 0) : (n + 1).toNat = n.toNat + 1 := by
  have hlt := n.toNat_lt
  have hsum := UInt64.toNat_add n 1
  have hne : (n + 1).toNat ≠ 0 := fun heq => h (UInt64.toNat_inj.1 heq)
  simp only [UInt64.reduceToNat] at hsum
  omega

/-- The counter is full at the last of its numbers. -/
theorem succ_eq_zero_iff {n : UInt64} : n + 1 = 0 ↔ n.toNat + 1 = UInt64.size := by
  have hlt := n.toNat_lt
  have hsum := UInt64.toNat_add n 1
  simp only [UInt64.reduceToNat] at hsum
  rw [← UInt64.toNat_inj, UInt64.size, UInt64.toNat_zero]
  omega

/-- Whatever comes of it, a guard does nothing but count. -/
theorem final_countGuard (settings : Settings) (s : State) :
    ∃ guards, final (countGuard settings) s = { s with guards } := by
  rw [final, countGuard_apply]
  by_cases hfull : s.guards + 1 = 0
  · rw [if_pos hfull]
    exact ⟨s.guards, rfl⟩
  · rw [if_neg hfull]
    refine ⟨s.guards + 1, ?_⟩
    by_cases hlt : settings.iterations < s.guards + 1
    · rw [if_pos hlt]
    · rw [if_neg hlt]

theorem guards_lt_of_countGuard {settings : Settings} {u : Unit} {s s' : State}
    (h : countGuard settings s = .ok u s') : s.guards.toNat < s'.guards.toNat := by
  rw [countGuard_apply] at h
  split at h
  · cases h
  · rename_i hfull
    split at h
    · cases h
    · cases h
      exact Nat.lt_of_lt_of_eq (Nat.lt_succ_self _) (toNat_succ hfull).symm

theorem counted_test {settings : Settings} {callee : Callee} {condition : Expr}
    (hcondition : condition.isLoopCondition = true)
    (hcounts : ∀ e, condition = .guard e → Counts (e.eval settings callee)) :
    Counted (condition.test settings callee) := by
  intro s b s' h
  cases condition with
  | guard e =>
    rw [Expr.test, Expr.eval] at h
    obtain ⟨v, t, h, hv⟩ := bind_eq_ok h
    cases hv
    obtain ⟨_, u, htick, h⟩ := bind_eq_ok h
    have htick := guards_lt_of_countGuard htick
    have := (hcounts e rfl).of_ok h
    omega
  | _ => cases hcondition

theorem fail_bind {α β : Type} (cause : Cause) (f : α → Run β) :
    (Run.fail cause >>= f) = Run.fail cause := rfl

end Run

/-- A place that is reached by a name is reached by one of `N`. -/
def Place.Within (N : String → Prop) : Place → Prop
  | named name => N name
  | element _ _ => True

namespace Run

/-! ## Congruences -/

/-- The primitive steps of expressions that keep to a vocabulary. -/
inductive EvalStep (V : Vocabulary) : {α : Type} → Run α → Prop
  | pure {α : Type} (a : α) : EvalStep V (pure a)
  | fail {α : Type} (cause : Cause) (h : cause.isLocal = true) :
      EvalStep V (Run.fail cause : Run α)
  | read (name : String) (h : V.names name) : EvalStep V (Run.read name)
  | write (name : String) (value : Value) (h : V.names name) : EvalStep V (Run.write name value)
  | callContainer (id : Nat) (method : String) (args : List Value) :
      EvalStep V (Run.callContainer id method args)
  | getElement (id : Nat) (index : Value) : EvalStep V (Run.getElement id index)
  | setElement (id : Nat) (index value : Value) : EvalStep V (Run.setElement id index value)
  | arrayLength (id : Nat) : EvalStep V (Run.arrayLength id)

/-- The primitive steps that only statements and calls take. -/
inductive ExecStep (V : Vocabulary) : {α : Type} → Run α → Prop
  | malformed {α : Type} (message : String) (column line : Nat) :
      ExecStep V (throw (.fault ⟨.malformed message column, line⟩) : Run α)
  | currentLine : ExecStep V Run.currentLine
  | setLine (line : SourceLine) (h : V.lines line) : ExecStep V (Run.setLine line)
  | flow : ExecStep V Run.flow
  | setFlow (f : Flow) : ExecStep V (Run.setFlow f)
  | declare (name : String) (b : Binding) : ExecStep V (Run.declare name b)
  | createSequence (kind : SequenceKind) (name : String) :
      ExecStep V (Run.createSequence kind name)
  | createArray (name : String) (size : UInt64) (init : List Value) :
      ExecStep V (Run.createArray name size init)

theorem EvalStep.primitive {V : Vocabulary} {α : Type} {m : Run α} (h : EvalStep V m) :
    Primitive m := by
  cases h with
  | pure a => exact .pure a
  | fail cause h => exact .fail cause (Cause.isIterations_of_isLocal h)
  | read name h => exact .read name
  | write name value h => exact .write name value
  | callContainer id method args => exact .callContainer id method args
  | getElement id index => exact .getElement id index
  | setElement id index value => exact .setElement id index value
  | arrayLength id => exact .arrayLength id

theorem ExecStep.primitive {V : Vocabulary} {α : Type} {m : Run α} (h : ExecStep V m) :
    Primitive m := by
  cases h with
  | malformed message column line => exact .malformed message column line
  | currentLine => exact .currentLine
  | setLine line h => exact .setLine line
  | flow => exact .flow
  | setFlow f => exact .setFlow f
  | declare name b => exact .declare name b
  | createSequence kind name => exact .createSequence kind name
  | createArray name size init => exact .createArray name size init

/-- `R` relates runs under the settings `A` to runs under the settings `B` in a way that holds of
the steps of expressions and is kept by what expressions put together. -/
structure EvalCongruence (V : Vocabulary) (A B : Horizon)
    (R : {α : Type} → Run α → Run α → Prop) : Prop where
  /-- A step does not look at the settings, and is related to itself. -/
  evalStep {α : Type} {m : Run α} (h : EvalStep V m) : R m m
  countGuard : R (countGuard A) (countGuard B)
  /-- Related runs go on with related runs. -/
  bind {α β : Type} {m n : Run α} {f g : α → Run β} (h : R m n) (hfg : ∀ a, R (f a) (g a)) :
    R (m >>= f) (n >>= g)

/-- The same of the steps of statements, and of all that runs of statements are put together
with. -/
structure CongruenceOn (V : Vocabulary) (A B : Horizon)
    (R : {α : Type} → Run α → Run α → Prop) : Prop extends EvalCongruence V A B R where
  execStep {α : Type} {m : Run α} (h : ExecStep V m) : R m m
  inScope {α : Type} {m n : Run α} (h : R m n) : R (inScope m) (inScope n)
  /-- Where loop conditions have to be guards, related runs count. -/
  counts {α : Type} {m n : Run α} (hV : V.counted) (h : R m n) : Counts m ∧ Counts n
  /-- Loops are related if their turns are; where loop conditions have to be guards, each loop
  counts where it goes on. -/
  loop {turn turn' : Run Bool} (h : R turn turn')
    (hticks : V.counted → Ticks turn ∧ Ticks turn') :
    R (iterate turn A.turns) (iterate turn' B.turns)

namespace EvalCongruence

variable {α : Type} {V : Vocabulary} {A B : Horizon} {R : {α : Type} → Run α → Run α → Prop}
  (h : EvalCongruence V A B R)
include h

theorem pure (a : α) : R (Pure.pure a) (Pure.pure a) :=
  h.evalStep (.pure a)

theorem fail {cause : Cause} (hc : cause.isLocal = true) :
    R (Run.fail cause : Run α) (Run.fail cause) :=
  h.evalStep (.fail cause hc)

theorem ofCause {x : Except Cause α} (hx : WithinBounds x) :
    R (Run.ofCause x) (Run.ofCause x) := by
  cases x with
  | ok a => exact h.pure a
  | error cause => exact h.fail (hx cause rfl)

/-! ### Values -/

theorem load {place : Place} (hp : place.Within V.names) : R place.load place.load := by
  cases place with
  | named name => exact h.evalStep (.read name hp)
  | element array index => exact h.evalStep (.getElement array index)

theorem store (value : Value) {place : Place} (hp : place.Within V.names) :
    R (place.store value) (place.store value) := by
  cases place with
  | named name => exact h.evalStep (.write name value hp)
  | element array index => exact h.evalStep (.setElement array index value)

theorem element (v index : Value) : R (v.element index) (v.element index) := by
  unfold Value.element
  split
  · exact h.evalStep (.getElement _ index)
  · split <;> exact h.pure _
  · exact h.fail rfl

theorem member (v : Value) (name : String) : R (v.member name) (v.member name) := by
  unfold Value.member
  extract_lets answer
  have hanswer : ∀ length, R (answer length) (answer length) := by
    intro length
    cases length with
    | none => exact h.fail rfl
    | some n =>
      by_cases hn : name = "length"
      · simp only [answer, if_pos hn]
        exact h.pure _
      · simp only [answer, if_neg hn]
        exact h.fail rfl
  split
  · exact h.bind (h.evalStep (.arrayLength _)) hanswer
  · exact h.bind (h.pure _) hanswer
  · exact h.bind (h.pure _) hanswer

theorem call (v : Value) (method : String) (args : List Value) :
    R (v.call method args) (v.call method args) := by
  unfold Value.call
  split
  · exact h.evalStep (.callContainer _ method args)
  · split
    · split
      · exact h.pure _
      · exact h.fail rfl
    · exact h.fail rfl
  · exact h.fail rfl

/-! ### Expressions -/

variable {c c' : Callee}

mutual

theorem eval (hc : ∀ name, V.functions name → ∀ args, R (c name args) (c' name args)) :
    ∀ e : Expr, (∀ m ∈ e.mentions, V.Has m) → R (e.eval A c) (e.eval B c')
  | .literal l, _ => by
    rw [Expr.eval, Expr.eval]
    exact h.pure l.value
  | .var name, hn => by
    rw [Expr.eval, Expr.eval]
    exact h.evalStep (.read name (hn _ (List.mem_singleton_self _)))
  | .assign target value, hn => by
    rw [Expr.mentions, List.forall_mem_append] at hn
    have hvalue := eval hc value hn.2
    rw [Expr.eval, Expr.eval]
    refine placed hc target hn.1 fun spot hspot => ?_
    refine h.bind hvalue fun v => ?_
    exact h.bind (h.store v hspot) fun _ => h.pure v
  | .update op target value, hn => by
    rw [Expr.mentions, List.forall_mem_append] at hn
    have hvalue := eval hc value hn.2
    rw [Expr.eval, Expr.eval]
    refine placed hc target hn.1 fun spot hspot => ?_
    refine h.bind (h.load hspot) fun current => ?_
    refine h.bind hvalue fun operand => ?_
    refine h.bind (h.ofCause (op.withinBounds_apply current operand)) fun v => ?_
    exact h.bind (h.store v hspot) fun _ => h.pure v
  | .step op target, hn => by
    rw [Expr.mentions] at hn
    rw [Expr.eval, Expr.eval]
    refine placed hc target hn fun spot hspot => ?_
    refine h.bind (h.load hspot) fun current => ?_
    refine h.bind (h.ofCause (op.withinBounds_apply current)) fun v => ?_
    exact h.bind (h.store v hspot) fun _ => h.pure _
  | .binary op left right, hn => by
    rw [Expr.mentions, List.forall_mem_append] at hn
    rw [Expr.eval, Expr.eval]
    refine h.bind (eval hc left hn.1) fun a => ?_
    have hright := eval hc right hn.2
    cases op with
    | and =>
      dsimp only
      split
      · exact h.bind hright fun b => h.pure _
      · exact h.pure _
    | or =>
      dsimp only
      split
      · exact h.pure _
      · exact h.bind hright fun b => h.pure _
    | _ => exact h.bind hright fun b => h.ofCause (BinaryOp.withinBounds_apply _ a b)
  | .unary op operand, hn => by
    rw [Expr.mentions] at hn
    rw [Expr.eval, Expr.eval]
    exact h.bind (eval hc operand hn) fun v => h.ofCause (op.withinBounds_apply v)
  | .ternary condition thenValue elseValue, hn => by
    rw [Expr.mentions, List.forall_mem_append, List.forall_mem_append] at hn
    rw [Expr.eval, Expr.eval]
    refine h.bind (eval hc condition hn.1) fun v => ?_
    have hthen := eval hc thenValue hn.2.1
    have helse := eval hc elseValue hn.2.2
    split
    · exact hthen
    · exact helse
  | .call name args, hn => by
    rw [Expr.mentions, List.forall_mem_cons] at hn
    rw [Expr.eval, Expr.eval]
    exact h.bind (evalAll hc args hn.2) fun values => hc name hn.1 values
  | .method object name args, hn => by
    rw [Expr.mentions, List.forall_mem_append] at hn
    rw [Expr.eval, Expr.eval]
    refine h.bind (eval hc object hn.1) fun receiver => ?_
    exact h.bind (evalAll hc args hn.2) fun values => h.call receiver name values
  | .member object name, hn => by
    rw [Expr.mentions] at hn
    rw [Expr.eval, Expr.eval]
    exact h.bind (eval hc object hn) fun receiver => h.member receiver name
  | .index object key, hn => by
    rw [Expr.mentions, List.forall_mem_append] at hn
    rw [Expr.eval, Expr.eval]
    refine h.bind (eval hc object hn.1) fun receiver => ?_
    exact h.bind (eval hc key hn.2) fun i => h.element receiver i
  | .guard condition, hn => by
    rw [Expr.mentions] at hn
    rw [Expr.eval, Expr.eval]
    exact h.bind h.countGuard fun _ => eval hc condition hn

theorem evalAll (hc : ∀ name, V.functions name → ∀ args, R (c name args) (c' name args)) :
    ∀ es : List Expr, (∀ m ∈ Expr.allMentions es, V.Has m) →
      R (Expr.evalAll A c es) (Expr.evalAll B c' es)
  | [], _ => by
    rw [Expr.evalAll, Expr.evalAll]
    exact h.pure []
  | e :: es, hn => by
    rw [Expr.allMentions, List.forall_mem_append] at hn
    rw [Expr.evalAll, Expr.evalAll]
    refine h.bind (eval hc e hn.1) fun v => ?_
    exact h.bind (evalAll hc es hn.2) fun vs => h.pure (v :: vs)

/-- What is done with the target of an assignment has to be related only for places that its
expression can stand for. -/
theorem placed (hc : ∀ name, V.functions name → ∀ args, R (c name args) (c' name args)) :
    ∀ target : Expr, (∀ m ∈ target.mentions, V.Has m) →
      ∀ {β : Type} {f g : Place → Run β},
        (∀ spot : Place, spot.Within V.names → R (f spot) (g spot)) →
        R (target.place A c >>= f) (target.place B c' >>= g)
  | .var name, hn, _, _, _, hfg => by
    rw [Expr.place, Expr.place, pure_bind, pure_bind]
    exact hfg _ (hn _ (List.mem_singleton_self _))
  | .index object key, hn, _, _, _, hfg => by
    rw [Expr.mentions, List.forall_mem_append] at hn
    rw [Expr.place, Expr.place, bind_assoc, bind_assoc]
    refine h.bind (eval hc object hn.1) fun receiver => ?_
    rw [bind_assoc, bind_assoc]
    refine h.bind (eval hc key hn.2) fun i => ?_
    cases receiver with
    | container array =>
      rw [pure_bind, pure_bind]
      exact hfg _ trivial
    | _ =>
      simp only [fail_bind]
      exact h.fail rfl
  | .literal _, _, _, _, _, _ | .assign .., _, _, _, _, _ | .update .., _, _, _, _, _
  | .step .., _, _, _, _, _ | .binary .., _, _, _, _, _ | .unary .., _, _, _, _, _
  | .ternary .., _, _, _, _, _ | .call .., _, _, _, _, _ | .method .., _, _, _, _, _
  | .member .., _, _, _, _, _ | .guard _, _, _, _, _, _ => by
    simp only [Expr.place, fail_bind]
    exact h.fail rfl

end

theorem test (hc : ∀ name, V.functions name → ∀ args, R (c name args) (c' name args)) {e : Expr}
    (hn : ∀ m ∈ e.mentions, V.Has m) : R (e.test A c) (e.test B c') :=
  h.bind (h.eval hc e hn) fun v => h.pure v.isTruthy

theorem evalOption (hc : ∀ name, V.functions name → ∀ args, R (c name args) (c' name args))
    {e : Option Expr}
    (hn : ∀ m ∈ Expr.allMentions e.toList, V.Has m) :
    R (Expr.evalOption A c e) (Expr.evalOption B c' e) := by
  cases e with
  | none => exact h.pure Value.undefined
  | some e =>
    rw [Option.toList_some, Expr.allMentions, List.forall_mem_append] at hn
    exact h.eval hc e hn.1

theorem arraySize (hc : ∀ name, V.functions name → ∀ args, R (c name args) (c' name args))
    {size : Option Expr}
    (hn : ∀ m ∈ Expr.allMentions size.toList, V.Has m) (init : List Expr) :
    R (Stepwise.arraySize A c size init) (Stepwise.arraySize B c' size init) := by
  cases size with
  | none => exact h.pure (UInt64.ofNat init.length)
  | some e =>
    rw [Option.toList_some, Expr.allMentions, List.forall_mem_append] at hn
    refine h.bind (h.eval hc e hn.1) fun v => ?_
    split
    · exact h.pure _
    · exact h.fail rfl

end EvalCongruence

namespace CongruenceOn

variable {α : Type} {V : Vocabulary} {A B : Horizon} {R : {α : Type} → Run α → Run α → Prop}
  (h : CongruenceOn V A B R) {c c' : Callee}
include h

/-! ### Loops -/

/-- The tests of a loop condition count, where it has to be a guard. -/
theorem counted (hc : ∀ name, V.functions name → ∀ args, R (c name args) (c' name args))
    {condition : Expr}
    (hn : ∀ m ∈ condition.mentions, V.Has m)
    (hcondition : V.counted → condition.isLoopCondition = true) (hV : V.counted) :
    Counted (condition.test A c) ∧ Counted (condition.test B c') := by
  have hcounts : ∀ e, condition = .guard e → Counts (e.eval A c) ∧ Counts (e.eval B c') := by
    rintro e rfl
    rw [Expr.mentions] at hn
    exact h.counts hV (h.eval hc e hn)
  exact ⟨counted_test (hcondition hV) fun e he => (hcounts e he).1,
    counted_test (hcondition hV) fun e he => (hcounts e he).2⟩

omit h in
/-- What a loop does with the flow of control is done in steps. -/
theorem goesOn (h : CongruenceOn V A B R) : R Run.goesOn Run.goesOn := by
  refine h.bind (h.execStep .flow) fun flow => ?_
  have hnormal := h.execStep (.setFlow .normal)
  rcases flow with _ | (_ | _) | value
  · exact h.bind hnormal fun _ => h.pure true
  · exact h.bind hnormal fun _ => h.pure false
  · exact h.bind hnormal fun _ => h.pure true
  · exact h.pure false

/-- The turns of a loop that tests first are related, and they count. -/
theorem whileTurn (hc : ∀ name, V.functions name → ∀ args, R (c name args) (c' name args))
    {condition : Expr}
    (hn : ∀ m ∈ condition.mentions, V.Has m)
    (hcondition : V.counted → condition.isLoopCondition = true) {body body' : Run Unit}
    (hbody : R body body') {next next' : Run Unit} (hnext : R next next') :
    R (Run.whileTurn (condition.test A c) body next)
        (Run.whileTurn (condition.test B c') body' next') ∧
      (V.counted → Ticks (Run.whileTurn (condition.test A c) body next) ∧
        Ticks (Run.whileTurn (condition.test B c') body' next')) := by
  refine ⟨?_, fun hV => ?_⟩
  · refine h.bind (h.test hc hn) fun holds => ?_
    cases holds with
    | false => exact h.pure false
    | true =>
      refine h.bind hbody fun _ => h.bind h.goesOn fun again => ?_
      cases again with
      | false => exact h.pure false
      | true => exact h.bind hnext fun _ => h.pure true
  · have ⟨hleft, hright⟩ := h.counted hc hn hcondition hV
    have hb := h.counts hV hbody
    have hx := h.counts hV hnext
    exact ⟨ticks_whileTurn hleft hb.1 hx.1, ticks_whileTurn hright hb.2 hx.2⟩

/-- So are those of a loop that tests last. -/
theorem untilTurn (hc : ∀ name, V.functions name → ∀ args, R (c name args) (c' name args))
    {condition : Expr}
    (hn : ∀ m ∈ condition.mentions, V.Has m)
    (hcondition : V.counted → condition.isLoopCondition = true) {body body' : Run Unit}
    (hbody : R body body') :
    R (Run.untilTurn body (condition.test A c)) (Run.untilTurn body' (condition.test B c')) ∧
      (V.counted → Ticks (Run.untilTurn body (condition.test A c)) ∧
        Ticks (Run.untilTurn body' (condition.test B c'))) := by
  refine ⟨?_, fun hV => ?_⟩
  · refine h.bind hbody fun _ => h.bind h.goesOn fun again => ?_
    cases again with
    | false => exact h.pure false
    | true => exact h.test hc hn
  · have ⟨hleft, hright⟩ := h.counted hc hn hcondition hV
    have hb := h.counts hV hbody
    exact ⟨ticks_untilTurn hleft hb.1, ticks_untilTurn hright hb.2⟩

/-! ### Statements -/

mutual

theorem exec (hc : ∀ name, V.functions name → ∀ args, R (c name args) (c' name args)) :
    ∀ stmt : Stmt, stmt.Within V → R (stmt.exec A c) (stmt.exec B c')
  | .line l, hw => by
    rw [Stmt.exec, Stmt.exec]
    exact h.execStep (.setLine l (hw.lines l (List.mem_singleton_self l)))
  | .declare name init, hw => by
    rw [Stmt.exec, Stmt.exec]
    refine h.bind (h.evalOption hc hw.mentions) fun value => ?_
    exact h.execStep (.declare name _)
  | .construct name kind, _ => by
    rw [Stmt.exec, Stmt.exec]
    refine h.bind (h.execStep (.createSequence kind name)) fun id => ?_
    exact h.execStep (.declare name _)
  | .array name size init, hw => by
    have hn := hw.mentions
    rw [Stmt.mentions, List.forall_mem_append] at hn
    rw [Stmt.exec, Stmt.exec]
    refine h.bind (h.arraySize hc hn.1 init) fun n => ?_
    refine h.bind (h.evalAll hc init hn.2) fun values => ?_
    refine h.bind (h.execStep (.createArray name n values)) fun id => ?_
    exact h.execStep (.declare name _)
  | .expr e, hw => by
    rw [Stmt.exec, Stmt.exec]
    exact h.bind (h.eval hc e hw.mentions) fun _ => h.pure ()
  | .branch condition thenBody, hw => by
    have ⟨hn, hbody⟩ := hw.branch
    have hthen := h.inScope (execAll hc thenBody hbody)
    rw [Stmt.exec, Stmt.exec]
    refine h.bind (h.test hc hn) fun holds => ?_
    cases holds with
    | false => exact h.pure ()
    | true => exact hthen
  | .branchElse condition thenBody elseBody, hw => by
    have ⟨hn, hbody, hbody'⟩ := hw.branchElse
    have hthen := h.inScope (execAll hc thenBody hbody)
    have helse := h.inScope (execAll hc elseBody hbody')
    rw [Stmt.exec, Stmt.exec]
    refine h.bind (h.test hc hn) fun holds => ?_
    cases holds with
    | false => exact helse
    | true => exact hthen
  | .whileLoop condition body, hw => by
    have ⟨hn, hcondition, hbody⟩ := hw.whileLoop
    rw [Stmt.exec, Stmt.exec]
    have ⟨hturn, hticks⟩ :=
      h.whileTurn hc hn hcondition (h.inScope (execAll hc body hbody)) (h.pure ())
    exact h.loop hturn hticks
  | .doWhile body condition, hw => by
    have ⟨hn, hcondition, hbody⟩ := hw.doWhile
    rw [Stmt.exec, Stmt.exec]
    have ⟨hturn, hticks⟩ := h.untilTurn hc hn hcondition (h.inScope (execAll hc body hbody))
    exact h.loop hturn hticks
  | .forLoop init condition increment body, hw => by
    have ⟨hinit, hn, hcondition, hincrement, hbody⟩ := hw.forLoop
    rw [Stmt.exec, Stmt.exec]
    refine h.inScope (h.bind (execAll hc init hinit) fun _ => ?_)
    have hnext := h.bind (h.evalAll hc increment hincrement) fun _ => h.pure ()
    have ⟨hturn, hticks⟩ :=
      h.whileTurn hc hn hcondition (h.inScope (execAll hc body hbody)) hnext
    exact h.loop hturn hticks
  | .block body, hw => by
    rw [Stmt.exec, Stmt.exec]
    exact h.inScope (execAll hc body hw.block)
  | .ret value, hw => by
    rw [Stmt.exec, Stmt.exec]
    exact h.bind (h.evalOption hc hw.mentions) fun v => h.execStep (.setFlow (.ret v))
  | .jump j, _ => by
    rw [Stmt.exec, Stmt.exec]
    exact h.execStep (.setFlow (.jump j))
  | .malformed e, _ => by
    rw [Stmt.exec, Stmt.exec]
    exact h.execStep (.malformed e.message e.location.column e.location.line)

theorem execAll (hc : ∀ name, V.functions name → ∀ args, R (c name args) (c' name args)) :
    ∀ stmts : List Stmt, Stmt.AllWithin V stmts →
      R (Stmt.execAll A c stmts) (Stmt.execAll B c' stmts)
  | [], _ => by
    rw [Stmt.execAll, Stmt.execAll]
    exact h.pure ()
  | stmt :: rest, hw => by
    have ⟨hstmt, hw'⟩ := hw.cons
    have hrest := execAll hc rest hw'
    rw [Stmt.execAll, Stmt.execAll]
    refine h.bind (exec hc stmt hstmt) fun _ => h.bind (h.execStep .flow) fun flow => ?_
    cases flow with
    | normal => exact hrest
    | _ => exact h.pure ()

end

/-! ### Calls -/

theorem bindParams : ∀ (params : List String) (args : List Value),
    R (Stepwise.bindParams params args) (Stepwise.bindParams params args)
  | param :: params, v :: vs =>
    h.bind (h.execStep (.declare param { value := v })) fun _ => bindParams params vs
  | [], _ => h.pure ()
  | _ :: _, [] => h.pure ()

section

-- A jump that leaves a function stops the run.
variable (hstray : ∀ {α : Type} (j : Jump),
  R (Run.fail (.strayJump j) : Run α) (Run.fail (.strayJump j)))
include hstray

-- The line of the caller is marked again after a call, whichever it is.
variable (hlines : ∀ l, V.lines l)
include hlines

theorem leave (caller : SourceLine) (flow : Flow) : R (flow.leave caller) (flow.leave caller) := by
  have hline := h.execStep (.setLine caller (hlines caller))
  cases flow with
  | jump j => exact hstray j
  | normal => exact h.bind hline fun _ => h.pure Value.undefined
  | ret value => exact h.bind hline fun _ => h.pure value

-- A call has a frame of its own.
variable (hframe : ∀ {m n : Run Unit} (function : String), R m n →
  R (Run.inCall function m) (Run.inCall function n))
include hframe

theorem invoke (f : Function) (args : List Value) {body body' : Run Unit} (hbody : R body body') :
    R (f.invoke args body) (f.invoke args body') := by
  rw [Function.invoke_eq, Function.invoke_eq]
  split
  · refine h.bind (h.execStep .currentLine) fun caller => ?_
    have henter := h.bind (h.bindParams f.params args) fun _ => hbody
    exact h.bind (hframe f.name henter) (h.leave hstray hlines caller)
  · exact h.fail rfl

/-- **Related calls.**  If the calls that are one too many under `A` are related to those that may
be `spare` deep under `B`, then so are all calls that may be deeper by the same number on both
sides. -/
theorem callee {p : Program} (hp : ∀ f ∈ p.functions, Stmt.AllWithin V f.body) (spare : Nat)
    (hzero : ∀ name args, R (p.callee A 0 name args) (p.callee B spare name args)) :
    ∀ depth name args, R (p.callee A depth name args) (p.callee B (spare + depth) name args)
  | 0 => hzero
  | depth + 1 => by
    intro name args
    have hc := callee hp spare hzero depth
    rw [← Nat.add_assoc, Program.callee_succ, Program.callee_succ]
    cases hf : p.function? name with
    | none => exact h.fail rfl
    | some f =>
      have hbody := hp f (List.mem_of_find?_eq_some hf)
      exact h.invoke hstray hlines hframe f args (h.execAll (fun name _ => hc name) f.body hbody)

omit hlines hframe in
/-- The runs of a program are related if the calls of its functions are. -/
theorem program {p : Program} (hp : Stmt.AllWithin V p.body)
    (hc : ∀ name args,
      R (p.callee A A.callDepth.toNat name args) (p.callee B B.callDepth.toNat name args)) :
    R (p.exec A) (p.exec B) := by
  have hbody := h.execAll (fun name _ => hc name) p.body hp
  refine h.bind hbody fun _ => h.bind (h.execStep .flow) fun flow => ?_
  cases flow with
  | jump j => exact hstray j
  | _ => exact h.execStep (.setFlow .normal)

end

end CongruenceOn

/-! ## Laws of single runs -/

/-- `P` holds of the steps of expressions and is kept by what expressions put together. -/
structure EvalLaw (V : Vocabulary) (A : Horizon) (P : {α : Type} → Run α → Prop) : Prop where
  evalStep {α : Type} {m : Run α} (h : EvalStep V m) : P m
  countGuard : P (countGuard A)
  bind {α β : Type} {m : Run α} {f : α → Run β} (h : P m) (hf : ∀ a, P (f a)) : P (m >>= f)

/-- The same of the steps of statements, and of all that runs of statements are put together
with. -/
structure Law (V : Vocabulary) (A : Horizon) (P : {α : Type} → Run α → Prop) : Prop
    extends EvalLaw V A P where
  execStep {α : Type} {m : Run α} (h : ExecStep V m) : P m
  inScope {α : Type} {m : Run α} (h : P m) : P (inScope m)
  /-- Where loop conditions have to be guards, runs count. -/
  counts {α : Type} {m : Run α} (hV : V.counted) (h : P m) : Counts m
  loop {turn : Run Bool} (h : P turn) (hticks : V.counted → Ticks turn) :
    P (iterate turn A.turns)

namespace EvalLaw

variable {V : Vocabulary} {A : Horizon} {P : {α : Type} → Run α → Prop} (h : EvalLaw V A P)
include h

/-- A law relates every run that obeys it to every other. -/
theorem evalOn : EvalCongruence V A A fun m n => P m ∧ P n where
  evalStep hm := ⟨h.evalStep hm, h.evalStep hm⟩
  countGuard := ⟨h.countGuard, h.countGuard⟩
  bind hm hfg := ⟨h.bind hm.1 fun a => (hfg a).1, h.bind hm.2 fun a => (hfg a).2⟩

variable {c : Callee} (hc : ∀ name, V.functions name → ∀ args, P (c name args))
include hc

theorem eval (e : Expr) (hn : ∀ m ∈ e.mentions, V.Has m) : P (e.eval A c) :=
  (h.evalOn.eval (fun name hf args => ⟨hc name hf args, hc name hf args⟩) e hn).1

theorem evalAll (es : List Expr) (hn : ∀ m ∈ Expr.allMentions es, V.Has m) :
    P (Expr.evalAll A c es) :=
  (h.evalOn.evalAll (fun name hf args => ⟨hc name hf args, hc name hf args⟩) es hn).1

theorem test {e : Expr} (hn : ∀ m ∈ e.mentions, V.Has m) : P (e.test A c) :=
  (h.evalOn.test (fun name hf args => ⟨hc name hf args, hc name hf args⟩) hn).1

theorem evalOption {e : Option Expr} (hn : ∀ m ∈ Expr.allMentions e.toList, V.Has m) :
    P (Expr.evalOption A c e) :=
  (h.evalOn.evalOption (fun name hf args => ⟨hc name hf args, hc name hf args⟩) hn).1

theorem arraySize {size : Option Expr} (hn : ∀ m ∈ Expr.allMentions size.toList, V.Has m)
    (init : List Expr) : P (Stepwise.arraySize A c size init) :=
  (h.evalOn.arraySize (fun name hf args => ⟨hc name hf args, hc name hf args⟩) hn init).1

end EvalLaw

namespace Law

variable {V : Vocabulary} {A : Horizon} {P : {α : Type} → Run α → Prop} (h : Law V A P)
include h

theorem on : CongruenceOn V A A fun m n => P m ∧ P n where
  toEvalCongruence := h.evalOn
  execStep hm := ⟨h.execStep hm, h.execStep hm⟩
  inScope hm := ⟨h.inScope hm.1, h.inScope hm.2⟩
  counts hV hm := ⟨h.counts hV hm.1, h.counts hV hm.2⟩
  loop hm hticks := ⟨h.loop hm.1 fun hV => (hticks hV).1, h.loop hm.2 fun hV => (hticks hV).2⟩

section

variable {c : Callee} (hc : ∀ name, V.functions name → ∀ args, P (c name args))
include hc

theorem exec (stmt : Stmt) (hw : stmt.Within V) : P (stmt.exec A c) :=
  (h.on.exec (fun name hf args => ⟨hc name hf args, hc name hf args⟩) stmt hw).1

theorem execAll (stmts : List Stmt) (hw : Stmt.AllWithin V stmts) : P (Stmt.execAll A c stmts) :=
  (h.on.execAll (fun name hf args => ⟨hc name hf args, hc name hf args⟩) stmts hw).1

end

theorem bindParams (params : List String) (args : List Value) :
    P (Stepwise.bindParams params args) :=
  (h.on.bindParams params args).1

section

variable (hstray : ∀ {α : Type} (j : Jump), P (Run.fail (.strayJump j) : Run α))
include hstray

theorem callee (hlines : ∀ l, V.lines l)
    (hframe : ∀ {m : Run Unit} (function : String), P m → P (Run.inCall function m)) {p : Program}
    (hp : ∀ f ∈ p.functions, Stmt.AllWithin V f.body) (depth : Nat) (name : String)
    (args : List Value) : P (p.callee A depth name args) := by
  have hzero : ∀ name args, P (p.callee A 0 name args) := by
    intro name args
    rw [Program.callee_zero]
    split <;> exact h.evalStep (.fail _ rfl)
  have hall := h.on.callee (fun j => ⟨hstray j, hstray j⟩) hlines
    (fun f hm => ⟨hframe f hm.1, hframe f hm.2⟩) hp 0
    fun name args => ⟨hzero name args, hzero name args⟩
  exact (hall depth name args).1

theorem program {p : Program} (hp : Stmt.AllWithin V p.body)
    (hc : ∀ name args, P (p.callee A A.callDepth.toNat name args)) : P (p.exec A) :=
  (h.on.program (fun j => ⟨hstray j, hstray j⟩) hp fun name args => ⟨hc name args, hc name args⟩).1

end

end Law

end Run

/-- All names and lines, and loops whose conditions are guards. -/
def Vocabulary.guarded : Vocabulary where
  names := fun _ => True
  functions := fun _ => True
  lines := fun _ => True
  counted := True

theorem Vocabulary.guarded_has (m : Mention) : guarded.Has m := by
  cases m <;> exact trivial

theorem Stmt.allWithin_guarded {stmts : List Stmt} (h : Stmt.allGuarded stmts = true) :
    Stmt.AllWithin .guarded stmts :=
  ⟨fun m _ => Vocabulary.guarded_has m, fun _ _ => trivial, fun _ => h⟩

end Stepwise
