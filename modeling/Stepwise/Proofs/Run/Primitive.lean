import Stepwise.Run.Execute
import Stepwise.Proofs.Recorder.Operation

/-!
# Primitive steps of a run

A run is put together from steps on names, containers and lines.  This file lists them and says what
they have in common.

* `WithinBounds` says of an operation that it fails neither for the number of iterations, nor for a
  handle to no container, nor for a jump.  No operation on values or on a single container does; the
  first cause belongs to loop conditions, the second to the look-up of a handle, the third to calls.
* `Run.Primitive` lists the steps.
* `Run.Primitive.quiet`: a step evaluates no loop condition, and what it does to the log is to add
  to its end.
-/

set_option autoImplicit false

namespace Stepwise

/-- Whether a cause is that of too many evaluations of loop conditions. -/
def Cause.isIterations : Cause → Bool
  | iterations _ => true
  | _ => false

/-- Whether a cause lies in what is being done: not in the number of loop conditions that were
evaluated before, nor in a handle to no container, nor in a jump that found no loop. -/
def Cause.isLocal : Cause → Bool
  | iterations _ => false
  | mismatch .dangling => false
  | strayJump _ => false
  | _ => true

theorem Cause.isIterations_of_isLocal {cause : Cause} (h : cause.isLocal = true) :
    cause.isIterations = false := by
  cases cause <;> first | rfl | cases h

/-- An operation that, if it fails, does so for a cause that lies in its operands. -/
def WithinBounds {α : Type} (x : Except Cause α) : Prop :=
  ∀ cause, x = .error cause → cause.isLocal = true

theorem withinBounds_ok {α : Type} (a : α) : WithinBounds (.ok a : Except Cause α) := by
  intro cause h
  cases h

theorem withinBounds_error {α : Type} {cause : Cause} (h : cause.isLocal = true) :
    WithinBounds (.error cause : Except Cause α) := by
  intro cause' h'
  cases h'
  exact h

theorem WithinBounds.bind {α β : Type} {x : Except Cause α} {f : α → Except Cause β}
    (hx : WithinBounds x) (hf : ∀ a, WithinBounds (f a)) : WithinBounds (x >>= f) := by
  cases x with
  | error cause => exact withinBounds_error (hx cause rfl)
  | ok a => exact hf a

/-! ## Operators -/

namespace BinaryOp

theorem withinBounds_wholeArithmetic (op : BinaryOp) (a b : Int64) :
    WithinBounds (op.wholeArithmetic a b) := by
  cases op with
  | add | sub | mul => exact withinBounds_ok _
  | _ =>
    simp only [wholeArithmetic]
    split
    · exact withinBounds_error rfl
    · exact withinBounds_ok _

theorem withinBounds_arithmetic (op : BinaryOp) (a b : Value) :
    WithinBounds (op.arithmetic a b) := by
  rw [arithmetic]
  split
  · rename_i m n _ _
    have h := op.withinBounds_wholeArithmetic m n
    cases hw : op.wholeArithmetic m n with
    | ok k => exact withinBounds_ok _
    | error cause => exact withinBounds_error (h cause hw)
  · split
    · exact withinBounds_ok _
    · exact withinBounds_error rfl

theorem withinBounds_bitwise (op : BinaryOp) (a b : Value) : WithinBounds (op.bitwise a b) := by
  rw [bitwise]
  split
  · exact withinBounds_ok _
  · exact withinBounds_error rfl

theorem withinBounds_apply (op : BinaryOp) (a b : Value) : WithinBounds (op.apply a b) := by
  cases op with
  | add =>
    simp only [apply]
    split
    · exact withinBounds_ok _
    · exact withinBounds_ok _
    · exact withinBounds_arithmetic .add a b
  | sub | mul | div | mod => exact withinBounds_arithmetic _ a b
  | bitAnd | bitOr | bitXor | shl | shr =>
    simp only [apply]
    exact withinBounds_bitwise _ a b
  | _ => exact withinBounds_ok _

end BinaryOp

theorem UnaryOp.withinBounds_apply (op : UnaryOp) (v : Value) : WithinBounds (op.apply v) := by
  unfold apply
  split
  · exact withinBounds_ok _
  · exact withinBounds_ok _
  · split
    · exact withinBounds_ok _
    · exact withinBounds_error rfl
  · split
    · exact withinBounds_ok _
    · exact withinBounds_error rfl

theorem StepOp.withinBounds_apply (op : StepOp) (v : Value) : WithinBounds (op.apply v) := by
  rw [apply]
  split
  · exact op.delta.withinBounds_apply v (.int 1)
  · exact withinBounds_error rfl

/-! ## Containers -/

namespace Method

theorem withinBounds_expectArity (method : String) (args : List Value) (expected : Nat) :
    WithinBounds (expectArity method args expected) := by
  rw [expectArity]
  split
  · exact withinBounds_ok ()
  · exact withinBounds_error rfl

theorem withinBounds_scalarArg (method : String) (args : List Value) :
    WithinBounds (scalarArg method args) := by
  unfold scalarArg
  split
  · split
    · exact withinBounds_ok _
    · exact withinBounds_error rfl
  · exact withinBounds_error rfl

theorem withinBounds_removing (kind : SequenceKind) (method : String) (args : List Value)
    (items rest : List Scalar) : WithinBounds (removing kind method args items rest) :=
  (withinBounds_expectArity method args 0).bind fun _ => withinBounds_ok _

theorem withinBounds_apply (m : Method) (kind : SequenceKind) (method : String) (args : List Value)
    (items : List Scalar) : WithinBounds (m.apply kind method args items) := by
  cases m with
  | pushBack | pushFront =>
    exact (withinBounds_scalarArg method args).bind fun _ => withinBounds_ok _
  | popBack | popFront => exact withinBounds_removing kind method args items _
  | remove =>
    rw [apply]
    split
    · exact withinBounds_removing kind method args items _
    · exact (withinBounds_scalarArg method args).bind fun _ => withinBounds_ok _
  | first | last | size | isEmpty =>
    exact (withinBounds_expectArity method args 0).bind fun _ => withinBounds_ok _

end Method

theorem Container.withinBounds_call (c : Container) (method : String) (args : List Value) :
    WithinBounds (c.call method args) := by
  obtain ⟨name, contents⟩ := c
  cases contents with
  | array a => exact withinBounds_error rfl
  | sequence kind items =>
    unfold call
    dsimp only
    split
    · exact withinBounds_error rfl
    · rename_i m _
      refine (m.withinBounds_apply kind method args items).bind fun effect => ?_
      cases effect <;> exact withinBounds_ok _

theorem Slots.withinBounds_stored (array : String) (value : Value) :
    WithinBounds (stored array value) := by
  unfold stored
  split
  · exact withinBounds_ok _
  · split
    · exact withinBounds_ok _
    · exact withinBounds_error rfl

theorem Slots.withinBounds_set (a : Slots) (array : String) (index value : Value) :
    WithinBounds (a.set array index value) := by
  rw [set]
  split
  · exact (withinBounds_stored array value).bind fun _ => withinBounds_ok _
  · exact withinBounds_ok _

/-! ## Recording -/

namespace Recorder

theorem log_append (r : Recorder) (c : Command) : (r.append c).log = r.log ++ [c] := by
  rw [log, append, Array.toList_push]
  rfl

theorem log_record (r : Recorder) (target : Target) (name : String) (change : Option Change) :
    r.log <+: (r.record target name change).log := by
  cases change with
  | none => exact List.prefix_rfl
  | some change =>
    rw [record]
    split
    · exact List.prefix_rfl
    · rw [log_append]
      exact List.prefix_append _ _

/-- Writing initial elements adds to the log, and a failure is for a cause in the elements. -/
theorem fill_ends (name : String) :
    ∀ (vs : List Value) (r : Recorder) (a : Slots) (index : Nat),
      r.log <+: (r.fill name a index vs).2.log ∧
        ∀ f, (r.fill name a index vs).1 = .error f → f.cause.isLocal = true
  | [], r, a, index => ⟨List.prefix_rfl, fun _ h => nomatch h⟩
  | v :: vs, r, a, index => by
    have hset := a.withinBounds_set name (.int (Int64.ofNat index)) v
    rw [fill]
    split
    · rename_i cause h
      refine ⟨List.prefix_rfl, fun f hf => ?_⟩
      cases hf
      exact hset cause h
    · rename_i a' change _
      obtain ⟨hlog, hfault⟩ := fill_ends name vs (r.record .array name change) a' (index + 1)
      exact ⟨(r.log_record .array name change).trans hlog, hfault⟩

end Recorder

/-- The last command of a log declares an array with more slots than an array can have. -/
def Log.Oversized (log : Log) : Prop :=
  ∃ c size, log.getLast? = some c ∧ c.action = .arrayDeclare ∧ c.size = some size ∧
    Slots.capacity < size.toNat

/-- How an operation on a recorder may end that leaves the log `log`: with a result, with a fault
for a cause in its operands, or broken down over an array that it has just declared. -/
inductive Answered {α : Type} (log : Log) : Except Stop α → Prop
  | ok (a : α) : Answered log (.ok a)
  | fault {f : Fault} (h : f.cause.isLocal = true) : Answered log (.error (.fault f))
  | crash (h : log.Oversized) : Answered log (.error (.crash .capacity))

namespace Recorder

theorem createArray_ends (r : Recorder) (name : String) (size : UInt64) (init : List Value) :
    r.log <+: (r.createArray name size init).2.log ∧
      Answered (r.createArray name size init).2.log (r.createArray name size init).1 := by
  have hdeclared : r.log <+: (r.append (r.declaration name size)).log := by
    rw [log_append]
    exact List.prefix_append _ _
  obtain ⟨hlog, hfault⟩ := fill_ends name (init.take size.toNat)
    (r.append (r.declaration name size)) (.blank size) 0
  rw [createArray_eq]
  split
  case isFalse hsize =>
    refine ⟨hdeclared, .crash ⟨r.declaration name size, size, ?_, rfl, rfl, by omega⟩⟩
    rw [log_append, List.getLast?_concat]
  cases hfill : (r.append (r.declaration name size)).fill name (.blank size) 0
      (init.take size.toNat) with
  | mk result r' =>
    rw [hfill] at hlog hfault
    cases result with
    | error f => exact ⟨hdeclared.trans hlog, .fault (hfault f rfl)⟩
    | ok a => exact ⟨hdeclared.trans hlog, .ok _⟩

/-- An operation on the container with the handle `id` fails for a cause in its operands, or because
there is no such container. -/
def FailsAt (r : Recorder) (id : Nat) (f : Fault) : Prop :=
  f.cause.isLocal = true ∨ f.cause = .mismatch .dangling ∧ r.container? id = none

theorem FailsAt.isIterations {r : Recorder} {id : Nat} {f : Fault} (h : r.FailsAt id f) :
    f.cause.isIterations = false := by
  rcases h with h | ⟨h, -⟩
  · exact Cause.isIterations_of_isLocal h
  · rw [h]
    rfl

theorem call_eq_error {r r' : Recorder} {id : Nat} {method : String} {args : List Value} {f : Fault}
    (h : r.call id method args = (.error f, r')) : r.FailsAt id f := by
  unfold call at h
  split at h
  · rename_i hid
    cases h
    exact .inr ⟨rfl, hid⟩
  · rename_i c _
    split at h
    · rename_i cause hcall
      cases h
      exact .inl (c.withinBounds_call method args cause hcall)
    · cases h

theorem array_eq_error {r : Recorder} {id : Nat} {f : Fault} (h : r.array id = .error f) :
    r.FailsAt id f := by
  unfold array at h
  split at h
  · rename_i hid
    cases h
    exact .inr ⟨rfl, hid⟩
  · split at h
    · cases h
    · cases h
      exact .inl rfl

theorem getElement_eq_error {r : Recorder} {id : Nat} {index : Value} {f : Fault}
    (h : r.getElement id index = .error f) : r.FailsAt id f := by
  cases ha : r.array id with
  | error g =>
    rw [getElement, ha] at h
    cases h
    exact array_eq_error ha
  | ok named =>
    rw [getElement, ha] at h
    cases h

theorem setElement_eq_error {r r' : Recorder} {id : Nat} {index value : Value} {f : Fault}
    (h : r.setElement id index value = (.error f, r')) : r.FailsAt id f := by
  unfold setElement at h
  split at h
  · rename_i ha
    cases h
    exact array_eq_error ha
  · rename_i name a _
    split at h
    · rename_i cause hset
      cases h
      exact .inl (a.withinBounds_set name index value cause hset)
    · cases h

theorem log_call (r : Recorder) (id : Nat) (method : String) (args : List Value) :
    r.log <+: (r.call id method args).2.log := by
  rcases r.call_cases id method args with ⟨f, h⟩ | ⟨c, value, c', change, -, -, h⟩
  · simp only [h, List.prefix_rfl]
  · rw [h]
    exact log_record (r.replace id c') c.target c.name change

theorem log_setElement (r : Recorder) (id : Nat) (index value : Value) :
    r.log <+: (r.setElement id index value).2.log := by
  rcases r.setElement_cases id index value with ⟨f, h⟩ | ⟨name, a, a', change, -, -, h⟩
  · simp only [h, List.prefix_rfl]
  · rw [h]
    exact log_record (r.replace id ⟨name, .array a'⟩) .array name change

end Recorder

namespace Run

variable {α β : Type}

/-! ## Results -/

theorem bind_apply (m : Run α) (f : α → Run β) (s : State) :
    (m >>= f) s = match m s with
      | .ok a s' => f a s'
      | .error e s' => .error e s' := by
  simp only [bind, EStateM.bind]
  cases m s <;> rfl

/-- The state in which a run that starts at `s` ends, whether or not it stopped early. -/
def final (m : Run α) (s : State) : State :=
  match m s with
  | .ok _ s' => s'
  | .error _ s' => s'

theorem final_of_ok {m : Run α} {a : α} {s s' : State} (h : m s = .ok a s') : final m s = s' := by
  rw [final, h]

theorem final_of_error {m : Run α} {e : Stop} {s s' : State} (h : m s = .error e s') :
    final m s = s' := by
  rw [final, h]

theorem final_bind_of_ok {m : Run α} {f : α → Run β} {a : α} {s t : State} (h : m s = .ok a t) :
    final (m >>= f) s = final (f a) t := by
  rw [final, final, bind_apply, h]

theorem final_bind_of_error {m : Run α} {f : α → Run β} {e : Stop} {s t : State}
    (h : m s = .error e t) : final (m >>= f) s = t := by
  rw [final, bind_apply, h]

/-- A run never takes back an evaluation of a loop condition. -/
def Counts (m : Run α) : Prop :=
  ∀ s, s.guards.toNat ≤ (final m s).guards.toNat

theorem Counts.of_ok {m : Run α} (h : Counts m) {a : α} {s s' : State} (hs : m s = .ok a s') :
    s.guards.toNat ≤ s'.guards.toNat := by
  have := h s
  rwa [final_of_ok hs] at this

theorem bind_eq_ok {m : Run α} {f : α → Run β} {b : β} {s s' : State}
    (h : (m >>= f) s = .ok b s') : ∃ a t, m s = .ok a t ∧ f a t = .ok b s' := by
  rw [bind_apply] at h
  cases hm : m s with
  | error e t => simp only [hm, reduceCtorEq] at h
  | ok a t =>
    simp only [hm] at h
    exact ⟨a, t, rfl, h⟩

theorem read_apply (name : String) (s : State) :
    Run.read name s = match s.stack.lookup name with
      | some b => .ok b.value s
      | none => .error (.fault (s.recorder.fault (.undefinedVariable name))) s := by
  rw [Run.read, bind_apply]
  change (match s.stack.lookup name with | some b => _ | none => _ : Run Value) s = _
  cases s.stack.lookup name <;> rfl

theorem write_apply (name : String) (value : Value) (s : State) :
    Run.write name value s = match s.stack.lookup name with
      | none => .error (.fault (s.recorder.fault (.undefinedVariable name))) s
      | some b =>
        if b.constant then .error (.fault (s.recorder.fault (.constantAssignment name))) s
        else .ok () { s with stack := (s.stack.assign? name value).getD s.stack } := by
  rw [Run.write, bind_apply]
  change (match s.stack.lookup name with | none => _ | some b => _ : Run Unit) s = _
  cases s.stack.lookup name with
  | none => rfl
  | some b =>
    dsimp only
    split <;> rfl

/-! A step on the containers gives the answer of one operation, and leaves the recorder as that
operation does. -/

theorem createSequence_apply (kind : SequenceKind) (name : String) (s : State) :
    Run.createSequence kind name s
      = .ok s.recorder.containers.size
          { s with recorder := s.recorder.perform (.createSequence kind name) } := rfl

theorem createArray_apply (name : String) (size : UInt64) (init : List Value) (s : State) :
    Run.createArray name size init s
      = ofStop (s.recorder.createArray name size init).1
          { s with recorder := s.recorder.perform (.createArray name size init) } := rfl

theorem callContainer_apply (id : Nat) (method : String) (args : List Value) (s : State) :
    Run.callContainer id method args s
      = ofFault (s.recorder.call id method args).1
          { s with recorder := s.recorder.perform (.call id method args) } := rfl

theorem getElement_apply (id : Nat) (index : Value) (s : State) :
    Run.getElement id index s
      = ofFault (s.recorder.getElement id index)
          { s with recorder := s.recorder.perform (.getElement id index) } := rfl

theorem setElement_apply (id : Nat) (index value : Value) (s : State) :
    Run.setElement id index value s
      = ofFault (s.recorder.setElement id index value).1
          { s with recorder := s.recorder.perform (.setElement id index value) } := rfl

theorem final_ofStop {m : Run α} {x : Except Stop α} {s t : State} (h : m s = ofStop x t) :
    final m s = t := by
  rw [final, h]
  cases x <;> rfl

/-! ## Primitive steps -/

/-- The steps that a run takes on names, containers, lines and the flow of control.  It may fail for
any cause but one: only a guard stops a run for its number of iterations. -/
inductive Primitive : {α : Type} → Run α → Prop
  | pure {α : Type} (a : α) : Primitive (pure a)
  | fail {α : Type} (cause : Cause) (h : cause.isIterations = false) :
      Primitive (Run.fail cause : Run α)
  | malformed {α : Type} (message : String) (column line : Nat) :
      Primitive (throw (.fault ⟨.malformed message column, line⟩) : Run α)
  | currentLine : Primitive Run.currentLine
  | setLine (line : SourceLine) : Primitive (Run.setLine line)
  | flow : Primitive Run.flow
  | setFlow (f : Flow) : Primitive (Run.setFlow f)
  | declare (name : String) (b : Binding) : Primitive (Run.declare name b)
  | read (name : String) : Primitive (Run.read name)
  | write (name : String) (value : Value) : Primitive (Run.write name value)
  | createSequence (kind : SequenceKind) (name : String) : Primitive (Run.createSequence kind name)
  | createArray (name : String) (size : UInt64) (init : List Value) :
      Primitive (Run.createArray name size init)
  | callContainer (id : Nat) (method : String) (args : List Value) :
      Primitive (Run.callContainer id method args)
  | getElement (id : Nat) (index : Value) : Primitive (Run.getElement id index)
  | setElement (id : Nat) (index value : Value) : Primitive (Run.setElement id index value)
  | arrayLength (id : Nat) : Primitive (Run.arrayLength id)

/-- What a step does that evaluates no loop condition: their number stays, and the log is only added
to.  If the step fails, then not for the number of iterations, and if it breaks down, then over an
array. -/
inductive Quiet (s : State) : EStateM.Result Stop State α → Prop
  | ok {a : α} {t : State} (guards : t.guards = s.guards)
      (log : s.recorder.log <+: t.recorder.log) : Quiet s (.ok a t)
  | fault {f : Fault} {t : State} (guards : t.guards = s.guards)
      (log : s.recorder.log <+: t.recorder.log) (cause : f.cause.isIterations = false) :
      Quiet s (.error (.fault f) t)
  | crash {t : State} (guards : t.guards = s.guards) (log : s.recorder.log <+: t.recorder.log)
      (last : t.recorder.log.Oversized) : Quiet s (.error (.crash .capacity) t)

/-- **Primitive steps are quiet.** -/
theorem Primitive.quiet {m : Run α} (h : Primitive m) (s : State) : Quiet s (m s) := by
  cases h with
  | pure a => exact .ok rfl List.prefix_rfl
  | fail cause hcause => exact .fault rfl List.prefix_rfl hcause
  | malformed message column line => exact .fault rfl List.prefix_rfl rfl
  | currentLine => exact .ok rfl List.prefix_rfl
  | setLine line => exact .ok rfl List.prefix_rfl
  | flow => exact .ok rfl List.prefix_rfl
  | setFlow f => exact .ok rfl List.prefix_rfl
  | declare name b => exact .ok rfl List.prefix_rfl
  | read name =>
    rw [read_apply]
    split
    · exact .ok rfl List.prefix_rfl
    · exact .fault rfl List.prefix_rfl rfl
  | write name value =>
    rw [write_apply]
    split
    · exact .fault rfl List.prefix_rfl rfl
    · split
      · exact .fault rfl List.prefix_rfl rfl
      · exact .ok rfl List.prefix_rfl
  | createSequence kind name => exact .ok rfl List.prefix_rfl
  | createArray name size init =>
    obtain ⟨hlog, hends⟩ := s.recorder.createArray_ends name size init
    rw [createArray_apply, Recorder.perform]
    generalize s.recorder.createArray name size init = answer at hlog hends
    obtain ⟨result, r⟩ := answer
    cases hends with
    | ok id => exact .ok rfl hlog
    | fault h => exact .fault rfl hlog (Cause.isIterations_of_isLocal h)
    | crash h => exact .crash rfl hlog h
  | callContainer id method args =>
    have hlog := s.recorder.log_call id method args
    rw [callContainer_apply, Recorder.perform]
    cases hcall : s.recorder.call id method args with
    | mk result r =>
      rw [hcall] at hlog
      cases result with
      | ok value => exact .ok rfl hlog
      | error f => exact .fault rfl hlog (Recorder.call_eq_error hcall).isIterations
  | getElement id index =>
    rw [getElement_apply]
    cases hr : s.recorder.getElement id index with
    | ok v => exact .ok rfl List.prefix_rfl
    | error f => exact .fault rfl List.prefix_rfl (Recorder.getElement_eq_error hr).isIterations
  | setElement id index value =>
    have hlog := s.recorder.log_setElement id index value
    rw [setElement_apply, Recorder.perform]
    cases hset : s.recorder.setElement id index value with
    | mk result r =>
      rw [hset] at hlog
      cases result with
      | ok _ => exact .ok rfl hlog
      | error f => exact .fault rfl hlog (Recorder.setElement_eq_error hset).isIterations
  | arrayLength id => exact .ok rfl List.prefix_rfl

end Run

end Stepwise
