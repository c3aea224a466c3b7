import Stepwise.Proofs.Recorder.Alike
import Stepwise.Proofs.Run.Scopes
import Stepwise.Proofs.Run.Ending

/-!
# Two runs side by side

Two runs of one program that start in related states often do the same, step by step, and stay
related.  What has to be shown for that differs from relation to relation only in the primitive
steps; sequences and loops add nothing of their own.

* `Run.EndsAlike P` compares the ends of two runs: the same result, or the same reason to stop, in
  states that are related by `P`.
* A `Run.Tie` is a relation between two states together with a relation between what became of them.
* `Run.Together T m n` says that `m` and `n` run side by side under the tie `T`.
* `Run.recording S` is the tie of runs that perform the same operations on alike recorders, with
  call stacks that are related by `S`.  If names stand for the same in related stacks and the
  relation is kept by what runs do to them (`CallStack.Agreement`), then all runs stay together
  under it (`Run.recording_congruence`).
-/

set_option autoImplicit false

namespace Stepwise
namespace Run

variable {α β : Type}

/-- Two runs end with the same result, or stop for the same reason, in states related by `P`. -/
inductive EndsAlike (P : State → State → Prop) :
    EStateM.Result Stop State α → EStateM.Result Stop State α → Prop
  | ok (a : α) {s t : State} (h : P s t) : EndsAlike P (.ok a s) (.ok a t)
  | error (e : Stop) {s t : State} (h : P s t) : EndsAlike P (.error e s) (.error e t)

theorem EndsAlike.imp {P Q : State → State → Prop} {r r' : EStateM.Result Stop State α}
    (h : EndsAlike P r r') (hPQ : ∀ s t, P s t → Q s t) : EndsAlike Q r r' := by
  cases h with
  | ok a h => exact .ok a (hPQ _ _ h)
  | error e h => exact .error e (hPQ _ _ h)

/-- Runs that end alike go on alike. -/
theorem EndsAlike.bind {P Q : State → State → Prop} {m n : Run α} {f g : α → Run β} {s t : State}
    (h : EndsAlike P (m s) (n t))
    (hfg : ∀ a s' t', m s = .ok a s' → P s' t' → EndsAlike Q (f a s') (g a t'))
    (hstop : ∀ s' t', P s' t' → Q s' t') : EndsAlike Q ((m >>= f) s) ((n >>= g) t) := by
  rw [bind_apply, bind_apply]
  generalize m s = r at h hfg
  generalize n t = r' at h
  cases h with
  | ok a h => exact hfg a _ _ rfl h
  | error e h => exact .error e (hstop _ _ h)

/-- Runs between changes of the call stack end alike if what is between them does. -/
theorem EndsAlike.bracket {P : State → State → Prop} {m n : Run α}
    {enter leave : CallStack → CallStack} {settle : Flow → Flow} {s t : State}
    (h : EndsAlike (fun s' t' =>
        P { s' with stack := leave s'.stack, flow := settle s'.flow }
          { t' with stack := leave t'.stack, flow := settle t'.flow })
      (m { s with stack := enter s.stack }) (n { t with stack := enter t.stack })) :
    EndsAlike P (bracket enter leave settle m s) (bracket enter leave settle n t) := by
  rw [Run.bracket, Run.bracket]
  generalize m { s with stack := enter s.stack } = r at h
  generalize n { t with stack := enter t.stack } = r' at h
  cases h with
  | ok a h => exact .ok a h
  | error e h => exact .error e h

theorem EndsAlike.final {P : State → State → Prop} {m n : Run α} {s t : State}
    (h : EndsAlike P (m s) (n t)) : P (final m s) (final n t) := by
  rw [Run.final, Run.final]
  generalize m s = r at h
  generalize n t = r' at h
  cases h with
  | ok a h => exact h
  | error e h => exact h

/-- What holds two runs together.  They stand on the same line, have made as many evaluations of
loop conditions and are about to go the same way, so that they stop alike. -/
structure Tie where
  /-- The states at which the runs may stand. -/
  before : State → State → Prop
  /-- The states to which they may have come from there. -/
  after : State → State → State → State → Prop
  line : ∀ {s t}, before s t → s.recorder.line = t.recorder.line
  guards : ∀ {s t}, before s t → s.guards = t.guards
  flow : ∀ {s t}, before s t → s.flow = t.flow
  refl : ∀ {s t}, before s t → after s t s t
  trans : ∀ {s t s' t' s'' t''}, after s t s' t' → after s' t' s'' t'' → after s t s'' t''
  next : ∀ {s t s' t'}, before s t → after s t s' t' → before s' t'
  count : ∀ {s t}, before s t → ∀ guards, after s t { s with guards } { t with guards }
  direct : ∀ {s t}, before s t → ∀ flow, after s t { s with flow } { t with flow }

/-- The runs do the same from all states that are tied, and their states stay tied. -/
def Together (T : Tie) (m n : Run α) : Prop :=
  ∀ s t, T.before s t → EndsAlike (T.after s t) (m s) (n t)

variable {T : Tie}

theorem together_pure (a : α) : Together T (pure a) (pure a) :=
  fun _ _ h => .ok a (T.refl h)

theorem together_fail (cause : Cause) : Together T (fail cause : Run α) (fail cause) := by
  intro s t h
  have hfault : s.recorder.fault cause = t.recorder.fault cause := by
    rw [Recorder.fault, Recorder.fault, T.line h]
  change EndsAlike _ (.error (.fault (s.recorder.fault cause)) s)
    (.error (.fault (t.recorder.fault cause)) t)
  rw [hfault]
  exact .error _ (T.refl h)

theorem together_malformed (message : String) (column line : Nat) :
    Together T (throw (.fault ⟨.malformed message column, line⟩) : Run α)
      (throw (.fault ⟨.malformed message column, line⟩)) :=
  fun _ _ h => .error _ (T.refl h)

theorem together_currentLine :
    Together T currentLine currentLine := by
  intro s t h
  change EndsAlike _ (.ok s.recorder.line s) (.ok t.recorder.line t)
  rw [T.line h]
  exact .ok _ (T.refl h)

theorem together_flow : Together T flow flow := by
  intro s t h
  change EndsAlike _ (.ok s.flow s) (.ok t.flow t)
  rw [T.flow h]
  exact .ok _ (T.refl h)

theorem together_setFlow (f : Flow) : Together T (setFlow f) (setFlow f) :=
  fun _ _ h => .ok () (T.direct h f)

theorem Together.bind {m n : Run α} {f g : α → Run β} (hmn : Together T m n)
    (hfg : ∀ a, Together T (f a) (g a)) : Together T (m >>= f) (n >>= g) := by
  intro s t h
  refine (hmn s t h).bind (fun a s' t' _ hafter => ?_) (fun _ _ hafter => hafter)
  exact (hfg a s' t' (T.next h hafter)).imp fun _ _ hafter' => T.trans hafter hafter'

/-- Runs between the same changes of the call stack, if these keep the states tied. -/
theorem Together.bracket {m n : Run α} {enter leave : CallStack → CallStack}
    {settle : Flow → Flow} (hmn : Together T m n)
    (henter : ∀ s t, T.before s t →
      T.before { s with stack := enter s.stack } { t with stack := enter t.stack })
    (hleave : ∀ s t s' t', T.before s t →
      T.after { s with stack := enter s.stack } { t with stack := enter t.stack } s' t' →
      T.after s t { s' with stack := leave s'.stack, flow := settle s'.flow }
        { t' with stack := leave t'.stack, flow := settle t'.flow }) :
    Together T (bracket enter leave settle m) (bracket enter leave settle n) := by
  intro s t h
  exact EndsAlike.bracket ((hmn _ _ (henter s t h)).imp fun s' t' => hleave s t s' t' h)

variable {A B : Horizon}

theorem together_countGuard (hAB : A.iterations = B.iterations) :
    Together T (countGuard A) (countGuard B) := by
  intro s t h
  have hcount := T.count h (s.guards + 1)
  have hfault : s.recorder.fault (.iterations A.iterations)
      = t.recorder.fault (.iterations B.iterations) := by
    rw [Recorder.fault, Recorder.fault, T.line h, hAB]
  rw [countGuard_apply, countGuard_apply, hfault, hAB, ← T.guards h]
  split
  · exact .error _ (T.refl h)
  · split
    · exact .error _ hcount
    · exact .ok () hcount

/-- Loops that are followed for as many turns take them side by side. -/
theorem Together.iterate {turn turn' : Run Bool} (h : Together T turn turn') :
    ∀ turns, Together T (iterate turn turns) (iterate turn' turns)
  | 0 => fun _ _ hst => .error .unfinished (T.refl hst)
  | turns + 1 => by
    refine h.bind fun again => ?_
    cases again with
    | false => exact together_pure ()
    | true => exact Together.iterate h turns

end Run

/-! ## Runs on alike recorders -/

namespace CallStack

/-- Related stacks in which the names of `N` stand for the same, by a relation that is kept by what
runs of statements do to their stacks. -/
structure Agreement (N : String → Prop) (S : CallStack → CallStack → Prop) : Prop where
  lookup {a b : CallStack} (h : S a b) {name : String} (hn : N name) :
    a.lookup name = b.lookup name
  declare {a b : CallStack} (h : S a b) (name : String) (v : Binding) :
    S (a.declare name v) (b.declare name v)
  assign {a b : CallStack} (h : S a b) {name : String} (hn : N name) (value : Value) :
    S ((a.assign? name value).getD a) ((b.assign? name value).getD b)
  pushScope {a b : CallStack} (h : S a b) : S a.pushScope b.pushScope
  /-- A scope is left in what has become of a stack with this scope entered. -/
  popScope {a b a' b' : CallStack} (h : S a b) (h' : S a' b') (hgrows : a.pushScope.Grows a') :
    S a'.popScope b'.popScope

/-- Stacks that are related by `S` before and after a call are related by `S'` within it. -/
structure Surrounds (S S' : CallStack → CallStack → Prop) : Prop where
  pushFrame {a b : CallStack} (h : S a b) (function : String) :
    S' (a.pushFrame function) (b.pushFrame function)
  popFrame {a b a' b' : CallStack} {function : String} (h : S a b) (h' : S' a' b')
    (hgrows : (a.pushFrame function).Grows a') : S a'.popFrame b'.popFrame

theorem agreement_eq (N : String → Prop) : Agreement N Eq where
  lookup h _ _ := by rw [h]
  declare h _ _ := by rw [h]
  assign h _ _ _ := by rw [h]
  pushScope h := by rw [h]
  popScope _ h _ := by rw [h]

theorem surrounds_eq : Surrounds Eq Eq where
  pushFrame h _ := by rw [h]
  popFrame _ h _ := by rw [h]

end CallStack

namespace Run

open Recorder (Operation)

variable {α : Type} {S : CallStack → CallStack → Prop}

/-- Two runs may stand on alike recorders, with related call stacks. -/
structure Abreast (S : CallStack → CallStack → Prop) (s t : State) : Prop where
  recorder : s.recorder.Alike t.recorder
  stack : S s.stack t.stack
  guards : s.guards = t.guards
  flow : s.flow = t.flow

/-- Two runs have come from `s` and `t` to `s'` and `t'` by the same operations. -/
structure Advanced (S : CallStack → CallStack → Prop) (s t s' t' : State) : Prop where
  operations : ∃ ops : List Operation, s'.recorder = s.recorder.performAll ops ∧
    t'.recorder = t.recorder.performAll ops
  stack : S s'.stack t'.stack
  grows : s.stack.Grows s'.stack
  guards : s'.guards = t'.guards
  flow : s'.flow = t'.flow

/-- Runs that perform the same operations on alike recorders, with related call stacks. -/
def recording (S : CallStack → CallStack → Prop) : Tie where
  before := Abreast S
  after := Advanced S
  line h := h.recorder.line
  guards h := h.guards
  flow h := h.flow
  refl h := ⟨⟨[], rfl, rfl⟩, h.stack, .refl _, h.guards, h.flow⟩
  trans := by
    intro s t s' t' s'' t'' h h'
    obtain ⟨ops, hs, ht⟩ := h.operations
    obtain ⟨ops', hs', ht'⟩ := h'.operations
    refine ⟨⟨ops ++ ops', ?_, ?_⟩, h'.stack, h.grows.trans h'.grows, h'.guards, h'.flow⟩
    · rw [hs', hs, Recorder.performAll_append]
    · rw [ht', ht, Recorder.performAll_append]
  next := by
    intro s t s' t' h h'
    obtain ⟨ops, hs, ht⟩ := h'.operations
    refine ⟨?_, h'.stack, h'.guards, h'.flow⟩
    rw [hs, ht]
    exact h.recorder.performAll ops
  count h _ := ⟨⟨[], rfl, rfl⟩, h.stack, .refl _, rfl, h.flow⟩
  direct h _ := ⟨⟨[], rfl, rfl⟩, h.stack, .refl _, h.guards, rfl⟩

/-- A step that performs an operation, with an answer that is the same for alike recorders. -/
theorem together_answer {m : Run α} (op : Operation) (answer : Recorder → Except Stop α)
    (hm : ∀ s, m s = ofStop (answer s.recorder) { s with recorder := s.recorder.perform op })
    (hanswer : ∀ {r r' : Recorder}, r.Alike r' → answer r = answer r') :
    Together (recording S) m m := by
  intro s t h
  rw [hm, hm, hanswer h.recorder]
  have hafter : Advanced S s t { s with recorder := s.recorder.perform op }
      { t with recorder := t.recorder.perform op } :=
    ⟨⟨[op], rfl, rfl⟩, h.stack, .refl _, h.guards, h.flow⟩
  cases answer t.recorder with
  | ok a => exact .ok a hafter
  | error e => exact .error e hafter

theorem together_setLine (line : SourceLine) :
    Together (recording S) (Run.setLine line) (Run.setLine line) :=
  fun _ _ h => .ok () ⟨⟨[.setLine line], rfl, rfl⟩, h.stack, .refl _, h.guards, h.flow⟩

variable {V : Vocabulary} (hS : CallStack.Agreement V.names S)
include hS

theorem together_write {name : String} (hn : V.names name) (value : Value) :
    Together (recording S) (Run.write name value) (Run.write name value) := by
  intro s t h
  have hrefl := (recording S).refl h
  rw [write_apply, write_apply, hS.lookup h.stack hn]
  cases t.stack.lookup name with
  | none =>
    rw [h.recorder.fault]
    exact .error _ hrefl
  | some b =>
    dsimp only
    split
    · rw [h.recorder.fault]
      exact .error _ hrefl
    · exact .ok () ⟨⟨[], rfl, rfl⟩, hS.assign h.stack hn value, .assign _ name value, h.guards,
        h.flow⟩

theorem together_read {name : String} (hn : V.names name) :
    Together (recording S) (Run.read name) (Run.read name) := by
  intro s t h
  have hrefl := (recording S).refl h
  rw [read_apply, read_apply, hS.lookup h.stack hn]
  cases t.stack.lookup name with
  | none =>
    rw [h.recorder.fault]
    exact .error _ hrefl
  | some b => exact .ok _ hrefl

/-- **The steps of expressions run side by side.** -/
theorem together_evalStep {m : Run α} (hm : EvalStep V m) : Together (recording S) m m := by
  cases hm with
  | pure a => exact together_pure a
  | fail cause h => exact together_fail cause
  | read name hn => exact together_read hS hn
  | write name value hn => exact together_write hS hn value
  | callContainer id method args =>
    exact together_answer (.call id method args)
      (fun r => (r.call id method args).1.mapError Stop.fault)
      (callContainer_apply id method args) fun h => by rw [h.call_answer]
  | getElement id index =>
    exact together_answer (.getElement id index)
      (fun r => (r.getElement id index).mapError Stop.fault)
      (getElement_apply id index) fun h => by rw [h.getElement]
  | setElement id index value =>
    exact together_answer (.setElement id index value)
      (fun r => (r.setElement id index value).1.mapError Stop.fault)
      (setElement_apply id index value) fun h => by rw [h.setElement_answer]
  | arrayLength id =>
    intro s t h
    change EndsAlike _ (.ok (s.recorder.arrayLength? id) s) (.ok (t.recorder.arrayLength? id) t)
    rw [h.recorder.arrayLength?]
    exact .ok _ ((recording S).refl h)

/-- **So do those of statements.** -/
theorem together_execStep {m : Run α} (hm : ExecStep V m) : Together (recording S) m m := by
  cases hm with
  | malformed message column line => exact together_malformed message column line
  | currentLine => exact together_currentLine
  | setLine line hline => exact together_setLine line
  | flow => exact together_flow
  | setFlow f => exact together_setFlow f
  | declare name b =>
    exact fun s t h => .ok () ⟨⟨[], rfl, rfl⟩, hS.declare h.stack name b, .declare _ name b,
      h.guards, h.flow⟩
  | createSequence kind name =>
    exact together_answer (.createSequence kind name) (fun r => .ok r.containers.size)
      (createSequence_apply kind name) fun h => by rw [h.containers]
  | createArray name size init =>
    exact together_answer (.createArray name size init) (fun r => (r.createArray name size init).1)
      (createArray_apply name size init) fun h => (h.createArray name size init).1

theorem together_inScope {m n : Run α} (h : Together (recording S) m n) :
    Together (recording S) (inScope m) (inScope n) := by
  rw [inScope_eq_bracket, inScope_eq_bracket]
  refine h.bracket
    (fun s t hst => ⟨hst.recorder, hS.pushScope hst.stack, hst.guards, hst.flow⟩) ?_
  intro s t s' t' hst hafter
  exact ⟨hafter.operations, hS.popScope hst.stack hafter.stack hafter.grows, hafter.grows.scope,
    hafter.guards, hafter.flow⟩

variable {A B : Horizon} (hi : A.iterations = B.iterations) (ht : A.turns = B.turns)
include hi ht

/-- **Runs on alike recorders stay together.** -/
theorem recording_congruence (hV : ¬V.counted) :
    CongruenceOn V A B (fun m n => Together (recording S) m n) where
  evalStep := together_evalStep hS
  execStep := together_execStep hS
  countGuard := together_countGuard hi
  bind h hfg := h.bind hfg
  inScope := together_inScope hS
  counts hcounted := absurd hcounted hV
  loop h _ := by
    rw [ht]
    exact h.iterate B.turns

omit hS hi ht in
/-- A call, given that the runs within its frame stay together. -/
theorem together_inCall {S' : CallStack → CallStack → Prop} (hSS' : CallStack.Surrounds S S')
    {m n : Run Unit} (function : String) (h : Together (recording S') m n) :
    Together (recording S) (inCall function m) (inCall function n) := by
  rw [inCall_eq_bracket, inCall_eq_bracket]
  intro s t hst
  have hentered : Abreast S' { s with stack := s.stack.pushFrame function }
      { t with stack := t.stack.pushFrame function } :=
    ⟨hst.recorder, hSS'.pushFrame hst.stack function, hst.guards, hst.flow⟩
  have hbody := h.bind (f := fun _ => flow) (g := fun _ => flow) fun _ => together_flow
  refine EndsAlike.bracket ((hbody _ _ hentered).imp ?_)
  intro s' t' hafter
  exact ⟨hafter.operations, hSS'.popFrame hst.stack hafter.stack hafter.grows, hafter.grows.call,
    hafter.guards, rfl⟩

theorem together_callee (hSS : CallStack.Surrounds S S) (hV : ¬V.counted)
    (hlines : ∀ l, V.lines l) (hdepth : A.callDepth = B.callDepth) {p : Program}
    (hp : ∀ f ∈ p.functions, Stmt.AllWithin V f.body) (depth : Nat) (name : String)
    (args : List Value) :
    Together (recording S) (p.callee A depth name args) (p.callee B depth name args) := by
  have hzero : ∀ name args, Together (recording S) (p.callee A 0 name args)
      (p.callee B 0 name args) := by
    intro name args
    rw [Program.callee_zero, Program.callee_zero, hdepth]
    split
    · exact together_fail _
    · exact together_fail _
  have h := (recording_congruence hS hi ht hV).callee (fun _ => together_fail _) hlines
    (together_inCall hSS) hp 0 hzero depth name args
  rwa [Nat.zero_add] at h

omit hS hi ht in
/-- The calls of a program run side by side with themselves. -/
theorem together_self (p : Program) (x : Horizon) (depth : Nat) (name : String)
    (args : List Value) :
    Together (recording Eq) (p.callee x depth name args) (p.callee x depth name args) :=
  together_callee (CallStack.agreement_eq Vocabulary.any.names) rfl rfl CallStack.surrounds_eq id
    (fun _ => trivial) rfl (fun f _ => Stmt.allWithin_any f.body) depth name args

end Run
end Stepwise
