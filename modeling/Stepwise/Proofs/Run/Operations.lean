import Stepwise.Proofs.Run.Cuts

/-!
# What a run does to its recorder

A run evaluates expressions, opens scopes and calls functions, but all that it can do to its
recorder is what can be asked of one: mark a line, create a container, call a method, write an
element.  So whatever holds of a recorder after any operations holds of the recorder of any run, and
of the log of any trace.

* `Run.Drives` says that a run leaves its recorder as some operations would.
* `Run.Primitive.drives` finds the operation of each primitive step, and `drives_law` says that
  nothing else is added by sequence, scope, call or loop.
* `Program.exists_operations` concludes for programs.
-/

set_option autoImplicit false

namespace Stepwise

open Recorder (Operation)

namespace Run

variable {α β : Type}

/-- From whatever state it starts, all that a run does to its recorder is to perform operations. -/
def Drives (m : Run α) : Prop :=
  ∀ s, ∃ ops : List Operation, (final m s).recorder = s.recorder.performAll ops

theorem drives_of_eq {m : Run α} (h : ∀ s, (final m s).recorder = s.recorder) : Drives m :=
  fun s => ⟨[], h s⟩

theorem drives_of_perform {m : Run α} (op : Operation)
    (h : ∀ s, (final m s).recorder = s.recorder.perform op) : Drives m :=
  fun s => ⟨[op], h s⟩

theorem drives_of_answer {m : Run α} (op : Operation) {answer : State → Except Stop α}
    (h : ∀ s, m s = ofStop (answer s) { s with recorder := s.recorder.perform op }) : Drives m :=
  drives_of_perform op fun s => by rw [final_ofStop (h s)]

/-! ## Primitive steps -/

theorem recorder_read (name : String) (s : State) :
    (final (Run.read name) s).recorder = s.recorder := by
  rw [final, read_apply]
  cases s.stack.lookup name <;> rfl

theorem recorder_write (name : String) (value : Value) (s : State) :
    (final (Run.write name value) s).recorder = s.recorder := by
  rw [final, write_apply]
  cases s.stack.lookup name with
  | none => rfl
  | some b =>
    dsimp only
    cases b.constant <;> rfl

/-- **A primitive step is one operation on the recorder, or none.** -/
theorem Primitive.drives {m : Run α} (h : Primitive m) : Drives m := by
  cases h with
  | pure a => exact drives_of_eq fun _ => rfl
  | fail cause _ => exact drives_of_eq fun _ => rfl
  | malformed message column line => exact drives_of_eq fun _ => rfl
  | currentLine => exact drives_of_eq fun _ => rfl
  | setLine line => exact drives_of_perform (.setLine line) fun _ => rfl
  | flow => exact drives_of_eq fun _ => rfl
  | setFlow f => exact drives_of_eq fun _ => rfl
  | declare name b => exact drives_of_eq fun _ => rfl
  | read name => exact drives_of_eq (recorder_read name)
  | write name value => exact drives_of_eq (recorder_write name value)
  | createSequence kind name =>
    exact drives_of_perform (.createSequence kind name) fun _ => rfl
  | createArray name size init =>
    exact drives_of_answer (.createArray name size init) (createArray_apply name size init)
  | callContainer id method args =>
    exact drives_of_answer (.call id method args) (callContainer_apply id method args)
  | getElement id index => exact drives_of_answer (.getElement id index) (getElement_apply id index)
  | setElement id index value =>
    exact drives_of_answer (.setElement id index value) (setElement_apply id index value)
  | arrayLength id => exact drives_of_eq fun _ => rfl

/-! ## Programs -/

theorem Drives.bind {m : Run α} {f : α → Run β} (hm : Drives m) (hf : ∀ a, Drives (f a)) :
    Drives (m >>= f) := by
  intro s
  obtain ⟨ops, hops⟩ := hm s
  cases hs : m s with
  | error e t =>
    refine ⟨ops, ?_⟩
    have hbind : (m >>= f) s = .error e t := by rw [bind_apply, hs]
    rw [← hops, final_of_error hs, final_of_error hbind]
  | ok a t =>
    obtain ⟨ops', hops'⟩ := hf a t
    refine ⟨ops ++ ops', ?_⟩
    rw [final_of_ok hs] at hops
    rw [final_bind_of_ok hs, hops', hops, Recorder.performAll_append]

theorem Drives.bracket {m : Run α} (h : Drives m) (enter leave : CallStack → CallStack)
    (settle : Flow → Flow) : Drives (bracket enter leave settle m) := by
  intro s
  obtain ⟨ops, hops⟩ := h { s with stack := enter s.stack }
  refine ⟨ops, ?_⟩
  rw [final_bracket]
  exact hops

theorem Drives.inCall {m : Run Unit} (h : Drives m) (function : String) :
    Drives (inCall function m) := by
  rw [inCall_eq_bracket]
  exact (h.bind fun _ => Primitive.flow.drives).bracket _ _ _

theorem drives_iterate {turn : Run Bool} (h : Drives turn) : ∀ turns, Drives (iterate turn turns)
  | 0 => drives_of_eq fun _ => rfl
  | turns + 1 => by
    refine h.bind fun again => ?_
    cases again with
    | false => exact (Primitive.pure ()).drives
    | true => exact drives_iterate h turns

theorem drives_countGuard (settings : Settings) : Drives (countGuard settings) := by
  refine drives_of_eq fun s => ?_
  obtain ⟨guards, hfinal⟩ := final_countGuard settings s
  rw [hfinal]

/-- Driving a recorder by operations is kept by all that runs are put together with. -/
theorem drives_law (x : Horizon) : Law .any x Drives where
  evalStep h := h.primitive.drives
  execStep h := h.primitive.drives
  countGuard := drives_countGuard x
  bind := Drives.bind
  inScope h := by
    rw [inScope_eq_bracket]
    exact h.bracket _ _ _
  counts hV := hV.elim
  loop h _ := drives_iterate h x.turns

theorem drives_callee (p : Program) (x : Horizon) (depth : Nat) (name : String)
    (args : List Value) : Drives (p.callee x depth name args) :=
  (drives_law x).callee (fun _ => (Primitive.fail _ rfl).drives) (fun _ => trivial)
    (fun function h => h.inCall function) (fun _ _ => Stmt.allWithin_any _) depth name args

theorem drives_exec (p : Program) (x : Horizon) : Drives (p.exec x) :=
  (drives_law x).program (fun _ => (Primitive.fail _ rfl).drives) (Stmt.allWithin_any _)
    (drives_callee p x x.callDepth.toNat)

end Run

open Run

/-- **A run records by operations.**  Its log is that of a recorder on which some operations have
been performed. -/
theorem Program.exists_operations (p : Program) (x : Horizon) :
    ∃ ops : List Operation, (p.executeWithin x).log
      = (({ suppress := x.suppressEmptyRemovals } : Recorder).performAll ops).log := by
  obtain ⟨ops, hops⟩ := drives_exec p x (State.initial x)
  refine ⟨ops, ?_⟩
  rw [log_executeWithin, finalState, hops]
  rfl

end Stepwise
