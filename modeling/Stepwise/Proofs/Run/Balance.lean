import Stepwise.Proofs.Run.Lockstep
import Stepwise.Proofs.Run.Steady

/-!
# What is left as it was

A run enters scopes and calls and leaves them again, whether it comes to its end, is cut short by a
jump or a return, or stops with a fault.  This file says what is the same afterwards.

* `CallStack.heights` are the numbers of open scopes, frame by frame, and a stack that has grown has
  the same (`CallStack.Grows.heights`).  Every run makes its stack grow (`Run.grows_exec` and its
  companions), as it does when it runs side by side with itself.
* What an expression leaves alone besides, the line and the flow of control, is shown for all
  expressions and calls in another place (`Run.keepsLine_eval`, `Run.fallsThrough_eval`).
* `Run.Preserves` is the law of an invariant.  What is run within a call preserves `Confined`: the
  frames of the callers are as they were, and at the top level only names that are not constant
  have been assigned to.
* `Program.balanced` puts this together.
-/

set_option autoImplicit false

namespace Stepwise

/-! ## Open scopes -/

namespace CallStack

/-- The numbers of open scopes of all frames, the current one first and the top level last. -/
def heights (s : CallStack) : List Nat :=
  (s.calls ++ [s.globals]).map fun f => f.scopes.length

theorem Grows.heights {a b : CallStack} (h : a.Grows b) : b.heights = a.heights := by
  obtain ⟨globals, calls⟩ := a
  obtain ⟨globals', calls'⟩ := b
  obtain ⟨hglobals, hcurrent, hcallers, hdepth⟩ := h
  cases calls with
  | nil =>
    obtain rfl := List.length_eq_zero_iff.1 hdepth
    exact congrArg (fun n => [n]) hglobals.height
  | cons own callers =>
    cases calls' with
    | nil => cases hdepth
    | cons own' callers' =>
      cases hcallers
      simp only [CallStack.heights, List.cons_append, List.map_cons, List.map_append, List.map_nil,
        hglobals.height]
      rw [show own'.scopes.length = own.scopes.length from hcurrent.height]

end CallStack

namespace Run

variable {α β : Type}

/-- A run that runs side by side with itself makes its stack grow. -/
theorem grows_of_together {m : Run α} (h : Together (recording Eq) m m) (s : State) :
    s.stack.Grows (final m s).stack :=
  (h s s ⟨⟨rfl, rfl⟩, rfl, rfl, rfl⟩).final.grows

section

variable (p : Program) (x : Horizon) (depth : Nat)

/-- All runs of a program stay together with themselves. -/
theorem recording_self : CongruenceOn .any x x (fun m n => Together (recording Eq) m n) :=
  recording_congruence (CallStack.agreement_eq Vocabulary.any.names) rfl rfl id

theorem grows_eval (e : Expr) (s : State) :
    s.stack.Grows (final (e.eval x (p.callee x depth)) s).stack :=
  grows_of_together ((recording_self x).eval (fun name _ => together_self p x depth name) e
    fun m _ => Vocabulary.any_has m) s

theorem grows_execAll (stmts : List Stmt) (s : State) :
    s.stack.Grows (final (Stmt.execAll x (p.callee x depth) stmts) s).stack :=
  grows_of_together ((recording_self x).execAll (fun name _ => together_self p x depth name) stmts
    (Stmt.allWithin_any stmts)) s

theorem grows_exec (stmt : Stmt) (s : State) :
    s.stack.Grows (final (stmt.exec x (p.callee x depth)) s).stack :=
  grows_of_together ((recording_self x).exec (fun name _ => together_self p x depth name) stmt
    ⟨fun m _ => Vocabulary.any_has m, fun _ _ => trivial, False.elim⟩) s

end

end Run

/-! ## The frames of callers -/

/-- The frame has come from `f` by assignments to names that are not constant. -/
structure Frame.Reassigned (f g : Frame) : Prop where
  function : g.function = f.function
  scopes : g.scopes = f.scopes
  names : ∀ name, (g.get? name).map Binding.constant = (f.get? name).map Binding.constant
  constants : ∀ {name b}, f.get? name = some b → b.constant = true → g.get? name = some b

namespace Frame.Reassigned

variable {f g h : Frame}

theorem refl (f : Frame) : f.Reassigned f :=
  ⟨rfl, rfl, fun _ => rfl, fun hb _ => hb⟩

theorem trans (hfg : f.Reassigned g) (hgh : g.Reassigned h) : f.Reassigned h where
  function := hgh.function.trans hfg.function
  scopes := hgh.scopes.trans hfg.scopes
  names name := (hgh.names name).trans (hfg.names name)
  constants hb hconstant := hgh.constants (hfg.constants hb hconstant) hconstant

theorem assign {name : String} {value : Value} (hg : f.assign? name value = some g) {b : Binding}
    (hb : f.get? name = some b) (hconstant : b.constant = false) : f.Reassigned g := by
  obtain ⟨hscopes, b', hb', hget⟩ := assign?_eq_some hg
  obtain rfl : b' = b := Option.some_inj.1 (hb'.symm.trans hb)
  refine ⟨?_, hscopes, fun other => ?_, fun {other c} hc hconstant' => ?_⟩
  · rw [Frame.assign?, Option.map_eq_some_iff] at hg
    obtain ⟨_, -, rfl⟩ := hg
    rfl
  · rw [hget]
    grind
  · rw [hget]
    grind

end Frame.Reassigned

namespace Run

variable {α β : Type}

/-- The run preserves an invariant, whether or not it stops early. -/
def Preserves (I : State → Prop) (m : Run α) : Prop :=
  ∀ s, I s → I (final m s)

/-- The state of a run within a call: the frames of the callers are `callers`, and at the top level
names have at most been assigned to. -/
def Confined (callers : List Frame) (globals : Frame) (s : State) : Prop :=
  (∃ own, s.stack.calls = own :: callers) ∧ globals.Reassigned s.stack.globals

variable {callers : List Frame} {globals : Frame}

theorem preserves_of_eq {m : Run α} (h : ∀ s, (final m s).stack = s.stack) :
    Preserves (Confined callers globals) m := by
  intro s hs
  rw [Confined, h]
  exact hs

theorem Confined.setCurrent {s : State} (h : Confined callers globals s) (f : Frame) :
    Confined callers globals { s with stack := s.stack.setCurrent f } := by
  obtain ⟨⟨own, hcalls⟩, hglobals⟩ := h
  rw [Confined, CallStack.setCurrent, hcalls]
  exact ⟨⟨f, rfl⟩, hglobals⟩

/-- An assignment goes to the frame of the call, or to a name of the top level. -/
theorem Confined.assign {s : State} (h : Confined callers globals s) {name : String} {b : Binding}
    (value : Value) (hb : s.stack.lookup name = some b) (hconstant : b.constant = false) :
    Confined callers globals
      { s with stack := (s.stack.assign? name value).getD s.stack } := by
  rw [CallStack.assign?]
  cases hown : s.stack.current.assign? name value with
  | some f => exact h.setCurrent f
  | none =>
    -- The name is not known in the frame of the call, so it is looked up at the top level.
    rw [Frame.assign?_eq_none] at hown
    rw [CallStack.lookup, hown, Option.none_or] at hb
    cases hglobal : s.stack.globals.assign? name value with
    | none => exact h
    | some g => exact ⟨h.1, h.2.trans (.assign hglobal hb hconstant)⟩

theorem EvalStep.confined {V : Vocabulary} {m : Run α} (h : EvalStep V m) :
    Preserves (Confined callers globals) m := by
  intro s hs
  have heffect := h.effect s
  generalize final m s = t at heffect
  cases heffect with
  | none => exact hs
  | perform op hop => exact hs
  | assign value hb hconstant => exact hs.assign value hb hconstant

theorem ExecStep.confined {V : Vocabulary} {m : Run α} (h : ExecStep V m) :
    Preserves (Confined callers globals) m := by
  cases h with
  | declare name b => exact fun s hs => hs.setCurrent (s.stack.current.declare name b)
  | createArray name size init =>
    exact preserves_of_eq fun s => by rw [final_ofStop (createArray_apply name size init s)]
  | _ => exact preserves_of_eq fun _ => rfl

theorem Preserves.bind {I : State → Prop} {m : Run α} {f : α → Run β} (hm : Preserves I m)
    (hf : ∀ a, Preserves I (f a)) : Preserves I (m >>= f) := by
  intro s hs
  have hmid := hm s hs
  cases h : m s with
  | error e t => rwa [final_bind_of_error h, ← final_of_error h]
  | ok a t =>
    rw [final_of_ok h] at hmid
    rw [final_bind_of_ok h]
    exact hf a t hmid

theorem confined_inScope {m : Run α} (h : Preserves (Confined callers globals) m) :
    Preserves (Confined callers globals) (inScope m) := by
  intro s hs
  have hinner := h _ (hs.setCurrent s.stack.current.pushScope)
  rw [inScope_eq_bracket, final_bracket]
  exact hinner.setCurrent _

theorem confined_iterate {turn : Run Bool} (h : Preserves (Confined callers globals) turn) :
    ∀ turns, Preserves (Confined callers globals) (iterate turn turns)
  | 0 => preserves_of_eq fun _ => rfl
  | turns + 1 => by
    refine h.bind fun again => ?_
    cases again with
    | false => exact preserves_of_eq fun _ => rfl
    | true => exact confined_iterate h turns

/-- **What is run within a call stays confined,** if calls do. -/
theorem confined_law (callers : List Frame) (globals : Frame) (x : Horizon) :
    Law .any x (Preserves (Confined callers globals)) where
  evalStep h := h.confined
  execStep h := h.confined
  countGuard := preserves_of_eq fun s => by
    obtain ⟨guards, h⟩ := final_countGuard x s
    rw [h]
  bind h hf := h.bind hf
  inScope := confined_inScope
  counts hcounted := hcounted.elim
  loop h _ := confined_iterate h x.turns

/-- The run leaves all frames but that of the top level as they were, and assigns at most to names
there. -/
def Contained (m : Run α) : Prop :=
  ∀ s, (final m s).stack.calls = s.stack.calls ∧
    s.stack.globals.Reassigned (final m s).stack.globals

theorem Contained.preserves {m : Run α} (h : Contained m) :
    Preserves (Confined callers globals) m := by
  rintro s ⟨⟨own, hcalls⟩, hglobals⟩
  obtain ⟨hsame, hreassigned⟩ := h s
  exact ⟨⟨own, hsame.trans hcalls⟩, hglobals.trans hreassigned⟩

theorem contained_of_eq {m : Run α} (h : ∀ s, (final m s).stack = s.stack) : Contained m := by
  intro s
  rw [h]
  exact ⟨rfl, .refl _⟩

theorem Contained.bind {m : Run α} {f : α → Run β} (hm : Contained m)
    (hf : ∀ a, Contained (f a)) : Contained (m >>= f) := by
  intro s
  obtain ⟨hcalls, hglobals⟩ := hm s
  cases h : m s with
  | error e t =>
    rw [final_of_error h] at hcalls hglobals
    rw [final_bind_of_error h]
    exact ⟨hcalls, hglobals⟩
  | ok a t =>
    obtain ⟨hcalls', hglobals'⟩ := hf a t
    rw [final_of_ok h] at hcalls hglobals
    rw [final_bind_of_ok h]
    exact ⟨hcalls'.trans hcalls, hglobals.trans hglobals'⟩

/-- A call contains what is run within it. -/
theorem contained_inCall {m : Run Unit}
    (h : ∀ callers globals, Preserves (Confined callers globals) m) (function : String) :
    Contained (inCall function m) := by
  intro s
  have hbody : Preserves (Confined s.stack.calls s.stack.globals) (do m; flow) :=
    (h _ _).bind fun _ => preserves_of_eq fun _ => rfl
  obtain ⟨⟨own, hcalls⟩, hglobals⟩ :=
    hbody { s with stack := s.stack.pushFrame function } ⟨⟨_, rfl⟩, .refl _⟩
  rw [inCall_eq_bracket, final_bracket]
  exact ⟨congrArg List.tail hcalls, hglobals⟩

theorem contained_leave (caller : SourceLine) : ∀ flow : Flow, Contained (flow.leave caller)
  | .jump _ | .normal | .ret _ => contained_of_eq fun _ => rfl

/-- **A call contains its effects.** -/
theorem contained_callee (p : Program) (x : Horizon) :
    ∀ (depth : Nat) (name : String) (args : List Value), Contained (p.callee x depth name args)
  | 0, name, args => by
    rw [Program.callee_zero]
    split <;> exact contained_of_eq fun _ => rfl
  | depth + 1, name, args => by
    rw [Program.callee_succ]
    split
    · rename_i f _
      rw [Function.invoke_eq]
      split
      · refine .bind (contained_of_eq fun _ => rfl) fun caller => ?_
        refine .bind (contained_inCall (fun callers globals => ?_) f.name) (contained_leave caller)
        have hlaw := confined_law callers globals x
        exact (hlaw.bindParams f.params args).bind fun _ => hlaw.execAll
          (fun name _ args => (contained_callee p x depth name args).preserves) f.body
          (Stmt.allWithin_any f.body)
      · exact contained_of_eq fun _ => rfl
    · exact contained_of_eq fun _ => rfl

end Run

namespace Program

open Run

/-- **Execution is balanced.**  Whatever statement or expression of a program is run, and whether it
comes to its end or stops early, all frames are there again with as many open scopes as before.  An
expression that has a value leaves the line as it was, and control goes on normally after it if it
did before.  And a call leaves all frames but that of the top level as they were; there, it assigns
at most to names that are not constant. -/
theorem balanced (p : Program) (x : Horizon) (depth : Nat) :
    (∀ (stmt : Stmt) (s : State),
      (final (stmt.exec x (p.callee x depth)) s).stack.heights = s.stack.heights) ∧
    (∀ (stmts : List Stmt) (s : State),
      (final (Stmt.execAll x (p.callee x depth) stmts) s).stack.heights = s.stack.heights) ∧
    (∀ (e : Expr) (s : State),
      (final (e.eval x (p.callee x depth)) s).stack.heights = s.stack.heights ∧
      ∀ v s', e.eval x (p.callee x depth) s = .ok v s' →
        (s.flow = .normal → s'.flow = .normal) ∧ s'.recorder.line = s.recorder.line) ∧
    ∀ (name : String) (args : List Value) (s : State),
      (final (p.callee x depth name args) s).stack.calls = s.stack.calls ∧
      s.stack.globals.Reassigned (final (p.callee x depth name args) s).stack.globals := by
  refine ⟨fun stmt s => (grows_exec p x depth stmt s).heights,
    fun stmts s => (grows_execAll p x depth stmts s).heights,
    fun e s => ⟨(grows_eval p x depth e s).heights, fun v s' h => ⟨fun hs => ?_, ?_⟩⟩,
    fun name args s => contained_callee p x depth name args s⟩
  · rw [← final_of_ok h]
    exact fallsThrough_eval p x depth e hs
  · exact keepsLine_eval p x depth e h

/-- A function that marks a line and returns from within a scope. -/
def returning : Program where
  functions := [{
    name := "f", params := ["x"], location := .start
    body := [.line { number := 2, text := "{ return x; }" }, .block [.ret (some (.var "x"))]] }]

/-- It is called on the first line, and then with too few arguments. -/
theorem balanced_returning :
    (∃ s', (Expr.call "f" [.literal (.int 5)]).eval {} (returning.callee (Settings.horizon {}) 1)
        { recorder := { line := { number := 1, text := "f(5);" } } } = .ok (.int 5) s' ∧
      s'.flow = .normal ∧ s'.recorder.line = { number := 1, text := "f(5);" } ∧
      s'.stack.heights = [0]) ∧
    ∃ e s', (Stmt.block [.expr (.call "f" [])]).exec (Settings.horizon {})
        (returning.callee (Settings.horizon {}) 1) {} = .error e s' ∧
      s'.stack.heights = [0] := by
  obtain ⟨hexec, -, heval, -⟩ := balanced returning (Settings.horizon {}) 1
  obtain ⟨hheights, hends⟩ := heval (.call "f" [.literal (.int 5)])
    { recorder := { line := { number := 1, text := "f(5);" } } }
  obtain ⟨hflow, hline⟩ := hends _ _ rfl
  exact ⟨⟨_, rfl, hflow rfl, hline, hheights⟩, _, _, rfl, hexec (.block [.expr (.call "f" [])]) {}⟩

end Program

end Stepwise
