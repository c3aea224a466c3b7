import Stepwise.Proofs.Program.Enclosed
import Stepwise.Proofs.Run.Steady

/-!
# Jumps find their loops

A `break` or `continue` leaves the statements around it until a loop takes notice.  If none does, it
reaches the end of its function or of the program, where it stops the run.  That this does not
happen can be seen from the text: it is enough that every jump stands in the body of some loop of
the same function.

The first clause of a `for` loop is part of no body.  A jump that leaves it is still under way when
the condition is evaluated, and stops the first call that this makes, even if the loop stands in the
body of another one.  No such program is read from a source text (`Program.jumpsEnclosed_ofSource`).

* `Run.Catches inLoop` is the contract of runs: started where no jump is under way, they are not
  stopped by a jump, and end by one at most in the body of a loop.  There is a rule for each way of
  putting runs together; the one for loops is where jumps are caught.
* `Stmt.catches_exec` and `Program.catches_callee` derive it for statements and calls.
* `Program.CatchesJumps` is what this comes to for a program, and `Program.jumps_caught` concludes
  it.
-/

set_option autoImplicit false

namespace Stepwise

/-! ## Where control goes -/

/-- Control may go there from a statement that stands in the body of a loop, or in none. -/
def Flow.Fits (inLoop : Bool) : Flow → Prop
  | .jump _ => inLoop = true
  | _ => True

theorem Flow.Fits.mono {flow : Flow} (h : flow.Fits false) (inLoop : Bool) : flow.Fits inLoop := by
  cases flow with
  | jump j => cases h
  | _ => trivial

theorem Cause.ne_strayJump_of_isLocal {cause : Cause} (h : cause.isLocal = true) (j : Jump) :
    cause ≠ .strayJump j := by
  rintro rfl
  cases h

namespace Run

variable {α β : Type} {inLoop : Bool}

/-- Started where no jump is under way, the run is not stopped by a jump, and control goes where it
may from there. -/
structure Catches (inLoop : Bool) (m : Run α) : Prop where
  fits : ∀ ⦃s a t⦄, s.flow.Fits false → m s = .ok a t → t.flow.Fits inLoop
  unstrayed : ∀ ⦃s f t⦄, s.flow.Fits false → m s = .error (.fault f) t →
    ∀ j, f.cause ≠ .strayJump j

theorem Catches.mono {m : Run α} (h : Catches false m) (inLoop : Bool) : Catches inLoop m :=
  ⟨fun _ _ _ hs hm => (h.fits hs hm).mono inLoop, h.unstrayed⟩

/-! ### Steps -/

/-- A run that does not touch the flow of control and fails for other causes. -/
theorem catches_of_final {m : Run α} (hflow : ∀ s, (final m s).flow = s.flow)
    (hm : ∀ s f t, m s = .error (.fault f) t → ∀ j, f.cause ≠ .strayJump j) : Catches false m :=
  ⟨fun s a t hs h => by rwa [← final_of_ok h, hflow], fun s f t _ => hm s f t⟩

theorem catches_of_ok {m : Run α} {a : State → α} {g : State → State}
    (hm : ∀ s, m s = .ok (a s) (g s)) (hflow : ∀ s, (g s).flow = s.flow) : Catches false m := by
  refine catches_of_final (fun s => ?_) fun s f t h => ?_
  · rw [final_of_ok (hm s), hflow]
  · rw [hm] at h
    cases h

theorem catches_fail {cause : Cause} (h : ∀ j, cause ≠ .strayJump j) :
    Catches inLoop (Run.fail cause : Run α) :=
  ⟨fun _ _ _ _ => nofun, fun s f t _ hs => by
    cases hs
    exact h⟩

theorem ne_strayJump_of_failsAt {r : Recorder} {id : Nat} {f : Fault} (h : r.FailsAt id f)
    (j : Jump) : f.cause ≠ .strayJump j := by
  obtain h | ⟨h, -⟩ := h
  · exact Cause.ne_strayJump_of_isLocal h j
  · rw [h]
    nofun

theorem eq_error_of_ofFault {x : Except Fault α} {s t : State} {f : Fault}
    (h : ofFault x s = .error (.fault f) t) : x = .error f := by
  cases x with
  | ok a => cases h
  | error g =>
    cases h
    rfl

theorem EvalStep.catches {V : Vocabulary} {m : Run α} (h : EvalStep V m) : Catches false m := by
  refine catches_of_final h.flow_final fun s f t hm => ?_
  cases h with
  | pure a => cases hm
  | fail cause h =>
    cases hm
    exact Cause.ne_strayJump_of_isLocal h
  | read name _ =>
    rw [read_apply] at hm
    split at hm <;> cases hm
    exact nofun
  | write name value _ =>
    rw [write_apply] at hm
    split at hm
    · cases hm
      exact nofun
    · split at hm <;> cases hm
      exact nofun
  | callContainer id method args =>
    rw [callContainer_apply] at hm
    exact ne_strayJump_of_failsAt (Recorder.call_eq_error (Prod.ext (eq_error_of_ofFault hm) rfl))
  | getElement id index =>
    rw [getElement_apply] at hm
    exact ne_strayJump_of_failsAt (Recorder.getElement_eq_error (eq_error_of_ofFault hm))
  | setElement id index value =>
    rw [setElement_apply] at hm
    exact ne_strayJump_of_failsAt
      (Recorder.setElement_eq_error (Prod.ext (eq_error_of_ofFault hm) rfl))
  | arrayLength id => cases hm

theorem catches_countGuard (settings : Settings) : Catches false (countGuard settings) := by
  refine catches_of_final (fun s => ?_) fun s f t hm => ?_
  · obtain ⟨guards, h⟩ := final_countGuard settings s
    rw [h]
  · rw [countGuard_apply] at hm
    split at hm
    · cases hm
    · split at hm <;> cases hm
      exact nofun

theorem catches_createArray (name : String) (size : UInt64) (init : List Value) :
    Catches false (Run.createArray name size init) := by
  refine catches_of_final (fun s => ?_) fun s f t hm => ?_
  · rw [final_ofStop (createArray_apply name size init s)]
  · have hends := (s.recorder.createArray_ends name size init).2
    rw [createArray_apply] at hm
    generalize (s.recorder.createArray name size init).1 = answer at hends hm
    cases hends with
    | ok a => cases hm
    | fault h =>
      cases hm
      exact Cause.ne_strayJump_of_isLocal h
    | crash h => cases hm

theorem catches_setFlow {flow : Flow} (h : flow.Fits inLoop) : Catches inLoop (setFlow flow) :=
  ⟨fun _ _ _ _ hm => by
    cases hm
    exact h, fun _ _ _ _ => nofun⟩

/-! ### Runs that are put together -/

theorem Catches.bind {m : Run α} {f : α → Run β} (hm : Catches false m)
    (hf : ∀ a, Catches inLoop (f a)) : Catches inLoop (m >>= f) := by
  refine ⟨fun s b t hs h => ?_, fun s g t hs h => ?_⟩
  · obtain ⟨a, u, hms, h⟩ := bind_eq_ok h
    exact (hf a).fits (hm.fits hs hms) h
  · rw [bind_apply] at h
    cases hms : m s with
    | ok a u =>
      rw [hms] at h
      exact (hf a).unstrayed (hm.fits hs hms) h
    | error e u =>
      rw [hms] at h
      cases h
      exact hm.unstrayed hs hms

/-- **A loop catches the jumps of its body.** -/
theorem Catches.goesOn {body : Run Unit} {f : Bool → Run α} (hbody : Catches true body)
    (hf : ∀ again, Catches inLoop (f again)) :
    Catches inLoop (body >>= fun _ => Run.goesOn >>= f) := by
  have hcaught : Catches false (body >>= fun _ => Run.goesOn) := by
    refine ⟨fun s again t hs h => ?_, fun s g t hs h => ?_⟩
    · obtain ⟨_, u, -, h⟩ := bind_eq_ok h
      rw [goesOn_apply] at h
      split at h
      · next hret =>
        cases h
        rw [hret]
        trivial
      · cases h
        trivial
      · cases h
        trivial
    · rw [bind_apply] at h
      cases hb : body s with
      | ok _ u =>
        rw [hb] at h
        dsimp only at h
        rw [goesOn_apply] at h
        split at h <;> cases h
      | error e u =>
        rw [hb] at h
        cases h
        exact hbody.unstrayed hs hb
  have hbind := hcaught.bind hf
  rwa [bind_assoc] at hbind

theorem Catches.proceed {m n : Run Unit} (hm : Catches inLoop m) (hn : Catches inLoop n) :
    Catches inLoop (m >>= fun _ => do if (← flow).isNormal then n) := by
  refine ⟨fun s b t hs h => ?_, fun s g t hs h => ?_⟩
  · obtain ⟨_, u, hms, h⟩ := bind_eq_ok h
    rw [proceed_apply] at h
    split at h
    · next hflow =>
      exact hn.fits (by rw [Flow.isNormal_iff.1 hflow]; trivial) h
    · cases h
      exact hm.fits hs hms
  · rw [bind_apply] at h
    cases hms : m s with
    | ok a u =>
      rw [hms] at h
      dsimp only at h
      rw [proceed_apply] at h
      split at h
      · next hflow =>
        exact hn.unstrayed (by rw [Flow.isNormal_iff.1 hflow]; trivial) h
      · cases h
    | error e u =>
      rw [hms] at h
      cases h
      exact hm.unstrayed hs hms

theorem Catches.inScope {m : Run α} (h : Catches inLoop m) : Catches inLoop (inScope m) := by
  have hentered : ∀ s : State, s.flow.Fits false →
      ({ s with stack := s.stack.pushScope } : State).flow.Fits false := fun _ => id
  refine ⟨fun s a t hs hm => ?_, fun s f t hs hm => ?_⟩
  · rw [Run.inScope] at hm
    split at hm
    · next hm' =>
      cases hm
      exact (h.fits (hentered s hs) hm' :)
    · cases hm
  · rw [Run.inScope] at hm
    split at hm
    · cases hm
    · next hm' =>
      cases hm
      exact h.unstrayed (hentered s hs) hm'

theorem catches_iterate {turn : Run Bool} (h : Catches false turn) :
    ∀ turns, Catches false (iterate turn turns)
  | 0 => ⟨fun _ _ _ _ => nofun, fun _ _ _ _ => nofun⟩
  | turns + 1 => by
    refine h.bind fun again => ?_
    cases again with
    | false => exact catches_of_ok (fun _ => rfl) fun _ => rfl
    | true => exact catches_iterate h turns

/-- **Declarations and expressions do not jump,** and are not stopped by a jump if calls are not. -/
theorem catches_law (x : Horizon) : StraightLaw .any x fun m => Catches false m where
  evalStep h := h.catches
  countGuard := catches_countGuard x
  bind h hf := h.bind hf
  setLine _ _ := catches_of_ok (fun _ => rfl) fun _ => rfl
  flow := catches_of_ok (fun _ => rfl) fun _ => rfl
  declare _ _ := catches_of_ok (fun _ => rfl) fun _ => rfl
  createSequence _ _ := catches_of_ok (fun _ => rfl) fun _ => rfl
  createArray := catches_createArray

end Run

/-! ## Statements -/

open Run

namespace Stmt

variable {x : Horizon} {c : Callee}

section

variable (hc : ∀ name args, Catches false (c name args))
include hc

theorem catches_test (condition : Expr) : Catches false (condition.test x c) :=
  (catches_law x).test (fun name _ => hc name) fun m _ => Vocabulary.any_has m

/-- A loop that tests first ends normally or by a return, whatever jumps its body makes. -/
theorem catches_whileTurn (condition : Expr) {body next : Run Unit} (hbody : Catches true body)
    (hnext : Catches false next) :
    Catches false (whileTurn (condition.test x c) body next) := by
  have hstop : Catches false (pure false : Run Bool) := catches_of_ok (fun _ => rfl) fun _ => rfl
  refine (catches_test hc condition).bind fun holds => ?_
  cases holds with
  | false => exact hstop
  | true =>
    refine hbody.goesOn fun again => ?_
    cases again with
    | false => exact hstop
    | true => exact hnext.bind fun _ => catches_of_ok (fun _ => rfl) fun _ => rfl

theorem catches_untilTurn (condition : Expr) {body : Run Unit} (hbody : Catches true body) :
    Catches false (untilTurn body (condition.test x c)) := by
  refine hbody.goesOn fun again => ?_
  cases again with
  | false => exact catches_of_ok (fun _ => rfl) fun _ => rfl
  | true => exact catches_test hc condition

theorem catches_straight {stmt : Stmt} (h : stmt.isStraight = true) :
    Catches false (stmt.exec x c) :=
  (catches_law x).exec (fun name _ => hc name) h (Stmt.within_any stmt)

end

mutual

/-- **A statement ends by a jump only in a loop body,** if its jumps have loops around them. -/
theorem catches_exec (hc : ∀ name args, Catches false (c name args)) {inLoop : Bool} :
    ∀ stmt : Stmt, stmt.jumpsEnclosed false inLoop = true → Catches inLoop (stmt.exec x c)
  | .line _, _ | .declare _ _, _ | .construct _ _, _ | .array _ _ _, _ | .expr _, _ =>
    (catches_straight hc rfl).mono inLoop
  | .branch condition thenBody, hj => by
    have hthen := (catches_execAll hc thenBody hj).inScope
    rw [exec]
    refine (catches_test hc condition).bind fun holds => ?_
    cases holds with
    | false => exact (catches_of_ok (fun _ => rfl) fun _ => rfl).mono inLoop
    | true => exact hthen
  | .branchElse condition thenBody elseBody, hj => by
    rw [jumpsEnclosed, Bool.and_eq_true] at hj
    have hthen := (catches_execAll hc thenBody hj.1).inScope
    have helse := (catches_execAll hc elseBody hj.2).inScope
    rw [exec]
    refine (catches_test hc condition).bind fun holds => ?_
    cases holds with
    | false => exact helse
    | true => exact hthen
  | .whileLoop condition body, hj => by
    have hbody := (catches_execAll hc body hj).inScope
    have hnext : Catches false (pure () : Run Unit) := catches_of_ok (fun _ => rfl) fun _ => rfl
    rw [exec]
    exact (catches_iterate (catches_whileTurn hc condition hbody hnext) x.turns).mono inLoop
  | .doWhile body condition, hj => by
    have hbody := (catches_execAll hc body hj).inScope
    rw [exec]
    exact (catches_iterate (catches_untilTurn hc condition hbody) x.turns).mono inLoop
  | .forLoop init condition increment body, hj => by
    rw [jumpsEnclosed, Bool.and_eq_true] at hj
    have hinit : Catches false (execAll x c init) := catches_execAll hc init hj.1
    have hbody := (catches_execAll hc body hj.2).inScope
    have hvalues : Catches false (Expr.evalAll x c increment) :=
      (catches_law x).evalAll (fun name _ => hc name) increment fun m _ => Vocabulary.any_has m
    have hnext : Catches false (do let _ ← Expr.evalAll x c increment) :=
      hvalues.bind fun _ => catches_of_ok (fun _ => rfl) fun _ => rfl
    rw [exec]
    refine Catches.inScope (hinit.bind fun _ => ?_)
    exact (catches_iterate (catches_whileTurn hc condition hbody hnext) x.turns).mono inLoop
  | .block body, hj => by
    rw [exec]
    exact (catches_execAll hc body hj).inScope
  | .ret value, _ => by
    have hvalue : Catches false (Expr.evalOption x c value) :=
      (catches_law x).evalOption (fun name _ => hc name) fun m _ => Vocabulary.any_has m
    rw [exec]
    exact hvalue.bind fun v => catches_setFlow trivial
  | .jump _, hj => catches_setFlow hj
  | .malformed _, _ => ⟨fun _ _ _ _ => nofun, fun _ _ _ _ hm => by
    cases hm
    exact nofun⟩

theorem catches_execAll (hc : ∀ name args, Catches false (c name args)) {inLoop : Bool} :
    ∀ stmts : List Stmt, allJumpsEnclosed false inLoop stmts = true →
      Catches inLoop (execAll x c stmts)
  | [], _ => (catches_of_ok (fun _ => rfl) fun _ => rfl).mono inLoop
  | stmt :: rest, hj => by
    rw [allJumpsEnclosed, Bool.and_eq_true] at hj
    rw [execAll]
    exact (catches_exec hc stmt hj.1).proceed (catches_execAll hc rest hj.2)

end

end Stmt

/-! ## Calls and programs -/

theorem Flow.Fits.catches_leave {flow : Flow} (h : flow.Fits false) (caller : SourceLine) :
    Catches false (flow.leave caller) := by
  cases flow with
  | jump j => cases h
  | _ => exact catches_of_ok (fun _ => rfl) fun _ => rfl

/-- A frame in which no jump is under way at the end is left without one. -/
theorem Run.Catches.inCall {m : Run Unit} (h : Catches false m) (function : String)
    (caller : SourceLine) :
    Catches false (inCall function m >>= fun flow => flow.leave caller) := by
  have hentered : ∀ s : State, s.flow.Fits false →
      ({ s with stack := s.stack.pushFrame function } : State).flow.Fits false := fun _ => id
  refine ⟨fun s v t hs hcall => ?_, fun s f t hs hcall => ?_⟩
  · obtain ⟨flow, u, hframe, hleave⟩ := bind_eq_ok hcall
    rw [Run.inCall] at hframe
    split at hframe
    · next hm =>
      cases hframe
      refine ((h.fits (hentered s hs) hm).catches_leave caller).fits ?_ hleave
      trivial
    · cases hframe
  · rw [bind_apply, Run.inCall] at hcall
    cases hm : m { s with stack := s.stack.pushFrame function } with
    | ok _ u =>
      rw [hm] at hcall
      refine ((h.fits (hentered s hs) hm).catches_leave caller).unstrayed ?_ hcall
      trivial
    | error e u =>
      rw [hm] at hcall
      cases hcall
      exact h.unstrayed (hentered s hs) hm

/-- A call is not stopped by a jump that leaves its function, if the body cannot end by one. -/
theorem Function.catches_invoke (x : Horizon) (f : Function) (args : List Value) {body : Run Unit}
    (hbody : Catches false body) : Catches false (f.invoke args body) := by
  have hbind := (catches_law x).bindParams f.params args
  rw [Function.invoke_eq]
  split
  · refine (catches_of_ok (fun _ => rfl) fun _ => rfl).bind fun caller => ?_
    exact (hbind.bind fun _ => hbody).inCall f.name caller
  · exact catches_fail nofun

namespace Program

variable {p : Program}

theorem catches_callee (x : Horizon)
    (hp : ∀ f ∈ p.functions, Stmt.allJumpsEnclosed false false f.body = true) :
    ∀ depth name args, Catches false (p.callee x depth name args)
  | 0, name, args => by
    rw [callee_zero]
    split <;> exact catches_fail nofun
  | depth + 1, name, args => by
    have hc := catches_callee x hp depth
    rw [callee_succ]
    cases hf : p.function? name with
    | none => exact catches_fail nofun
    | some f =>
      have hbody := hp f (List.mem_of_find?_eq_some hf)
      exact f.catches_invoke x args (Stmt.catches_execAll hc f.body hbody)

theorem catches_finish : Catches false finish := by
  refine ⟨fun s _ t _ h => ?_, fun s f t hs h => ?_⟩
  · rw [finish_apply] at h
    split at h <;> cases h
    trivial
  · rw [finish_apply] at h
    split at h
    · next hjump =>
      rw [hjump] at hs
      cases hs
    · cases h

theorem catches_exec (x : Horizon) (hp : p.jumpsEnclosed false = true) :
    Catches false (p.exec x) := by
  obtain ⟨hbody, hfunctions⟩ := jumpsEnclosed_iff.1 hp
  have hc := catches_callee x hfunctions x.callDepth.toNat
  exact (Stmt.catches_execAll hc p.body hbody).bind fun _ => catches_finish

/-- Without a loop around it a jump stops the run. -/
example : (({ body := [.jump .break] } : Program).execute).fault?.map Fault.cause
    = some (.strayJump .break) := rfl

/-- So does a jump that leaves the first clause of a loop within a loop, as soon as something is
called. -/
example :
    let p : Program := {
      functions := [{ name := "f", params := [], location := .start, body := [.block []] }]
      body := [.whileLoop (.guard (.literal (.bool true)))
        [.forLoop [.jump .break] (.guard (.call "f" [])) [] []]] }
    p.jumpsEnclosed true = true ∧
      (p.execute).fault?.map Fault.cause = some (.strayJump .break) := by
  decide +kernel

end Program

end Stepwise
