import Stepwise.Trace
import Stepwise.Proofs.Run.Congruence

/-!
# How runs end

What a run does to the log is to add to its end, and what it does to the number of evaluated loop
conditions is to count on.  Neither is taken back, however the run ends.

* `Run.Later s t` says that the state `t` may come after `s`.
* `Run.Ends` lists the ways in which a run under a ceiling may end, with what it has done to the
  count of evaluations: one that is refused comes with the first evaluation above the ceiling, and
  with no other.
* `Run.Bounded`, the statement that a run ends in one of these ways from every state, is a law of
  runs, so all programs have it (`bounded_exec`), guarded or not.
-/

set_option autoImplicit false

namespace Stepwise

namespace Run

variable {α β : Type} {ceiling : UInt64}

/-! ## Later states -/

/-- `t` comes after `s`: no evaluation of a loop condition has been taken back, and the log has only
been added to. -/
structure Later (s t : State) : Prop where
  guards : s.guards.toNat ≤ t.guards.toNat
  log : s.recorder.log <+: t.recorder.log

theorem Later.refl (s : State) : Later s s :=
  ⟨Nat.le_refl _, List.prefix_rfl⟩

theorem Later.trans {s t u : State} (h : Later s t) (h' : Later t u) : Later s u :=
  ⟨Nat.le_trans h.guards h'.guards, h.log.trans h'.log⟩

/-- The evaluations of loop conditions from `s` to `t`, if there were any, kept to the ceiling. -/
def Allowed (ceiling : UInt64) (s t : State) : Prop :=
  t.guards = s.guards ∨ t.guards.toNat ≤ ceiling.toNat

theorem Allowed.trans {s t u : State} (h : Allowed ceiling s t) (h' : Allowed ceiling t u) :
    Allowed ceiling s u := by
  rcases h' with heq | hle
  · rwa [Allowed, heq]
  · exact .inr hle

/-! ## Endings -/

/-- How a run that starts at `s` may end under a ceiling. -/
inductive Ends (ceiling : UInt64) (s : State) : EStateM.Result Stop State α → Prop
  | ok {a : α} {t : State} (later : Later s t) (allowed : Allowed ceiling s t) :
      Ends ceiling s (.ok a t)
  | fault {f : Fault} {t : State} (later : Later s t) (allowed : Allowed ceiling s t)
      (cause : f.cause.isIterations = false) : Ends ceiling s (.error (.fault f) t)
  | refused {f : Fault} {t : State} (later : Later s t) (cause : f.cause = .iterations ceiling)
      (count : t.guards.toNat = max s.guards.toNat ceiling.toNat + 1) :
      Ends ceiling s (.error (.fault f) t)
  | capacity {t : State} (later : Later s t) (allowed : Allowed ceiling s t)
      (last : t.recorder.log.Oversized) : Ends ceiling s (.error (.crash .capacity) t)
  | counter {t : State} (later : Later s t) (allowed : Allowed ceiling s t)
      (full : t.guards + 1 = 0) : Ends ceiling s (.error (.crash .counter) t)
  | unfinished {t : State} (later : Later s t) (allowed : Allowed ceiling s t) :
      Ends ceiling s (.error .unfinished t)

namespace Ends

variable {s t : State}

theorem later {m : Run α} (h : Ends ceiling s (m s)) : Later s (final m s) := by
  rw [final]
  generalize m s = r at h
  cases h <;> assumption

theorem of_error {e : Stop} (h : Ends ceiling s (.error e t : EStateM.Result Stop State α)) :
    Ends ceiling s (.error e t : EStateM.Result Stop State β) := by
  cases h with
  | fault later allowed cause => exact .fault later allowed cause
  | refused later cause count => exact .refused later cause count
  | capacity later allowed last => exact .capacity later allowed last
  | counter later allowed full => exact .counter later allowed full
  | unfinished later allowed => exact .unfinished later allowed

/-- A run may end as the last part of it does. -/
theorem after {r : EStateM.Result Stop State α} (h : Ends ceiling t r) (later : Later s t)
    (allowed : Allowed ceiling s t) : Ends ceiling s r := by
  cases h with
  | ok later' allowed' => exact .ok (later.trans later') (allowed.trans allowed')
  | fault later' allowed' cause => exact .fault (later.trans later') (allowed.trans allowed') cause
  | refused later' cause count =>
    refine .refused (later.trans later') cause ?_
    have hle := later.guards
    rcases allowed with heq | hallowed
    · rwa [heq] at count
    · omega
  | capacity later' allowed' last =>
    exact .capacity (later.trans later') (allowed.trans allowed') last
  | counter later' allowed' full =>
    exact .counter (later.trans later') (allowed.trans allowed') full
  | unfinished later' allowed' => exact .unfinished (later.trans later') (allowed.trans allowed')

end Ends

/-- A run that, from whatever state it starts, ends as it may under a ceiling. -/
def Bounded (ceiling : UInt64) (m : Run α) : Prop :=
  ∀ s, Ends ceiling s (m s)

theorem Bounded.counts {m : Run α} (h : Bounded ceiling m) : Counts m :=
  fun s => (h s).later.guards

theorem Bounded.of_ok {m : Run α} (h : Bounded ceiling m) {a : α} {s t : State}
    (hs : m s = .ok a t) : Later s t ∧ Allowed ceiling s t := by
  have hends := h s
  rw [hs] at hends
  cases hends with
  | ok later allowed => exact ⟨later, allowed⟩

theorem Primitive.bounded {m : Run α} (h : Primitive m) : Bounded ceiling m := by
  intro s
  have hquiet := h.quiet s
  generalize m s = r at hquiet
  have hlater : ∀ {t : State}, t.guards = s.guards → s.recorder.log <+: t.recorder.log →
      Later s t := fun guards log => ⟨Nat.le_of_eq (congrArg UInt64.toNat guards.symm), log⟩
  cases hquiet with
  | ok guards log => exact .ok (hlater guards log) (.inl guards)
  | fault guards log cause => exact .fault (hlater guards log) (.inl guards) cause
  | crash guards log last => exact .capacity (hlater guards log) (.inl guards) last

theorem bounded_countGuard (settings : Settings) :
    Bounded settings.iterations (countGuard settings) := by
  intro s
  rw [countGuard_apply]
  split
  case isTrue hfull => exact .counter (.refl s) (.inl rfl) hfull
  case isFalse hfull =>
    have hsucc := toNat_succ hfull
    have later : Later s { s with guards := s.guards + 1 } := by
      refine ⟨?_, List.prefix_rfl⟩
      rw [hsucc]
      exact Nat.le_succ _
    split
    case isTrue hlt =>
      refine .refused later rfl ?_
      rw [UInt64.lt_iff_toNat_lt] at hlt
      show (s.guards + 1).toNat = _
      omega
    case isFalse hlt =>
      refine .ok later (.inr ?_)
      rw [UInt64.lt_iff_toNat_lt] at hlt
      show (s.guards + 1).toNat ≤ _
      omega

theorem Bounded.bind {m : Run α} {f : α → Run β} (hm : Bounded ceiling m)
    (hf : ∀ a, Bounded ceiling (f a)) : Bounded ceiling (m >>= f) := by
  intro s
  have h := hm s
  rw [bind_apply]
  cases hms : m s with
  | error e t =>
    rw [hms] at h
    exact h.of_error
  | ok a t =>
    have ⟨later, allowed⟩ := hm.of_ok hms
    exact (hf a t).after later allowed

/-! ## Scopes and frames -/

/-- `m` between two changes of the call stack, with which control goes where `settle` says.  Scopes
and calls have this in common. -/
def bracket (enter leave : CallStack → CallStack) (settle : Flow → Flow) (m : Run α) : Run α :=
  fun s =>
    match m { s with stack := enter s.stack } with
    | .ok a s' => .ok a { s' with stack := leave s'.stack, flow := settle s'.flow }
    | .error e s' => .error e { s' with stack := leave s'.stack, flow := settle s'.flow }

theorem inScope_eq_bracket (m : Run α) :
    inScope m = bracket CallStack.pushScope CallStack.popScope id m := rfl

theorem inCall_eq_bracket (function : String) (m : Run Unit) :
    inCall function m
      = bracket (CallStack.pushFrame · function) CallStack.popFrame (fun _ => .normal)
          (do m; flow) := by
  funext s
  rw [inCall, bracket, bind_apply]
  cases m { s with stack := s.stack.pushFrame function } <;> rfl

/-- What is run between two changes of the call stack ends as it does without them, but for the
call stack and the flow of control. -/
theorem final_bracket (enter leave : CallStack → CallStack) (settle : Flow → Flow) (m : Run α)
    (s : State) :
    final (bracket enter leave settle m) s
      = { final m { s with stack := enter s.stack } with
          stack := leave (final m { s with stack := enter s.stack }).stack,
          flow := settle (final m { s with stack := enter s.stack }).flow } := by
  rw [final, final, bracket]
  cases m { s with stack := enter s.stack } <;> rfl

theorem Bounded.bracket {m : Run α} (h : Bounded ceiling m) (enter leave : CallStack → CallStack)
    (settle : Flow → Flow) : Bounded ceiling (bracket enter leave settle m) := by
  intro s
  have hm := h { s with stack := enter s.stack }
  rw [Run.bracket]
  generalize m { s with stack := enter s.stack } = r at hm
  -- `Ends` speaks neither of the call stack nor of the flow of control.
  cases hm with
  | ok later allowed => exact .ok ⟨later.guards, later.log⟩ allowed
  | fault later allowed cause => exact .fault ⟨later.guards, later.log⟩ allowed cause
  | refused later cause count => exact .refused ⟨later.guards, later.log⟩ cause count
  | capacity later allowed last => exact .capacity ⟨later.guards, later.log⟩ allowed last
  | counter later allowed full => exact .counter ⟨later.guards, later.log⟩ allowed full
  | unfinished later allowed => exact .unfinished ⟨later.guards, later.log⟩ allowed

theorem Bounded.inScope {m : Run α} (h : Bounded ceiling m) : Bounded ceiling (inScope m) := by
  rw [inScope_eq_bracket]
  exact h.bracket _ _ _

theorem Bounded.inCall {m : Run Unit} (h : Bounded ceiling m) (function : String) :
    Bounded ceiling (inCall function m) := by
  rw [inCall_eq_bracket]
  exact (h.bind fun _ => Primitive.flow.bounded).bracket _ _ _

/-! ## Loops and programs -/

theorem bounded_iterate {turn : Run Bool} (h : Bounded ceiling turn) :
    ∀ turns, Bounded ceiling (iterate turn turns)
  | 0 => fun s => .unfinished (.refl s) (.inl rfl)
  | turns + 1 => by
    refine h.bind fun again => ?_
    cases again with
    | false => exact (Primitive.pure ()).bounded
    | true => exact bounded_iterate h turns

theorem bounded_law (x : Horizon) : Law .any x (Bounded x.iterations) where
  evalStep h := h.primitive.bounded
  execStep h := h.primitive.bounded
  countGuard := bounded_countGuard x
  bind := Bounded.bind
  inScope := Bounded.inScope
  counts h := h.elim
  loop h _ := bounded_iterate h x.turns

theorem bounded_callee (p : Program) (x : Horizon) (depth : Nat) (name : String)
    (args : List Value) : Bounded x.iterations (p.callee x depth name args) :=
  (bounded_law x).callee (fun _ => (Primitive.fail _ rfl).bounded) (fun _ => trivial)
    (fun function h => h.inCall function) (fun _ _ => Stmt.allWithin_any _) depth name args

/-- **Every run ends as it may**, whatever the program. -/
theorem bounded_exec (p : Program) (x : Horizon) : Bounded x.iterations (p.exec x) :=
  (bounded_law x).program (fun _ => (Primitive.fail _ rfl).bounded) (Stmt.allWithin_any _)
    (bounded_callee p x x.callDepth.toNat)

end Run

open Run

namespace Program

/-- The state in which a run ends. -/
def finalState (p : Program) (x : Horizon) : State :=
  final (p.exec x) (State.initial x)

theorem log_executeWithin (p : Program) (x : Horizon) :
    (p.executeWithin x).log = (p.finalState x).recorder.log := by
  rw [executeWithin, finalState, final]
  cases p.exec x (State.initial x) <;> rfl

/-- The ways in which the execution of a program ends, if it is followed to its end. -/
theorem outcome_cases (p : Program) (x : Horizon) (h : (p.executeWithin x).outcome ≠ .unfinished) :
    (p.executeWithin x).outcome = .complete ∨
      (∃ f, (p.executeWithin x).outcome = .faulted f) ∨
      ((p.executeWithin x).outcome = .crashed .capacity ∧ (p.executeWithin x).log.Oversized) ∨
      ((p.executeWithin x).outcome = .crashed .counter ∧
        x.iterations.toNat + 1 = UInt64.size) := by
  have hends := bounded_exec p x (State.initial x)
  rw [executeWithin] at h ⊢
  generalize p.exec x (State.initial x) = r at hends h
  cases hends with
  | ok => exact .inl rfl
  | fault => exact .inr (.inl ⟨_, rfl⟩)
  | refused => exact .inr (.inl ⟨_, rfl⟩)
  | capacity _ _ last => exact .inr (.inr (.inl ⟨rfl, last⟩))
  | counter _ allowed full =>
    refine .inr (.inr (.inr ⟨rfl, ?_⟩))
    -- The counter is full, so it is not zero any more, and the ceiling is as high as it can be.
    have hsize := succ_eq_zero_iff.1 full
    have hlt := x.iterations.toNat_lt
    rcases allowed with heq | hle
    · rw [heq] at hsize
      cases hsize
    · rw [UInt64.size] at hsize ⊢
      omega
  | unfinished => exact absurd rfl h

theorem executeWithin_of_error {p : Program} {x : Horizon} {e : Stop} {s : State}
    (h : p.exec x (State.initial x) = .error e s) :
    p.executeWithin x = ⟨s.recorder.log, e.outcome⟩ := by
  rw [executeWithin, h]

end Program
end Stepwise
