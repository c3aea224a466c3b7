import Stepwise.Proofs.Run.Cuts

/-!
# Termination

A loop is followed for a number of turns only.  That is a bound of the definition and not one of the
program, and a guarded program never feels it: each turn after which one of its loops goes on has
counted an evaluation of a loop condition, and of those no more are left than the ceiling.

* `Run.Finishes` says that a run does not break off because it is not followed any further.
* `Run.finishing_law` shows that this is a law of guarded programs under any horizon that is wider
  than the ceiling.  The measure of a loop is the number of evaluations that are left.
* `Program.execution_ends` concludes that a guarded program comes to an end by itself: to its last
  statement, to a fault, or to one of two breakdowns.  `Program.hugeArray_crashes` is one of these.
-/

set_option autoImplicit false

namespace Stepwise

namespace Run

variable {α β : Type} {ceiling : UInt64}

/-- A run that does not break off for want of turns. -/
def Finishes (m : Run α) : Prop :=
  ∀ s t, m s ≠ .error .unfinished t

theorem Primitive.finishes {m : Run α} (h : Primitive m) : Finishes m := by
  intro s t hms
  have hquiet := h.quiet s
  rw [hms] at hquiet
  cases hquiet

theorem Finishes.bind {m : Run α} {f : α → Run β} (hm : Finishes m) (hf : ∀ a, Finishes (f a)) :
    Finishes (m >>= f) := by
  intro s t h
  rw [bind_apply] at h
  cases hms : m s with
  | ok a u =>
    rw [hms] at h
    exact hf a u t h
  | error e u =>
    rw [hms] at h
    cases h
    exact hm s t hms

theorem Finishes.bracket {m : Run α} (h : Finishes m) (enter leave : CallStack → CallStack)
    (settle : Flow → Flow) : Finishes (bracket enter leave settle m) := by
  intro s t hs
  rw [Run.bracket] at hs
  split at hs
  · cases hs
  · rename_i heq
    cases hs
    exact h _ _ heq

theorem finishes_countGuard (settings : Settings) : Finishes (countGuard settings) := by
  intro s t h
  rw [countGuard_apply] at h
  split at h
  · cases h
  · split at h <;> cases h

/-! ## Loops -/

/-- The measure of a loop: a turn after which it goes on leaves fewer evaluations to go. -/
theorem Bounded.lt_of_ticks {turn : Run Bool} (h : Bounded ceiling turn) (hticks : Ticks turn)
    {s t : State} (hs : turn s = .ok true t) :
    s.guards.toNat < t.guards.toNat ∧ t.guards.toNat ≤ ceiling.toNat := by
  have htick := hticks hs
  rcases (h.of_ok hs).2 with heq | hle
  · rw [heq] at htick
    exact absurd htick (Nat.lt_irrefl _)
  · exact ⟨htick, hle⟩

/-- A loop that ticks has a turn to go as long as it goes on. -/
theorem finishes_iterate {turn : Run Bool} (hbounded : Bounded ceiling turn)
    (hturn : Finishes turn) (hticks : Ticks turn) :
    ∀ (turns : Nat) (s t : State), ceiling.toNat - s.guards.toNat < turns →
      iterate turn turns s ≠ .error .unfinished t
  | 0, s, t, hturns => absurd hturns (Nat.not_lt_zero _)
  | turns + 1, s, t, hturns => by
    rw [iterate_succ_apply]
    cases hs : turn s with
    | error e u =>
      intro h
      cases h
      exact hturn s t hs
    | ok again u =>
      cases again with
      | false => exact fun h => nomatch h
      | true =>
        have hmeasure := hbounded.lt_of_ticks hticks hs
        exact finishes_iterate hbounded hturn hticks turns u t (by omega)

/-! ## Guarded programs -/

section

variable {x : Horizon} (hx : x.iterations.toNat < x.turns)
include hx

theorem finishing_law :
    Law .guarded x fun m => Bounded x.iterations m ∧ Finishes m where
  evalStep h := ⟨h.primitive.bounded, h.primitive.finishes⟩
  execStep h := ⟨h.primitive.bounded, h.primitive.finishes⟩
  countGuard := ⟨bounded_countGuard x, finishes_countGuard x⟩
  bind h hf := ⟨h.1.bind fun a => (hf a).1, h.2.bind fun a => (hf a).2⟩
  inScope h := by
    refine ⟨h.1.inScope, ?_⟩
    rw [inScope_eq_bracket]
    exact h.2.bracket _ _ _
  counts _ h := h.1.counts
  loop h hticks := ⟨bounded_iterate h.1 x.turns, fun s t =>
    finishes_iterate h.1 h.2 (hticks trivial) x.turns s t (by omega)⟩

/-- **Guarded programs finish.** -/
theorem finishes_exec {p : Program} (hp : p.guarded = true) : Finishes (p.exec x) := by
  have ⟨hbody, hfunctions⟩ := Program.guarded_iff.1 hp
  have hlaw := finishing_law hx
  have hstray : ∀ {α : Type} (j : Jump), Bounded x.iterations (Run.fail (.strayJump j) : Run α) ∧
      Finishes (Run.fail (.strayJump j) : Run α) :=
    fun _ => ⟨(Primitive.fail _ rfl).bounded, (Primitive.fail _ rfl).finishes⟩
  have hframe : ∀ {m : Run Unit} (function : String), Bounded x.iterations m ∧ Finishes m →
      Bounded x.iterations (inCall function m) ∧ Finishes (inCall function m) := by
    intro m function h
    refine ⟨h.1.inCall function, ?_⟩
    rw [inCall_eq_bracket]
    exact (h.2.bind fun _ => Primitive.flow.finishes).bracket _ _ _
  have hcallee := hlaw.callee hstray (fun _ => trivial) hframe
    (fun f hf => Stmt.allWithin_guarded (hfunctions f hf)) x.callDepth.toNat
  exact (hlaw.program hstray (Stmt.allWithin_guarded hbody) hcallee).2

end

end Run

open Run

namespace Program

theorem finished {p : Program} (hp : p.guarded = true) {x : Horizon}
    (hx : x.iterations.toNat < x.turns) : (p.executeWithin x).outcome ≠ .unfinished := by
  have hfinishes := finishes_exec hx hp (State.initial x)
  rw [executeWithin]
  cases hr : p.exec x (State.initial x) with
  | ok _ s => rintro ⟨⟩
  | error e s =>
    cases e with
    | unfinished => exact absurd hr (hfinishes s)
    | _ => rintro ⟨⟩

theorem finished_execute {p : Program} (hp : p.guarded = true) (settings : Settings) :
    (p.execute settings).outcome ≠ .unfinished := by
  refine finished hp ?_
  exact Nat.lt_succ_self settings.iterations.toNat

/-- For a guarded program it does not matter for how many turns its loops are followed, if they are
more than it may evaluate conditions. -/
theorem executeWithin_eq_execute {p : Program} (hp : p.guarded = true) {settings : Settings}
    {turns : Nat} (hturns : settings.iterations.toNat < turns) :
    p.executeWithin (settings.within turns) = p.execute settings :=
  executeWithin_stable hturns (finished_execute hp settings)

/-- **Every run ends.**  A program read from a source text is guarded, and a guarded program comes
to an end whatever its limits, with its loops followed for as long as they go on.  It comes to its
last statement or to a fault, unless it has just declared an array with more slots than an array can
have, or is allowed as many evaluations of loop conditions as a counter can hold and has made them
all. -/
theorem execution_ends (p : Program) (settings : Settings) :
    ((∃ source, p = ofSource source) → p.guarded = true) ∧
      (p.guarded = true →
        p.EndsWith settings (p.execute settings) ∧
          ((p.execute settings).outcome = .complete ∨
            (∃ f, (p.execute settings).outcome = .faulted f) ∨
            ((p.execute settings).outcome = .crashed .capacity ∧
              (p.execute settings).log.Oversized) ∨
            ((p.execute settings).outcome = .crashed .counter ∧
              settings.iterations.toNat + 1 = UInt64.size))) := by
  refine ⟨?_, fun hp => ?_⟩
  · rintro ⟨source, rfl⟩
    exact ofSource_guarded source
  · have hfinished := finished_execute hp settings
    exact ⟨⟨hfinished, _, rfl⟩, outcome_cases p settings.horizon hfinished⟩

/-- A loop whose condition calls the function that it stands in. -/
def restlessLoop : Stmt :=
  .doWhile [.jump .continue] (.guard (.unary .not (.call "again" [])))

/-- A program that loops for ever, at ever greater depth. -/
def restless : Program where
  functions := [{ name := "again", params := [], body := [restlessLoop], location := ⟨1, 1⟩ }]
  body := [.expr (.call "again" [])]
  entry := some "again"

theorem execution_ends_restless :
    restless.guarded = true ∧ restless.EndsWith {} (restless.execute {}) ∧
      ∃ f, (restless.execute {}).outcome = .faulted f := by
  have hp : restless.guarded = true := by decide
  have ⟨hends, houtcome⟩ := (execution_ends restless {}).2 hp
  refine ⟨hp, hends, ?_⟩
  have hincomplete : (restless.execute {}).outcome ≠ .complete := by decide +kernel
  have hsound : ∀ c, (restless.execute {}).outcome ≠ .crashed c := by
    intro c
    cases c <;> decide +kernel
  rcases houtcome with h | h | ⟨h, -⟩ | ⟨h, -⟩
  · exact absurd h hincomplete
  · exact h
  · exact absurd h (hsound .capacity)
  · exact absurd h (hsound .counter)

/-- The declaration of an array with more slots than an array can have. -/
def hugeArray : String :=
  "int a[9223372036854775807];"

/-- It takes the run down, with neither an end nor a fault to tell of. -/
theorem hugeArray_crashes :
    (ofSource hugeArray).guarded = true ∧
      ¬((trace hugeArray).outcome = .complete ∨ ∃ f, (trace hugeArray).outcome = .faulted f) := by
  have hcrash : (trace hugeArray).outcome = .crashed .capacity := by decide +kernel
  refine ⟨ofSource_guarded hugeArray, ?_⟩
  rw [hcrash]
  rintro (h | ⟨f, h⟩) <;> cases h

end Program
end Stepwise
