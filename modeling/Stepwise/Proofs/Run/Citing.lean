import Stepwise.Proofs.Recorder.Suppression
import Stepwise.Proofs.Run.Steady

/-!
# The lines that a run cites

A command cites the line that was marked last.  So what a run cites is known if the line on which it
starts is, and the lines that it marks.

* `Run.Citing good before after` is the law of runs that cite good lines only when they are started
  in a state that satisfies `before`, and then end in one that satisfies `after`.
* Runs are put together by rules for sequences, scopes, calls and loops, and
  `Run.ready_straightLaw` carries the law through declarations and expressions.
* `Run.Citing.normally` adds to the law that control goes on normally, for a run that does not
  jump.
-/

set_option autoImplicit false

namespace Stepwise

open Recorder (Operation)

/-- The line that is marked is one of these. -/
def State.On (lines : SourceLine → Prop) (s : State) : Prop :=
  lines s.recorder.line

/-- The line that is marked is one of these, and control goes on normally. -/
def State.Ready (lines : SourceLine → Prop) (s : State) : Prop :=
  lines s.recorder.line ∧ s.flow = .normal

namespace Run

open State

variable {α β : Type} {good lines lines' : SourceLine → Prop} {before between : State → Prop}

/-- Started in a state that satisfies `before`, the run records only commands that cite good lines,
and ends in a state that satisfies `after` unless it stops early. -/
def Citing (good : SourceLine → Prop) (before : State → Prop) (after : α → State → Prop)
    (m : Run α) : Prop :=
  ∀ s, before s →
    (∃ cs, (final m s).recorder.log = s.recorder.log ++ cs ∧
      ∀ c ∈ cs, ∃ l, good l ∧ c.cited = l.text) ∧
    ∀ a s', m s = .ok a s' → after a s'

theorem Citing.mono {m : Run α} {after after' : α → State → Prop} {before' : State → Prop}
    (h : Citing good before after m) (hbefore : ∀ s, before' s → before s)
    (hafter : ∀ a s, after a s → after' a s) : Citing good before' after' m := fun s hs =>
  have ⟨hlog, hend⟩ := h s (hbefore _ hs)
  ⟨hlog, fun a s' hok => hafter a s' (hend a s' hok)⟩

theorem citing_congr {m n : Run α} {after : α → State → Prop} (hm : ∀ s, before s → m s = n s)
    (h : Citing good before after n) : Citing good before after m := by
  intro s hs
  rw [final, hm s hs]
  exact h s hs

/-- A run that does not jump keeps control going on normally. -/
theorem Citing.normally {m : Run α} (h : Citing good (On lines) (fun _ => On lines') m)
    (hm : FallsThrough m) : Citing good (Ready lines) (fun _ => Ready lines') m := by
  rintro s ⟨hs, hflow⟩
  obtain ⟨hlog, hend⟩ := h s hs
  refine ⟨hlog, fun a s' hok => ⟨hend a s' hok, ?_⟩⟩
  rw [← final_of_ok hok]
  exact hm hflow

/-! ## Steps -/

/-- A run that leaves the recorder alone. -/
theorem citing_of_eq {m : Run α} (hm : ∀ s, (final m s).recorder = s.recorder) :
    Citing good (On lines) (fun _ => On lines) m := by
  intro s hs
  refine ⟨⟨[], by rw [hm, List.append_nil], List.forall_mem_nil _⟩, fun a s' hok => ?_⟩
  change lines s'.recorder.line
  rw [← final_of_ok hok, hm]
  exact hs

theorem citing_pure {after : α → State → Prop} (a : α) (h : ∀ s, before s → after a s) :
    Citing good before after (pure a) := by
  intro s hs
  refine ⟨⟨[], (List.append_nil _).symm, List.forall_mem_nil _⟩, fun a s' hok => ?_⟩
  cases hok
  exact h s hs

/-- A run that stops without recording anything. -/
theorem citing_of_stop {m : Run α} {after : α → State → Prop} {stop : State → Stop}
    (hm : ∀ s, m s = .error (stop s) s) : Citing good before after m := by
  intro s _
  refine ⟨⟨[], by rw [final_of_error (hm s), List.append_nil], List.forall_mem_nil _⟩,
    fun a s' hok => ?_⟩
  rw [hm] at hok
  cases hok

/-- A line is marked, whatever was marked before. -/
theorem citing_setLine (line : SourceLine) :
    Citing good before (fun _ => On (· = line)) (Run.setLine line) := by
  intro s _
  refine ⟨⟨[], (List.append_nil _).symm, List.forall_mem_nil _⟩, fun a s' hok => ?_⟩
  cases hok
  rfl

theorem citing_countGuard (settings : Settings) :
    Citing good (On lines) (fun _ => On lines) (countGuard settings) :=
  citing_of_eq fun s => by
    obtain ⟨guards, h⟩ := final_countGuard settings s
    rw [h]

/-- If a loop goes on, then control goes on normally. -/
theorem citing_goesOn : Citing good (On lines)
    (fun again s => On lines s ∧ (again = true → s.flow = .normal)) goesOn := by
  intro s hs
  rw [final, goesOn_apply]
  have hsame : ∃ cs, s.recorder.log = s.recorder.log ++ cs ∧
      ∀ c ∈ cs, ∃ l, good l ∧ c.cited = l.text :=
    ⟨[], (List.append_nil _).symm, List.forall_mem_nil _⟩
  rcases s.flow with _ | (_ | _) | value <;> exact ⟨hsame, by
    rintro again s' ⟨⟩
    exact ⟨hs, by simp⟩⟩

/-- What is executed only if control goes on normally. -/
theorem citing_proceed {m : Run Unit} {after : State → Prop}
    (h : Citing good (fun s => before s ∧ s.flow = .normal) (fun _ => after) m)
    (hskip : ∀ s, before s → s.flow ≠ .normal → after s) :
    Citing good before (fun _ => after) (do if (← flow).isNormal then m) := by
  intro s hs
  rw [final, proceed_apply]
  by_cases hflow : s.flow = .normal
  · rw [if_pos (Flow.isNormal_iff.2 hflow)]
    exact h s ⟨hs, hflow⟩
  · rw [if_neg fun h => hflow (Flow.isNormal_iff.1 h)]
    refine ⟨⟨[], (List.append_nil _).symm, List.forall_mem_nil _⟩, fun a s' hok => ?_⟩
    cases hok
    exact hskip s hs hflow

/-- A run that performs at most one operation on a good line, and marks no other. -/
theorem citing_of_perform {m : Run α} (hm : ∀ s, (final m s).recorder = s.recorder ∨
    ∃ op : Operation, (∀ line, op ≠ .setLine line) ∧
      (final m s).recorder = s.recorder.perform op) :
    Citing good (On good) (fun _ => On good) m := by
  intro s hs
  rcases hm s with heq | ⟨op, hop, hperform⟩
  · refine ⟨⟨[], by rw [heq, List.append_nil], List.forall_mem_nil _⟩, fun a s' hok => ?_⟩
    change good s'.recorder.line
    rw [← final_of_ok hok, heq]
    exact hs
  · obtain ⟨hlog, hcited⟩ := s.recorder.log_perform op
    refine ⟨⟨(s.recorder.issued op).filter (s.recorder.keeps op), by rw [hperform, hlog],
      fun c hc => ?_⟩, fun a s' hok => ?_⟩
    · exact ⟨s.recorder.line, hs, hcited c (List.mem_filter.1 hc).1⟩
    · rw [final_of_ok hok] at hperform
      change good s'.recorder.line
      rw [hperform, (s.recorder.perform_fields op).2 hop]
      exact hs

theorem EvalStep.citing {V : Vocabulary} {m : Run α} (h : EvalStep V m) :
    Citing good (On good) (fun _ => On good) m := by
  refine citing_of_perform fun s => ?_
  have heffect := h.effect s
  generalize final m s = t at heffect
  cases heffect with
  | none => exact .inl rfl
  | perform op hop => exact .inr ⟨op, hop, rfl⟩
  | assign value hb hconstant => exact .inl rfl

theorem ExecStep.citing {V : Vocabulary} (hV : ∀ line, V.lines line → good line) {m : Run α}
    (h : ExecStep V m) : Citing good (On good) (fun _ => On good) m := by
  cases h with
  | malformed message column line => exact citing_of_eq fun _ => rfl
  | currentLine => exact citing_of_eq fun _ => rfl
  | setLine line hline =>
    refine (citing_setLine line).mono (fun _ => id) ?_
    rintro _ _ rfl
    exact hV _ hline
  | flow => exact citing_of_eq fun _ => rfl
  | setFlow f => exact citing_of_eq fun _ => rfl
  | declare name b => exact citing_of_eq fun _ => rfl
  | createSequence kind name =>
    exact citing_of_perform fun _ => .inr ⟨.createSequence kind name, fun _ => nofun, rfl⟩
  | createArray name size init =>
    refine citing_of_perform fun s => .inr ⟨.createArray name size init, fun _ => nofun, ?_⟩
    rw [final_ofStop (createArray_apply name size init s)]

/-! ## Runs that are put together -/

theorem Citing.bind {m : Run α} {f : α → Run β} {between : α → State → Prop}
    {after : β → State → Prop} (hm : Citing good before between m)
    (hf : ∀ a, Citing good (between a) after (f a)) : Citing good before after (m >>= f) := by
  intro s hs
  obtain ⟨⟨cs, hcs, hcited⟩, hend⟩ := hm s hs
  cases hms : m s with
  | error e t =>
    have hbind : (m >>= f) s = .error e t := by rw [bind_apply, hms]
    rw [final_of_error hms] at hcs
    refine ⟨⟨cs, by rw [final_of_error hbind, hcs], hcited⟩, fun b s' hok => ?_⟩
    rw [hbind] at hok
    cases hok
  | ok a t =>
    have hbind : (m >>= f) s = f a t := by rw [bind_apply, hms]
    rw [final_of_ok hms] at hcs
    obtain ⟨⟨cs', hcs', hcited'⟩, hend'⟩ := hf a t (hend a t hms)
    refine ⟨⟨cs ++ cs', ?_, List.forall_mem_append.2 ⟨hcited, hcited'⟩⟩, fun b s' hok => ?_⟩
    · rw [final_bind_of_ok hms, hcs', hcs, List.append_assoc]
    · rw [hbind] at hok
      exact hend' b s' hok

theorem Citing.bracket {m : Run α} {after after' : α → State → Prop}
    (h : Citing good before after m)
    (enter leave : CallStack → CallStack) (settle : Flow → Flow)
    (hbefore : ∀ s stack, before s → before { s with stack })
    (hafter : ∀ a s stack, after a s → after' a { s with stack, flow := settle s.flow }) :
    Citing good before after' (bracket enter leave settle m) := by
  intro s hs
  obtain ⟨hlog, hend⟩ := h _ (hbefore s (enter s.stack) hs)
  refine ⟨by rw [final_bracket]; exact hlog, fun a s' hok => ?_⟩
  rw [Run.bracket] at hok
  cases hms : m { s with stack := enter s.stack } with
  | error e t =>
    rw [hms] at hok
    cases hok
  | ok b t =>
    rw [hms] at hok
    cases hok
    exact hafter _ _ _ (hend _ t hms)

theorem Citing.inScope {m : Run α} {after : α → State → Prop} (h : Citing good before after m)
    (hbefore : ∀ s stack, before s → before { s with stack })
    (hafter : ∀ a s stack, after a s → after a { s with stack }) :
    Citing good before after (inScope m) := by
  rw [inScope_eq_bracket]
  exact h.bracket _ _ _ hbefore hafter

theorem Citing.inCall {m : Run Unit} (h : Citing good (Ready lines) (fun _ => On lines') m)
    (function : String) : Citing good (Ready lines) (fun _ _ => True) (inCall function m) := by
  rw [inCall_eq_bracket]
  refine Citing.bracket (h.bind fun _ => ?_) _ _ _ (fun _ _ => id) fun _ _ _ => id
  exact (citing_of_eq fun _ => rfl).mono (fun _ => id) fun _ _ _ => trivial

/-- What a loop does as long as it goes on is started as the loop is. -/
theorem citing_iterate {turn : Run Bool} {after : State → Prop}
    (h : Citing good before (fun again s => if again then before s else after s) turn) :
    ∀ turns, Citing good before (fun _ => after) (iterate turn turns)
  | 0 => citing_of_stop fun _ => rfl
  | turns + 1 => by
    refine h.bind fun again => ?_
    cases again with
    | false => exact citing_pure () fun _ => id
    | true => exact citing_iterate h turns

/-- All names, but only good lines. -/
def onLines (good : SourceLine → Prop) : Vocabulary where
  names := fun _ => True
  functions := fun _ => True
  lines := good
  counted := False

theorem onLines_has (good : SourceLine → Prop) (m : Mention) : (onLines good).Has m := by
  cases m <;> exact trivial

/-- **Declarations and expressions on a good line** cite it, if calls do, and are followed by the
next statement on a good line. -/
theorem ready_straightLaw (good : SourceLine → Prop) (x : Horizon) :
    StraightLaw (onLines good) x fun m => Citing good (Ready good) (fun _ => Ready good) m where
  evalStep h := h.citing.normally h.fallsThrough
  countGuard := (citing_countGuard x).normally (fallsThrough_law x).countGuard
  bind h hf := h.bind hf
  setLine line hline :=
    have hcites : Citing good (On good) (fun _ => On good) (Run.setLine line) :=
      (ExecStep.setLine line (V := onLines good) hline).citing fun _ => id
    hcites.normally ((fallsThrough_straightLaw x).setLine line trivial)
  flow := (citing_of_eq fun _ => rfl).normally (fallsThrough_straightLaw x).flow
  declare name b :=
    (citing_of_eq fun _ => rfl).normally ((fallsThrough_straightLaw x).declare name b)
  createSequence kind name :=
    have hcites : Citing good (On good) (fun _ => On good) (Run.createSequence kind name) :=
      (ExecStep.createSequence kind name (V := onLines good)).citing fun _ => id
    hcites.normally ((fallsThrough_straightLaw x).createSequence kind name)
  createArray name size init :=
    have hcites : Citing good (On good) (fun _ => On good) (Run.createArray name size init) :=
      (ExecStep.createArray name size init (V := onLines good)).citing fun _ => id
    hcites.normally ((fallsThrough_straightLaw x).createArray name size init)

/-! ## Calls -/

theorem citing_bindParams : ∀ (params : List String) (args : List Value),
    Citing good (Ready lines) (fun _ => Ready lines) (bindParams params args)
  | [], _ => citing_pure () fun _ => id
  | _ :: _, [] => citing_pure () fun _ => id
  | _ :: params, _ :: args => by
    have hdeclare : ∀ name b,
        Citing good (Ready lines) (fun _ => Ready lines) (Run.declare name b) := fun _ _ =>
      (citing_of_eq fun _ => rfl).normally (fallsThrough_of_final fun _ => rfl)
    exact (hdeclare _ _).bind fun _ => citing_bindParams params args

theorem citing_leave (caller : SourceLine) :
    ∀ flow : Flow, Citing good before (fun _ _ => True) (flow.leave caller)
  | .jump _ => citing_of_stop fun _ => rfl
  | .normal | .ret _ => (citing_setLine caller).bind fun _ => citing_pure _ fun _ _ => trivial

end Run

end Stepwise
