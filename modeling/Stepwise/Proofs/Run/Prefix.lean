import Stepwise.Proofs.Run.Steady
import Stepwise.Proofs.Run.Within

/-!
# What has been recorded stays

A recorder only ever appends to its log, and nothing that a run does makes it go back: a fault and a
`return` pass through blocks, loops and calls without another command.  So statements that are put
after a program add to what it has recorded, or are never reached.

* `Stmt.execAll_append`: statements in a row are executed one list after the other, the second only
  if control goes on normally after the first.
* `Program.callee_congr`: what a call does depends on the functions of a program and not on its
  top-level statements.
* `Program.log_prefix` compares a program with one that has more statements after the same ones, and
  says of the moments of a run that the log grows from one to the next.
-/

set_option autoImplicit false

namespace Stepwise

open Run

theorem Stmt.execAll_append (x : Horizon) (c : Callee) (more : List Stmt) :
    ∀ (stmts : List Stmt) {s : State}, s.flow = .normal →
      Stmt.execAll x c (stmts ++ more) s = (do
        Stmt.execAll x c stmts
        if (← flow).isNormal then Stmt.execAll x c more) s
  | [], s, hs => by
    rw [List.nil_append, Stmt.execAll, pure_bind, proceed_apply, if_pos (Flow.isNormal_iff.2 hs)]
  | stmt :: rest, s, _ => by
    rw [List.cons_append, Stmt.execAll, Stmt.execAll, bind_assoc, bind_apply, bind_apply]
    cases stmt.exec x c s with
    | error e t => rfl
    | ok _ t =>
      dsimp only
      rw [proceed_apply, bind_apply, proceed_apply]
      by_cases hflow : t.flow.isNormal = true
      · rw [if_pos hflow, if_pos hflow, execAll_append x c more rest (Flow.isNormal_iff.1 hflow),
          bind_apply]
      · rw [if_neg hflow, if_neg hflow]
        dsimp only
        rw [proceed_apply, if_neg hflow]

namespace Program

theorem callee_congr {p q : Program} (h : p.functions = q.functions) (x : Horizon) :
    ∀ depth, p.callee x depth = q.callee x depth
  | 0 => by
    funext name args
    rw [callee_zero, callee_zero, function?, function?, h]
  | depth + 1 => by
    funext name args
    rw [callee_succ, callee_succ, callee_congr h x depth, function?, function?, h]

theorem drives_finish : Drives finish := by
  refine drives_of_eq fun s => ?_
  rw [final, finish_apply]
  cases s.flow <;> rfl

/-- The top-level statements end by a `return`. -/
def Returns (p : Program) (x : Horizon) : Prop :=
  ∃ v t, p.execBody x (State.initial x) = .ok () t ∧ t.flow = .ret v

theorem complete_of_returns {p : Program} {x : Horizon} (h : p.Returns x) :
    (p.executeWithin x).outcome = .complete := by
  obtain ⟨v, t, hbody, hflow⟩ := h
  have hexec : p.exec x (State.initial x) = .ok () { t with flow := .normal } := by
    change (p.execBody x >>= fun _ => finish) (State.initial x) = _
    rw [bind_apply, hbody]
    dsimp only
    rw [finish_apply, hflow]
  rw [executeWithin, hexec]

/-- A program with more top-level statements does the same, unless control goes on normally after
those of the shorter one: then the shorter program is done, and the longer one goes on. -/
theorem exec_append {p q : Program} {more : List Stmt} (hfunctions : p.functions = q.functions)
    (hbody : q.body = p.body ++ more) (x : Horizon) {s : State} (hs : s.flow = .normal) :
    q.exec x s = p.exec x s ∨
      ∃ t, p.execBody x s = .ok () t ∧ t.flow = .normal ∧ p.exec x s = .ok () t ∧
        t.recorder.Leads (final (q.exec x) s).recorder := by
  have hexec (p : Program) : p.exec x = p.execBody x >>= fun _ => finish := rfl
  have hq : q.execBody x s = (do
      p.execBody x
      if (← flow).isNormal then Stmt.execAll x (p.callee x x.callDepth.toNat) more) s := by
    rw [execBody, hbody, ← callee_congr hfunctions, Stmt.execAll_append x _ more _ hs]
    rfl
  have hmore : Drives (Stmt.execAll x (p.callee x x.callDepth.toNat) more) :=
    (Stmt.sound_execAll (p.sound_callee x x.callDepth.toNat) more).drives
  rw [hexec, hexec, final, bind_apply, hq, bind_apply, bind_apply]
  cases hp : p.execBody x s with
  | error e t => exact .inl rfl
  | ok _ t =>
    dsimp only
    rw [proceed_apply]
    by_cases hflow : t.flow = .normal
    · rw [if_pos (Flow.isNormal_iff.2 hflow)]
      have hleads := (hmore.bind fun _ => drives_finish) t
      rw [final, bind_apply] at hleads
      refine .inr ⟨t, rfl, hflow, ?_, hleads⟩
      rw [finish_apply, hflow]
      dsimp only
      rw [← hflow]
    · rw [if_neg fun h => hflow (Flow.isNormal_iff.1 h)]
      exact .inl rfl

/-- The log of a state that a run is in is that of its beginning, with more commands after it. -/
theorem log_le_of_enters {p : Program} {x : Horizon} {m n : Moment}
    (h : Relation.ReflTransGen (p.Enters x) m n) :
    m.state.recorder.log <+: n.state.recorder.log ∧
      n.state.recorder.log <+: (p.stateAfter x n).recorder.log ∧
      (p.stateAfter x n).recorder.log <+: (p.stateAfter x m).recorder.log :=
  have hcomes := comes_of_enters h
  ⟨hcomes.before.log, Recorder.Leads.log ((p.sound_runAt x n).drives n.state),
    hcomes.after.log⟩

/-- **What has been recorded stays.**  Let one program have the same functions as another and the
same top-level statements, with `more` after them.  However far their runs are followed:

* The log of the shorter program is a prefix of that of the longer one.
* If the shorter program is stopped, or its statements end by a `return`, the executions are the
  same.
* In the course of a run, the log of the state in which a piece of the program is begun is a prefix
  of the log with which every piece is begun that is evaluated within it; and what such a piece
  leaves behind is a prefix of what the whole leaves behind.

The first two also hold of what the programs come to when every loop is followed for as long as it
goes on. -/
theorem log_prefix (functions : List Function) (stmts more : List Stmt)
    (entry entry' : Option String) (x : Horizon) :
    let p : Program := { functions, body := stmts, entry }
    let q : Program := { functions, body := stmts ++ more, entry := entry' }
    (p.executeWithin x).log <+: (q.executeWithin x).log ∧
    ((p.executeWithin x).isComplete = false ∨ p.Returns x →
      q.executeWithin x = p.executeWithin x) ∧
    (∀ m n, q.Reaches x m → Relation.ReflTransGen (q.Enters x) m n →
      m.state.recorder.log <+: n.state.recorder.log ∧
        n.state.recorder.log <+: (q.stateAfter x n).recorder.log ∧
        (q.stateAfter x n).recorder.log <+: (q.stateAfter x m).recorder.log) ∧
    ∀ e, p.EndsWith x e →
      (∀ e', q.EndsWith x e' → e.log <+: e'.log) ∧
      (e.isComplete = false ∨ (∃ turns, p.Returns (x.within turns)) → q.EndsWith x e) := by
  intro p q
  have hlog : ∀ x : Horizon, (p.executeWithin x).log <+: (q.executeWithin x).log := by
    intro x
    rcases exec_append (p := p) (q := q) rfl rfl x (s := State.initial x) rfl with
      heq | ⟨t, -, -, hp, hleads⟩
    · simp only [executeWithin, heq, List.prefix_rfl]
    · rw [log_executeWithin, log_executeWithin, finalState, final_of_ok hp]
      exact hleads.log
  have hsame : ∀ x : Horizon, (p.executeWithin x).isComplete = false ∨ p.Returns x →
      q.executeWithin x = p.executeWithin x := by
    intro x h
    rcases exec_append (p := p) (q := q) rfl rfl x (s := State.initial x) rfl with
      heq | ⟨t, hbody, hnormal, hp, -⟩
    · rw [executeWithin, executeWithin, heq]
    · rcases h with hstopped | ⟨v, t', hreturn, hflow⟩
      · rw [executeWithin, hp] at hstopped
        cases hstopped
      · rw [hbody] at hreturn
        cases hreturn
        rw [hnormal] at hflow
        cases hflow
  refine ⟨hlog x, hsame x, fun m n _ h => log_le_of_enters h, fun e he => ⟨fun e' he' => ?_, ?_⟩⟩
  · -- both are followed as far as it takes for the one that goes on for longer
    obtain ⟨turns, rfl, rfl⟩ := he.within_common he'
    exact hlog _
  · rintro (hstopped | ⟨turns, hreturns⟩)
    · obtain ⟨hfinished, turns, rfl⟩ := he
      rw [← hsame _ (.inl hstopped)] at hfinished ⊢
      exact ⟨hfinished, turns, rfl⟩
    · have hcomplete := complete_of_returns hreturns
      rw [he.unique ⟨by simp [hcomplete], turns, rfl⟩]
      have heq := hsame _ (.inr hreturns)
      exact ⟨by simp [hcomplete], turns, heq⟩

/-- A program that fills a queue and returns. -/
def fillQueue : List Stmt :=
  [.construct "q" .queue, .expr (.method (.var "q") "push" [.literal (.int 1)]), .ret none]

/-- More statements after the `return` change nothing.  When it is reached, a command has been
recorded, which is there in the end. -/
theorem log_prefix_fillQueue :
    let p : Program := { body := fillQueue }
    let q : Program := { body := fillQueue ++ [.construct "r" .queue] }
    let x : Horizon := Settings.horizon {}
    p.Returns x ∧ q.executeWithin x = p.executeWithin x ∧
      ∃ n, q.Reaches x n ∧ n.piece = .stmts [.ret none, .construct "r" .queue] ∧
        n.state.recorder.log.length = 1 ∧
        n.state.recorder.log <+: (q.stateAfter x (q.start x)).recorder.log := by
  intro p q x
  have hreturns : p.Returns x := ⟨.undefined, _, rfl, rfl⟩
  have hprefix := log_prefix [] fillQueue [.construct "r" .queue] none none x
  have hreaches : ∃ n, q.Reaches x n ∧ n.piece = .stmts [.ret none, .construct "r" .queue] ∧
      n.state.recorder.log.length = 1 :=
    ⟨_, .tail (.single (.proceed rfl rfl)) (.proceed rfl rfl), rfl, rfl⟩
  obtain ⟨n, hn, hpiece, hlog⟩ := hreaches
  have hwithin := hprefix.2.2.1 (q.start x) n .refl hn
  exact ⟨hreturns, hprefix.2.1 (.inr hreturns), n, hn, hpiece, hlog,
    hwithin.2.1.trans hwithin.2.2⟩

end Program

end Stepwise
