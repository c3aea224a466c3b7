import Stepwise.Proofs.Program.Starts
import Stepwise.Proofs.Run.Citing
import Stepwise.Proofs.Run.Lockstep
import Stepwise.Proofs.Run.Moments

/-!
# What a loop header cites

A command cites the line that was marked last, and a loop marks its line once, before it
starts.  Its header is evaluated again after each execution of the body, and cites what the body
has marked by then.

* `Expr.commands` are the commands that are recorded while an expression is evaluated.
  `Callee.unrecorded` takes away what calls record; evaluated with such calls, an expression records
  its own commands, and these are a part of those that it really records
  (`Run.ownCommands_cite`).
* `Stmt.HeaderAt` says in which states, and after how many executions of the body, an expression
  from the header of a loop is evaluated.
* `Run.Stays lines` is the law of runs that are on one of these lines at the end if they were at the
  start.  Calls obey it whatever they mark (`Program.stays_callee`).
* `Program.stands_of_reaches`: whenever the run of a program begins a loop, the line of its first
  token has just been marked.
* `Program.headers_cite`: a header cites the line of its loop as long as the loop has marked no
  other, so always before its body is executed for the first time.
* `Program.header_cites_body` is a header that cites the line of a statement in the body.
-/

set_option autoImplicit false

namespace Stepwise

open Recorder (Operation)
open State

/-! ## The own commands of an expression -/

/-- The commands that are recorded while an expression is evaluated. -/
def Expr.commands (settings : Settings) (c : Callee) (e : Expr) (s : State) : List Command :=
  ((e.eval settings c).final s).recorder.log.drop s.recorder.log.length

/-- The same calls, of which nothing is recorded. -/
def Callee.unrecorded (c : Callee) : Callee := fun name args s =>
  match c name args s with
  | .ok v s' => .ok v { s' with recorder := { s'.recorder with commands := s.recorder.commands } }
  | .error e s' =>
    .error e { s' with recorder := { s'.recorder with commands := s.recorder.commands } }

/-- The commands that are recorded while an expression is evaluated, other than within calls of
functions. -/
def Expr.ownCommands (settings : Settings) (c : Callee) (e : Expr) (s : State) : List Command :=
  e.commands settings c.unrecorded s

namespace Run

variable {α β : Type}

/-- Two runs with alike recorders that record under the same option. -/
def Level (s t : State) : Prop :=
  Abreast Eq s t ∧ s.recorder.suppress = t.recorder.suppress

theorem Level.refl (s : State) : Level s s :=
  ⟨⟨⟨rfl, rfl⟩, rfl, rfl, rfl⟩, rfl⟩

/-- The second of two runs records a part of what the first does. -/
def withholding : Tie where
  before := Level
  after s t s' t' := Level s' t' ∧
    ∃ cs own, s'.recorder.log = s.recorder.log ++ cs ∧ t'.recorder.log = t.recorder.log ++ own ∧
      own.Sublist cs
  line h := h.1.recorder.line
  guards h := h.1.guards
  flow h := h.1.flow
  refl h := ⟨h, [], [], (List.append_nil _).symm, (List.append_nil _).symm, .slnil⟩
  trans := by
    rintro s t s' t' s'' t'' ⟨-, cs, own, hs, ht, hsub⟩ ⟨h, cs', own', hs', ht', hsub'⟩
    refine ⟨h, cs ++ cs', own ++ own', ?_, ?_, hsub.append hsub'⟩
    · rw [hs', hs, List.append_assoc]
    · rw [ht', ht, List.append_assoc]
  next _ h := h.1
  count h _ := ⟨⟨⟨h.1.recorder, h.1.stack, rfl, h.1.flow⟩, h.2⟩, [], [],
    (List.append_nil _).symm, (List.append_nil _).symm, .slnil⟩
  direct h _ := ⟨⟨⟨h.1.recorder, h.1.stack, h.1.guards, rfl⟩, h.2⟩, [], [],
    (List.append_nil _).symm, (List.append_nil _).symm, .slnil⟩

/-- Runs that perform the same operations record the same. -/
theorem withholding_of_recording {m n : Run α} (h : Together (recording Eq) m n) :
    Together withholding m n := by
  rintro s t ⟨hst, hsuppress⟩
  refine (h s t hst).imp fun s' t' hafter => ?_
  have hnext := (recording Eq).next hst hafter
  obtain ⟨ops, hs, ht⟩ := hafter.operations
  have hlog := s.recorder.log_performAll ops
  have hlog' := t.recorder.log_performAll ops
  rw [← hst.recorder.history, ← hsuppress] at hlog'
  refine ⟨⟨hnext, ?_⟩, _, _, by rw [hs, hlog], by rw [ht, hlog'], List.Sublist.refl _⟩
  rw [hs, ht, Recorder.suppress_performAll, Recorder.suppress_performAll, hsuppress]

/-- A call of which nothing is recorded does the same otherwise. -/
theorem withholding_unrecorded {c : Callee} {name : String} {args : List Value}
    (h : Together (recording Eq) (c name args) (c name args)) :
    Together withholding (c name args) (c.unrecorded name args) := by
  intro s t hst
  have hends := withholding_of_recording h s t hst
  rw [Callee.unrecorded]
  generalize c name args s = r at hends
  generalize c name args t = r' at hends
  have hafter : ∀ s' t', withholding.after s t s' t' → withholding.after s t s'
      { t' with recorder := { t'.recorder with commands := t.recorder.commands } } := by
    rintro s' t' ⟨⟨hst', hsuppress⟩, cs, -, hs, -, -⟩
    have halike := hst'.recorder
    exact ⟨⟨⟨⟨halike.line, halike.containers⟩, hst'.stack, hst'.guards, hst'.flow⟩, hsuppress⟩,
      cs, [], hs, (List.append_nil _).symm, List.nil_sublist cs⟩
  cases hends with
  | ok v h => exact .ok v (hafter _ _ h)
  | error e h => exact .error e (hafter _ _ h)

/-- A call that ends on the line of its caller does so too when nothing of it is recorded, and then
there is nothing that it could cite. -/
theorem citing_unrecorded {c : Callee} {name : String} {args : List Value}
    (h : KeepsLine (c name args)) (good : SourceLine → Prop) :
    Citing good (On good) (fun _ => On good) (c.unrecorded name args) := by
  intro s hs
  rw [final, Callee.unrecorded]
  cases hcall : c name args s with
  | error e t =>
    exact ⟨⟨[], (List.append_nil _).symm, List.forall_mem_nil _⟩, by rintro a s' ⟨⟩⟩
  | ok v t =>
    refine ⟨⟨[], (List.append_nil _).symm, List.forall_mem_nil _⟩, ?_⟩
    rintro a s' ⟨⟩
    change good t.recorder.line
    rw [h hcall]
    exact hs

/-- What holds of evaluations with and without the commands of calls, on the line `l`. -/
theorem cites_congruence (l : SourceLine) (x : Horizon) :
    EvalCongruence (onLines (· = l)) x x fun m n =>
      Together withholding m n ∧ Citing (· = l) (On (· = l)) (fun _ => On (· = l)) n where
  evalStep h :=
    ⟨withholding_of_recording (together_evalStep (CallStack.agreement_eq _) h), h.citing⟩
  countGuard := ⟨together_countGuard rfl, citing_countGuard x⟩
  bind h hfg := ⟨h.1.bind fun a => (hfg a).1, h.2.bind fun a => (hfg a).2⟩

/-- What an expression records on the line `l`, other than within calls, cites it; and it is a part
of all that is recorded while the expression is evaluated. -/
theorem ownCommands_cite (p : Program) (x : Horizon) (depth : Nat) (e : Expr) {l : SourceLine}
    {s : State} (hs : s.recorder.line = l) :
    (∀ cmd ∈ e.ownCommands x (p.callee x depth) s, cmd.cited = l.text) ∧
      (e.ownCommands x (p.callee x depth) s).Sublist (e.commands x (p.callee x depth) s) := by
  have hc : ∀ name, (onLines (· = l)).functions name → ∀ args,
      Together withholding (p.callee x depth name args)
          (Callee.unrecorded (p.callee x depth) name args) ∧
        Citing (· = l) (On (· = l)) (fun _ => On (· = l))
          (Callee.unrecorded (p.callee x depth) name args) := fun name _ args =>
    ⟨withholding_unrecorded (together_self p x depth name args),
      citing_unrecorded (keepsLine_callee p x depth name args) _⟩
  obtain ⟨htogether, hcites⟩ := (cites_congruence l x).eval hc e fun m _ => onLines_has _ m
  obtain ⟨-, cs, own, hcs, hown, hsub⟩ := (htogether s s (.refl s)).final
  obtain ⟨⟨own', hown', hcited⟩, -⟩ := hcites s hs
  -- both runs without calls are the same one, so what it records is what has been seen to cite `l`
  have hsame : own = own' := List.append_cancel_left (hown.symm.trans hown')
  have hcommands : e.commands x (p.callee x depth) s = cs := by
    rw [Expr.commands, hcs, List.drop_left]
  have hownCommands : e.ownCommands x (p.callee x depth) s = own := by
    rw [Expr.ownCommands, Expr.commands, hown, List.drop_left]
  rw [hcommands, hownCommands, hsame]
  refine ⟨fun cmd hcmd => ?_, hsame ▸ hsub⟩
  obtain ⟨_, rfl, htext⟩ := hcited cmd hcmd
  exact htext

/-! ## Runs that stay on their lines -/

/-- Started on one of these lines, the run ends on one of them, unless it stops early. -/
def Stays (lines : SourceLine → Prop) (m : Run α) : Prop :=
  ∀ ⦃s a s'⦄, s.On lines → m s = .ok a s' → s'.On lines

variable {lines : SourceLine → Prop}

theorem Citing.stays {m : Run α} (h : Citing lines (On lines) (fun _ => On lines) m) :
    Stays lines m :=
  fun _ _ _ hs hok => (h _ hs).2 _ _ hok

theorem KeepsLine.stays {m : Run α} (h : KeepsLine m) : Stays lines m := by
  intro s a s' hs hok
  rw [On, h hok]
  exact hs

theorem Stays.bind {m : Run α} {f : α → Run β} (hm : Stays lines m)
    (hf : ∀ a, Stays lines (f a)) : Stays lines (m >>= f) := by
  intro s b s' hs h
  obtain ⟨a, t, hms, h⟩ := bind_eq_ok h
  exact hf a (hm hs hms) h

theorem Stays.inScope {m : Run α} (h : Stays lines m) : Stays lines (inScope m) := by
  intro s a s' hs hok
  rw [Run.inScope] at hok
  split at hok
  · next hm =>
    cases hok
    have hentered : ({ s with stack := s.stack.pushScope } : State).On lines := hs
    exact (h hentered hm :)
  · cases hok

theorem stays_iterate {turn : Run Bool} (h : Stays lines turn) :
    ∀ turns, Stays lines (iterate turn turns)
  | 0 => fun _ _ _ _ => nofun
  | turns + 1 => by
    refine h.bind fun again => ?_
    cases again with
    | false =>
      rintro s _ _ hs ⟨⟩
      exact hs
    | true => exact stays_iterate h turns

/-- **What marks no other lines stays on them,** if calls do. -/
theorem stays_law (lines : SourceLine → Prop) (x : Horizon) :
    Law (onLines lines) x (Stays lines) where
  evalStep h := h.keepsLine.stays
  execStep h := (h.citing fun _ => id).stays
  countGuard := (citing_countGuard x).stays
  bind h hf := h.bind hf
  inScope h := h.inScope
  counts hcounted := hcounted.elim
  loop h _ := stays_iterate h x.turns

theorem stays_goesOn : Stays lines goesOn := by
  have hcites : Citing lines (On lines)
      (fun again s => On lines s ∧ (again = true → s.flow = .normal)) goesOn := citing_goesOn
  exact fun _ _ _ hs hok => ((hcites _ hs).2 _ _ hok).1

end Run

open Run

/-! ## Headers -/

section

variable (x : Horizon) (c : Callee)

/-- The expressions in the header of a loop that is started in the state `s`: each with the number
of executions of the body before it is evaluated, and the state in which it is.  The condition of a
`while` or `for` loop is evaluated before each turn, that of a `do` loop after the body, and the
increments of a `for` loop one after another after the body. -/
inductive Stmt.HeaderAt : Stmt → State → Nat → Expr → State → Prop
  | whileTest {condition : Expr} {body : List Stmt} {n : Nat} {s t : State}
      (hturns : Turns ((Stmt.whileLoop condition body).turn x c) n s t) :
      HeaderAt (.whileLoop condition body) s n condition t
  | doTest {body : List Stmt} {condition : Expr} {n : Nat} {s t u v : State}
      (hturns : Turns ((Stmt.doWhile body condition).turn x c) n s t)
      (hbody : inScope (Stmt.execAll x c body) t = .ok () u) (hgoesOn : goesOn u = .ok true v) :
      HeaderAt (.doWhile body condition) s (n + 1) condition v
  | forTest {init body : List Stmt} {condition : Expr} {increment : List Expr} {n : Nat}
      {s t u : State}
      (hinit : Stmt.execAll x c init { s with stack := s.stack.pushScope } = .ok () t)
      (hturns : Turns ((Stmt.forLoop init condition increment body).turn x c) n t u) :
      HeaderAt (.forLoop init condition increment body) s n condition u
  | forIncrement {init body : List Stmt} {condition e : Expr} {before after : List Expr} {n : Nat}
      {s t u v w y z : State} {values : List Value}
      (hinit : Stmt.execAll x c init { s with stack := s.stack.pushScope } = .ok () t)
      (hturns : Turns ((Stmt.forLoop init condition (before ++ e :: after) body).turn x c) n t u)
      (htest : condition.test x c u = .ok true v)
      (hbody : inScope (Stmt.execAll x c body) v = .ok () w) (hgoesOn : goesOn w = .ok true y)
      (hbefore : Expr.evalAll x c before y = .ok values z) :
      HeaderAt (.forLoop init condition (before ++ e :: after) body) s (n + 1) e z

end

section

variable {x : Horizon} {c : Callee} {lines : SourceLine → Prop}

theorem Turns.on {turn : Run Bool} (h : Stays lines turn) {n : Nat} {s t : State}
    (hturns : Turns turn n s t) (hs : s.On lines) : t.On lines := by
  induction hturns with
  | none s => exact hs
  | more hturn _ ih => exact ih (h hs hturn)

variable (hc : ∀ name args, Stays lines (c name args))
include hc

theorem Expr.stays_test (e : Expr) : Stays lines (e.test x c) :=
  (stays_law lines x).test (fun name _ => hc name) fun m _ => onLines_has lines m

theorem Expr.stays_evalAll (es : List Expr) : Stays lines (Expr.evalAll x c es) :=
  (stays_law lines x).evalAll (fun name _ => hc name) es fun m _ => onLines_has lines m

theorem Stmt.stays_execAll {stmts : List Stmt} (h : ∀ m ∈ Stmt.allLines stmts, lines m) :
    Stays lines (Stmt.execAll x c stmts) :=
  (stays_law lines x).execAll (fun name _ => hc name) stmts
    ⟨fun m _ => onLines_has lines m, h, False.elim⟩

theorem Stmt.stays_inits {init body : List Stmt} {condition : Expr} {increment : List Expr}
    (h : (Stmt.forLoop init condition increment body).placed = true) :
    Stays lines (Stmt.execAll x c init) := by
  obtain ⟨hinits, -⟩ := Bool.and_eq_true_iff.1 h
  refine Stmt.stays_execAll hc ?_
  rw [allLines_eq_nil fun s hs => ?_]
  · exact List.forall_mem_nil _
  · exact (isSimple_spec (Bool.and_eq_true_iff.1 (List.all_eq_true.1 hinits s hs)).1).2.2.1

/-- A loop whose body marks no other lines stays on them. -/
theorem Stmt.stays_turn {loop : Stmt} (h : ∀ m ∈ loop.lines, lines m) :
    Stays lines (loop.turn x c) := by
  have hon := (stays_law lines x).on
  have hcalls : ∀ name, (onLines lines).functions name → ∀ args,
      Stays lines (c name args) ∧ Stays lines (c name args) := fun name _ args =>
    ⟨hc name args, hc name args⟩
  have hany : ∀ e : Expr, ∀ m ∈ e.mentions, (onLines lines).Has m := fun _ m _ =>
    onLines_has lines m
  cases loop with
  | whileLoop condition body =>
    have hbody := (Stmt.stays_execAll (x := x) hc h).inScope
    exact (hon.whileTurn hcalls (hany condition) False.elim ⟨hbody, hbody⟩ (hon.pure ())).1.1
  | doWhile body condition =>
    have hbody := (Stmt.stays_execAll (x := x) hc h).inScope
    exact (hon.untilTurn hcalls (hany condition) False.elim ⟨hbody, hbody⟩).1.1
  | forLoop init condition increment body =>
    have hbody := (Stmt.stays_execAll (x := x) hc (List.forall_mem_append.1 h).2).inScope
    have hnext : Stays lines (do let _ ← Expr.evalAll x c increment) :=
      (Expr.stays_evalAll hc increment).bind fun _ _ _ _ hs hok => by
        cases hok
        exact hs
    exact (hon.whileTurn hcalls (hany condition) False.elim ⟨hbody, hbody⟩ ⟨hnext, hnext⟩).1.1
  | _ =>
    rintro s _ _ hs ⟨⟩
    exact hs

/-- **The line of a header** is that of its loop as long as the loop has marked no other. -/
theorem Stmt.on_of_headerAt {loop : Stmt} (hplaced : loop.placed = true) {n : Nat} {e : Expr}
    {s t : State} (h : loop.HeaderAt x c s n e t) (hmarks : n = 0 ∨ ∀ m ∈ loop.lines, lines m)
    (hs : s.On lines) : t.On lines := by
  have hentered : ({ s with stack := s.stack.pushScope } : State).On lines := hs
  rcases hmarks with rfl | hmarks
  · -- the first test comes right away, or after the first clause of a `for` loop
    cases h with
    | whileTest hturns =>
      cases hturns
      exact hs
    | forTest hinit hturns =>
      cases hturns
      exact Stmt.stays_inits hc hplaced hentered hinit
  · have hturn := Stmt.stays_turn (x := x) hc hmarks
    cases h with
    | whileTest hturns => exact hturns.on hturn hs
    | doTest hturns hbody hgoesOn =>
      have hstays := (Stmt.stays_execAll (x := x) hc hmarks).inScope
      exact stays_goesOn (hstays (hturns.on hturn hs) hbody) hgoesOn
    | forTest hinit hturns =>
      exact hturns.on hturn (Stmt.stays_inits hc hplaced hentered hinit)
    | @forIncrement _ _ condition _ before _ _ _ _ _ _ _ _ _ _ hinit hturns htest hbody hgoesOn
        hbefore =>
      have hstays := (Stmt.stays_execAll (x := x) hc (List.forall_mem_append.1 hmarks).2).inScope
      have hu := hturns.on hturn (Stmt.stays_inits hc hplaced hentered hinit)
      have hw := hstays (Expr.stays_test hc condition hu htest) hbody
      exact Expr.stays_evalAll hc before (stays_goesOn hw hgoesOn) hbefore

end

/-! ## Where loops are begun -/

/-- What a run begins has been placed behind good markers.  If it is a loop, then its marker is the
line that was marked last. -/
def Moment.Stands (good : SourceLine × Stmt → Prop) (m : Moment) : Prop :=
  match m.piece with
  | .stmts stmts => ∃ place, Stmt.allPlaced place stmts = true ∧
      (∀ y ∈ Stmt.allStarts stmts, good y) ∧
      (place = .behindMarker → ∀ s ∈ stmts.head?, s.acts = true → good (m.state.recorder.line, s))
  | .stmt s => s.placed = true ∧ (∀ y ∈ s.starts, good y) ∧
      (s.isLoop = true → good (m.state.recorder.line, s))
  | _ => True

theorem Piece.first?_cases {piece part : Piece} (h : piece.first? = some part) :
    (∃ s rest, piece = .stmts (s :: rest) ∧ part = .stmt s) ∨ (∃ e, part = .expr e) ∨
      (∃ es, part = .exprs es) ∨ ∃ e, part = .target e := by
  unfold Piece.first? at h
  split at h <;> cases h
  all_goals first
    | exact .inl ⟨_, _, rfl, rfl⟩
    | exact .inr (.inl ⟨_, rfl⟩)
    | exact .inr (.inr (.inl ⟨_, rfl⟩))
    | exact .inr (.inr (.inr ⟨_, rfl⟩))

namespace Program

variable {good : SourceLine × Stmt → Prop} {p : Program} {x : Horizon}

/-- A body of which the first statement marks a line. -/
theorem stands_of_unmarked {d : Nat} {stmts : List Stmt} {s : State} {held : List Value}
    (hplaced : Stmt.allPlaced .unmarked stmts = true)
    (hstarts : ∀ y ∈ Stmt.allStarts stmts, good y) :
    Moment.Stands good ⟨d, .stmts stmts, s, held⟩ :=
  ⟨.unmarked, hplaced, hstarts, nofun⟩

theorem stands_first {d : Nat} {stmt : Stmt} {rest : List Stmt} {s : State} {held : List Value}
    (h : Moment.Stands good ⟨d, .stmts (stmt :: rest), s, held⟩) :
    Moment.Stands good ⟨d, .stmt stmt, s, held⟩ := by
  obtain ⟨place, hplaced, hstarts, hhead⟩ := h
  rw [Stmt.allPlaced, Bool.and_eq_true, Bool.and_eq_true] at hplaced
  rw [Stmt.allStarts, List.forall_mem_append, List.forall_mem_append] at hstarts
  refine ⟨hplaced.2.1, hstarts.2.1, fun hloop => ?_⟩
  have hacts : stmt.acts = true := by
    cases stmt with
    | line => cases hloop
    | malformed => cases hloop
    | _ => rfl
  have hplace := hplaced.1
  rw [(Stmt.mayStand_of_acts place hacts rest).1, decide_eq_true_eq, if_pos hloop] at hplace
  exact hhead hplace stmt rfl hacts

theorem stands_proceed {d : Nat} {stmt : Stmt} {rest : List Stmt} {s t : State} {held : List Value}
    (h : Moment.Stands good ⟨d, .stmts (stmt :: rest), s, held⟩) {c : Callee}
    (hexec : stmt.exec x c s = .ok () t) : Moment.Stands good ⟨d, .stmts rest, t, held⟩ := by
  obtain ⟨place, hplaced, hstarts, -⟩ := h
  rw [Stmt.allPlaced, Bool.and_eq_true, Bool.and_eq_true] at hplaced
  rw [Stmt.allStarts, List.forall_mem_append, List.forall_mem_append] at hstarts
  refine ⟨stmt.standing, hplaced.2.2, hstarts.2.2, fun hstanding next hnext hacts => ?_⟩
  cases stmt with
  | line l =>
    cases hexec
    obtain ⟨rest, rfl⟩ := List.head?_eq_some_iff.1 hnext
    exact hstarts.1 (l, next) (by rw [Stmt.markedStart, if_pos hacts]; exact .head _)
  | _ => cases hstanding

/-- **From one moment to the next.** -/
theorem stands_of_enters (hp : ∀ f ∈ p.functions, Stmt.AllStand good f.body) {m n : Moment}
    (h : p.Enters x m n) (hm : m.Stands good) : n.Stands good := by
  cases h with
  | first h =>
    obtain ⟨stmt, rest, rfl, rfl⟩ | ⟨e, rfl⟩ | ⟨es, rfl⟩ | ⟨e, rfl⟩ := Piece.first?_cases h
    · exact stands_first hm
    · trivial
    · trivial
    · trivial
  | call _ hf _ _ =>
    have hbody := hp _ (List.mem_of_find?_eq_some hf)
    exact stands_of_unmarked hbody.placed hbody.starts
  | branch | whileBody | doBody | block => exact stands_of_unmarked hm.1 hm.2.1
  | @branchElse _ _ _ _ holds =>
    obtain ⟨hthen, helse⟩ := Bool.and_eq_true_iff.1 hm.1
    obtain ⟨hthen', helse'⟩ := List.forall_mem_append.1 hm.2.1
    cases holds with
    | false => exact stands_of_unmarked helse helse'
    | true => exact stands_of_unmarked hthen hthen'
  | @forInit _ init =>
    obtain ⟨hinits, -⟩ := Bool.and_eq_true_iff.1 hm.1
    have hsimple : ∀ s ∈ init, s.isSimple = true := fun s hs =>
      (Bool.and_eq_true_iff.1 (List.all_eq_true.1 hinits s hs)).1
    have htogether : Stmt.StandTogether good init := Stmt.standTogether_of_isSimple hsimple
    obtain ⟨hplaced, hstarts⟩ := Stmt.allPlaced_of_stands htogether.stands fun s hs =>
      (Stmt.isSimple_spec (hsimple s hs)).2.1
    exact ⟨.marked, hplaced, hstarts, nofun⟩
  | forBody =>
    obtain ⟨-, hbody⟩ := Bool.and_eq_true_iff.1 hm.1
    exact stands_of_unmarked hbody hm.2.1
  | proceed h _ => exact stands_proceed hm h
  | _ => trivial

theorem stands_start (h : p.AllStand good) : (p.callMain.start x).Stands good := by
  have hplaced : Stmt.allPlaced .marked p.callMain.body = true := by
    rcases p.body_callMain with hbody | hbody
    · rw [hbody]
      exact Stmt.allPlaced_of_unmarked h.body.placed _
    · rw [hbody]
      refine Stmt.allPlaced_append (Stmt.allPlaced_of_unmarked h.body.placed _)
        fun place hplace => ?_
      have hmarked : place ≠ .unmarked := by
        rcases hplace with rfl | hplace
        · nofun
        · exact hplace
      cases place with
      | unmarked => exact absurd rfl hmarked
      | _ => rfl
  have hstarts : ∀ y ∈ Stmt.allStarts p.callMain.body, good y := by
    rcases p.body_callMain with hbody | hbody
    · rw [hbody]
      exact h.body.starts
    · have hcall : Stmt.allStarts [.expr (.call "main" [])] = [] := rfl
      rw [hbody, Stmt.allStarts_append _ h.body.placed, hcall, List.append_nil]
      exact h.body.starts
  exact ⟨.marked, hplaced, hstarts, nofun⟩

/-- **Loops are begun on their lines.**  Whenever the run of a program that was read from a source
text begins a loop, the line on which the loop starts has just been marked. -/
theorem stands_of_reaches {source : String} {m : Moment} (h : (ofSource source).Reaches x m) :
    m.Stands (StandsAt source) := by
  obtain ⟨p, hp, hstand⟩ := allStand_ofSource source
  rw [hp] at h
  induction h with
  | refl => exact stands_start hstand
  | tail _ hstep ih =>
    refine stands_of_enters ?_ hstep ih
    rw [functions_callMain]
    exact hstand.functions

/-- **A loop header cites the line of its loop**, as long as the loop has marked no other line:
before its body is executed for the first time, and after that if all statements of the body start
on the line of the loop.

Let the run of a program that was read from a source text begin a loop.  The loop has been read from
the text, and the line that was marked last is that of the first token of the loop.  Whatever is
recorded from there on while an expression of the header is evaluated, other than within calls of
functions, cites this line. -/
theorem headers_cite (source : String) (x : Horizon) {m : Moment}
    (hm : (ofSource source).Reaches x m) {loop : Stmt} (hpiece : m.piece = .stmt loop)
    (hloop : loop.isLoop = true) :
    ∃ t, ReadAt source t loop ∧ m.state.recorder.line.number = t.location.line ∧
      ∀ {n : Nat} {e : Expr} {s : State},
        loop.HeaderAt x ((ofSource source).callee x m.depth) m.state n e s →
        (n = 0 ∨ ∀ marker ∈ loop.lines, marker.number = t.location.line) →
        (∀ cmd ∈ e.ownCommands x ((ofSource source).callee x m.depth) s,
            cmd.cited = lineText source t.location.line) ∧
          (e.ownCommands x ((ofSource source).callee x m.depth) s).Sublist
            (e.commands x ((ofSource source).callee x m.depth) s) := by
  have hstands := stands_of_reaches hm
  obtain ⟨depth, piece, state, held⟩ := m
  cases hpiece
  obtain ⟨hplaced, -, hmarker⟩ := hstands
  obtain ⟨t, hread, (hline : state.recorder.line = _)⟩ := hmarker hloop
  refine ⟨t, hread, by rw [hline], fun {n e s} hheader hmarks => ?_⟩
  have hc : ∀ name args, Stays (· = state.recorder.line)
      ((ofSource source).callee x depth name args) := fun name args =>
    (keepsLine_callee (ofSource source) x depth name args).stays
  have hlines : n = 0 ∨ ∀ marker ∈ loop.lines, marker = state.recorder.line := by
    refine hmarks.imp_right fun hnumbers marker hmem => ?_
    have htext : marker.text = lineText source marker.number :=
      Stmt.text_of_mem_lines loop hread.marked hmem
    have hnumber := hnumbers marker hmem
    obtain ⟨number, text⟩ := marker
    change text = lineText source number at htext
    change number = t.location.line at hnumber
    rw [hline, htext, hnumber]
  have hs : s.recorder.line = state.recorder.line :=
    Stmt.on_of_headerAt hc hplaced hheader hlines rfl
  have hcite := ownCommands_cite (ofSource source) x depth e hs
  rwa [hline] at hcite

/-! ### Two loops -/

/-- The top-level statements that are left after the first ones have been executed one by one, and
the state in which the next one is begun. -/
def afterFirst? (p : Program) (x : Horizon) : Nat → Option (List Stmt × State)
  | 0 => some (p.body, State.initial x)
  | k + 1 =>
    match afterFirst? p x k with
    | some (stmt :: rest, s) =>
      match stmt.exec x (p.callee x x.callDepth.toNat) s with
      | .ok _ t => if t.flow.isNormal then some (rest, t) else none
      | .error _ _ => none
    | _ => none

theorem reaches_of_afterFirst? :
    ∀ {k : Nat} {stmts : List Stmt} {s : State}, p.afterFirst? x k = some (stmts, s) →
      p.Reaches x ⟨x.callDepth.toNat, .stmts stmts, s, []⟩
  | 0, _, _, h => by
    cases h
    exact .refl
  | k + 1, _, _, h => by
    rw [afterFirst?] at h
    split at h
    · next stmt rest s hk =>
      split at h
      · next u t hexec =>
        split at h
        · next hflow =>
          cases h
          exact (reaches_of_afterFirst? hk).tail (.proceed hexec hflow)
        · cases h
      · cases h
    · cases h

/-- The condition of a `while` loop, and the state in which it is evaluated for the second time. -/
def secondTest? (x : Horizon) (c : Callee) (s : State) : Stmt → Option (Expr × State)
  | .whileLoop condition body =>
    match (Stmt.whileLoop condition body).turn x c s with
    | .ok true t => some (condition, t)
    | _ => none
  | _ => none

theorem headerAt_of_secondTest? {c : Callee} {s t : State} {loop : Stmt} {e : Expr}
    (h : secondTest? x c s loop = some (e, t)) :
    loop.isLoop = true ∧ loop.HeaderAt x c s 1 e t := by
  unfold secondTest? at h
  split at h
  · split at h
    · next hturn =>
      cases h
      exact ⟨rfl, .whileTest (.more hturn (.none _))⟩
    · cases h
  · cases h

/-- The next statement, if it is a loop that tests its condition a second time: with the state in
which it is begun, and with the condition and the state in which this is evaluated again. -/
def loopTestedTwice? (p : Program) (x : Horizon) (k : Nat) : Option (Stmt × State × Expr × State) :=
  match p.afterFirst? x k with
  | some (loop :: _, s) =>
    (secondTest? x (p.callee x x.callDepth.toNat) s loop).map fun (e, t) => (loop, s, e, t)
  | _ => none

theorem reaches_of_loopTestedTwice? {k : Nat} {loop : Stmt} {e : Expr} {s t : State}
    (h : p.loopTestedTwice? x k = some (loop, s, e, t)) :
    p.Reaches x ⟨x.callDepth.toNat, .stmt loop, s, []⟩ ∧ loop.isLoop = true ∧
      loop.HeaderAt x (p.callee x x.callDepth.toNat) s 1 e t := by
  unfold loopTestedTwice? at h
  split at h
  · next hk =>
    obtain ⟨⟨e, t⟩, htest, ⟨⟩⟩ := Option.map_eq_some_iff.1 h
    exact ⟨(reaches_of_afterFirst? hk).tail (.first rfl), headerAt_of_secondTest? htest⟩
  · cases h

/-- A loop on one line, whose condition inserts. -/
def loopOnLine : String :=
  "queue<int> q;\nbool more = true;\nwhile (q.push(1) || more) more = false;"

theorem headers_cite_loopOnLine :
    let p := ofSource loopOnLine
    let x : Horizon := Settings.horizon {}
    ∃ m loop t e s, p.Reaches x m ∧ m.piece = .stmt loop ∧ loop.isLoop = true ∧
      ReadAt loopOnLine t loop ∧ t.location.line = 3 ∧
      loop.HeaderAt x (p.callee x m.depth) m.state 1 e s ∧
      (∀ marker ∈ loop.lines, marker.number = t.location.line) ∧
      e.ownCommands x (p.callee x m.depth) s ≠ [] ∧
      ∀ cmd ∈ e.ownCommands x (p.callee x m.depth) s, cmd.cited = lineText loopOnLine 3 := by
  intro p x
  have hcheck : ((p.loopTestedTwice? x 5).any fun (loop, s, e, t) =>
      s.recorder.line.number = 3 && loop.lines.all (·.number = 3) &&
        !(e.ownCommands x (p.callee x x.callDepth.toNat) t).isEmpty) = true := by
    decide +kernel
  obtain ⟨⟨loop, s, e, u⟩, hloop, hcheck⟩ := (Option.any_eq_true _ _).1 hcheck
  obtain ⟨hcheck, hsome⟩ := Bool.and_eq_true_iff.1 hcheck
  obtain ⟨hline, hlines⟩ := Bool.and_eq_true_iff.1 hcheck
  obtain ⟨hreaches, hisLoop, hheader⟩ := reaches_of_loopTestedTwice? hloop
  obtain ⟨t, hread, hstarts, hcite⟩ := headers_cite loopOnLine x hreaches rfl hisLoop
  have ht : t.location.line = 3 := hstarts.symm.trans (of_decide_eq_true hline)
  have hmarkers : ∀ marker ∈ loop.lines, marker.number = t.location.line := by
    rw [ht]
    simpa using hlines
  refine ⟨_, loop, t, e, u, hreaches, rfl, hisLoop, hread, ht, hheader, hmarkers,
    fun hnil => ?_, ?_⟩
  · rw [hnil] at hsome
    cases hsome
  · rw [← ht]
    exact (hcite hheader (.inr hmarkers)).1

/-- The same loop with its body on a line of its own. -/
def loopOnLines : String :=
  "queue<int> q;\nbool more = true;\nwhile (q.push(1) || more)\n  more = false;"

/-- **A header cites the body.**  The run of the program begins a loop that starts on line 3.  When
its condition is evaluated for the second time, it records a command that cites line 4, where the
body is.  So of the two commands of the program, which are both recorded by the condition, only the
first cites the loop. -/
theorem header_cites_body :
    (let p := ofSource loopOnLines
    let x : Horizon := Settings.horizon {}
    ∃ m loop t e s, p.Reaches x m ∧ m.piece = .stmt loop ∧ loop.isLoop = true ∧
      ReadAt loopOnLines t loop ∧ t.location.line = 3 ∧
      loop.HeaderAt x (p.callee x m.depth) m.state 1 e s ∧
      ∃ cmd ∈ e.ownCommands x (p.callee x m.depth) s, cmd.cited ≠ lineText loopOnLines 3) ∧
    (trace loopOnLines).log.map (·.cited) = ["while (q.push(1) || more)", "more = false;"] := by
  refine ⟨?_, by decide +kernel⟩
  intro p x
  have hcheck : ((p.loopTestedTwice? x 5).any fun (loop, s, e, t) =>
      s.recorder.line.number = 3 &&
        (e.ownCommands x (p.callee x x.callDepth.toNat) t).any fun cmd =>
          cmd.cited ≠ lineText loopOnLines 3) = true := by
    decide +kernel
  obtain ⟨⟨loop, s, e, u⟩, hloop, hcheck⟩ := (Option.any_eq_true _ _).1 hcheck
  obtain ⟨hline, hcheck⟩ := Bool.and_eq_true_iff.1 hcheck
  obtain ⟨cmd, hcmd, hcited⟩ := List.any_eq_true.1 hcheck
  obtain ⟨hreaches, hisLoop, hheader⟩ := reaches_of_loopTestedTwice? hloop
  obtain ⟨-, -, hmarker⟩ := stands_of_reaches hreaches
  obtain ⟨t, hread, (hstarts : s.recorder.line = _)⟩ := hmarker hisLoop
  have ht : t.location.line = 3 := by
    have hnumber := of_decide_eq_true hline
    rwa [hstarts] at hnumber
  exact ⟨_, loop, t, e, u, hreaches, rfl, hisLoop, hread, ht, hheader, cmd, hcmd,
    of_decide_eq_true hcited⟩

end Program

end Stepwise
