import Stepwise.Proofs.Program.Starts
import Stepwise.Proofs.Run.Citing
import Stepwise.Proofs.Run.Prefix

/-!
# Commands can be located

A viewer finds the line that a command comes from by the text that the command cites.  This file
shows that it finds one for every command of a trace.

* `Stmt.citing_execAll`: statements that stand behind good markers cite good lines, from whatever
  line they start.  An error behind a marker may have been read at the end of the text, where there
  is no line to cite, but it stops the run before anything is recorded.
* `Program.citing_callee` says the same of calls, and `Program.citing_callMain` of whole programs.
* `trace_located` concludes that what a command cites is the trimmed text of a line on which a
  statement starts, and is found in the source text.
-/

set_option autoImplicit false

namespace Stepwise

open Run State

/-! ## Statements -/

namespace Stmt

variable {good : SourceLine → Prop} {x : Horizon} {c : Callee}

section

variable (hc : ∀ name args, Citing good (Ready good) (fun _ => Ready good) (c name args))
include hc

theorem citing_test (condition : Expr) :
    Citing good (Ready good) (fun _ => Ready good) (condition.test x c) :=
  (ready_straightLaw good x).test (fun name _ => hc name) fun m _ => onLines_has good m

theorem citing_evalAll (es : List Expr) :
    Citing good (Ready good) (fun _ => Ready good) (Expr.evalAll x c es) :=
  (ready_straightLaw good x).evalAll (fun name _ => hc name) es fun m _ => onLines_has good m

theorem citing_straight {stmt : Stmt} (hstraight : stmt.isStraight = true)
    (hlines : stmt.lines = []) :
    Citing good (Ready good) (fun _ => Ready good) (stmt.exec x c) :=
  (ready_straightLaw good x).exec (fun name _ => hc name) hstraight
    ⟨fun m _ => onLines_has good m, by rw [hlines]; exact List.forall_mem_nil _, False.elim⟩

theorem citing_inits {init : List Stmt}
    (h : (init.all fun s => s.isSimple && s.isStraight) = true) :
    Citing good (Ready good) (fun _ => Ready good) (execAll x c init) := by
  have hinit : ∀ s ∈ init, s.isSimple = true ∧ s.isStraight = true := fun s hs =>
    Bool.and_eq_true_iff.1 (List.all_eq_true.1 h s hs)
  have hlines : ∀ l ∈ allLines init, good l := by
    rw [allLines_eq_nil fun s hs => (isSimple_spec (hinit s hs).1).2.2.1]
    exact List.forall_mem_nil _
  exact (ready_straightLaw good x).execAll (fun name _ => hc name) (fun s hs => (hinit s hs).2)
    ⟨fun m _ => onLines_has good m, hlines, False.elim⟩

/-- After a turn another one can be taken, if the loop goes on. -/
theorem citing_whileTurn (condition : Expr) {body next : Run Unit}
    (hbody : Citing good (Ready good) (fun _ => On good) body)
    (hnext : Citing good (Ready good) (fun _ => Ready good) next) :
    Citing good (Ready good) (fun again s => if again then Ready good s else On good s)
      (whileTurn (condition.test x c) body next) := by
  refine (citing_test hc condition).bind fun holds => ?_
  cases holds with
  | false => exact citing_pure false fun _ h => h.1
  | true =>
    refine hbody.bind fun _ => citing_goesOn.bind fun again => ?_
    cases again with
    | false => exact citing_pure false fun _ h => h.1
    | true =>
      have hready := hnext.mono (fun s (h : On good s ∧ (true = true → _)) => ⟨h.1, h.2 rfl⟩)
        fun _ _ => id
      exact hready.bind fun _ => citing_pure true fun _ => id

theorem citing_untilTurn (condition : Expr) {body : Run Unit}
    (hbody : Citing good (Ready good) (fun _ => On good) body) :
    Citing good (Ready good) (fun again s => if again then Ready good s else On good s)
      (untilTurn body (condition.test x c)) := by
  refine hbody.bind fun _ => citing_goesOn.bind fun again => ?_
  cases again with
  | false => exact citing_pure false fun _ h => h.1
  | true =>
    refine (citing_test hc condition).mono (fun s h => ⟨h.1, h.2 rfl⟩) fun holds s h => ?_
    cases holds with
    | false => exact h.1
    | true => exact h

end

theorem citing_inScope {body : Run Unit} {lines lines' : SourceLine → Prop}
    (h : Citing good (Ready lines) (fun _ => On lines') body) :
    Citing good (Ready lines) (fun _ => On lines') (inScope body) :=
  h.inScope (fun _ _ => id) fun _ _ _ => id

mutual

/-- A statement on a good line cites good lines, and ends on one. -/
theorem citing_exec
    (hc : ∀ name args, Citing good (Ready good) (fun _ => Ready good) (c name args)) :
    ∀ stmt : Stmt, stmt.acts = true → stmt.placed = true → (∀ y ∈ stmt.starts, good y.1) →
      Citing good (Ready good) (fun _ => On good) (stmt.exec x c)
  | .declare _ _, _, _, _ | .construct _ _, _, _, _ | .array _ _ _, _, _, _ | .expr _, _, _, _ =>
    (citing_straight hc rfl rfl).mono (fun _ => id) fun _ _ h => h.1
  | .ret value, _, _, _ => by
    have hvalue : Citing good (Ready good) (fun _ => Ready good) (Expr.evalOption x c value) :=
      (ready_straightLaw good x).evalOption (fun name _ => hc name) fun m _ => onLines_has good m
    rw [exec]
    refine hvalue.bind fun v => ?_
    exact (citing_of_eq fun _ => rfl).mono (fun _ h => h.1) fun _ _ => id
  | .jump _, _, _, _ => (citing_of_eq fun _ => rfl).mono (fun _ h => h.1) fun _ _ => id
  | .branch condition thenBody, _, hplaced, hstarts => by
    have hthen := citing_inScope (citing_body hc thenBody hplaced hstarts)
    rw [exec]
    refine (citing_test hc condition).bind fun holds => ?_
    cases holds with
    | false => exact citing_pure () fun _ h => h.1
    | true => exact hthen
  | .branchElse condition thenBody elseBody, _, hplaced, hstarts => by
    obtain ⟨hplaced, hplaced'⟩ := Bool.and_eq_true_iff.1 hplaced
    obtain ⟨hstarts, hstarts'⟩ := List.forall_mem_append.1 hstarts
    have hthen := citing_inScope (citing_body hc thenBody hplaced hstarts)
    have helse := citing_inScope (citing_body hc elseBody hplaced' hstarts')
    rw [exec]
    refine (citing_test hc condition).bind fun holds => ?_
    cases holds with
    | false => exact helse
    | true => exact hthen
  | .whileLoop condition body, _, hplaced, hstarts => by
    have hbody := citing_inScope (citing_body hc body hplaced hstarts)
    rw [exec]
    exact citing_iterate (citing_whileTurn hc condition hbody (citing_pure () fun _ => id)) x.turns
  | .doWhile body condition, _, hplaced, hstarts => by
    have hbody := citing_inScope (citing_body hc body hplaced hstarts)
    rw [exec]
    exact citing_iterate (citing_untilTurn hc condition hbody) x.turns
  | .forLoop init condition increment body, _, hplaced, hstarts => by
    obtain ⟨hinits, hplaced⟩ := Bool.and_eq_true_iff.1 hplaced
    have hinit := citing_inits (x := x) hc hinits
    have hbody := citing_inScope (citing_body hc body hplaced hstarts)
    have hnext : Citing good (Ready good) (fun _ => Ready good)
        (do let _ ← Expr.evalAll x c increment) :=
      (citing_evalAll hc increment).bind fun _ => citing_pure () fun _ => id
    rw [exec]
    refine citing_inScope (hinit.bind fun _ => ?_)
    exact citing_iterate (citing_whileTurn hc condition hbody hnext) x.turns
  | .block body, _, hplaced, hstarts => by
    rw [exec]
    exact citing_inScope (citing_body hc body hplaced hstarts)
  | .line _, hacts, _, _ | .malformed _, hacts, _, _ => by cases hacts

/-- A body on a good line cites good lines, and ends on one. -/
theorem citing_body (hc : ∀ name args, Citing good (Ready good) (fun _ => Ready good) (c name args))
    (body : List Stmt) (hplaced : allPlaced .unmarked body = true)
    (hstarts : ∀ y ∈ allStarts body, good y.1) :
    Citing good (Ready good) (fun _ => On good) (execAll x c body) :=
  (citing_execAll hc .unmarked body hplaced hstarts nofun).mono (fun _ => id)
    fun _ _ h => h.elim id id

/-- **Statements that stand behind markers** cite the lines of those markers, from wherever they
start. -/
theorem citing_execAll
    (hc : ∀ name args, Citing good (Ready good) (fun _ => Ready good) (c name args))
    {before : SourceLine → Prop} (place : Standing) :
    ∀ stmts : List Stmt, allPlaced place stmts = true → (∀ y ∈ allStarts stmts, good y.1) →
      (place ≠ .unmarked → ∀ l, before l → good l) →
      Citing good (Ready before) (fun _ => On fun l => before l ∨ good l) (execAll x c stmts)
  | [], _, _, _ => by
    rw [execAll]
    exact citing_pure () fun _ h => .inl h.1
  | stmt :: rest, hplaced, hstarts, hmarked => by
    rw [allPlaced, Bool.and_eq_true, Bool.and_eq_true] at hplaced
    obtain ⟨hstand, hstmt, hrest⟩ := hplaced
    rw [allStarts, List.forall_mem_append, List.forall_mem_append] at hstarts
    obtain ⟨hstart, hinside, hlater⟩ := hstarts
    have hexec := citing_exec hc stmt
    have hexecAll : Citing good (Ready good) (fun _ => On fun l => before l ∨ good l)
        (execAll x c rest) :=
      (citing_execAll hc stmt.standing rest hrest hlater fun _ _ => id).mono (fun _ => id)
        fun _ _ h => .inr (h.elim id id)
    have hproceed : stmt.acts = true → place ≠ .unmarked →
        Citing good (Ready before) (fun _ => On fun l => before l ∨ good l)
          (execAll x c (stmt :: rest)) := by
      intro hacts hplace
      have hready := (hexec hacts hstmt hinside).mono
        (fun s (h : Ready before s) => ⟨hmarked hplace _ h.1, h.2⟩) fun _ _ => id
      rw [execAll]
      exact hready.bind fun _ => citing_proceed hexecAll fun _ h _ => .inr h
    cases stmt with
    | line l =>
      have hline : Citing good (Ready before) (fun _ => Ready (· = l)) (Run.setLine l) :=
        (((citing_setLine l).mono (fun _ _ => trivial) fun _ _ => id).normally
          ((fallsThrough_straightLaw x).setLine l trivial))
      rw [execAll]
      refine hline.bind fun _ => ?_
      cases rest with
      | nil => cases hstand
      | cons next rest =>
        by_cases hacts : next.acts = true
        · have hl : good l := hstart (l, next) (by rw [markedStart, if_pos hacts]; exact .head _)
          refine citing_proceed (hexecAll.mono ?_ fun _ _ => id) fun s hs hflow => absurd hs.2 hflow
          rintro s ⟨⟨hs, -⟩, hflow⟩
          exact ⟨by rw [hs]; exact hl, hflow⟩
        · cases next with
          | line => cases hstand
          -- an error stops the run on whatever line has been marked
          | malformed e =>
            exact citing_proceed (citing_of_stop fun s => rfl) fun s hs hflow => absurd hs.2 hflow
          | _ => exact absurd rfl hacts
    | malformed e => exact citing_of_stop fun s => rfl
    | _ => exact hproceed rfl (ne_unmarked_of_mayStand rfl hstand)

end

end Stmt

/-! ## Programs -/

namespace Program

variable {p : Program} {x : Horizon} {good : SourceLine → Prop}

/-- Calls of functions whose statements stand behind good markers cite good lines, and change
neither the line of their caller nor the flow of control. -/
theorem citing_callee
    (hp : ∀ f ∈ p.functions, Stmt.allPlaced .unmarked f.body = true ∧
      ∀ y ∈ Stmt.allStarts f.body, good y.1) :
    ∀ depth {before : SourceLine → Prop} name args,
      Citing good (Ready before) (fun _ => Ready before) (p.callee x depth name args)
  | 0, _, name, args => by
    rw [callee_zero]
    split <;> exact citing_of_stop fun s => rfl
  | depth + 1, before, name, args => by
    have hcites : Citing good (Ready before) (fun _ _ => True)
        (p.callee x (depth + 1) name args) := by
      rw [callee_succ]
      split
      · next f hf =>
        obtain ⟨hplaced, hstarts⟩ := hp f (List.mem_of_find?_eq_some hf)
        have hbind : Citing good (Ready before) (fun _ => Ready before)
            (bindParams f.params args) := citing_bindParams f.params args
        have hbody : Citing good (Ready before) (fun _ => On fun l => before l ∨ good l)
            (Stmt.execAll x (p.callee x depth) f.body) :=
          Stmt.citing_execAll (citing_callee hp depth) .unmarked f.body hplaced hstarts nofun
        rw [Function.invoke_eq]
        split
        · have hcurrent : Citing good (Ready before) (fun _ => Ready before) currentLine :=
            (citing_of_eq fun _ => rfl).normally (fallsThrough_of_final fun _ => rfl)
          refine hcurrent.bind fun caller => ?_
          exact ((hbind.bind fun _ => hbody).inCall f.name).bind fun flow =>
            citing_leave caller flow
        · exact citing_of_stop fun s => rfl
      · exact citing_of_stop fun s => rfl
    intro s hs
    obtain ⟨hlog, -⟩ := hcites s hs
    refine ⟨hlog, fun v s' hok => ⟨?_, ?_⟩⟩
    · rw [keepsLine_callee p x _ name args hok]
      exact hs.1
    · rw [← final_of_ok hok]
      exact fallsThrough_callee p x _ name args hs.2

/-- A statement of the program starts on the line. -/
def StartsOn (p : Program) (l : SourceLine) : Prop :=
  ∃ stmt, (l, stmt) ∈ p.starts

/-- The call to `main` has no line of its own, and records nothing itself. -/
theorem citing_main {c : Callee} {before : State → Prop}
    (hc : ∀ name args, Citing good before (fun _ => before) (c name args)) :
    Citing good before (fun _ => before) (Stmt.execAll x c [.expr (.call "main" [])]) := by
  simp only [Stmt.execAll, Stmt.exec, Expr.eval, Expr.evalAll, pure_bind, bind_assoc]
  exact (hc "main" []).bind fun _ => citing_proceed (citing_pure () fun _ h => h.1) fun _ h _ => h

theorem citing_finish {before : State → Prop} :
    Citing good before (fun _ _ => True) finish := by
  intro s _
  rw [final, finish_apply]
  cases s.flow <;>
    exact ⟨⟨[], (List.append_nil _).symm, List.forall_mem_nil _⟩, fun _ _ _ => trivial⟩

/-- **A program cites the lines on which its statements start,** whatever line is marked before. -/
theorem citing_callMain {P : SourceLine × Stmt → Prop} (hp : p.AllStand P) (x : Horizon) :
    Citing p.StartsOn (Ready fun _ => True) (fun _ _ => True) (p.callMain.exec x) := by
  have hcalls : ∀ {before : SourceLine → Prop} name args, Citing p.StartsOn (Ready before)
      (fun _ => Ready before) (p.callee x x.callDepth.toNat name args) :=
    citing_callee (fun f hf => ⟨(hp.functions f hf).placed, fun y hy => ⟨y.2,
      List.mem_append_right _ (List.mem_flatMap.2 ⟨f, hf, hy⟩)⟩⟩) x.callDepth.toNat
  have hown : Citing p.StartsOn (Ready fun _ => True) (fun _ => On fun _ => True)
      (Stmt.execAll x (p.callee x x.callDepth.toNat) p.body) :=
    (Stmt.citing_execAll hcalls .unmarked p.body hp.body.placed
      (fun y hy => ⟨y.2, List.mem_append_left _ hy⟩) nofun).mono (fun _ => id) fun _ _ _ => trivial
  have hbody : Citing p.StartsOn (Ready fun _ => True) (fun _ => On fun _ => True)
      (p.callMain.execBody x) := by
    rw [execBody, callee_congr p.functions_callMain]
    rcases p.body_callMain with h | h
    · rw [h]
      exact hown
    · rw [h]
      refine citing_congr (fun s hs => Stmt.execAll_append x _ _ p.body hs.2) ?_
      refine hown.bind fun _ => citing_proceed ?_ fun _ h _ => h
      exact (citing_main hcalls).mono (fun _ => id) fun _ _ (h : Ready (fun _ => True) _) => h.1
  exact hbody.bind fun _ => citing_finish

end Program

/-- **Every command can be located.**  What a command of a trace cites is not empty.  It is the
trimmed text of the line of the source text that holds the first token of a statement.  And it is
found there: on a line that reads like it, though perhaps an earlier one. -/
theorem trace_located {source : String} {settings : Settings} {c : Command}
    (hc : c ∈ (trace source settings).log) :
    c.cited ≠ "" ∧
    (∃ l stmt t n line, (l, stmt) ∈ (Program.ofSource source).starts ∧
      Program.ReadAt source t stmt ∧ l.number = t.location.line ∧ t.location.line = n + 1 ∧
      (Text.lines source)[n]? = some line ∧ c.cited = Text.trim line) ∧
    ∃ n, Text.locate source c.cited = some (n + 1) ∧
      (Text.lines source)[n]?.map Text.trim = some c.cited := by
  obtain ⟨p, hp, hstand⟩ := Program.allStand_ofSource source
  obtain ⟨⟨cs, hcs, hcited⟩, -⟩ := Program.citing_callMain hstand settings.horizon
    (State.initial settings.horizon.toSettings) ⟨trivial, rfl⟩
  have hmem : c ∈ cs := by
    rw [trace, hp, Program.execute, Program.log_executeWithin, Program.finalState, hcs] at hc
    exact (List.mem_append.1 hc).resolve_left List.not_mem_nil
  obtain ⟨l, ⟨stmt, hstart⟩, hl⟩ := hcited c hmem
  rw [← Program.starts_callMain hstand, ← hp] at hstart
  obtain ⟨t, hread, (hline : l = _)⟩ := Program.standsAt_of_mem_starts hstart
  obtain ⟨n, line, hnumber, hget, htext, hne⟩ := hread.exists_line
  have hcites : c.cited = Text.trim line := by rw [hl, hline, htext]
  rw [← hcites] at hne
  have hnumbers : l.number = t.location.line := by rw [hline]
  refine ⟨hne, ⟨l, stmt, t, n, line, hstart, hread, hnumbers, hnumber, hget, hcites⟩, ?_⟩
  rw [hcites] at hne ⊢
  exact Text.locate_trim (List.mem_of_getElem? hget) hne

/-- A program with comments, in which a function is called. -/
def indented : String :=
  "stack<int> s; /* one\r\ntwo */\nvoid f() \x7b\n  s.push(1); // three\n\x7d\nf();"

/-- The command is recorded within the function, and found on line 4. -/
theorem trace_located_indented :
    ∃ c ∈ (trace indented).log, c.cited = "s.push(1); // three" ∧
      Text.locate indented c.cited = some 4 ∧
      ∃ l stmt t n line, (l, stmt) ∈ (Program.ofSource indented).starts ∧
        Program.ReadAt indented t stmt ∧ l.number = t.location.line ∧ t.location.line = n + 1 ∧
        (Text.lines indented)[n]? = some line ∧ c.cited = Text.trim line := by
  have hlog : (trace indented).log.map (·.cited) = ["s.push(1); // three"] := by decide +kernel
  have hlocate : Text.locate indented "s.push(1); // three" = some 4 := by decide +kernel
  obtain ⟨c, hc, hcited⟩ : ∃ c ∈ (trace indented).log, c.cited = "s.push(1); // three" :=
    List.mem_map.1 (by rw [hlog]; exact List.mem_cons_self)
  exact ⟨c, hc, hcited, by rw [hcited]; exact hlocate, (trace_located hc).2.1⟩

end Stepwise
