import Stepwise.Proofs.Program.Progress
import Stepwise.Proofs.Surface.Declaration

/-!
# Statements are read back

A statement is read from the lines it was written on.  What follows it matters only for a branch
without an alternative: `Surface.Stmt.Readable` asks that there is no `else`.

* `Surface.Plain` is about the first two tokens of an expression: they are not those of a
  declaration, of a function or of a console statement.
* `Surface.Stmt.statements_lays` reads the statements of a body, given that each of them is
  readable, and `Surface.Stmt.block_lays` the brace after them.
* `Surface.Stmt.readable` says that every statement is readable.
-/

set_option autoImplicit false

namespace Stepwise

namespace Surface

open Stepwise.Parser

/-! ## Expressions as statements -/

theorem Literal.isIdent_token (l : Literal) : l.token.isIdent = false := by
  cases l with
  | bool b => cases b <;> rfl
  | _ => rfl

theorem Name.not_console (name : Name) :
    consoleStreams.contains name.text = false ∧ consoleCalls.contains name.text = false := by
  have h := name.not_reserved
  rw [reserved, List.mem_cons, List.mem_append] at h
  simpa using (not_or.1 h).2

/-- Whether an expression that begins with a name may go on with the token. -/
def mayFollowName (k : TokenKind) : Bool := !k.isSymbol .less && !k.isIdent

/-- The tokens begin like an expression statement, if they begin with a name. -/
def Plain (ks : List TokenKind) : Prop :=
  Begins (fun k => !k.isIdent) ks ∨
    ∃ (name : Name) (k : TokenKind) (rest : List TokenKind),
      ks = name.token :: k :: rest ∧ mayFollowName k = true

theorem Plain.append {ks : List TokenKind} (h : Plain ks) (ks' : List TokenKind) :
    Plain (ks ++ ks') := by
  rcases h with h | ⟨name, k, rest, rfl, hk⟩
  · exact .inl (h.append ks')
  · exact .inr ⟨name, k, rest ++ ks', rfl, hk⟩

namespace Expr

theorem plain_operand (e : Expr) {k : TokenKind} (hk : mayFollowName k = true)
    (ks : List TokenKind) : Plain (e.operand ++ k :: ks) := by
  cases e with
  | var name => exact .inr ⟨name, k, ks, rfl, hk⟩
  | literal l => exact .inl (begins_cons (by rw [l.isIdent_token]; rfl))
  | _ => exact .inl (begins_cons rfl)

/-- An expression with a semicolon after it begins like an expression statement. -/
theorem plain_written (e : Expr) : Plain (e.written ++ [.symbol .semicolon]) := by
  cases e with
  | literal l => exact plain_operand (literal l) rfl []
  | var name => exact plain_operand (var name) rfl []
  | assign target value => exact (plain_operand target rfl _).append _
  | update op target value =>
    exact (plain_operand target (by cases op <;> rfl) _).append _
  | step op target =>
    rw [written, tokens]
    cases op with
    | preInc | preDec => exact .inl (begins_cons rfl)
    | postInc | postDec => exact (plain_operand target rfl _).append _
  | binary op left right => exact .inl (begins_cons rfl)
  | unary op operand =>
    rw [written, tokens]
    cases op <;> exact .inl (begins_cons rfl)
  | ternary condition thenValue elseValue => exact .inl (begins_cons rfl)
  | call name args => exact .inr ⟨name, _, _, rfl, rfl⟩
  | method object name args => exact (plain_operand object rfl _).append _
  | member object name => exact (plain_operand object rfl _).append _
  | index object key => exact (plain_operand object rfl _).append _

end Expr

namespace Stmt

variable {text : Nat → String} {depth number : Nat} {s s' : Stream}

theorem statement_apply :
    statement text (depth + 1) s
      = statementBy (level depth) (statement text depth)
          (recovered text (statement text depth)) s := rfl

theorem namedStatement_of_plain (name : Name) (h : mayFollowName (s.kindAt 1) = true) :
    namedStatement (level depth) name.text s = expressionStatement (level depth) s := by
  rw [mayFollowName, Bool.and_eq_true, Bool.not_eq_true'] at h
  rw [namedStatement, get_bind]
  dsimp only
  rw [name.not_console.1, name.not_console.2, h.1]
  rfl

/-- An expression statement is not taken for something else. -/
theorem statement_expression {e : Expr} (hs : s.Ahead (e.written ++ [.symbol .semicolon]) s') :
    statement text (depth + 1) s = expressionStatement (level depth) s := by
  rw [statement_apply]
  have hstart := (e.begins_written.append [.symbol .semicolon]).kind hs
  rcases e.plain_written with h | ⟨name, k, rest, heq, hk⟩
  · have hident := h.kind hs
    obtain ⟨k, ks, hks, -⟩ := h
    rw [hks] at hs
    obtain ⟨place, ts, finish, rfl, -⟩ := hs.eq_cons
    cases k with
    | symbol c => cases c <;> first | rfl | cases hstart
    | int | float | str | char => rfl
    | ident => cases hident
    | type | invalid | eof => cases hstart
  · rw [heq] at hs
    obtain ⟨place, ts, finish, rfl, hnext⟩ := hs.eq_cons
    obtain ⟨place', ts', finish', heq', -⟩ := hnext.eq_cons
    cases heq'
    exact namedStatement_of_plain name hk

/-! ## Bodies -/

/-- The statement is read from its lines if enough nesting levels are left and no `else` follows. -/
def Readable (st : Stmt) : Prop :=
  ∀ (text : Nat → String) ⦃depth number : Nat⦄ ⦃s s' : Stream⦄, st.levels ≤ depth →
    s.Lays number st.lines s' → s'.kind ≠ .symbol .else →
    statement text depth s = .ok [st.lower text number] s'

/-- Whether a statement may begin with the token. -/
def starts (k : TokenKind) : Bool := !k.isSymbol .rightBrace && !k.isSymbol .else

theorem starts_of_startsExpr {k : TokenKind} (h : k.startsExpr = true) : starts k = true := by
  cases k with
  | symbol c => cases c <;> first | rfl | cases h
  | _ => rfl

theorem begins_lines (st : Stmt) : ∃ ks lines, st.lines = ks :: lines ∧ Begins starts ks := by
  cases st with
  | expr e =>
    refine ⟨_, _, rfl, (e.begins_written.imp fun _ => starts_of_startsExpr).append _⟩
  | jump kind => cases kind <;> exact ⟨_, _, rfl, begins_cons rfl⟩
  | _ => exact ⟨_, _, rfl, begins_cons rfl⟩

/-- The first token of a statement that is next. -/
theorem lays_first {st : Stmt} {lines : List (List TokenKind)}
    (hs : s.Lays number (st.lines ++ lines) s') :
    s.rest ≠ [] ∧ starts s.kind = true ∧ s.location = ⟨number, 1⟩ := by
  obtain ⟨ks, others, hlines, hbegin⟩ := st.begins_lines
  rw [hlines] at hs
  obtain ⟨s₁, h₁, -, hplace⟩ := hs.cons
  obtain ⟨k, rest, rfl, hk⟩ := hbegin
  exact ⟨h₁.1, by rwa [h₁.kind], hplace nofun⟩

theorem kind_ne_else {body : List Stmt} (hs : s.Lays number (allLines body) s')
    (hend : s'.kind ≠ .symbol .else) : s.kind ≠ .symbol .else := by
  cases body with
  | nil =>
    obtain rfl := Stream.lays_nil.1 hs
    exact hend
  | cons st rest =>
    intro hk
    have hstart := (lays_first hs).2.1
    rw [hk] at hstart
    cases hstart

theorem statementItems_apply (member : Parser (List Stepwise.Stmt)) (fuel : Nat) :
    statementItems member (fuel + 1) s
      = (if (s.rest.isEmpty || s.kind.isSymbol .rightBrace) = true then pure []
          else do
            let first ← member
            return first ++ (← statementItems member fuel) : Parser (List Stepwise.Stmt)) s := rfl

/-- A statement of a body is read with its marker. -/
theorem Readable.recovered {st : Stmt} (h : st.Readable) (text : Nat → String)
    (hd : st.levels ≤ depth) (hs : s.Lays number st.lines s') (hend : s'.kind ≠ .symbol .else) :
    recovered text (statement text depth) s
      = .ok [.line { number, text := text number }, st.lower text number] s' := by
  have hplace := (@lays_first number s s' st [] (by rwa [List.append_nil])).2.2
  rw [recovered_of_ok (h text hd hs hend), Stream.marker, hplace]

theorem statementItems_lays {body : List Stmt} (h : ∀ st ∈ body, st.Readable)
    (hd : allLevels body ≤ depth) {fuel : Nat} (hfuel : s.length < fuel)
    (hs : s.Lays number (allLines body) s') (hend : s'.kind = .symbol .rightBrace) :
    statementItems (Parser.recovered text (statement text depth)) fuel s
      = .ok (lowerAll text number body) s' := by
  induction body generalizing fuel number s with
  | nil =>
    obtain rfl := Stream.lays_nil.1 hs
    cases fuel with
    | zero => cases hfuel
    | succ fuel =>
      have hstop : (s.rest.isEmpty || s.kind.isSymbol .rightBrace) = true := by
        rw [hend]
        exact Bool.or_true _
      rw [statementItems_apply, if_pos hstop]
      rfl
  | cons st rest ih =>
    cases fuel with
    | zero => cases hfuel
    | succ fuel =>
      rw [allLevels, Nat.max_le] at hd
      obtain ⟨s₁, h₁, h₂⟩ := hs.append
      obtain ⟨hne, hstart, -⟩ := lays_first hs
      have hend' : s'.kind ≠ .symbol .else := by rw [hend]; nofun
      have hfirst := (h st List.mem_cons_self).recovered text hd.1 h₁ (kind_ne_else h₂ hend')
      have hshort : s₁.length < s.length := by
        obtain ⟨stmts, s₂, hadvance, -, hlt⟩ := advances_statement text depth s
        cases hadvance.symm.trans hfirst
        exact hlt hne
      have hrest := ih (fun st hst => h st (List.mem_cons_of_mem _ hst)) hd.2
        (by omega : s₁.length < fuel) h₂
      rw [starts, Bool.and_eq_true, Bool.not_eq_true'] at hstart
      rw [statementItems_apply, List.isEmpty_eq_false_iff.2 hne, hstart.1, Bool.or_false,
        if_neg Bool.false_ne_true, bind_of_ok hfirst, bind_of_ok hrest]
      rfl

/-- The statements of a body, before a line that begins with the closing brace. -/
theorem statements_lays {body : List Stmt} (h : ∀ st ∈ body, st.Readable) (text : Nat → String)
    (hd : allLevels body ≤ depth) {ks : List TokenKind} {lines : List (List TokenKind)}
    (hs : s.Lays number (allLines body ++ (.symbol .rightBrace :: ks) :: lines) s') :
    ∃ s₁ s₂, statements (Parser.recovered text (statement text depth)) s
        = .ok (lowerAll text number body) s₁ ∧
      s₁.Ahead (.symbol .rightBrace :: ks) s₂ ∧
      s₂.Lays (number + (allLines body).length + 1) lines s' := by
  obtain ⟨s₁, h₁, hline⟩ := hs.append
  obtain ⟨s₂, h₂, hlines, -⟩ := hline.cons
  exact ⟨s₁, s₂, statementItems_lays h hd (Nat.lt_succ_self s.length) h₁ h₂.kind, h₂, hlines⟩

/-- The statements of a body and the closing brace, with which a line begins. -/
theorem block_lays {body : List Stmt} (h : ∀ st ∈ body, st.Readable) (text : Nat → String)
    (hd : allLevels body ≤ depth) {ks : List TokenKind} {lines : List (List TokenKind)}
    (hs : s.Lays number (allLines body ++ (.symbol .rightBrace :: ks) :: lines) s') :
    ∃ s₁ s₂, Parser.block (Parser.recovered text (statement text depth)) s
        = .ok (lowerAll text number body) s₁ ∧
      s₁.Ahead ks s₂ ∧ s₂.Lays (number + (allLines body).length + 1) lines s' := by
  obtain ⟨s₁, s₂, hbody, hbrace, hlines⟩ := statements_lays h text hd hs
  refine ⟨s₁.advance, s₂, ?_, hbrace.advance, hlines⟩
  rw [Parser.block, bind_of_ok hbody, bind_of_ok (expect_of_kind hbrace.kind)]
  rfl

/-- The statements of a body of which the closing brace stands on a line of its own. -/
theorem block_lays_last {body : List Stmt} (h : ∀ st ∈ body, st.Readable) (text : Nat → String)
    (hd : allLevels body ≤ depth)
    (hs : s.Lays number (allLines body ++ [[.symbol .rightBrace]]) s') :
    Parser.block (Parser.recovered text (statement text depth)) s
      = .ok (lowerAll text number body) s' := by
  obtain ⟨s₁, s₂, hblock, hsame, hnil⟩ := block_lays h text hd hs
  obtain rfl := Stream.lays_nil.1 hnil
  obtain rfl : s₁ = s₂ := hsame
  exact hblock

theorem body_of_brace {member : Parser (List Stepwise.Stmt)}
    (hs : s.Ahead [.symbol .leftBrace] s') :
    Parser.body member s = Parser.block member s' := by
  rw [Parser.body, bind_of_ok (accept_of_kind hs.kind), if_pos rfl, Stream.ahead_singleton hs]

/-! ## Statements by their form -/

theorem reads_condition {e : Expr} (hd : e.ownLevels ≤ depth) (keyword : String) :
    Reads (condition (level depth) keyword)
      (.symbol .leftParen :: (e.written ++ [.symbol .rightParen])) anything e.lower := by
  intro s s' hs _
  obtain ⟨s₁, h₁, h₂⟩ := Stream.ahead_append.1 hs.advance
  rw [condition, bind_of_ok (expect_of_kind hs.kind),
    bind_of_ok (Expr.reads_written hd h₁ (by rw [h₂.kind]; rfl)),
    bind_of_ok (expect_of_kind h₂.kind), Stream.ahead_singleton h₂]
  rfl

/-- The line that begins a body after a condition. -/
theorem header_ahead {keyword : Symbol} {e : Expr} (hd : e.ownLevels ≤ depth)
    (hs : s.Ahead (header keyword e) s') (context : String) :
    s.kind = .symbol keyword ∧ ∃ s₁, condition (level depth) context s.advance = .ok e.lower s₁ ∧
      s₁.Ahead [.symbol .leftBrace] s' := by
  have hsplit : header keyword e = .symbol keyword ::
      ((.symbol .leftParen :: (e.written ++ [.symbol .rightParen])) ++ [.symbol .leftBrace]) := by
    simp [header]
  rw [hsplit] at hs
  obtain ⟨s₁, h₁, h₂⟩ := Stream.ahead_append.1 hs.advance
  exact ⟨hs.kind, s₁, reads_condition hd context h₁ rfl, h₂⟩

theorem readable_declare (d : Decl) : (declare d).Readable := by
  intro text depth number s s' hd hs _
  cases depth with
  | zero => cases hd
  | succ depth =>
    have hline := hs.singleton.1
    have hscalar : statement text (depth + 1) s = scalarDeclaration (level depth) s := by
      obtain ⟨place, rest, finish, rfl, -⟩ := hline.eq_cons
      rfl
    rw [hscalar, d.reads_scalarDeclaration (Nat.le_of_succ_le_succ hd) hline rfl]
    rfl

theorem readable_construct (kind : SequenceKind) (element : ScalarType) (name : Name) :
    (construct kind element name).Readable := by
  intro text depth number s s' hd hs _
  cases depth with
  | zero => cases hd
  | succ depth =>
    have hline := hs.singleton.1
    have hcontainer : statement text (depth + 1) s
        = (containerDeclaration kind : Parser _) s := by
      obtain ⟨place, rest, finish, rfl, hnext⟩ := hline.eq_cons
      obtain ⟨place', rest', finish', heq, -⟩ := hnext.eq_cons
      cases heq
      cases kind <;> rfl
    rw [hcontainer, reads_containerDeclaration kind element name hline rfl]
    rfl

theorem readable_expr (e : Expr) : (expr e).Readable := by
  intro text depth number s s' hd hs _
  cases depth with
  | zero => cases hd
  | succ depth =>
    have hline := hs.singleton.1
    have hread := Expr.reads_written (Nat.le_of_succ_le_succ hd : e.ownLevels ≤ depth)
    rw [statement_expression hline, reads_expressionStatement hread hline rfl]
    rfl

theorem readable_ret (value : Option Expr) : (ret value).Readable := by
  intro text depth number s s' hd hs _
  cases depth with
  | zero => cases hd
  | succ depth =>
    have hline := hs.singleton.1
    obtain ⟨s₁, h₁, h₂⟩ := Stream.ahead_append.1 hline.advance
    rw [statement_apply, statementBy, peek_bind, hline.kind]
    dsimp only
    rw [advance_bind, returnStatement]
    refine (Expr.check_optional _ (Nat.le_of_succ_le_succ hd) ⟨rfl, rfl⟩ h₁ h₂.kind).trans ?_
    dsimp only
    rw [bind_of_ok (expect_of_kind h₂.kind), Stream.ahead_singleton h₂]
    rfl

theorem readable_jump (kind : Jump) : (jump kind).Readable := by
  intro text depth number s s' hd hs _
  cases depth with
  | zero => cases hd
  | succ depth =>
    have hline := hs.singleton.1
    have hjump : statement text (depth + 1) s = (jumpStatement kind : Parser _) s.advance := by
      rw [statement_apply, statementBy, peek_bind, hline.kind]
      cases kind <;> rfl
    rw [hjump, jumpStatement, bind_of_ok (expect_of_kind hline.advance.kind),
      Stream.ahead_singleton hline.advance]
    rfl

section Bodies

variable {thenBody elseBody body : List Stmt}

theorem readable_branch (condition : Expr) (h : ∀ st ∈ thenBody, st.Readable) :
    (branch condition thenBody).Readable := by
  intro text depth number s s' hd hs hend
  cases depth with
  | zero => cases hd
  | succ depth =>
    obtain ⟨hcond, hthen⟩ := Nat.max_le.1 (Nat.le_of_succ_le_succ hd)
    obtain ⟨s₁, hline, hlines, -⟩ := hs.cons
    obtain ⟨hk, s₂, htest, hbrace⟩ := header_ahead hcond hline "if"
    have hblock := block_lays_last h text hthen hlines
    rw [statement_apply, statementBy, peek_bind, hk]
    dsimp only
    rw [advance_bind, ifStatement, bind_of_ok htest,
      bind_of_ok ((body_of_brace hbrace).trans hblock), bind_of_ok (accept_of_kind_ne hend)]
    rfl

theorem readable_branchElse (condition : Expr) (h : ∀ st ∈ thenBody, st.Readable)
    (h' : ∀ st ∈ elseBody, st.Readable) : (branchElse condition thenBody elseBody).Readable := by
  intro text depth number s s' hd hs _
  cases depth with
  | zero => cases hd
  | succ depth =>
    obtain ⟨hcond, hbodies⟩ := Nat.max_le.1 (Nat.le_of_succ_le_succ hd)
    obtain ⟨hthen, helse⟩ := Nat.max_le.1 hbodies
    obtain ⟨s₁, hline, hlines, -⟩ := hs.cons
    obtain ⟨hk, s₂, htest, hbrace⟩ := header_ahead hcond hline "if"
    obtain ⟨s₃, s₄, hblock, hmiddle, hlast⟩ := block_lays h text hthen hlines
    have hblock' := block_lays_last h' text helse hlast
    rw [statement_apply, statementBy, peek_bind, hk]
    dsimp only
    rw [advance_bind, ifStatement, bind_of_ok htest,
      bind_of_ok ((body_of_brace hbrace).trans hblock),
      bind_of_ok (accept_of_kind hmiddle.kind), if_pos rfl,
      bind_of_ok ((body_of_brace hmiddle.advance).trans hblock')]
    have hnumber : number + 1 + (allLines thenBody).length + 1
        = number + (allLines thenBody).length + 2 := by omega
    rw [hnumber]
    rfl

theorem readable_whileLoop (condition : Expr) (h : ∀ st ∈ body, st.Readable) :
    (whileLoop condition body).Readable := by
  intro text depth number s s' hd hs _
  cases depth with
  | zero => cases hd
  | succ depth =>
    obtain ⟨hcond, hbody⟩ := Nat.max_le.1 (Nat.le_of_succ_le_succ hd)
    obtain ⟨s₁, hline, hlines, -⟩ := hs.cons
    obtain ⟨hk, s₂, htest, hbrace⟩ := header_ahead hcond hline "while"
    have hblock := block_lays_last h text hbody hlines
    rw [statement_apply, statementBy, peek_bind, hk]
    dsimp only
    rw [advance_bind, whileStatement, bind_of_ok htest,
      bind_of_ok ((body_of_brace hbrace).trans hblock)]
    rfl

theorem readable_doWhile (condition : Expr) (h : ∀ st ∈ body, st.Readable) :
    (doWhile body condition).Readable := by
  intro text depth number s s' hd hs _
  cases depth with
  | zero => cases hd
  | succ depth =>
    obtain ⟨hcond, hbody⟩ := Nat.max_le.1 (Nat.le_of_succ_le_succ hd)
    obtain ⟨s₁, hline, hlines, -⟩ := hs.cons
    obtain ⟨s₂, s₃, hblock, hwhile, hnil⟩ := block_lays h text hbody hlines
    obtain rfl := Stream.lays_nil.1 hnil
    have hsplit : (condition.written ++ [.symbol .rightParen, .symbol .semicolon] : List TokenKind)
        = (condition.written ++ [.symbol .rightParen]) ++ [.symbol .semicolon] := by simp
    rw [hsplit] at hwhile
    obtain ⟨s₄, h₄, hsemi⟩ := (@Stream.ahead_append s₂.advance s₃
      (.symbol .leftParen :: (condition.written ++ [.symbol .rightParen])) _).1 hwhile.advance
    rw [statement_apply, statementBy, peek_bind, hline.kind]
    dsimp only
    rw [advance_bind, doStatement, bind_of_ok ((body_of_brace hline.advance).trans hblock),
      bind_of_ok (expect_of_kind hwhile.kind),
      bind_of_ok (reads_condition hcond "while" h₄ rfl), bind_of_ok (expect_of_kind hsemi.kind),
      Stream.ahead_singleton hsemi]
    rfl

theorem readable_block (h : ∀ st ∈ body, st.Readable) : (block body).Readable := by
  intro text depth number s s' hd hs _
  cases depth with
  | zero => cases hd
  | succ depth =>
    obtain ⟨s₁, hline, hlines, -⟩ := hs.cons
    have hblock := block_lays_last h text (Nat.le_of_succ_le_succ hd) hlines
    rw [statement_apply, statementBy, peek_bind, hline.kind]
    dsimp only
    rw [advance_bind, ← Stream.ahead_singleton hline, bind_of_ok hblock]
    rfl

end Bodies

/-! ## Loops with clauses -/

theorem reads_forInit (init : Clause) (hd : Expr.listLevels init.parts ≤ depth) :
    Reads (forInit (level depth)) init.tokens anything init.lower := by
  intro s s' hs _
  cases init with
  | none =>
    rw [forInit, bind_of_ok (accept_of_kind hs.kind), Stream.ahead_singleton hs]
    rfl
  | declare d =>
    have htype := hs.kind
    have hne : s.kind ≠ .symbol .semicolon := by rw [htype]; rintro ⟨⟩
    have hscalar : (d.type.token.isType || d.type.token.isConst) = true := rfl
    rw [forInit, bind_of_ok (accept_of_kind_ne hne), if_neg Bool.false_ne_true, peek_bind, htype,
      if_pos hscalar]
    exact d.reads_scalarDeclaration hd hs rfl
  | expr e =>
    obtain ⟨s₁, h₁, h₂⟩ := Stream.ahead_append.1 hs
    have hstart := e.begins_written.kind h₁
    have hscalar : (s.kind.isType || s.kind.isConst) = false := by
      cases hk : s.kind with
      | type => rw [hk] at hstart; cases hstart
      | symbol c =>
        cases c with
        | const => rw [hk] at hstart; cases hstart
        | _ => rfl
      | _ => rfl
    have hown := Expr.listLevels_le_iff.1 hd e (List.mem_singleton_self e)
    rw [forInit, bind_of_ok (accept_of_kind_ne (Expr.isSymbol_of_ahead h₁ rfl)),
      if_neg Bool.false_ne_true, peek_bind, hscalar, if_neg Bool.false_ne_true]
    exact reads_expressionStatement (Expr.reads_written hown) hs rfl

theorem readable_forLoop {body : List Stmt} (init : Clause) (condition : Option Expr)
    (increment : List Expr) (h : ∀ st ∈ body, st.Readable) :
    (forLoop init condition increment body).Readable := by
  intro text depth number s s' hd hs _
  cases depth with
  | zero => cases hd
  | succ depth =>
    obtain ⟨hparts, hbody⟩ := Nat.max_le.1 (Nat.le_of_succ_le_succ hd)
    rw [Expr.listLevels_append, Expr.listLevels_append] at hparts
    obtain ⟨hclauses, hincrement⟩ := Nat.max_le.1 hparts
    obtain ⟨hinit, hcond⟩ := Nat.max_le.1 hclauses
    obtain ⟨s₁, hline, hlines, -⟩ := hs.cons
    have hblock := block_lays_last h text hbody hlines
    have hopen := hline.advance
    obtain ⟨s₂, h₂, hafter⟩ := Stream.ahead_append.1 hopen.advance
    obtain ⟨s₃, h₃, hsemi⟩ := Stream.ahead_append.1 hafter
    obtain ⟨s₄, h₄, hclose⟩ := Stream.ahead_append.1 hsemi.advance
    rw [statement_apply, statementBy, peek_bind, hline.kind]
    dsimp only
    rw [advance_bind, forStatement, bind_of_ok (expect_of_kind hopen.kind),
      bind_of_ok (reads_forInit init hinit h₂ rfl)]
    refine (Expr.check_optional _ hcond ⟨rfl, rfl⟩ h₃ hsemi.kind).trans ?_
    dsimp only
    rw [bind_of_ok (expect_of_kind hsemi.kind)]
    refine (Expr.check_list _ hincrement h₄ hclose.kind).trans ?_
    rw [bind_of_ok (expect_of_kind hclose.kind),
      bind_of_ok ((body_of_brace hclose.advance).trans hblock)]
    rfl

/-! ## All statements -/

mutual

/-- **Every statement is read back.** -/
theorem readable : ∀ st : Stmt, st.Readable
  | declare d => readable_declare d
  | construct kind element name => readable_construct kind element name
  | expr e => readable_expr e
  | branch condition thenBody => readable_branch condition (readableAll thenBody)
  | branchElse condition thenBody elseBody =>
    readable_branchElse condition (readableAll thenBody) (readableAll elseBody)
  | whileLoop condition body => readable_whileLoop condition (readableAll body)
  | doWhile body condition => readable_doWhile condition (readableAll body)
  | forLoop init condition increment body =>
    readable_forLoop init condition increment (readableAll body)
  | block body => readable_block (readableAll body)
  | ret value => readable_ret value
  | jump kind => readable_jump kind

theorem readableAll : ∀ body : List Stmt, ∀ st ∈ body, st.Readable
  | [] => nofun
  | st :: rest => List.forall_mem_cons.2 ⟨st.readable, readableAll rest⟩

end

end Stmt

end Surface

end Stepwise
