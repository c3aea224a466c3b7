import Stepwise.Proofs.Program.Placement

/-!
# Declarations and expressions as statements

Which parser reads a declaration or an expression is told by the first tokens of the statement.
What follows is for all of them at once, whichever parser it is.

* `Stmt.isPlain` are the statements to which declarations and expressions are lowered.
* `Parser.ReadBy` says which parser reads such a statement.
* `Parser.statement_of_ahead`: the same text is lowered to the same statements elsewhere.
-/

set_option autoImplicit false

namespace Stepwise

/-- Whether the statement is a declaration or an expression. -/
def Stmt.isPlain : Stmt → Bool
  | .declare .. | .construct .. | .array .. | .expr _ => true
  | _ => false

/-- Whether a statement that starts with the token is read as an expression, if the token is not a
name. -/
def TokenKind.opensExpression : TokenKind → Bool
  | .symbol .semicolon | .symbol .leftBrace | .symbol .if | .symbol .while | .symbol .do
  | .symbol .for | .symbol .return | .symbol .break | .symbol .continue | .symbol .using
  | .symbol .const | .type _ | .ident _ => false
  | _ => true

namespace Parser

open Stepwise.Stream (Parallel)

variable {depth : Nat} {s s' u v t : Stream} {stmts : List Stmt} {name : String}
  {text text' : Nat → String}

/-- What declarations and expressions are lowered to. -/
def Plain (stmts : List Stmt) : Prop :=
  stmts ≠ [] ∧ ∀ stmt ∈ stmts, stmt.isPlain = true

/-- A declaration or an expression with `depth` nesting levels left is read by the parser, as its
first tokens tell. -/
inductive ReadBy : Nat → Stream → Parser (List Stmt) → Prop
  | scalars {depth : Nat} {s : Stream}
      (h : s.kind.isType = true ∨ s.kind.isConst = true ∧ (s.kindAt 1).isIdent = false) :
      ReadBy depth s (scalarDeclaration (level depth))
  | named {depth : Nat} {s : Stream} {name : String} (hk : s.kind = .ident name) :
      ReadBy depth s (namedStatement (level depth) name)
  | expression {depth : Nat} {s : Stream} (hk : s.kind.opensExpression = true) :
      ReadBy depth s (expressionStatement (level depth))
  /-- `const` in front of a name is dropped, which takes a nesting level. -/
  | const {depth : Nat} {s : Stream} {p : Parser (List Stmt)} (hk : s.kind.isConst = true)
      (hnext : (s.kindAt 1).isIdent = true) (h : ReadBy depth s.advance p) :
      ReadBy (depth + 1) s (advance >>= fun _ => p)

theorem statement_of_readBy {p : Parser (List Stmt)} (h : ReadBy depth s p) :
    statement text (depth + 1) s = p s := by
  induction h with
  | @scalars depth s h =>
    rw [statement, statementBy, peek_bind]
    rcases h with htype | ⟨hconst, hnext⟩
    · cases hk : s.kind with
      | type => rfl
      | _ => rw [hk] at htype; cases htype
    · rw [TokenKind.isSymbol_iff.1 hconst]
      dsimp only
      rw [peekAt_bind, hnext]
      rfl
  | named hk => rw [statement, statementBy, peek_bind, hk]
  | @expression depth s hk =>
    rw [statement, statementBy, peek_bind]
    revert hk
    cases s.kind with
    | symbol c => cases c <;> intro hk <;> first | rfl | cases hk
    | type | ident => intro hk; cases hk
    | _ => intro _; rfl
  | @const depth s p hk hnext h ih =>
    rw [statement, statementBy, peek_bind, TokenKind.isSymbol_iff.1 hk]
    dsimp only
    rw [peekAt_bind, hnext]
    exact ih

theorem not_plain_nil : ¬Plain [] := fun h => h.1 rfl

theorem not_plain_singleton {stmt : Stmt} (h : stmt.isPlain = false) :
    ¬Plain [stmt] := fun hplain =>
  Bool.false_ne_true (h.symm.trans (hplain.2 stmt List.mem_cons_self))

theorem not_plain_ifStatement (depth : Nat) (member : Parser (List Stmt)) :
    Yields (fun stmts => ¬Plain stmts) (ifStatement (level depth) member) := by
  rw [ifStatement]
  refine yields_after fun test => yields_after fun thenBody => yields_after fun found => ?_
  split
  · exact yields_after fun elseBody => yields_pure (not_plain_singleton rfl)
  · exact yields_pure (not_plain_singleton rfl)

theorem not_plain_whileStatement (depth : Nat) (member : Parser (List Stmt)) :
    Yields (fun stmts => ¬Plain stmts) (whileStatement (level depth) member) :=
  yields_after fun _ => yields_after fun _ => yields_pure (not_plain_singleton rfl)

theorem not_plain_doStatement (depth : Nat) (member : Parser (List Stmt)) :
    Yields (fun stmts => ¬Plain stmts) (doStatement (level depth) member) :=
  yields_after fun _ => yields_after fun _ => yields_after fun _ => yields_after fun _ =>
    yields_pure (not_plain_singleton rfl)

theorem not_plain_forStatement (depth : Nat) (member : Parser (List Stmt)) :
    Yields (fun stmts => ¬Plain stmts) (forStatement (level depth) member) := by
  rw [forStatement]
  refine yields_after fun _ => yields_after fun init => yields_after fun untested => ?_
  extract_lets rest
  have hrest : ∀ test, Yields (fun stmts => ¬Plain stmts) (rest test) := by
    intro test
    refine yields_after fun _ => yields_after fun unstepped => ?_
    extract_lets loop
    have hloop : ∀ increment, Yields (fun stmts => ¬Plain stmts) (loop increment) := fun _ =>
      yields_after fun _ => yields_after fun _ => yields_pure (not_plain_singleton rfl)
    split
    · exact hloop []
    · exact yields_after hloop
  split
  · exact hrest none
  · exact yields_after fun e => hrest (some e)

theorem not_plain_returnStatement (depth : Nat) :
    Yields (fun stmts => ¬Plain stmts) (returnStatement (level depth)) := by
  rw [returnStatement]
  refine yields_after fun bare => ?_
  extract_lets rest
  have hrest : ∀ value, Yields (fun stmts => ¬Plain stmts) (rest value) := fun _ =>
    yields_after fun _ => yields_pure (not_plain_singleton rfl)
  split
  · exact hrest none
  · exact yields_after fun e => hrest (some e)

/-- Declarations and expressions are read by the parsers that are meant for them. -/
theorem readBy_of_plain : ∀ {depth : Nat} {s : Stream}, statement text depth s = .ok stmts s' →
    Plain stmts → ∃ deeper p, depth = deeper + 1 ∧ ReadBy deeper s p
  | 0, _, h, _ => nomatch h
  | depth + 1, s, h, hplain => by
    rw [statement, statementBy, peek_bind] at h
    have hother : ∀ {p : Parser (List Stmt)}, Yields (fun stmts => ¬Plain stmts) p →
        p s = .ok stmts s' → False := fun hp h => hp _ _ _ h hplain
    cases hk : s.kind with
    | symbol c =>
      rw [hk] at h
      cases c with
      | semicolon => exact (hother (yields_after fun _ => yields_pure not_plain_nil) h).elim
      | leftBrace =>
        refine (hother (yields_after fun _ => yields_after fun stmts => ?_) h).elim
        exact yields_pure (not_plain_singleton rfl)
      | «if» => exact (hother (yields_after fun _ => not_plain_ifStatement depth _) h).elim
      | «while» => exact (hother (yields_after fun _ => not_plain_whileStatement depth _) h).elim
      | «do» => exact (hother (yields_after fun _ => not_plain_doStatement depth _) h).elim
      | «for» => exact (hother (yields_after fun _ => not_plain_forStatement depth _) h).elim
      | «return» => exact (hother (yields_after fun _ => not_plain_returnStatement depth) h).elim
      | «break» | «continue» =>
        refine (hother (yields_after fun _ => yields_after fun _ => ?_) h).elim
        exact yields_pure (not_plain_singleton rfl)
      | «using» => exact (hother (yields_after fun _ => yields_pure not_plain_nil) h).elim
      | «const» =>
        cases hnext : (s.kindAt 1).isIdent with
        | false => exact ⟨depth, _, rfl, .scalars (.inr ⟨by rw [hk]; rfl, hnext⟩)⟩
        | true =>
          have hnested : statement text depth s.advance = .ok stmts s' := by
            dsimp only at h
            rwa [peekAt_bind, hnext] at h
          obtain ⟨deeper, p, rfl, hread⟩ := readBy_of_plain hnested hplain
          exact ⟨deeper + 1, _, rfl, .const (by rw [hk]; rfl) hnext hread⟩
      | _ => exact ⟨depth, _, rfl, .expression (by rw [hk]; rfl)⟩
    | type => exact ⟨depth, _, rfl, .scalars (.inl (by rw [hk]; rfl))⟩
    | ident name => exact ⟨depth, _, rfl, .named hk⟩
    | _ => exact ⟨depth, _, rfl, .expression (by rw [hk]; rfl)⟩

/-- A statement that starts with a name and yields something declares containers or is an
expression. -/
theorem namedStatement_cases (h : namedStatement (level depth) name s = .ok stmts s')
    (hne : stmts ≠ []) :
    (∃ kind, s.kindAt 1 = .symbol .less ∧
        (containerDeclaration kind : Parser (List Stmt)) s = .ok stmts s') ∨
      expressionStatement (level depth) s = .ok stmts s' ∧
        (s.kindAt 1 = .symbol .less → namesGeneric s.rest.tail = false) := by
  rw [namedStatement_apply] at h
  split at h
  · obtain ⟨_, _, -, h⟩ := bind_eq_ok h
    cases h
    exact absurd rfl hne
  · split at h
    · next hless =>
      rw [TokenKind.isSymbol_iff] at hless
      cases hkind : SequenceKind.ofTypeName? name with
      | some kind =>
        rw [hkind] at h
        exact .inl ⟨kind, hless, h⟩
      | none =>
        rw [hkind] at h
        dsimp only at h
        split at h
        · cases h
        · next hnames => exact .inr ⟨h, fun _ => eq_false_of_ne_true hnames⟩
    · next hless => exact .inr ⟨h, fun hk => absurd (TokenKind.isSymbol_iff.2 hk) hless⟩

/-! ## In two places -/

/-- The same text is read by the same parser elsewhere, with as many nesting levels left or more. -/
theorem ReadBy.elsewhere {d : Nat} {p : Parser (List Stmt)} (h : ReadBy d s p) :
    ∀ {e : Nat} {t : Stream}, d ≤ e → Parallel u v s t →
      ∃ q, ReadBy e t q ∧ Matches (fun s' t' => s' = u ∧ t' = v) s t p q := by
  induction h with
  | @scalars d s h =>
    intro e t hle hs
    refine ⟨_, .scalars ?_, alike_scalarDeclaration hle hs⟩
    rw [hs.kind]
    refine h.imp id fun ⟨hconst, hnext⟩ => ⟨hconst, ?_⟩
    rwa [hs.kindAt_one (by rw [TokenKind.isSymbol_iff.1 hconst]; nofun)]
  | @named d s name hk =>
    intro e t hle hs
    exact ⟨_, .named (hs.kind.trans hk), matches_namedStatement hle hs hk⟩
  | @expression d s hk =>
    intro e t hle hs
    exact ⟨_, .expression (hs.kind.symm ▸ hk), alike_expressionStatement hle hs⟩
  | @const d s p hk hnext h ih =>
    intro e t hle hs
    have hplain : s.kind ≠ .symbol .semicolon := by
      rw [TokenKind.isSymbol_iff.1 hk]
      nofun
    cases e with
    | zero => exact absurd hle (Nat.not_succ_le_zero d)
    | succ e =>
      obtain ⟨q, hq, hmatches⟩ := ih (Nat.le_of_succ_le_succ hle) (hs.advance hplain)
      refine ⟨_, .const ?_ ?_ hq, matches_advance hmatches⟩
      · rwa [hs.kind]
      · rwa [hs.kindAt_one hplain]

/-- What is read of a text in one place is read of it in another one. -/
theorem statement_elsewhere {d e : Nat} (hle : d ≤ e) (hs : Parallel u v s t)
    (hok : statement text d s = .ok stmts s') (hplain : Plain stmts) :
    s' = u ∧ statement text' e t = .ok stmts v := by
  obtain ⟨d, p, rfl, hread⟩ := readBy_of_plain hok hplain
  cases e with
  | zero => exact absurd hle (Nat.not_succ_le_zero d)
  | succ e =>
    rw [statement_of_readBy hread] at hok
    obtain ⟨q, hq, hmatches⟩ := hread.elsewhere (Nat.le_of_succ_le_succ hle) hs
    obtain ⟨t', ht, rfl, rfl⟩ := hmatches stmts s' hok
    exact ⟨rfl, (statement_of_readBy hq).trans ht⟩

/-! ## The semicolon -/

/-- A semicolon is among the tokens. -/
def Terminated (root : List Token) : Prop :=
  ∃ t ∈ root, t.kind = .symbol .semicolon

section Terminated

variable {root : List Token}

theorem terminated_finish (hs : s.rest <:+ root) (context : String) (stmts : List Stmt) :
    Ends s (fun _ _ => Terminated root) (fun _ => True)
      (expect .semicolon context >>= fun _ => pure stmts) := by
  refine ends_expect trivial fun hk => ends_pure ?_
  obtain ⟨t, ht, hrest⟩ := exists_cons_of_kind hk
  exact ⟨t, hs.subset (hrest ▸ List.mem_cons_self), ht⟩

theorem terminated_commaList {item : Parser Stmt} (h : Steady item) (hs : s.rest <:+ root)
    (context : String) :
    Ends s (fun _ _ => Terminated root) (fun _ => True)
      (commaList item >>= fun stmts => expect .semicolon context >>= fun _ => pure stmts) := by
  refine Ends.bind (((steady_commaList h).onward s).imp (fun _ _ h₁ => h₁) fun _ _ => trivial) ?_
  exact fun stmts s₁ h₁ => terminated_finish (h₁.2.trans hs) context stmts

theorem terminated_scalarDeclaration (depth : Nat) (s : Stream) :
    Ends s (fun _ _ => Terminated s.rest) (fun _ => True) (scalarDeclaration (level depth)) := by
  refine ends_skipWhile (ends_peek ?_)
  split
  · refine ends_skipWhile (terminated_commaList (steady_declarator depth) ?_ _)
    exact (List.dropWhile_suffix _).trans (List.dropWhile_suffix _)
  · exact ends_failHere trivial _

theorem terminated_containerDeclaration (kind : SequenceKind) (s : Stream) :
    Ends s (fun _ _ => Terminated s.rest) (fun _ => True) (containerDeclaration kind) := by
  refine ends_advance (Ends.bind ((trails_templateArguments (tail_start s).advance).imp
    (fun _ _ h₁ => h₁) fun _ _ => trivial) fun _ s₁ h₁ => ?_)
  exact terminated_commaList (steady_containerDeclarator kind) h₁.2 _

theorem terminated_expressionStatement (depth : Nat) (s : Stream) :
    Ends s (fun _ _ => Terminated s.rest) (fun _ => True) (expressionStatement (level depth)) := by
  refine Ends.bind (((steadyInner depth).expression.onward s).imp (fun _ _ h₁ => h₁)
    fun _ _ => trivial) fun e s₁ h₁ => ?_
  exact terminated_finish h₁.2 _ [.expr e]

end Terminated

/-- A declaration or an expression ends with a semicolon. -/
theorem ReadBy.terminated {p : Parser (List Stmt)} (h : ReadBy depth s p)
    (hok : p s = .ok stmts s') (hne : stmts ≠ []) : Terminated s.rest := by
  have hread : ∀ {p : Parser (List Stmt)} {s : Stream},
      Ends s (fun _ _ => Terminated s.rest) (fun _ => True) p → p s = .ok stmts s' →
        Terminated s.rest := fun h hok => by rwa [Ends, hok] at h
  induction h with
  | scalars => exact hread (terminated_scalarDeclaration _ _) hok
  | named =>
    rcases namedStatement_cases hok hne with ⟨kind, -, hok⟩ | ⟨hok, -⟩
    · exact hread (terminated_containerDeclaration kind _) hok
    · exact hread (terminated_expressionStatement _ _) hok
  | expression => exact hread (terminated_expressionStatement _ _) hok
  | const _ _ _ ih =>
    obtain ⟨t, ht, hk⟩ := ih hok
    exact ⟨t, List.mem_of_mem_tail ht, hk⟩

theorem exists_parallel (h : Terminated s.rest) : ∃ u, Parallel u u s s := by
  obtain ⟨rest, finish⟩ := s
  induction rest with
  | nil =>
    obtain ⟨t, ht, -⟩ := h
    cases ht
  | cons t ts ih =>
    by_cases hk : t.kind = .symbol .semicolon
    · have hs : Stream.Ahead ⟨t :: ts, finish⟩ [.symbol .semicolon] ⟨ts, finish⟩ := ⟨nofun, hk, rfl⟩
      exact ⟨⟨ts, finish⟩, [], nofun, hs, hs⟩
    · have hlater : Terminated ts := by
        obtain ⟨t', ht', hk'⟩ := h
        rcases List.mem_cons.1 ht' with rfl | ht'
        · exact absurd hk' hk
        · exact ⟨t', ht', hk'⟩
      obtain ⟨u, ks, hks, hs, -⟩ := ih hlater
      refine ⟨u, t.kind :: ks, fun hmem => ?_, ⟨nofun, rfl, hs⟩, ⟨nofun, rfl, hs⟩⟩
      rcases List.mem_cons.1 hmem with heq | hmem
      · exact hk heq.symm
      · exact hks hmem

theorem ahead_unique {ks ks' : List TokenKind} (h : s.Ahead ks s') (h' : s.Ahead ks' s') :
    ks = ks' := by
  obtain ⟨read, hread, rfl⟩ := Stream.ahead_iff.1 h
  obtain ⟨read', hread', rfl⟩ := Stream.ahead_iff.1 h'
  have hrest := congrArg Stream.rest (hread.symm.trans hread')
  rw [List.append_cancel_right hrest]

/-- The statements of a text that is read are those of the same text elsewhere. -/
theorem statement_of_ahead {d e : Nat} (hle : d ≤ e) {ks : List TokenKind} {t' : Stream}
    (hs : s.Ahead ks s') (ht : t.Ahead ks t') (hok : statement text d s = .ok stmts s')
    (hplain : Plain stmts) : statement text' e t = .ok stmts t' := by
  obtain ⟨d, p, rfl, hread⟩ := readBy_of_plain hok hplain
  have hp := (statement_of_readBy hread).symm.trans hok
  -- the text is read through its first semicolon
  obtain ⟨u, hsame⟩ := exists_parallel (hread.terminated hp hplain.1)
  have hend : s' = u ∧ statement text (d + 1) s = .ok stmts u :=
    statement_elsewhere (Nat.le_refl _) hsame hok hplain
  obtain ⟨rfl, -⟩ := hend
  obtain ⟨ks', hks', hs', -⟩ := hsame
  cases ahead_unique hs hs'
  exact (statement_elsewhere hle ⟨ks', hks', hs, ht⟩ hok hplain).2

end Parser

end Stepwise
