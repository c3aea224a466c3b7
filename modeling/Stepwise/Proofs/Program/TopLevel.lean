import Stepwise.Proofs.Program.Operands
import Stepwise.Proofs.Program.Plain
import Stepwise.Proofs.Program.Precedence
import Stepwise.Proofs.Program.Written

/-!
# Statements at the top level

At the top level a lookahead tells functions from statements before a statement is read.  So a
declaration or an expression that is understood in a body is lowered to the same statements at the
top level only if the lookahead does not take it for a function.

* `Stream.Parenthesized` says that a type, a name and an opening parenthesis are next, as in
  `int x(5);`.
* `Parser.looksLikeFunction_iff_parenthesized`: among the declarations and expressions that are
  understood, those are the ones which the lookahead takes for functions.
* `Parser.lowered_alike`: all others are lowered alike in both places.
-/

set_option autoImplicit false

namespace Stepwise

/-- A type is next, with `const` anywhere in it, then pointer marks, a name and an opening
parenthesis. -/
def Stream.Parenthesized (s : Stream) : Prop :=
  ∃ consts type words marks name s', (∀ k ∈ words, Parser.mayQualify k = true) ∧
    (∀ k ∈ marks, k.isPointer = true) ∧
    s.Ahead (List.replicate consts (.symbol .const) ++ .type type :: (words ++ (marks ++
      [.ident name, .symbol .leftParen]))) s'

namespace Parser

variable {depth : Nat} {s s' t : Stream} {stmts : List Stmt} {name : String}
  {text text' : Nat → String}

/-! ## Lookahead -/

/-- Any `const` in front is passed over. -/
theorem looksLikeFunction_const (hk : s.kind.isConst = true) :
    looksLikeFunction s.rest = looksLikeFunction s.advance.rest := by
  obtain ⟨t, ht, hrest⟩ := exists_cons_of_kind (TokenKind.isSymbol_iff.1 hk)
  have hend : returnTypeEnd? s.rest = returnTypeEnd? s.advance.rest := by
    rw [hrest, returnTypeEnd?, List.dropWhile_cons_of_pos (by rw [ht]; rfl), returnTypeEnd?]
  rw [looksLikeFunction, hend, looksLikeFunction]

theorem returnTypeEnd?_of_ident (hk : s.kind = .ident name) :
    returnTypeEnd? s.rest
      = if s.advance.kind.isSymbol .less then
          (templateEnd? 0 s.advance.rest).map (List.dropWhile fun t => mayQualify t.kind)
        else if s.advance.kind.isIdent then some s.advance.rest else none := by
  obtain ⟨_ | ⟨⟨k, l⟩, rest⟩, finish⟩ := s
  · cases hk
  · cases hk
    cases rest <;> rfl

/-- After a type without pointer marks there are a name and a parenthesis. -/
theorem call_of_looksLikeFunction {rest : List Token} (hend : returnTypeEnd? s.rest = some rest)
    (hmark : (nextKind rest).isPointer = false) (h : looksLikeFunction s.rest = true) :
    (nextKind rest).isIdent = true ∧ nextKind rest.tail = .symbol .leftParen := by
  rw [looksLikeFunction, hend] at h
  dsimp only at h
  rw [dropWhile_of_nextKind hmark] at h
  split at h
  · rwa [Bool.and_eq_true, TokenKind.isSymbol_iff] at h
  · cases h

/-- After a generic type that is followed by something with which an operand may start, there are a
name and a parenthesis. -/
theorem call_of_generic (hk : s.kind = .ident name) (hless : s.advance.kind = .symbol .less)
    (h : looksLikeFunction s.rest = true) :
    ∃ rest, templateEnd? 0 s.advance.rest = some rest ∧ ((nextKind rest).startsNoOperand = false →
      (nextKind rest).isIdent = true ∧ nextKind rest.tail = .symbol .leftParen) := by
  have hend := returnTypeEnd?_of_ident hk
  rw [if_pos (TokenKind.isSymbol_iff.2 hless)] at hend
  cases htemplate : templateEnd? 0 s.advance.rest with
  | none =>
    rw [looksLikeFunction, hend, htemplate] at h
    cases h
  | some rest =>
    refine ⟨rest, rfl, fun hstart => ?_⟩
    simp only [TokenKind.startsNoOperand, Bool.or_eq_false_iff] at hstart
    obtain ⟨⟨⟨hconst, htype⟩, hmark⟩, -⟩ := hstart
    rw [htemplate, Option.map_some,
      dropWhile_of_nextKind (by rw [mayQualify, hconst, htype]; rfl)] at hend
    exact call_of_looksLikeFunction hend hmark h

theorem templateArguments_eq_ok {a : Unit} (h : (templateArguments : Parser Unit) s = .ok a s') :
    ∃ rest, templateEnd? 0 s.rest = some rest ∧ s' = { s with rest } := by
  rw [templateArguments, get_bind] at h
  cases hless : s.kind.isSymbol .less with
  | false => rw [hless] at h; cases h
  | true =>
    rw [hless] at h
    cases hend : templateEnd? 0 s.rest with
    | none => rw [hend] at h; cases h
    | some rest =>
      rw [hend] at h
      cases h
      exact ⟨rest, rfl, rfl⟩

/-- The name of a container is not followed by a parenthesis. -/
theorem containerDeclarator_eq_ok {kind : SequenceKind} {stmt : Stmt}
    (h : (containerDeclarator kind : Parser Stmt) s = .ok stmt s') :
    s.kind.isIdent = true ∧ s.advance.kind ≠ .symbol .leftParen := by
  have hread : Ends s (fun _ _ => s.kind.isIdent = true ∧ s.advance.kind ≠ .symbol .leftParen)
      (fun _ => True) (containerDeclarator kind) := by
    refine ends_identifier trivial fun name hk => ends_peek ?_
    split
    · exact ends_failHere trivial _
    · next hnext =>
      refine ends_pure ⟨by rw [hk]; rfl, fun hparen => hnext ?_⟩
      rw [hparen]
      rfl
  rwa [Ends, h] at hread

/-- Where containers are declared, a name without a parenthesis comes after the type. -/
theorem containerDeclaration_eq_ok {kind : SequenceKind}
    (h : (containerDeclaration kind : Parser (List Stmt)) s = .ok stmts s') :
    ∃ rest, templateEnd? 0 s.advance.rest = some rest ∧ (nextKind rest).isIdent = true ∧
      nextKind rest.tail ≠ .symbol .leftParen := by
  rw [containerDeclaration, advance_bind] at h
  obtain ⟨_, s₁, htemplate, h⟩ := bind_eq_ok h
  obtain ⟨rest, hend, rfl⟩ := templateArguments_eq_ok htemplate
  obtain ⟨items, s₂, hitems, -⟩ := bind_eq_ok h
  rw [commaList, get_bind, commaItems] at hitems
  obtain ⟨first, s₃, hfirst, -⟩ := bind_eq_ok hitems
  have hname := containerDeclarator_eq_ok hfirst
  rw [kind_eq_nextKind, kind_eq_nextKind] at hname
  exact ⟨rest, hend, hname⟩

theorem not_function_of_container {kind : SequenceKind} (hk : s.kind = .ident name)
    (hless : s.kindAt 1 = .symbol .less)
    (h : (containerDeclaration kind : Parser (List Stmt)) s = .ok stmts s') :
    looksLikeFunction s.rest = false := by
  rw [kindAt_one] at hless
  refine eq_false_of_ne_true fun hfunction => ?_
  obtain ⟨rest, hend, hname, hnext⟩ := containerDeclaration_eq_ok h
  obtain ⟨rest', hend', hcall⟩ := call_of_generic hk (kind_eq_nextKind _ ▸ hless) hfunction
  cases hend.symm.trans hend'
  refine hnext (hcall ?_).2
  cases hkind : nextKind rest with
  | ident => rfl
  | _ => rw [hkind] at hname; cases hname

/-- A name with a name after it is no expression. -/
theorem expressionStatement_of_names (hk : s.kind = .ident name)
    (hnext : s.advance.kind.isIdent = true) :
    expressionStatement (level depth) s ≠ .ok stmts s' := by
  intro h
  obtain ⟨e, s₁, he, h⟩ := bind_eq_ok h
  cases depth with
  | zero => cases he
  | succ depth =>
    have hahead : s.Ahead [.ident name] s.advance := by
      obtain ⟨t, -, hrest⟩ := exists_cons (s := s) (by rw [hk]; nofun)
      exact ⟨by rw [hrest]; nofun, hk, rfl⟩
    cases hkind : s.advance.kind with
    | ident =>
      have hread := reads_assignment_atoms (inner depth) ⟨.ident name, _, rfl⟩ [] hahead
        (by rw [hkind]; rfl)
      cases he.symm.trans hread
      obtain ⟨_, s₂, hfinish, -⟩ := bind_eq_ok h
      rw [expect_apply, hkind] at hfinish
      cases hfinish
    | _ => rw [hkind] at hnext; cases hnext

theorem not_function_of_expression (hk : s.kind = .ident name)
    (h : expressionStatement (level depth) s = .ok stmts s')
    (hnames : s.kindAt 1 = .symbol .less → namesGeneric s.rest.tail = false) :
    looksLikeFunction s.rest = false := by
  refine eq_false_of_ne_true fun hfunction => ?_
  by_cases hless : s.advance.kind = .symbol .less
  · obtain ⟨rest, hend, hcall⟩ := call_of_generic hk hless hfunction
    have hnoname : (nextKind rest).isIdent = false := by
      have hplain := hnames (by rw [kindAt_one, ← hless, kind_eq_nextKind]; rfl)
      rw [namesGeneric_eq, show s.rest.tail = s.advance.rest from rfl, hend] at hplain
      exact hplain
    have hoperates : Operates s.advance.advance.rest :=
      operates_tail (operates_tail (operates_of_expressionStatement h) (by rw [hk]; rfl))
        (by rw [hless]; rfl)
    have hopen : templateEnd? 1 s.advance.advance.rest = some rest := by
      obtain ⟨t, ht, hrest⟩ := exists_cons_of_kind hless
      rw [hrest, templateEnd?_cons, ht] at hend
      exact hend
    have hname := (hcall (hoperates.nextKind Int.one_pos hopen)).1
    exact Bool.false_ne_true (hnoname.symm.trans hname)
  · have hend := returnTypeEnd?_of_ident hk
    rw [if_neg fun hc => hless (TokenKind.isSymbol_iff.1 hc)] at hend
    split at hend
    · next hnext => exact expressionStatement_of_names hk hnext h
    · rw [looksLikeFunction, hend] at hfunction
      cases hfunction

theorem not_function_of_opensExpression (hk : s.kind.opensExpression = true) :
    looksLikeFunction s.rest = false := by
  have hend : returnTypeEnd? s.rest = none := by
    obtain ⟨_ | ⟨⟨k, l⟩, rest⟩, finish⟩ := s
    · rfl
    · cases k with
      | symbol c => cases c <;> first | rfl | cases hk
      | type | ident => cases hk
      | _ => rfl
  rw [looksLikeFunction, hend]

/-! ## Names in parentheses -/

theorem looksLikeFunction_of_parenthesized (h : s.Parenthesized) :
    looksLikeFunction s.rest = true := by
  obtain ⟨consts, type, words, marks, name, s', hwords, hmarks, hs⟩ := h
  rw [List.append_cons] at hs
  obtain ⟨s₁, h₁, h₂⟩ := Stream.ahead_append.1 hs
  obtain ⟨s₂, h₂, h₃⟩ := Stream.ahead_append.1 h₂
  have hend := returnTypeEnd?_of_type (.scalars type []) nofun h₁
  obtain ⟨hconst, htype, -⟩ := isOther_of_pointer_or_ident (kind_of_marks hmarks h₃)
  rw [h₂.dropWhile hwords (by rw [mayQualify, hconst, htype]; rfl)] at hend
  exact looksLikeFunction_of_end hend hmarks h₃

theorem parenthesized_const (hk : s.kind.isConst = true) (h : s.advance.Parenthesized) :
    s.Parenthesized := by
  obtain ⟨consts, type, words, marks, name, s', hwords, hmarks, hs⟩ := h
  refine ⟨consts + 1, type, words, marks, name, s', hwords, hmarks, ?_⟩
  rw [List.replicate_succ]
  obtain ⟨t, -, hrest⟩ := exists_cons_of_kind (TokenKind.isSymbol_iff.1 hk)
  exact ⟨by rw [hrest]; nofun, TokenKind.isSymbol_iff.1 hk, hs⟩

/-- Scalars that are taken for a function have a name with a parenthesis. -/
theorem parenthesized_of_scalars (h : scalarDeclaration (level depth) s = .ok stmts s')
    (hfunction : looksLikeFunction s.rest = true) : s.Parenthesized := by
  obtain ⟨ks, s₁, h₁, -, hks, hstop⟩ := s.exists_ahead_dropWhile TokenKind.isConst rfl
  rw [scalarDeclaration, bind_of_ok (skipWhile_of_ahead h₁ hks hstop), peek_bind] at h
  have hconsts : ks = List.replicate ks.length (.symbol .const) :=
    List.eq_replicate_iff.2 ⟨rfl, fun k hk => TokenKind.isSymbol_iff.1 (hks k hk)⟩
  cases hkind : s₁.kind with
  | type type =>
    obtain ⟨t, -, hrest⟩ := exists_cons (s := s₁) (by simp [hkind])
    have htype : s.Ahead (List.replicate ks.length (.symbol .const) ++ [.type type]) s₁.advance :=
      Stream.ahead_append.2 ⟨s₁, hconsts ▸ h₁, by simp [hrest], hkind, rfl⟩
    obtain ⟨words, s₂, h₂, hdrop, hwords, -⟩ := s₁.advance.exists_ahead_dropWhile mayQualify rfl
    rw [looksLikeFunction, returnTypeEnd?_of_type (.scalars type []) (by simp) htype] at hfunction
    obtain ⟨marks, name, s₃, hmarks, h₃⟩ := exists_marks hdrop hfunction
    refine ⟨ks.length, type, words, marks, name, s₃, hwords, hmarks, ?_⟩
    rw [List.append_cons]
    exact Stream.ahead_append.2 ⟨_, htype, Stream.ahead_append.2 ⟨s₂, h₂, h₃⟩⟩
  | _ =>
    rw [hkind] at h
    cases h

/-- **What is taken for a function.**  Of the declarations and expressions that are understood, it
is the declarations of scalars in which a parenthesis follows the first name. -/
theorem looksLikeFunction_iff_parenthesized {p : Parser (List Stmt)} (h : ReadBy depth s p)
    (hok : p s = .ok stmts s') (hne : stmts ≠ []) :
    looksLikeFunction s.rest = true ↔ s.Parenthesized := by
  refine ⟨fun hfunction => ?_, looksLikeFunction_of_parenthesized⟩
  have hnot : ∀ {s : Stream}, looksLikeFunction s.rest = false → looksLikeFunction s.rest = true →
      s.Parenthesized := fun hno hyes => absurd (hno.symm.trans hyes) Bool.false_ne_true
  induction h with
  | scalars => exact parenthesized_of_scalars hok hfunction
  | named hk =>
    rcases namedStatement_cases hok hne with ⟨kind, hless, hok⟩ | ⟨hok, hnames⟩
    · exact hnot (not_function_of_container hk hless hok) hfunction
    · exact hnot (not_function_of_expression hk hok hnames) hfunction
  | expression hk => exact hnot (not_function_of_opensExpression hk) hfunction
  | const hk _ _ ih =>
    rw [looksLikeFunction_const hk] at hfunction
    exact parenthesized_const hk (ih hok hfunction)

/-- A declaration or an expression does not start with a closing brace. -/
theorem ReadBy.not_rightBrace {p : Parser (List Stmt)} (h : ReadBy depth s p)
    (hok : p s = .ok stmts s') : s.kind.isSymbol .rightBrace = false := by
  cases h with
  | scalars h =>
    cases hk : s.kind with
    | symbol c =>
      rcases h with htype | ⟨hconst, -⟩
      · rw [hk] at htype
        cases htype
      · rw [← hk, TokenKind.isSymbol_iff.1 hconst]
        rfl
    | _ => rfl
  | named hk => rw [hk]; rfl
  | expression =>
    refine eq_false_of_ne_true fun hbrace => ?_
    have hfails : Ends s (fun _ _ => False) (fun _ => True) (expressionStatement (level depth)) :=
      (fails_expression_of (by rw [TokenKind.isSymbol_iff.1 hbrace]; rfl) depth).bind
        fun _ _ => False.elim
    rwa [Ends, hok] at hfails
  | const hk => rw [TokenKind.isSymbol_iff.1 hk]; rfl

/-! ## The top level -/

/-- What is taken for a function is not lowered to declarations and expressions. -/
theorem topLevel_of_function {member : Parser (List Stmt)} {p : Program}
    (hbrace : s.kind.isSymbol .rightBrace = false) (hfunction : looksLikeFunction s.rest = true)
    (marker : Stmt) (hplain : Plain stmts) :
    (topLevel text member p s).1.body ≠ p.body ++ marker :: stmts := by
  have hgrows : p.body ≠ p.body ++ marker :: stmts := by simp
  rw [topLevel, if_neg (Bool.eq_false_iff.1 hbrace), if_pos hfunction]
  split
  · exact hgrows
  · exact hgrows
  · next e _ _ =>
    intro hbody
    have hstmts := (List.cons.inj (List.append_cancel_left hbody)).2
    rw [← hstmts] at hplain
    exact not_plain_singleton rfl hplain

/-- **A declaration or an expression is lowered alike in a body and at the top level,** where the
same text stands: to the same statements behind a marker with the same line text.  The declarations
in which a parenthesis follows the first name are the only exception. -/
theorem lowered_alike (hdepth : depth ≤ maxNesting) {ks : List TokenKind} {t' : Stream}
    (hs : s.Ahead ks s') (ht : t.Ahead ks t') (hline : text' t.location.line = text s.location.line)
    (hok : statement text depth s = .ok stmts s') (hplain : Plain stmts) :
    recovered text (statement text depth) s
        = .ok (.line ⟨s.location.line, text s.location.line⟩ :: stmts) s' ∧
      (∀ p, topLevel text' (recovered text' (statement text' maxNesting)) p t
          = ({ p with
              body := p.body ++ .line ⟨t.location.line, text s.location.line⟩ :: stmts }, t')
        ↔ ¬t.Parenthesized) ∧
      (¬t.Parenthesized → t'.rest = [] → ∀ tokens, Stream.ofTokens tokens = t →
        Program.ofTokens text' tokens
          = { body := .line ⟨t.location.line, text s.location.line⟩ :: stmts }) := by
  have hread : statement text' maxNesting t = .ok stmts t' :=
    statement_of_ahead hdepth hs ht hok hplain
  obtain ⟨d, q, hd, hby⟩ := readBy_of_plain hread hplain
  have hq := hread
  rw [hd, statement_of_readBy hby] at hq
  have hbrace := hby.not_rightBrace hq
  have hfunction := looksLikeFunction_iff_parenthesized hby hq hplain.1
  obtain ⟨stmt, others, rfl⟩ := List.exists_cons_of_ne_nil hplain.1
  have hmember : recovered text' (statement text' maxNesting) t
      = .ok (.line ⟨t.location.line, text s.location.line⟩ :: stmt :: others) t' := by
    rw [recovered_of_ok hread, Stream.marker, hline]
  have hstep : ¬t.Parenthesized → ∀ p,
      topLevel text' (recovered text' (statement text' maxNesting)) p t
        = ({ p with body := p.body ++ .line ⟨t.location.line, text s.location.line⟩ ::
              stmt :: others }, t') := fun h p =>
    topLevel_statement hbrace (eq_false_of_ne_true fun hyes => h (hfunction.1 hyes)) hmember
  refine ⟨recovered_of_ok hok, fun p => ⟨fun htop h => ?_, fun h => hstep h p⟩, ?_⟩
  · exact topLevel_of_function hbrace (hfunction.2 h) _ hplain
      (congrArg (fun r => r.1.body) htop)
  · intro h hend tokens htokens
    have hne : t.rest ≠ [] := by
      obtain ⟨semicolon, hmem, -⟩ := hby.terminated hq hplain.1
      exact List.ne_nil_of_mem hmem
    rw [Program.ofTokens, htokens, topLevels_step hne (hstep h {}), topLevels_end hend]
    rfl

/-- The tokens of `const int x = 5;`. -/
def constantTokens : List TokenKind :=
  [.symbol .const, .type "int", .ident "x", .symbol .assign, .int 5, .symbol .semicolon]

/-- A constant that is declared at the end of a block and at the top level. -/
theorem lowered_alike_constant :
    let text : Nat → String := fun _ => "const int x = 5;"
    let stmts : List Stmt := [.declare "x" (some (.literal (.int 5)))]
    let s := streamOf (constantTokens ++ [.symbol .rightBrace])
    let t := streamOf constantTokens
    statement text 3 s = .ok stmts (streamOf [.symbol .rightBrace]) ∧ Plain stmts ∧
      ¬t.Parenthesized ∧
      recovered text (statement text 3) s
        = .ok (.line ⟨1, "const int x = 5;"⟩ :: stmts) (streamOf [.symbol .rightBrace]) ∧
      Program.ofTokens text (t.rest ++ [⟨.eof, .start⟩])
        = { body := .line ⟨1, "const int x = 5;"⟩ :: stmts } := by
  intro text stmts s t
  have hok : statement text 3 s = .ok stmts (streamOf [.symbol .rightBrace]) := rfl
  have hplain : Plain stmts := ⟨nofun, by simp [stmts, Stmt.isPlain]⟩
  have hs : s.Ahead constantTokens (streamOf [.symbol .rightBrace]) :=
    Stream.ahead_iff.2 ⟨t.rest, rfl, rfl⟩
  have hnot : ¬t.Parenthesized := fun h => by
    have hfunction := looksLikeFunction_of_parenthesized h
    cases hfunction
  have hline : text t.location.line = text s.location.line := rfl
  obtain ⟨hbody, -, hprogram⟩ := lowered_alike (by decide) hs (ahead_streamOf constantTokens) hline
    hok hplain
  exact ⟨hok, hplain, hnot, hbody, hprogram hnot rfl _ rfl⟩

/-- The tokens of `int x(5);`. -/
def parenthesizedTokens : List TokenKind :=
  [.type "int", .ident "x", .symbol .leftParen, .int 5, .symbol .rightParen, .symbol .semicolon]

/-- **A declaration that is lowered in a body is dropped at the top level,** where it is taken for
the prototype of a function. -/
theorem lowered_differently :
    let text : Nat → String := fun _ => "int x(5);"
    let stmts : List Stmt := [.declare "x" (some (.literal (.int 5)))]
    let s := streamOf parenthesizedTokens
    Plain stmts ∧
      recovered text (statement text maxNesting) s
        = .ok (.line ⟨1, "int x(5);"⟩ :: stmts) (streamOf []) ∧
      Program.ofTokens text (s.rest ++ [⟨.eof, .start⟩]) = {} :=
  ⟨⟨nofun, by simp [Stmt.isPlain]⟩, rfl, rfl⟩

end Parser

end Stepwise
